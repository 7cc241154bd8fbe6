import MarkupText.Flow.Insert
import MarkupText.Proofs.Buffer.Run

/-!
# The flow edits only spaces

Inserting a text appends its visible characters, replaces spaces and does nothing else to the buffer
(`Page.flow_insert`); of the layout only the kind of what was written last changes
(`Page.layout_insert`). The one place where more than the end of the buffer changes is
`foldLine`: each of its rounds replaces the spaces around a cut (`splitLine_eq`).
-/

namespace MarkupText

open Text

namespace Buffer
variable {b : Buffer}

theorem text_eq_currentLine (b : Buffer) :
    ∃ l, b.text = l ++ b.currentLine ∧ l.size = b.lineStart := by
  have h : b.text = b.text.rdropWhile (· != '\n') ++ b.currentLine :=
    (List.rdropWhile_append_rtakeWhile (p := (· != '\n'))).symm
  refine ⟨_, h, ?_⟩
  rw [lineStart, Buffer.size]
  conv_rhs => rw [h, size_append]
  exact (Nat.add_sub_cancel ..).symm

end Buffer

namespace Page
variable {R : RangeRule} {rules : LineBreak.Rules} {p q : Page} {t u : Text}

/-- Splitting a line drops nothing but spaces. -/
theorem splitLine_eq (line : Text) (pos : Nat) :
    ∃ k, line = (splitLine line pos).1 ++ spaces k ++ (splitLine line pos).2 := by
  obtain ⟨u, hu, hu'⟩ := dropEndWhile_append (· == ' ') (line.take pos)
  obtain ⟨v, hv, hv'⟩ := dropWhile_append (· == ' ') (line.drop pos)
  have huv : u ++ v = spaces (u ++ v).length := eq_spaces fun c hc =>
    (List.mem_append.1 hc).elim (hu' c) (hv' c)
  refine ⟨(u ++ v).length, ?_⟩
  rw [← huv]
  calc line = line.take pos ++ line.drop pos := (List.take_append_drop ..).symm
    _ = (dropEndWhile (· == ' ') (line.take pos) ++ u) ++
        (v ++ (line.drop pos).dropWhile (· == ' ')) := by rw [← hu, ← hv]
    _ = _ := by simp only [splitLine, List.append_assoc]

/-- One round of folding replaces the spaces around the cut by a line end and the indentation. -/
theorem flow_cutLine (b : Buffer) (pos indentation : Nat) :
    Buffer.Flow [] b (b.splice (b.lineStart + (splitLine b.currentLine pos).1.size)
      (b.currentLine.size - (splitLine b.currentLine pos).1.size -
        (splitLine b.currentLine pos).2.size) ('\n' :: spaces indentation)) := by
  obtain ⟨l, hl, hstart⟩ := b.text_eq_currentLine
  obtain ⟨k, hk⟩ := splitLine_eq b.currentLine pos
  generalize splitLine b.currentLine pos = cut at hk
  have hremoved : b.currentLine.size - cut.1.size - cut.2.size = k := by
    rw [hk]; simp only [size_append, size_spaces]; omega
  have hblank : ∀ c ∈ '\n' :: spaces indentation, ¬ Shown c := fun c hc => by
    rcases List.mem_cons.1 hc with rfl | hc
    · decide
    · rw [List.eq_of_mem_replicate hc]
      decide
  rw [hremoved, ← hstart, ← size_append]
  exact .splice (r := cut.2) (by rw [hl, List.append_assoc, List.append_assoc,
    ← List.append_assoc cut.1, ← hk]) hblank

theorem flow_foldLine (indentation width : Nat) (b : Buffer) :
    Buffer.Flow [] b (foldLine rules indentation width b) := by
  fun_induction foldLine rules indentation width b with
  | case1 b h => exact .refl b
  | case2 b line h hnone => exact .refl b
  | case3 b line h pos hpos left right hsplit hempty => exact b.flow_trimSpaces
  | case4 b line h pos hpos left right hsplit hne b' hlt ih =>
    have hcut := flow_cutLine b pos indentation
    rw [show splitLine b.currentLine pos = (left, right) from hsplit] at hcut
    exact hcut.nil_trans ih
  | case5 b line h pos hpos left right hsplit hne b' hlt =>
    have hcut := flow_cutLine b pos indentation
    rwa [show splitLine b.currentLine pos = (left, right) from hsplit] at hcut

/-- The page `q` comes from `p` by writing the visible characters `t`; the layout stays. -/
structure Pours (t : Text) (p q : Page) : Prop where
  flow : Buffer.Flow t p.buffer q.buffer
  layout : q.layout = p.layout

/-- The same, seen as a run of edits. -/
structure Writes (R : RangeRule) (t : Text) (p q : Page) : Prop where
  run : Buffer.Run R t p.buffer q.buffer
  layout : q.layout = p.layout

namespace Pours

theorem refl (p : Page) : Pours [] p p := ⟨.refl _, rfl⟩

theorem trans {p q r : Page} (h₁ : Pours t p q) (h₂ : Pours u q r) : Pours (t ++ u) p r :=
  ⟨h₁.flow.trans h₂.flow, h₂.layout.trans h₁.layout⟩

theorem nil_trans {p q r : Page} (h₁ : Pours [] p q) (h₂ : Pours t q r) : Pours t p r :=
  h₁.trans h₂

theorem trans_nil {p q r : Page} (h₁ : Pours t p q) (h₂ : Pours [] q r) : Pours t p r :=
  ⟨h₁.flow.trans_nil h₂.flow, h₂.layout.trans h₁.layout⟩

theorem onBuffer {f : Buffer → Buffer} (h : Buffer.Flow t p.buffer (f p.buffer)) :
    Pours t p (p.onBuffer f) :=
  ⟨h, rfl⟩

theorem writes (h : Pours t p q) : Writes R t p q := ⟨h.flow.run, h.layout⟩

end Pours

theorem pours_indent (p : Page) : Pours [] p p.indent := by
  unfold indent
  split
  · exact .onBuffer (.push_blank _ (visible_spaces _))
  · exact .refl p

theorem writes_indent (p : Page) : Writes R [] p p.indent := (pours_indent p).writes

theorem pours_space (p : Page) : Pours [] p p.space := by
  unfold space
  split
  · exact .refl p
  · exact .onBuffer (.push_blank _ (visible_spaces 1))

/-- A space that is unwanted stands at the end of the text. -/
theorem text_of_spaceUnwanted {c : Char} (h : p.spaceUnwanted rules c = true) :
    ∃ l : Text, p.buffer.text = l ++ spaces 1 ++ [] ∧ p.buffer.size - 1 = l.size := by
  obtain ⟨l, hl, -⟩ := p.buffer.text_eq_currentLine
  unfold spaceUnwanted dropLast? at h
  split at h
  · cases h
  · rename_i line hline
    split at hline
    · rename_i hlast
      obtain ⟨line', hline'⟩ := List.getLast?_eq_some_iff.1 hlast
      have htext : p.buffer.text = (l ++ line') ++ spaces 1 ++ [] := by
        rw [hl, hline']; simp [spaces]
      exact ⟨_, htext, by rw [Buffer.size, htext]; simp⟩
    · cases hline

theorem pours_dropSpace {c : Char} (h : p.spaceUnwanted rules c = true) :
    Pours [] p (p.onBuffer fun b => b.splice (b.size - 1) 1 []) := by
  obtain ⟨l, htext, hpos⟩ := text_of_spaceUnwanted h
  refine .onBuffer ?_
  rw [hpos]
  exact .splice htext fun _ hc => by cases hc

theorem pours_placeWord (p : Page) (spaceBefore : Bool) (word : Text) :
    Pours word.visible p (p.placeWord rules spaceBefore word) := by
  have hspace : Pours [] p.indent (if spaceBefore then p.indent.space else p.indent) := by
    split
    · exact pours_space _
    · exact .refl _
  unfold placeWord
  dsimp only
  generalize (if spaceBefore then p.indent.space else p.indent) = q at hspace ⊢
  refine ((pours_indent p).nil_trans hspace).nil_trans ?_
  have hput (q : Page) : Pours word.visible q (q.onBuffer fun b =>
      foldLine rules q.layout.indentation q.layout.width (b.push word)) :=
    .onBuffer ((Buffer.Flow.push _ word).trans_nil (flow_foldLine ..))
  cases word with
  | nil => exact hput q
  | cons c w =>
    by_cases h : q.spaceUnwanted rules c = true
    · simp only [if_pos h]
      exact (pours_dropSpace h).nil_trans (hput _)
    · simp only [if_neg h]
      exact hput q

theorem layout_placeWord (rules : LineBreak.Rules) (p : Page) (spaceBefore : Bool) (word : Text) :
    (p.placeWord rules spaceBefore word).layout = p.layout :=
  (pours_placeWord p spaceBefore word).layout

theorem writes_placeWord (p : Page) (spaceBefore : Bool) (word : Text) :
    Writes R word.visible p (p.placeWord rules spaceBefore word) :=
  (pours_placeWord p spaceBefore word).writes

theorem pours_placeWords (rules : LineBreak.Rules) (ws : List Text) (p : Page)
    (spaceBefore : Bool) :
    Pours (visible ws.flatten) p (p.placeWords rules spaceBefore ws) := by
  induction ws generalizing p spaceBefore with
  | nil => exact .refl p
  | cons w ws ih =>
    rw [List.flatten_cons, visible_append]
    exact (pours_placeWord p spaceBefore w).trans (ih _ true)

theorem pours_insertWrapped (p : Page) (t : Text) :
    Pours t.visible p (p.insertWrapped rules t) := by
  have h := pours_placeWords rules t.words p ((t.head?.map isBlank).getD false)
  rw [flatten_words, visible_visible] at h
  unfold insertWrapped
  dsimp only
  split
  · exact h.trans_nil (pours_space _)
  · exact h

theorem pours_pushRow (p : Page) (row : Text) : Pours row.visible p (p.pushRow row) := by
  unfold pushRow
  split
  · rename_i h
    rw [List.isEmpty_iff.1 h]
    exact .refl p
  · exact (pours_indent p).nil_trans (.onBuffer (.push _ row))

theorem pours_insertVerbatim (p : Page) (t : Text) :
    Pours t.visible p (p.insertVerbatim t) := by
  have hrows (rows : List Text) (p : Page) : Pours (visible rows.flatten) p
      (rows.foldl (fun p row => (p.onBuffer (·.push ['\n'])).pushRow row) p) := by
    induction rows generalizing p with
    | nil => exact .refl p
    | cons row rows ih =>
      rw [List.flatten_cons, visible_append]
      have hline : Pours [] p (p.onBuffer (·.push ['\n'])) :=
        .onBuffer (.push_blank _ (visible_newline []))
      exact (hline.nil_trans (pours_pushRow _ row)).trans (ih _)
  rw [← visible_flatten_rows t, insertVerbatim]
  split
  · rename_i h
    rw [h]
    exact .refl p
  · rename_i row rows h
    rw [h, List.flatten_cons, visible_append]
    exact (pours_pushRow p row).trans (hrows rows _)

/-- The page on which a text is inserted: after an image placeholder anything visible starts a new
line. -/
def freshFor (t : Text) (p : Page) : Page :=
  if p.layout.kind = .image && !t.blank && !p.buffer.atLineStart then p.onBuffer (·.newline) else p

theorem pours_freshFor (t : Text) (p : Page) : Pours [] p (p.freshFor t) := by
  unfold freshFor
  split
  · exact .onBuffer p.buffer.flow_newline
  · exact .refl p

/-- What an insertion does before it notes the kind of what was written. -/
theorem insert_eq (rules : LineBreak.Rules) (p : Page) (t : Text) :
    ∃ q, Pours t.visible (p.freshFor t) q ∧
      p.insert rules t = if t.blank then q else q.onLayout ({ · with kind := .text }) := by
  unfold insert
  split
  · rename_i h
    rw [List.isEmpty_iff.1 h]
    refine ⟨p, ?_, rfl⟩
    rw [freshFor, show Text.blank [] = true from rfl, Bool.not_true, Bool.and_false, Bool.false_and,
      if_neg Bool.false_ne_true]
    exact .refl p
  · refine ⟨_, ?_, rfl⟩
    rw [← freshFor]
    split
    · exact pours_insertVerbatim _ t
    · exact pours_insertWrapped _ t

theorem buffer_insert (rules : LineBreak.Rules) (p : Page) (t : Text) :
    (p.insert rules t).buffer = if t.isEmpty then p.buffer
      else match p.layout.fold with
        | .verbatim => ((p.freshFor t).insertVerbatim t).buffer
        | .wrap => ((p.freshFor t).insertWrapped rules t).buffer := by
  have hlayout := (pours_freshFor t p).layout
  unfold insert
  split
  · rfl
  · rw [← freshFor]
    dsimp only
    rw [hlayout]
    split <;> cases p.layout.fold <;> rfl

theorem flow_insert (rules : LineBreak.Rules) (p : Page) (t : Text) :
    Buffer.Flow t.visible p.buffer (p.insert rules t).buffer := by
  obtain ⟨q, hq, h⟩ := insert_eq rules p t
  have hflow := ((pours_freshFor t p).nil_trans hq).flow
  rw [h]
  split <;> exact hflow

theorem run_insert (rules : LineBreak.Rules) (p : Page) (t : Text) :
    Buffer.Run R t.visible p.buffer (p.insert rules t).buffer :=
  (flow_insert rules p t).run

theorem layout_insert (rules : LineBreak.Rules) (p : Page) (t : Text) :
    (p.insert rules t).layout = if t.blank then p.layout else { p.layout with kind := .text } := by
  obtain ⟨q, hq, h⟩ := insert_eq rules p t
  rw [h, ← ((pours_freshFor t p).nil_trans hq).layout]
  split <;> rfl

end Page
end MarkupText
