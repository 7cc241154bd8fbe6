import MarkupText.Proofs.Buffer.LineEnds
import MarkupText.Proofs.Flow.Run
import MarkupText.Proofs.Text.Words

/-!
# The space behind a label

A label ends with a space, and a line that ends with a label counts as fresh. `Buffer.SpacedLabel`
says that the space is still there then: it goes only where the line of the label ends, and then
something stands behind the label. Requests for a line or a paragraph keep to that, and so does a
text that is inserted (`Page.spacedLabel_insert`).
-/

namespace MarkupText
open Text

namespace Buffer
variable {b c : Buffer} {t u : Text} {n : Nat}

/-- The last label ends in front of a character that is no space, or among the spaces at the end of
the line it stands on. -/
def SpacedLabel (b : Buffer) : Prop :=
  ∀ n ∈ b.labelEnd, n < b.trimSpaces.size ∨
    b.trimSpaces.size < n ∧ n ≤ b.size ∧ ∃ d ∈ b.trimSpaces.text.getLast?, d ≠ '\n'

theorem trimSpaces_text_congr (h : c.text = b.text) : c.trimSpaces.text = b.trimSpaces.text := by
  rw [text_trimSpaces, text_trimSpaces, h]

theorem text_trimSpaces_of_last (h : ∀ d ∈ b.text.getLast?, d ≠ ' ') :
    b.trimSpaces.text = b.text := by
  rw [text_trimSpaces]
  rcases List.eq_nil_or_concat' b.text with hnil | ⟨t, d, htext⟩
  · rw [hnil]
    rfl
  · rw [htext] at h ⊢
    exact List.rdropWhile_concat_neg _ _ _ (by simpa using h d (by simp))

theorem text_trimSpaces_push_spaces (b : Buffer) (n : Nat) :
    (b.push (spaces n)).trimSpaces.text = b.trimSpaces.text := by
  rw [text_trimSpaces, text_trimSpaces, text_push, dropEndWhile, List.reverse_append,
    List.dropWhile_append_of_pos fun c hc => by
      rw [List.eq_of_mem_replicate (List.mem_reverse.1 hc)]; rfl]
  rfl

theorem size_trimSpaces_le (b : Buffer) : b.trimSpaces.size ≤ b.size := by
  obtain ⟨u, hu⟩ := b.text_trimSpaces_prefix
  rw [Buffer.size, Buffer.size, ← hu, size_append]
  exact Nat.le_add_right ..

/-- What is appended, unless it is spaces, stands behind all there was. -/
theorem size_lt_trimSpaces_push (h : ∃ d ∈ t, d ≠ ' ') : b.size < (b.push t).trimSpaces.size := by
  obtain ⟨d, hd, hne⟩ := h
  have hkept : t.reverse.dropWhile (· == ' ') ≠ [] := fun hnil =>
    hne (by simpa using List.dropWhile_eq_nil_iff.1 hnil d (List.mem_reverse.2 hd))
  have htext : (b.push t).trimSpaces.text = b.text ++ dropEndWhile (· == ' ') t := by
    rw [text_trimSpaces, text_push, dropEndWhile, List.reverse_append, List.dropWhile_append,
      if_neg (by simpa using hkept), List.reverse_append, List.reverse_reverse]
    rfl
  have hsize := mt size_eq_zero_iff.1
    (show dropEndWhile (· == ' ') t ≠ [] from mt List.reverse_eq_nil_iff.1 hkept)
  rw [Buffer.size, Buffer.size, htext, size_append]
  omega

namespace SpacedLabel

theorem empty : SpacedLabel {} := fun _ hn => by cases hn

theorem of_eq (hb : b.SpacedLabel) (htext : c.text = b.text) (hlabel : c.labelEnd = b.labelEnd) :
    c.SpacedLabel := by
  intro n hn
  have h := hb n (hlabel ▸ hn)
  rwa [Buffer.size, Buffer.size, trimSpaces_text_congr htext, htext]

theorem le_size (hb : b.SpacedLabel) (hn : n ∈ b.labelEnd) : n ≤ b.size := by
  have := b.size_trimSpaces_le
  rcases hb n hn with h | h <;> omega

/-- A line that ends with a label ends with its space. -/
theorem getLast? (hb : b.SpacedLabel) (h : b.atLabelEnd = true) : b.text.getLast? = some ' ' := by
  have hle := b.size_trimSpaces_le
  have hlt : b.trimSpaces.size < b.size := by
    rcases hb b.size (eq_of_beq h) with h | h <;> omega
  by_contra hlast
  have htrim := text_trimSpaces_of_last (b := b) fun d hd hd' => hlast (hd' ▸ hd)
  rw [Buffer.size, Buffer.size, htrim] at hlt
  exact Nat.lt_irrefl _ hlt

theorem push (hb : b.SpacedLabel) (t : Text) : (b.push t).SpacedLabel := by
  intro n hn
  have hle := hb.le_size hn
  by_cases h : ∃ d ∈ t, d ≠ ' '
  · exact .inl (Nat.lt_of_le_of_lt hle (size_lt_trimSpaces_push h))
  · have ht : t = spaces t.length := eq_spaces fun d hd => by
      by_contra hne
      exact h ⟨d, hd, by simpa using hne⟩
    rw [Buffer.size, Buffer.size, ht, text_trimSpaces_push_spaces, text_push, size_append]
    exact (hb n hn).imp_right fun h => ⟨h.1, Nat.le_add_right_of_le h.2.1, h.2.2⟩

theorem pushLabel (b : Buffer) (h : ∀ d ∈ t.getLast?, isBlank d = false) (ht : t ≠ []) :
    (b.pushLabel (t ++ [' '])).SpacedLabel := by
  obtain ⟨t, d, rfl⟩ := (List.eq_nil_or_concat' t).resolve_left ht
  have hd := shown_of_not_blank (h d (by simp))
  have htrim : (b.pushLabel (t ++ [d] ++ [' '])).trimSpaces.text = b.text ++ (t ++ [d]) := by
    have hpush := trimSpaces_text_congr (b := (b.push (t ++ [d])).push (spaces 1))
      (c := b.pushLabel (t ++ [d] ++ [' '])) (by simp [Buffer.pushLabel, spaces])
    rw [hpush, text_trimSpaces_push_spaces, text_trimSpaces_of_last (by simpa using hd.1)]
    rfl
  intro n hn
  have hn : n = (b.push (t ++ [d] ++ [' '])).size := (Option.some.inj hn).symm
  refine .inr ⟨?_, Nat.le_of_eq hn, d, ?_, hd.2⟩
  · rw [hn, Buffer.size, htrim, size_push, size_append, size_append _ [' ']]
    exact Nat.add_lt_add_left (Nat.lt_add_of_pos_right (by decide)) _
  · rw [htrim]
    simp

/-- What shows something stands behind the label. -/
theorem flow (hb : b.SpacedLabel) (h : Flow t b c) (ht : t ≠ []) : c.SpacedLabel := by
  obtain ⟨σ, τ, hmoves⟩ := h.moves
  have hrun : Run RangeRule.tight t b c := h.run
  intro n hn
  rw [hmoves.labelEnd] at hn
  obtain ⟨m, hm, rfl⟩ := Option.map_eq_some_iff.1 hn
  have hle := hb.le_size hm
  have hrank : c.text.seen (τ m) = b.text.seen m := hmoves.rank_stop shown_of_visible hle
  refine .inl (Nat.lt_of_not_le fun hge => ?_)
  -- behind the trimmed text nothing more is seen
  obtain ⟨v, htext, hv⟩ := dropEndWhile_append (· == ' ') c.text
  rw [← text_trimSpaces] at htext
  have hblank : v.visible = [] := visible_eq_nil_iff.2 fun d hd => by
    rw [eq_of_beq (hv d hd)]
    exact isBlank_space
  have hall : c.text.seen c.trimSpaces.size = c.text.visible.length := by
    rw [Buffer.size]
    conv_lhs => rw [htext]
    rw [seen_size, htext, visible_append, hblank, List.append_nil]
  have hseen := seen_mono c.text hge
  have hfront := seen_le_length b.text m
  have hlength := congrArg List.length hrun.visible
  have hpos := List.length_pos_iff.2 ht
  rw [List.length_append] at hlength
  omega

theorem newline (hb : b.SpacedLabel) : b.newline.SpacedLabel := by
  obtain ⟨σ, τ, hmoves⟩ := b.flow_trimSpaces.moves
  intro n hn
  have hn : n ∈ b.trimSpaces.labelEnd := hn
  rw [hmoves.labelEnd] at hn
  obtain ⟨m, hm, rfl⟩ := Option.map_eq_some_iff.1 hn
  exact .inl (Nat.lt_of_le_of_lt (hmoves.stop_le (hb.le_size hm))
    (size_lt_trimSpaces_push ⟨'\n', by simp, by decide⟩))

/-- Where nothing but spaces stands on the line, the label stands on another one. -/
theorem trimSpaces (hb : b.SpacedLabel) (h : b.atLineStart = true) :
    b.trimSpaces.SpacedLabel := by
  obtain ⟨k, htext, htrim⟩ := b.trimSpaces_eq
  have hsplice := splice_eq (r := []) (htext.trans (List.append_nil _).symm) []
  rw [size_spaces, ← htrim, ← text_trimSpaces] at hsplice
  have htwice : b.trimSpaces.trimSpaces.text = b.trimSpaces.text :=
    text_trimSpaces_of_last fun d hd hspace => by
      rw [text_trimSpaces] at hd
      exact absurd (not_of_getLast?_dropEndWhile hd) (by simp [hspace])
  intro n hn
  rw [congrArg Buffer.labelEnd hsplice] at hn
  obtain ⟨m, hm, rfl⟩ := Option.map_eq_some_iff.1 hn
  rcases hb m hm with hlt | ⟨-, -, d, hd, hne⟩
  · have hlt : m < b.trimSpaces.text.size := hlt
    left
    rwa [Buffer.size, htwice, movedStop, if_pos (Nat.le_of_lt hlt)]
  · have hline : b.trimSpaces.text.lastRow = [] := currentLine_trimSpaces h
    obtain ⟨t, ht⟩ := List.getLast?_eq_some_iff.1 hd
    rw [ht] at hline
    simp [lastRow, hne] at hline

theorem ensureNewline (hb : b.SpacedLabel) : b.ensureNewline.SpacedLabel := by
  unfold Buffer.ensureNewline
  split
  · exact hb
  · split
    · exact hb.trimSpaces ‹_›
    · exact hb.newline

theorem ensureParagraph (hb : b.SpacedLabel) : b.ensureParagraph.SpacedLabel := by
  rcases b.ensureParagraph_spec with ⟨heq, -⟩ | ⟨heq, -⟩
  · rw [heq]
    exact hb.ensureNewline
  · rw [heq]
    exact hb.ensureNewline.push _

end SpacedLabel
end Buffer

namespace Page
variable {p : Page} {t : Text}

theorem spacedLabel_indent (h : p.buffer.SpacedLabel) : p.indent.buffer.SpacedLabel := by
  unfold indent
  split
  · exact h.push _
  · exact h

theorem spacedLabel_pushRow (h : p.buffer.SpacedLabel) (row : Text) :
    (p.pushRow row).buffer.SpacedLabel := by
  unfold pushRow
  split
  · exact h
  · exact (spacedLabel_indent h).push row

theorem spacedLabel_insertVerbatim (h : p.buffer.SpacedLabel) (t : Text) :
    (p.insertVerbatim t).buffer.SpacedLabel := by
  have hrows (rows : List Text) (p : Page) (h : p.buffer.SpacedLabel) :
      (rows.foldl (fun p row => (p.onBuffer (·.push ['\n'])).pushRow row)
        p).buffer.SpacedLabel := by
    induction rows generalizing p with
    | nil => exact h
    | cons row rows ih => exact ih _ (spacedLabel_pushRow (h.push _) row)
  unfold insertVerbatim
  split
  · exact h
  · exact hrows _ _ (spacedLabel_pushRow h _)

/-- Inserting a text leaves the label its space. -/
theorem spacedLabel_insert (rules : LineBreak.Rules) (h : p.buffer.SpacedLabel) (t : Text) :
    (p.insert rules t).buffer.SpacedLabel := by
  by_cases ht : t.visible = []
  · -- blanks are only appended
    have hwords : t.words = [] := by
      by_contra hne
      obtain ⟨w, hw⟩ := List.exists_mem_of_ne_nil _ hne
      have hflatten := flatten_words t
      rw [ht, List.flatten_eq_nil_iff] at hflatten
      exact ne_nil_of_mem_words hw (hflatten w hw)
    have hfresh : p.freshFor t = p := by
      have hblank : t.blank = true := List.all_eq_true.2 (visible_eq_nil_iff.1 ht)
      simp [freshFor, hblank]
    rw [buffer_insert, hfresh]
    split
    · exact h
    · split
      · exact spacedLabel_insertVerbatim h t
      · rw [insertWrapped, hwords, placeWords]
        split
        · unfold space
          split
          · exact h
          · exact h.push _
        · exact h
  · exact h.flow (flow_insert rules p t) ht

end Page
end MarkupText
