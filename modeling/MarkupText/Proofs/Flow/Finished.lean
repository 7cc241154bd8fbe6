import MarkupText.Proofs.Flow.Gaps

/-!
# Finished lines

Edits touch the line being written and what comes behind it only. `Text.Continues t u` says so of a
text `t` that becomes `u`: whatever lines `t` begins with, `u` begins with them too. Inserting a
text continues what is there (`Page.continues_insert`), and so does ending a line.
-/

namespace MarkupText

namespace Text
variable {t u v l done : Text}

/-- The text is empty or ends with a line. -/
def Finished (t : Text) : Prop := t = [] ∨ t.getLast? = some '\n'

/-- The lines that `t` begins with are those that `u` begins with. -/
def Continues (t u : Text) : Prop := ∀ done : Text, done.Finished → done <+: t → done <+: u

/-- Finished lines end in front of a part without newlines. -/
theorem Finished.prefix_front (hdone : done.Finished) (h : done <+: l ++ u) (hu : '\n' ∉ u) :
    done <+: l := by
  by_contra hnot
  obtain ⟨x, rfl⟩ | ⟨x, hx⟩ := List.prefix_or_prefix_of_prefix (List.prefix_append l u) h
  · rcases List.eq_nil_or_concat' x with rfl | ⟨x, c, rfl⟩
    · exact hnot (by simp)
    · obtain rfl : c = '\n' := by
        rcases hdone with hnil | hlast
        · simp at hnil
        · rw [← List.append_assoc, List.getLast?_concat] at hlast
          exact Option.some.inj hlast
      obtain ⟨y, hy⟩ := (List.prefix_append_right_inj l).1 h
      exact hu (hy ▸ by simp)
  · exact hnot ⟨x, hx⟩

namespace Continues

theorem refl (t : Text) : Continues t t := fun _ _ h => h

theorem trans (h₁ : Continues t u) (h₂ : Continues u v) : Continues t v :=
  fun done hdone h => h₂ done hdone (h₁ done hdone h)

theorem append (t u : Text) : Continues t (t ++ u) := fun _ _ h => h.trans (List.prefix_append t u)

/-- The line being written may change. -/
theorem of_tail (hu : '\n' ∉ u) (v : Text) : Continues (l ++ u) (l ++ v) :=
  fun _ hdone h => (hdone.prefix_front h hu).trans (List.prefix_append l v)

theorem prefix_right (h : Continues t u) (ht : t.Finished) : t <+: u := h t ht (List.prefix_refl t)

end Continues
end Text

namespace Buffer
open Text

theorem continues_trimSpaces (b : Buffer) : Continues b.text b.trimSpaces.text := by
  obtain ⟨k, hk⟩ : ∃ k, b.text = b.trimSpaces.text ++ spaces k := by
    rw [text_trimSpaces]
    obtain ⟨u, hu, hu'⟩ := dropEndWhile_append (· == ' ') b.text
    exact ⟨u.length, by rw [← eq_spaces hu']; exact hu⟩
  conv_lhs => rw [hk]
  conv_rhs => rw [← List.append_nil b.trimSpaces.text]
  exact .of_tail (newline_notMem_spaces k) []

theorem continues_newline (b : Buffer) : Continues b.text b.newline.text :=
  b.continues_trimSpaces.trans (.append _ _)

theorem continues_ensureNewline (b : Buffer) : Continues b.text b.ensureNewline.text := by
  unfold ensureNewline
  split
  · exact .refl _
  · split
    · exact b.continues_trimSpaces
    · exact b.continues_newline

theorem continues_ensureParagraph (b : Buffer) : Continues b.text b.ensureParagraph.text := by
  rcases b.ensureParagraph_spec with ⟨heq, -⟩ | ⟨heq, -⟩
  · rw [heq]
    exact b.continues_ensureNewline
  · rw [heq]
    exact b.continues_ensureNewline.trans (.append _ _)

end Buffer

namespace Page
open Text
variable {rules : LineBreak.Rules} {p : Page}

theorem continues_cutLine (b : Buffer) (pos indentation : Nat) :
    Continues b.text (b.splice (b.lineStart + (splitLine b.currentLine pos).1.size)
      (b.currentLine.size - (splitLine b.currentLine pos).1.size -
        (splitLine b.currentLine pos).2.size) ('\n' :: spaces indentation)).text := by
  obtain ⟨upper, k, htext, hcut⟩ := text_cutLine b pos indentation
  have hline : '\n' ∉ (splitLine b.currentLine pos).2 := fun hmem =>
    newline_notMem_lastRow b.text (List.mem_of_mem_drop ((List.dropWhile_sublist _).subset hmem))
  rw [hcut, htext, List.append_assoc, List.append_assoc _ ('\n' :: _)]
  refine .of_tail (fun hmem => ?_) _
  exact (List.mem_append.1 hmem).elim (newline_notMem_spaces k) hline

theorem continues_foldLine (rules : LineBreak.Rules) (indentation width : Nat) (b : Buffer) :
    Continues b.text (foldLine rules indentation width b).text := by
  fun_induction foldLine rules indentation width b with
  | case1 b h => exact .refl _
  | case2 b line h hnone => exact .refl _
  | case3 b line h pos hpos left right hsplit hempty => exact b.continues_trimSpaces
  | case4 b line h pos hpos left right hsplit hne b' hlt ih =>
    have hcut := continues_cutLine b pos indentation
    rw [show splitLine b.currentLine pos = (left, right) from hsplit] at hcut
    exact hcut.trans ih
  | case5 b line h pos hpos left right hsplit hne b' hlt =>
    have hcut := continues_cutLine b pos indentation
    rwa [show splitLine b.currentLine pos = (left, right) from hsplit] at hcut

theorem continues_indent (p : Page) : Continues p.buffer.text p.indent.buffer.text := by
  obtain ⟨k, htext, -⟩ := p.text_indent
  rw [htext]
  exact .append _ _

theorem continues_space (p : Page) : Continues p.buffer.text p.space.buffer.text := by
  rcases p.space_cases with h | ⟨-, h⟩
  · rw [h]
    exact .refl _
  · rw [h]
    exact .append _ _

theorem continues_dropSpace {c : Char} (h : p.spaceUnwanted rules c = true) :
    Continues p.buffer.text (p.buffer.splice (p.buffer.size - 1) 1 []).text := by
  obtain ⟨l, htext, hpos⟩ := text_of_spaceUnwanted h
  have hsplice := Buffer.splice_eq htext []
  rw [size_spaces] at hsplice
  rw [hpos, hsplice, htext, List.append_nil, List.append_assoc _ [] []]
  exact .of_tail (newline_notMem_spaces 1) _

theorem continues_placeWord (rules : LineBreak.Rules) (p : Page) (spaceBefore : Bool)
    (word : Text) : Continues p.buffer.text (p.placeWord rules spaceBefore word).buffer.text := by
  have hspace : Continues p.buffer.text
      (if spaceBefore then p.indent.space else p.indent).buffer.text := by
    split
    · exact p.continues_indent.trans (continues_space _)
    · exact p.continues_indent
  unfold placeWord
  dsimp only
  generalize (if spaceBefore then p.indent.space else p.indent) = q at hspace ⊢
  have hput (q : Page) : Continues q.buffer.text (foldLine rules q.layout.indentation
      q.layout.width (q.buffer.push word)).text :=
    (Continues.append q.buffer.text word).trans
      (continues_foldLine rules _ _ (q.buffer.push word))
  refine hspace.trans ?_
  cases word with
  | nil => exact hput q
  | cons c w =>
    by_cases h : q.spaceUnwanted rules c = true
    · simp only [if_pos h]
      exact (continues_dropSpace h).trans (hput (q.onBuffer fun b => b.splice (b.size - 1) 1 []))
    · simp only [if_neg h]
      exact hput q

theorem continues_placeWords (rules : LineBreak.Rules) (ws : List Text) (p : Page)
    (spaceBefore : Bool) :
    Continues p.buffer.text (p.placeWords rules spaceBefore ws).buffer.text := by
  induction ws generalizing p spaceBefore with
  | nil => exact .refl _
  | cons w ws ih => exact (continues_placeWord rules p spaceBefore w).trans (ih _ true)

theorem continues_insertWrapped (rules : LineBreak.Rules) (p : Page) (t : Text) :
    Continues p.buffer.text (p.insertWrapped rules t).buffer.text := by
  have h := continues_placeWords rules t.words p ((t.head?.map isBlank).getD false)
  unfold insertWrapped
  dsimp only
  split
  · exact h.trans (continues_space _)
  · exact h

theorem continues_pushRow (p : Page) (row : Text) :
    Continues p.buffer.text (p.pushRow row).buffer.text := by
  unfold pushRow
  split
  · exact .refl _
  · exact p.continues_indent.trans (.append _ row)

theorem continues_insertVerbatim (p : Page) (t : Text) :
    Continues p.buffer.text (p.insertVerbatim t).buffer.text := by
  have hrows (rows : List Text) (p : Page) : Continues p.buffer.text
      (rows.foldl (fun p row => (p.onBuffer (·.push ['\n'])).pushRow row) p).buffer.text := by
    induction rows generalizing p with
    | nil => exact .refl _
    | cons row rows ih =>
      have hline : Continues p.buffer.text (p.onBuffer (·.push ['\n'])).buffer.text := .append _ _
      exact (hline.trans (continues_pushRow _ row)).trans (ih _)
  unfold insertVerbatim
  split
  · exact .refl _
  · exact (p.continues_pushRow _).trans (hrows _ _)

/-- Inserting a text leaves finished lines as they are. -/
theorem continues_insert (rules : LineBreak.Rules) (p : Page) (t : Text) :
    Continues p.buffer.text (p.insert rules t).buffer.text := by
  have hfresh : Continues p.buffer.text (p.freshFor t).buffer.text := by
    unfold freshFor
    split
    · exact p.buffer.continues_newline
    · exact .refl _
  rw [buffer_insert]
  split
  · exact .refl _
  · split
    · exact hfresh.trans (continues_insertVerbatim _ t)
    · exact hfresh.trans (continues_insertWrapped rules _ t)

end Page
end MarkupText
