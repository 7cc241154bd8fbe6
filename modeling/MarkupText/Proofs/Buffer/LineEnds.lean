import MarkupText.Proofs.Buffer.Moves

/-!
# Where lines end

`Text.LineEnds t n` says that a line ends behind the first `n` visible characters, so none of them
shares a line with a later one (`LineEnds.not_sameLine`). No edit takes such a line end back
(`Buffer.Run.lineEnds`). `ensureNewline` and `ensureParagraph` make one unless a list label was just
written, and `Buffer.Labelled` keeps account of when that may be: only while the character shown last
is one of a label.
-/

namespace MarkupText

namespace Text
variable {t u : Text} {n i j : Nat}

/-- A line ends behind the first `n` visible characters, and in front of the next one. -/
def LineEnds (t : Text) (n : Nat) : Prop :=
  ∃ upper lower, t = upper ++ '\n' :: lower ∧ upper.visible.length = n

/-- The visible characters `i` and `j`, counted from 0, stand on one line. -/
def SameLine (t : Text) (i j : Nat) : Prop :=
  ∃ l m r, t = l ++ m ++ r ∧ '\n' ∉ m ∧
    ∀ k ∈ [i, j], (visible l).length ≤ k ∧ k < (visible (l ++ m)).length

theorem length_visible_mono (h : t <+: u) : t.visible.length ≤ u.visible.length :=
  (h.sublist.filter _).length_le

theorem LineEnds.not_sameLine (h : t.LineEnds n) (hi : i < n) (hj : n ≤ j) : ¬ t.SameLine i j := by
  obtain ⟨upper, lower, rfl, rfl⟩ := h
  rintro ⟨l, m, r, heq, hm, hkept⟩
  have hfront := (hkept i (by simp)).1
  have hback := (hkept j (by simp)).2
  have hupper : upper <+: l ++ m ++ r := ⟨'\n' :: lower, heq⟩
  -- the newline is neither in front of the stretch nor in it, so all of it is
  rcases Nat.lt_or_ge upper.length l.length with hl | hl
  · have hle : upper ++ ['\n'] <+: l := by
      have hall : upper ++ ['\n'] <+: l ++ m ++ r := ⟨lower, by rw [← heq]; simp⟩
      refine List.prefix_of_prefix_length_le hall ⟨m ++ r, by simp⟩ ?_
      rw [List.length_append, List.length_singleton]
      exact hl
    have := length_visible_mono hle
    rw [visible_append] at this
    simp only [visible_newline, visible_nil, List.append_nil] at this
    omega
  · rcases Nat.lt_or_ge upper.length (l ++ m).length with hm' | hm'
    · obtain ⟨v, rfl⟩ := List.prefix_of_prefix_length_le (⟨m ++ r, by simp⟩ : l <+: l ++ m ++ r)
        hupper hl
      have hrest : v ++ '\n' :: lower = m ++ r := by simpa using heq
      have hv : v <+: m := by
        refine List.prefix_of_prefix_length_le ⟨_, hrest⟩ (List.prefix_append m r) ?_
        simp only [List.length_append] at hm'
        omega
      obtain ⟨w, rfl⟩ := hv
      have hw : w ≠ [] := by
        rintro rfl
        simp at hm'
      obtain ⟨d, w, rfl⟩ := List.exists_cons_of_ne_nil hw
      have hd : d = '\n' := by
        have : '\n' :: lower = d :: w ++ r := by simpa using hrest
        exact (List.cons.inj this).1.symm
      exact hm (by simp [hd])
    · have hle : l ++ m <+: upper :=
        List.prefix_of_prefix_length_le (List.prefix_append _ r) hupper hm'
      have := length_visible_mono hle
      omega

theorem LineEnds.append_right (h : t.LineEnds n) (u : Text) : LineEnds (t ++ u) n := by
  obtain ⟨upper, lower, rfl, hn⟩ := h
  exact ⟨upper, lower ++ u, by simp, hn⟩

/-- A line end stands where something visible is still to come. -/
theorem LineEnds.of_append (h : LineEnds (t ++ u) n) (hn : n < t.visible.length) : t.LineEnds n := by
  obtain ⟨upper, lower, heq, rfl⟩ := h
  have hline : upper ++ ['\n'] <+: t ++ u := ⟨lower, by rw [heq]; simp⟩
  rcases Nat.le_total (upper ++ ['\n']).length t.length with hle | hle
  · obtain ⟨v, rfl⟩ := List.prefix_of_prefix_length_le hline (List.prefix_append t u) hle
    exact ⟨upper, v, by simp, rfl⟩
  · have hprefix := List.prefix_of_prefix_length_le (List.prefix_append t u) hline hle
    have := length_visible_mono hprefix
    rw [visible_append, visible_newline, visible_nil, List.append_nil] at this
    omega

/-- A newline beside some spaces stands in front of all of them or behind. -/
theorem newline_beside_spaces {l r upper lower : Text} {k : Nat}
    (h : l ++ spaces k ++ r = upper ++ '\n' :: lower) :
    (∃ v, l = upper ++ '\n' :: v) ∨ ∃ v, r = v ++ '\n' :: lower ∧ upper = l ++ spaces k ++ v := by
  rcases List.append_eq_append_iff.1 h with ⟨v, rfl, hv⟩ | ⟨v, hv, hv'⟩
  · exact .inr ⟨v, hv, rfl⟩
  · cases v with
    | nil => exact .inr ⟨[], by simpa using hv'.symm, by simpa using hv.symm⟩
    | cons d v =>
      obtain ⟨rfl, -⟩ := List.cons.inj hv'
      rcases List.append_eq_append_iff.1 hv with ⟨w, rfl, hw⟩ | ⟨w, hw, hw'⟩
      · have hmem : '\n' ∈ spaces k := by rw [hw]; simp
        cases List.eq_of_mem_replicate hmem
      · cases w with
        | nil =>
          have hmem : '\n' ∈ spaces k := by
            rw [List.nil_append] at hw'
            rw [← hw']
            exact List.mem_cons_self
          cases List.eq_of_mem_replicate hmem
        | cons d w =>
          obtain ⟨rfl, -⟩ := List.cons.inj hw'
          exact .inl ⟨w, hw⟩

/-- Blanks that take the place of spaces leave line ends where they are. -/
theorem LineEnds.replaceSpaces {l r i : Text} {k : Nat} (h : LineEnds (l ++ spaces k ++ r) n)
    (hi : i.visible = []) : LineEnds (l ++ i ++ r) n := by
  obtain ⟨upper, lower, heq, rfl⟩ := h
  rcases newline_beside_spaces heq with ⟨v, rfl⟩ | ⟨v, rfl, rfl⟩
  · exact ⟨upper, v ++ i ++ r, by simp, rfl⟩
  · exact ⟨l ++ i ++ v, lower, by simp, by simp [hi]⟩

end Text

namespace Buffer
open Text
variable {R : RangeRule} {b c : Buffer} {t : Text} {n : Nat} {bare : Bool}

theorem Run.lineEnds (h : Run R t b c) (hn : b.text.LineEnds n) : c.text.LineEnds n := by
  induction h with
  | refl b => exact hn
  | trans _ _ ih₁ ih₂ => exact ih₂ (ih₁ hn)
  | push b t => exact hn.append_right t
  | pushLabel b t => exact hn.append_right t
  | @splice b l r k h i hi =>
    have hs := splice_eq h i
    rw [size_spaces] at hs
    rw [hs]
    exact (h ▸ hn).replaceSpaces hi
  | annotate _ mark => rwa [text_annotate]
  | region _ ih =>
    rw [text_closeRegion]
    exact ih hn

/-! ### Starting a line -/

theorem currentLine_eq_nil (h : b.text = [] ∨ b.text.getLast? = some '\n') :
    b.currentLine = [] := by
  rcases h with h | h
  · rw [currentLine, h]
    rfl
  · obtain ⟨t, ht⟩ := List.getLast?_eq_some_iff.1 h
    rw [currentLine, ht, lastRow, List.reverse_concat]
    rfl

theorem currentLine_newline (b : Buffer) : b.newline.currentLine = [] :=
  currentLine_eq_nil (.inr List.getLast?_concat)

/-- In front of the line being written a line ends, if anything stands there. -/
theorem text_eq_upper (b : Buffer) : ∃ upper, b.text = upper ++ b.currentLine ∧
    (upper = [] ∨ upper.getLast? = some '\n') := by
  have hback : b.text = b.text.rdropWhile (· != '\n') ++ b.currentLine :=
    (List.rdropWhile_append_rtakeWhile (p := (· != '\n'))).symm
  refine ⟨_, hback, ?_⟩
  cases hlast : (b.text.rdropWhile (· != '\n')).getLast? with
  | none => exact .inl (List.getLast?_eq_none_iff.1 hlast)
  | some d =>
    have hd : d = '\n' := by simpa using not_of_getLast?_dropEndWhile hlast
    exact .inr (hd ▸ rfl)

theorem text_of_currentLine (h : b.currentLine = []) :
    b.text = [] ∨ b.text.getLast? = some '\n' := by
  obtain ⟨upper, htext, hupper⟩ := b.text_eq_upper
  rw [h, List.append_nil] at htext
  exact htext ▸ hupper

/-- Where nothing but spaces stands on the line, trimming empties it. -/
theorem currentLine_trimSpaces (h : b.atLineStart = true) : b.trimSpaces.currentLine = [] := by
  obtain ⟨upper, htext, hupper⟩ := b.text_eq_upper
  have hline : ∀ c ∈ b.currentLine.reverse, (c == ' ') = true := fun c hc =>
    List.all_eq_true.1 h c (List.mem_reverse.1 hc)
  refine currentLine_eq_nil ?_
  rw [text_trimSpaces, htext, dropEndWhile, List.reverse_append, List.dropWhile_append_of_pos hline]
  rcases hupper with rfl | hupper
  · exact .inl rfl
  · obtain ⟨u, rfl⟩ := List.getLast?_eq_some_iff.1 hupper
    rw [List.reverse_concat, List.dropWhile_cons_of_neg (by decide), ← List.reverse_concat,
      List.reverse_reverse]
    exact .inr List.getLast?_concat

/-- A new line is started unless a label was just written. -/
theorem ensureNewline_cases (b : Buffer) :
    b.atLabelEnd = true ∧ b.ensureNewline = b ∨ b.ensureNewline.currentLine = [] := by
  unfold ensureNewline
  split
  · rename_i h
    exact .inl ⟨h, rfl⟩
  · split
    · rename_i h
      exact .inr (currentLine_trimSpaces h)
    · exact .inr b.currentLine_newline

theorem ensureParagraph_cases (b : Buffer) :
    b.atLabelEnd = true ∧ b.ensureParagraph = b ∨ b.ensureParagraph.currentLine = [] := by
  rcases b.ensureParagraph_spec with ⟨heq, -⟩ | ⟨heq, -⟩
  · rw [heq]
    exact b.ensureNewline_cases
  · rw [heq]
    exact .inr (currentLine_eq_nil (.inr List.getLast?_concat))

/-- Nothing stands on the line being written, or only a label. -/
def Fresh (b : Buffer) : Prop := b.currentLine = [] ∨ b.atLabelEnd = true

theorem fresh_ensureNewline (b : Buffer) : b.ensureNewline.Fresh := by
  rcases b.ensureNewline_cases with ⟨h, heq⟩ | h
  · exact .inr (heq.symm ▸ h)
  · exact .inl h

theorem fresh_ensureParagraph (b : Buffer) : b.ensureParagraph.Fresh := by
  rcases b.ensureParagraph_cases with ⟨h, heq⟩ | h
  · exact .inr (heq.symm ▸ h)
  · exact .inl h

theorem lineEnds_of_currentLine (h : b.currentLine = []) (hne : b.text.visible ≠ []) :
    b.text.LineEnds b.text.visible.length := by
  rcases text_of_currentLine h with hnil | hlast
  · exact absurd (congrArg visible hnil) hne
  · obtain ⟨u, hu⟩ := List.getLast?_eq_some_iff.1 hlast
    exact ⟨u, [], hu, by simp [hu]⟩

/-! ### Behind a label -/

/-- Something visible stands behind the end of the label written last, unless `bare`. -/
def Labelled (bare : Bool) (b : Buffer) : Prop :=
  ∀ n, b.labelEnd = some n → n ≤ b.size ∧ (b.text.seen n = b.text.visible.length → bare = true)

namespace Labelled

theorem empty : Labelled false {} := fun _ h => by cases h

theorem of_eq (hb : b.Labelled bare) (htext : c.text = b.text) (hlabel : c.labelEnd = b.labelEnd) :
    c.Labelled bare := by
  intro n hn
  rw [hlabel] at hn
  rw [Buffer.size, htext]
  exact hb n hn

/-- Flowing text, if it shows anything, comes behind the label. -/
theorem flow (h : Flow t b c) (hb : b.Labelled bare) : c.Labelled (bare && t.isEmpty) := by
  obtain ⟨σ, τ, hmoves⟩ := h.moves
  have hrun : Run RangeRule.tight t b c := h.run
  intro n hn
  rw [hmoves.labelEnd] at hn
  obtain ⟨m, hm, rfl⟩ := Option.map_eq_some_iff.1 hn
  obtain ⟨hle, hbare⟩ := hb m hm
  refine ⟨hmoves.stop_le hle, fun hseen => ?_⟩
  have hrank : c.text.seen (τ m) = b.text.seen m := hmoves.rank_stop shown_of_visible hle
  rw [hrank, hrun.visible, List.length_append] at hseen
  have := seen_le_length b.text m
  have ht : t = [] := List.eq_nil_of_length_eq_zero (by omega)
  rw [hbare (by omega), ht]
  rfl

theorem blank (h : Flow [] b c) (hb : b.Labelled bare) : c.Labelled bare := by
  simpa using hb.flow h

theorem pushLabel (b : Buffer) (t : Text) : (b.pushLabel t).Labelled true := by
  intro n hn
  rw [Buffer.pushLabel] at hn
  exact ⟨Nat.le_of_eq (Option.some.inj hn).symm, fun _ => rfl⟩

theorem bare_of_atLabelEnd (hb : b.Labelled bare) (h : b.atLabelEnd = true) : bare = true :=
  (hb b.size (eq_of_beq h)).2 (seen_of_size_le (Nat.le_refl _))

/-- On a line that counts as fresh stands nothing unless a label is bare. -/
theorem currentLine (hb : b.Labelled false) (h : b.Fresh) : b.currentLine = [] :=
  h.resolve_right fun hend => Bool.false_ne_true (hb.bare_of_atLabelEnd hend)

end Labelled
end Buffer
end MarkupText
