import MarkupText.Proofs.Flow.Folds

/-!
# Lines are too wide only where they have to be

Where widths add up, a finished line is wider than the flow only if it cannot be split better
(`Page.forced_of_mem_rows`): it has no legal cut, or its last cut that could be taken is rejected and
the line ends at the first legal one behind it. What decides this is the cut at which the line was
split off (`fits_or_forced`); a line is not touched after that.
-/

namespace MarkupText

open Text LineBreak Greedy

section Lines
variable {rules : Rules} {cs t l r line : Text} {indentation width n : Nat} {cut : Cut}

/-- A line has no better cut: none is legal, or the last one that fits and is not `never` is rejected
with no legal one shortly before it, and the line ends shortly behind it. -/
def Forced (rules : Rules) (indentation width : Nat) (line : Text) : Prop :=
  (∀ c ∈ usableCuts rules line indentation, c.kind ≠ .legal) ∨
    ∃ last, LastFitting (usableCuts rules line indentation) width last ∧ last.kind = .rejected ∧
      (∀ c ∈ usableCuts rules line indentation,
        c.kind = .legal → c.pos < last.pos → c.pos + scanLimit < last.pos) ∧
      line.length ≤ last.pos + scanLimit

/-- What stands in front of a cut is no wider than its column. -/
theorem cols_le_column (hl : Begins l) {u : Text}
    (hcut : cut ∈ usableCuts rules (spaces indentation ++ (l ++ u)) indentation)
    (hle : indentation + l.length ≤ cut.pos) : indentation + cols l ≤ cut.column := by
  obtain ⟨x, b, a, y, heq, rfl⟩ := (mem_usableCuts (hl.append u)).1 hcut
  have hprefix : l <+: x ++ [b] := by
    refine List.prefix_of_prefix_length_le (List.prefix_append l u)
      ⟨a :: y, by rw [heq]; simp⟩ ?_
    rw [List.length_append, List.length_singleton]
    dsimp only at hle
    omega
  obtain ⟨z, hz⟩ := hprefix
  rw [← hz, cols_append]
  dsimp only
  omega

/-- A line that is split off fits, or it has no better cut. -/
theorem fits_or_forced (hcs : Measured cs) (ht : Filled cs t) (hl : Filled cs l)
    (hchosen : Chosen (usableCuts rules (spaces indentation ++ t) indentation) width cut)
    (hdiv : Divides indentation t cut l n r) :
    (spaces indentation ++ l).width ≤ width ∨
      Forced rules indentation width (spaces indentation ++ l) := by
  have hsorted := usableCuts_sorted rules (spaces indentation ++ t) indentation
  have hmem := hchosen.mem
  obtain rfl : t = l ++ (spaces n ++ r) := by rw [hdiv.eq, List.append_assoc]
  have hsub {c : Cut} : c ∈ usableCuts rules (spaces indentation ++ l) indentation ↔ _ :=
    mem_usableCuts_append rules hl.begins (spaces n ++ r)
  have hle := hdiv.le_pos
  rw [hl.width_eq hcs]
  -- a cut in front of which the line ends is a bound of its width
  have hfits {c : Cut}
      (hc : c ∈ usableCuts rules (spaces indentation ++ (l ++ (spaces n ++ r))) indentation)
      (hpos : indentation + l.length ≤ c.pos) (hwidth : c.column ≤ width) :
      indentation + cols l ≤ width :=
    (cols_le_column hl.begins hc hpos).trans hwidth
  cases hchosen with
  | last h legal => exact .inl (hfits hmem hle h.fits)
  | rejected h => exact .inl (hfits hmem hle h.fits)
  | before last h rejected mem legal lt =>
    exact .inl (hfits hmem hle ((hsorted.column_le hmem h.mem (Nat.le_of_lt lt)).trans h.fits))
  | beyond none_fits mem legal first =>
    refine .inr (.inl fun c hc hlegal => ?_)
    obtain ⟨hc, hlt⟩ := hsub.1 hc
    have := first c hc hlegal
    omega
  | behind last h rejected mem legal lt near none_before =>
    by_cases hlast : indentation + l.length ≤ last.pos
    · exact .inl (hfits h.mem hlast h.fits)
    · refine .inr (.inr ⟨last, ⟨hsub.2 ⟨h.mem, Nat.lt_of_not_le hlast⟩, h.fits, h.kind,
        fun c hc => h.last c (hsub.1 hc).1⟩, rejected, fun c hc => none_before c (hsub.1 hc).1, ?_⟩)
      rw [List.length_append, spaces, List.length_replicate]
      omega

/-- A finished line that is forced if it is too wide. -/
def Settled (rules : Rules) (indentation width : Nat) (line : Text) : Prop :=
  '\n' ∉ line ∧ (width < line.width → Forced rules indentation width line)

theorem settled_of_stays (ht : Filled cs t) (h : Stays rules indentation width t) :
    Settled rules indentation width (spaces indentation ++ t) := by
  refine ⟨ht.newline_notMem indentation, fun hwide => ?_⟩
  rcases h with hfits | hnone
  · exact absurd hfits (Nat.not_le.2 hwide)
  · exact .inl fun c hc => (not_legal_of_findBreak_eq_none hnone c hc).1

theorem foldInvariant_settled (hcs : Measured cs) : Page.FoldInvariant rules cs indentation width
    fun ls _ => ∀ line ∈ ls, Settled rules indentation width line where
  first _ := by simp
  word _ hk _ _ _ := hk
  split {ls t cut l n r} hk ht hl _ chosen divides line hline := by
    rcases List.mem_append.1 hline with hline | hline
    · exact hk line hline
    · rw [List.mem_singleton.1 hline]
      refine ⟨hl.newline_notMem indentation, fun hwide => ?_⟩
      exact (fits_or_forced hcs ht hl chosen divides).resolve_left (Nat.not_le.2 hwide)

end Lines

namespace Page

theorem settled_of_mem_rows (rules : Rules) (leaves : List Text) {l : Layout} (hl : l.fold = .wrap)
    (h : Measured leaves.flatten) :
    ∀ line ∈ rows (leaves.foldl (·.insert rules) { layout := l : Page }).buffer.finish.1,
      Settled rules l.indentation l.width line := by
  intro line hline
  rcases finish_insertAll_lines rules hl leaves h (foldInvariant_settled h) with
    hout | ⟨ls, t, hk, ht, hstays, hout⟩
  · rw [hout] at hline
    rw [List.mem_singleton.1 hline]
    exact ⟨List.not_mem_nil, fun hwide => absurd hwide (Nat.not_lt_zero _)⟩
  · have hlines : ∀ line ∈ ls ++ [spaces l.indentation ++ t],
        Settled rules l.indentation l.width line := by
      intro line hline
      rcases List.mem_append.1 hline with hline | hline
      · exact hk line hline
      · rw [List.mem_singleton.1 hline]
        exact settled_of_stays ht hstays
    rw [hout, rows_ended fun line hline => (hlines line hline).1] at hline
    exact hlines line hline

/-- A line of the finished text is wider than the flow only if it has no better cut. -/
theorem forced_of_mem_rows (rules : Rules) (leaves : List Text) (l : Layout) (hl : l.fold = .wrap)
    (h : Measured leaves.flatten) :
    ∀ line ∈ rows (leaves.foldl (·.insert rules) { layout := l : Page }).buffer.finish.1,
      l.width < line.width → Forced rules l.indentation l.width line :=
  fun line hline => (settled_of_mem_rows rules leaves hl h line hline).2

/-- No line may begin with a `b`, so the first one goes on to the end of theirs. -/
theorem forced_of_mem_rows_noStart :
    let rules : Rules := .ofSets ['a', 'b'] [] ['b'] []
    let leaves : List Text := ["a".toList, "bbba".toList]
    let l : Layout := { width := 3, indentation := 1 }
    Measured leaves.flatten ∧
      " abbb".toList ∈ rows (leaves.foldl (·.insert rules) { layout := l : Page }).buffer.finish.1 ∧
      Forced rules 1 3 " abbb".toList := by
  intro rules leaves l
  have hcs : Measured leaves.flatten :=
    (spaceSeparated_kinsoku (List.all_iff_forall_prop.1 rfl)).measured
  have hline : " abbb".toList ∈
      rows (leaves.foldl (·.insert rules) { layout := l : Page }).buffer.finish.1 := by
    decide +kernel
  exact ⟨hcs, hline, forced_of_mem_rows rules leaves l rfl hcs _ hline (by decide)⟩

end Page
end MarkupText
