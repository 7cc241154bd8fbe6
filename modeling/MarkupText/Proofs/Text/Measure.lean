import MarkupText.Proofs.Text.Width

/-!
# Widths of joined texts

`width` does not add up over every concatenation, since a character can change the cells of those
before it. It does at characters that are shown by themselves whatever follows (`Solo`), such as
those that draw a grid (`width_append_cons`). That no text takes less than no cells
(`measure_nonneg`) is not plain either: some letters give back a cell of what follows them, and
`Follower.slack` is what they may take.
-/

namespace MarkupText.Text

variable {c : Char} {b : Text} {x y : Context} {k : Int}

/-! ### Cells given back -/

namespace Follower

/-- The cells that a character before the follower may give back. -/
def slack : Follower → Int
  | subjoinable | tifinaghAfterJoiner | joinedRegion | joinedRegions => 1
  | _ => 0

theorem slack_nonneg (f : Follower) : 0 ≤ f.slack := by
  unfold slack
  split <;> decide

theorem slack_le_one (f : Follower) : f.slack ≤ 1 := by
  unfold slack
  split <;> decide

@[simp] theorem slack_join (f : Follower) : f.join.slack = f.slack := by
  cases f <;> rfl

end Follower

theorem exists_of_inRanges {n : Nat} {ranges : List (Nat × Nat)} (h : inRanges n ranges = true) :
    ∃ range ∈ ranges, range.1 ≤ n ∧ n ≤ range.2 := by
  induction ranges with
  | nil => cases h
  | cons range ranges ih =>
    unfold inRanges at h
    split at h
    · cases h
    · rename_i hlo
      rcases Bool.or_eq_true_iff.1 h with hhi | h
      · exact ⟨range, List.mem_cons_self, Nat.le_of_not_lt hlo, of_decide_eq_true hhi⟩
      · obtain ⟨range', hmem, hrange⟩ := ih h
        exact ⟨range', List.mem_cons_of_mem _ hmem, hrange⟩

theorem charWidth_pos_of_isSubjoinable (h : isSubjoinable c = true) : 0 < charWidth c := by
  have hall : ∀ n ∈ List.range' 0x1780 0x30,
      isSubjoinable (Char.ofNat n) = true → 0 < charWidth (Char.ofNat n) := by decide +kernel
  have hmem : c.toNat ∈ List.range' 0x1780 0x30 := by
    obtain ⟨range, hmem, hlo, hhi⟩ := exists_of_inRanges h
    have hbounds : 0x1780 ≤ range.1 ∧ range.2 < 0x17B0 := by
      clear hlo hhi
      revert range
      decide
    rw [List.mem_range'_1]
    omega
  have := hall c.toNat hmem
  rw [Char.ofNat_toNat] at this
  exact this h

theorem Follower.slack_ofChar (h : isSubjoinable c = false) : (ofChar c).slack = 0 := by
  have hite {p : Prop} [Decidable p] {f g : Follower} (hf : f.slack = 0) (hg : g.slack = 0) :
      (if p then f else g).slack = 0 := by
    split <;> assumption
  unfold ofChar
  simp only [h, Bool.false_eq_true, if_false]
  repeat' apply hite
  all_goals rfl

theorem slack_of_beforeIt? {f g : Follower} (h : f.beforeIt? c = some (k, g)) :
    g.slack ≤ k + f.slack := by
  have hite {p : Prop} [Decidable p] {m : Int} {f' : Follower} {o : Option (Int × Follower)}
      (hsome : f'.slack ≤ m + f.slack) (ho : o = some (k, g) → g.slack ≤ k + f.slack)
      (h : (if p then some (m, f') else o) = some (k, g)) : g.slack ≤ k + f.slack := by
    split at h
    · obtain ⟨rfl, rfl⟩ := Prod.mk.inj (Option.some.inj h)
      exact hsome
    · exact ho h
  have hnone (h : (none : Option (Int × Follower)) = some (k, g)) : g.slack ≤ k + f.slack := by
    cases h
  revert h
  cases f
  case lamed joined | ya joined | orkhonI joined =>
    cases joined
    · exact hnone
    · exact hite (Int.le_refl 0) hnone
  all_goals
    repeat' refine hite ?_ ?_
    all_goals first | exact hnone | simp [Follower.slack]

theorem slack_select_le (x : Context) (s : Selector) :
    (x.select s).follower.slack ≤ x.follower.slack := by
  unfold Context.select
  split
  · exact Int.le_refl _
  · exact x.follower.slack_nonneg

theorem slack_unselect_le (x : Context) : x.unselect.follower.slack ≤ x.follower.slack := by
  unfold Context.unselect
  repeat' split
  · exact Int.le_refl _
  · exact Int.le_refl _
  · exact x.follower.slack_nonneg

theorem slack_of_selectedWidth? (h : selectedWidth? x c = some (k, y)) :
    y.follower.slack = 0 ∧ 0 ≤ k := by
  unfold selectedWidth? at h
  repeat' split at h
  all_goals first
    | cases h; done
    | obtain ⟨rfl, rfl⟩ := Prod.mk.inj (Option.some.inj h)
      exact ⟨rfl, by decide⟩

/-- What may be taken of a text is never more than the text has. -/
theorem slack_cellsBefore (c : Char) (x : Context) :
    (cellsBefore c x).2.follower.slack ≤ (cellsBefore c x).1 + x.follower.slack := by
  have hx := x.follower.slack_nonneg
  have hun := slack_unselect_le x
  have hpick {r : Int × Context} (h : selectedWidth? x c = some r) :
      r.2.follower.slack ≤ r.1 + x.follower.slack := by
    obtain ⟨hslack, hk⟩ := slack_of_selectedWidth? h
    omega
  have hfree {n : Int} {f : Follower} (hn : 0 ≤ n) (hf : f.slack = 0) :
      f.slack ≤ n + x.follower.slack := by
    omega
  unfold cellsBefore
  split
  · split
    · rename_i h
      exact hpick h
    · repeat' split
      all_goals exact hfree (by decide) rfl
  · split
    · rename_i h
      exact hpick h
    · split
      · rename_i s hs
        have hsel := slack_select_le (if x.selector = some .emoji then x.unselect else x) s
        have hle : (if x.selector = some .emoji then x.unselect else x).follower.slack ≤
            x.follower.slack := by
          split
          · exact hun
          · exact Int.le_refl _
        dsimp only
        omega
      · dsimp only
        split
        · rw [Follower.slack_join]
          omega
        · split
          · dsimp only
            omega
          · split
            · rename_i h
              have := slack_of_beforeIt? h
              dsimp only
              omega
            · dsimp only
              cases hc : isSubjoinable c with
              | false => exact hfree (Int.natCast_nonneg _) (Follower.slack_ofChar hc)
              | true =>
                have := charWidth_pos_of_isSubjoinable hc
                have := (Follower.ofChar c).slack_le_one
                omega

theorem measure_cons (c : Char) (t : Text) :
    measure (c :: t) = ((cellsBefore c (measure t).2).1 + (measure t).1,
      (cellsBefore c (measure t).2).2) := rfl

theorem slack_measure (t : Text) : (measure t).2.follower.slack ≤ (measure t).1 := by
  induction t with
  | nil => exact Int.le_refl 0
  | cons c t ih =>
    have := slack_cellsBefore c (measure t).2
    rw [measure_cons]
    dsimp only
    omega

theorem measure_nonneg (t : Text) : 0 ≤ (measure t).1 :=
  Int.le_trans (Follower.slack_nonneg _) (slack_measure t)

theorem natCast_width (t : Text) : (t.width : Int) = (measure t).1 :=
  Int.toNat_of_nonneg (measure_nonneg t)

/-! ### Characters shown by themselves -/

/-- The character is shown by itself in one cell, whatever follows. -/
def Solo (c : Char) : Prop := ∀ x, cellsBefore c x = (1, {})

theorem solo_of_printable (h : Printable c) (hc : takesEmojiStyle c = false) : Solo c := by
  intro x
  obtain ⟨h₁, h₂⟩ := h
  have hnewline : c ≠ '\n' := by rintro rfl; exact absurd h₁ (by decide)
  have hreturn : c ≠ '\r' := by rintro rfl; exact absurd h₁ (by decide)
  have hquote : isCurlyQuote c = false := by
    simp only [isCurlyQuote, List.contains_eq_mem, List.mem_cons, List.not_mem_nil, or_false,
      decide_eq_false_iff_not]
    omega
  have hpick : selectedWidth? x c = none := by
    simp only [selectedWidth?, takesTextStyle, hc, hquote]
    split <;> rfl
  have hlow : c.toNat ≤ 0xA0 := by omega
  simp only [cellsBefore, hlow, hpick, hnewline, hreturn, if_true, if_false, decide_false,
    Bool.false_and, Bool.false_eq_true]

theorem solo_bar : Solo '|' := solo_of_printable (by decide) (by decide)

theorem solo_space : Solo ' ' := solo_of_printable (by decide) (by decide)

theorem measure_append (h : (measure b).2 = {}) (a : Text) :
    measure (a ++ b) = ((measure a).1 + (measure b).1, (measure a).2) := by
  induction a with
  | nil => exact Prod.ext (Int.zero_add _).symm h
  | cons c a ih => rw [List.cons_append, measure_cons, ih, measure_cons, Int.add_assoc]

/-- A text is as wide as its parts, if the second begins with a character shown by itself. -/
theorem width_append_cons (hc : Solo c) (a b : Text) :
    width (a ++ c :: b) = width a + 1 + width b := by
  have hcons : measure (c :: b) = (1 + (measure b).1, {}) := by rw [measure_cons, hc]
  have h := congrArg Prod.fst (measure_append (by rw [hcons]) a)
  have ha := natCast_width a
  have hb := natCast_width b
  have hab := natCast_width (a ++ c :: b)
  rw [hcons] at h
  dsimp only at h
  omega

theorem width_spaces (n : Nat) : width (spaces n) = n :=
  (width_eq_cols fun c hc => by rw [List.eq_of_mem_replicate hc]; decide).trans (cols_spaces n)

theorem width_append_spaces (t : Text) (n : Nat) : width (t ++ spaces n) = width t + n := by
  cases n with
  | zero => rw [show spaces 0 = [] from rfl, List.append_nil, Nat.add_zero]
  | succ n =>
    rw [show spaces (n + 1) = ' ' :: spaces n from List.replicate_succ, width_append_cons solo_space,
      width_spaces]
    omega

end MarkupText.Text
