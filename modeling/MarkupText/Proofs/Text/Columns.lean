import MarkupText.Proofs.Text.Measure
import MarkupText.Proofs.Text.Visible

/-!
# Columns that stay

ASCII at the end of a text adds a column for each character (`width_append_ascii`). Other characters
may be drawn together with what stands before them, and a text can get narrower when it is continued:
a digit takes no column of its own where a selector and a joiner tie it to an emoji. `Holds n t` says
that at least `n` columns are taken whatever follows `t`. A space ensures that for the columns up to
it, and in printable ASCII every character does for those in front of it.

`Reaches k n` says so of a line being written, which may lose a space at its end, and `reached` tells
how many columns are taken for sure when more is written there.
-/

namespace MarkupText.Text

variable {t u : Text} {c d : Char} {x : Context} {k m n limit : Nat}

/-! ### ASCII -/

def Ascii (c : Char) : Prop := c.toNat < 0x80

instance (c : Char) : Decidable (Ascii c) := inferInstanceAs (Decidable (_ < _))

-- Decided along the text: there are finitely many characters, but too many to go through.
instance (t : Text) : Decidable (∀ c ∈ t, Ascii c) := List.decidableBAll Ascii t

theorem ascii_of_mem_spaces (h : c ∈ spaces n) : Ascii c := by
  rw [List.eq_of_mem_replicate h]
  decide

theorem ascii_of_printable (h : Printable c) : Ascii c := Nat.lt_succ_of_lt h.2

theorem measure_of_ascii (h : ∀ c ∈ t, Ascii c) (hline : '\n' ∉ t) :
    measure t = ((t.length : Int), {}) := by
  induction t with
  | nil => rfl
  | cons c t ih =>
    have ht := ih (fun d hd => h d (List.mem_cons_of_mem _ hd))
      fun hmem => hline (List.mem_cons_of_mem _ hmem)
    have hc : c.toNat < 0x80 := h c List.mem_cons_self
    have hnewline : c ≠ '\n' := fun hc => hline (hc ▸ List.mem_cons_self)
    have hlow : c.toNat ≤ 0xA0 := by omega
    have hcell : cellsBefore c {} = (1, {}) := by
      simp [cellsBefore, selectedWidth?, hlow, hnewline]
    rw [measure_cons, ht, hcell, List.length_cons]
    simp [Int.add_comm]

theorem width_append_ascii (t : Text) (h : ∀ c ∈ u, Ascii c) (hline : '\n' ∉ u) :
    width (t ++ u) = width t + u.length := by
  have hu := measure_of_ascii h hline
  have hmeasure := congrArg Prod.fst (measure_append (by rw [hu]) t)
  have ht := natCast_width t
  have htu := natCast_width (t ++ u)
  rw [hu] at hmeasure
  dsimp only at hmeasure
  omega

/-- A line of ASCII is as wide as it is long. -/
theorem width_of_ascii (h : ∀ c ∈ t, Ascii c) (hline : '\n' ∉ t) : t.width = t.length :=
  (width_append_ascii [] h hline).trans (Nat.zero_add _)

/-! ### Whatever follows -/

/-- The text takes at least `n` columns, whatever follows it. -/
def Holds (n : Nat) (t : Text) : Prop := ∀ u, n ≤ width (t ++ u)

namespace Holds

theorem mono (h : t.Holds n) (hm : m ≤ n) : t.Holds m := fun u => hm.trans (h u)

theorem append (h : t.Holds n) (u : Text) : Holds n (t ++ u) := fun v => by
  rw [List.append_assoc]
  exact h _

theorem le_width (h : t.Holds n) : n ≤ t.width := by
  simpa using h []

end Holds

theorem holds_zero (t : Text) : t.Holds 0 := fun _ => Nat.zero_le _

theorem holds_concat (hc : Solo c) (t : Text) : Holds (width t + 1) (t ++ [c]) := fun u => by
  rw [List.append_assoc, List.singleton_append, width_append_cons hc]
  exact Nat.le_add_right ..

theorem spaces_succ (n : Nat) : spaces (n + 1) = spaces n ++ [' '] := List.replicate_succ'

theorem holds_spaces (n : Nat) : (spaces n).Holds n := by
  cases n with
  | zero => exact holds_zero _
  | succ n =>
    have h := holds_concat solo_space (spaces n)
    rwa [width_spaces, ← spaces_succ] at h

theorem printable_space : Printable ' ' := by decide

/-- A selector reaches no farther than the printable character in front of it. -/
theorem selector_cellsBefore (hc : Printable c) (x : Context) :
    (cellsBefore c x).2.selector = none := by
  have hlow : c.toNat ≤ 0xA0 := by have := hc.2; omega
  have hpick {r : Int × Context} (h : selectedWidth? x c = some r) : r.2.selector = none := by
    unfold selectedWidth? at h
    repeat' split at h
    all_goals first
      | cases h; done
      | obtain rfl := Option.some.inj h; rfl
  unfold cellsBefore
  rw [if_pos hlow]
  split
  · rename_i h
    exact hpick h
  · repeat' split
    all_goals rfl

theorem cellsBefore_of_printable (hc : Printable c) (hx : x.selector = none) :
    cellsBefore c x = (1, {}) := by
  obtain ⟨h₁, h₂⟩ := hc
  have hnewline : c ≠ '\n' := by rintro rfl; exact absurd h₁ (by decide)
  have hreturn : c ≠ '\r' := by rintro rfl; exact absurd h₁ (by decide)
  have hlow : c.toNat ≤ 0xA0 := by omega
  simp [cellsBefore, selectedWidth?, hx, hlow, hnewline, hreturn]

/-- What follows a printable character takes nothing back of a text that ends with another one. -/
theorem holds_concat_of_printable (hc : Printable c) (ht : ∀ d ∈ t.getLast?, Printable d) :
    Holds (width t) (t ++ [c]) := by
  rcases List.eq_nil_or_concat' t with rfl | ⟨t, d, rfl⟩
  · exact holds_zero _
  · have hd : Printable d := ht d (by simp)
    intro u
    have hcons : measure (d :: c :: u) = (1 + (measure (c :: u)).1, {}) := by
      rw [measure_cons, cellsBefore_of_printable hd]
      exact selector_cellsBefore hc _
    have hall := congrArg Prod.fst (measure_append (by rw [hcons]) t)
    have hwidth : width (t ++ [d]) = width t + 1 :=
      width_append_ascii t (by simpa using ascii_of_printable hd)
        (by simpa using fun h : '\n' = d => absurd (h ▸ hd.1) (by decide))
    have hrest := measure_nonneg (c :: u)
    have htext : t ++ [d] ++ [c] ++ u = t ++ d :: c :: u := by simp
    have ht := natCast_width t
    have htu := natCast_width (t ++ d :: c :: u)
    rw [hcons] at hall
    rw [htext, hwidth]
    dsimp only at hall
    omega

/-! ### The line being written -/

/-- On the line `n` columns are taken, and `k` of them stay whatever follows. -/
structure Reaches (k n : Nat) (line : Text) : Prop where
  holds : line.Holds k
  le_width : n ≤ line.width
  /-- Without a space at its end the line may lose one more column. -/
  dropSpace : ∀ l, line = l ++ [' '] → l.Holds (min k (l.width - 1))

theorem Reaches.mono {k' n' : Nat} (h : t.Reaches k n) (hk : k' ≤ k) (hn : n' ≤ n) :
    t.Reaches k' n' where
  holds := h.holds.mono hk
  le_width := hn.trans h.le_width
  dropSpace l hl := (h.dropSpace l hl).mono (by omega)

/-- Behind what is appended the columns in front of it stay. -/
theorem Holds.reaches_append (h : t.Holds k) (hu : u ≠ []) (hn : n ≤ width (t ++ u)) :
    Reaches k n (t ++ u) where
  holds := h.append u
  le_width := hn
  dropSpace l hl := by
    obtain ⟨u, c, rfl⟩ := (List.eq_nil_or_concat' u).resolve_left hu
    rw [← List.append_assoc] at hl
    obtain ⟨rfl, -⟩ := List.append_inj' hl rfl
    exact (h.append u).mono (Nat.min_le_left ..)

theorem Reaches.append (h : t.Reaches k n) (hm : m ≤ width (t ++ u)) :
    Reaches k m (t ++ u) := by
  cases u with
  | nil =>
    rw [List.append_nil] at hm ⊢
    exact { h with le_width := hm }
  | cons c u => exact h.holds.reaches_append (List.cons_ne_nil c u) hm

theorem reaches_spaces (h : k ≤ n) : (spaces n).Reaches k n where
  holds := (holds_spaces n).mono h
  le_width := Nat.le_of_eq (width_spaces n).symm
  dropSpace l hl := by
    cases n with
    | zero => cases l <;> cases hl
    | succ n =>
      rw [spaces_succ] at hl
      obtain ⟨rfl, -⟩ := List.append_inj' hl rfl
      rw [width_spaces]
      exact (holds_spaces n).mono (by omega)

/-- All columns of a label, which ends with a space, stay. -/
theorem Reaches.label (h : t.Reaches k n) (ht : ∀ d ∈ t.getLast?, d = ' ') (hu : u ≠ [])
    (hprint : ∀ c ∈ u, Printable c) :
    Reaches (k + (u.length + 1)) (n + (u.length + 1)) (t ++ (u ++ [' '])) := by
  have hline : '\n' ∉ u := fun hmem => absurd (hprint _ hmem).1 (by decide)
  have hwidth : width (t ++ u) = width t + u.length :=
    width_append_ascii t (fun c hc => ascii_of_printable (hprint c hc)) hline
  have hholds := holds_concat solo_space (t ++ u)
  have hk := h.holds.le_width
  have hn := h.le_width
  rw [← List.append_assoc]
  refine ⟨hholds.mono (by omega), le_trans (by omega) hholds.le_width, fun l hl => ?_⟩
  obtain ⟨rfl, -⟩ := List.append_inj' hl rfl
  obtain ⟨v, c, rfl⟩ := (List.eq_nil_or_concat' u).resolve_left hu
  have hfront : ∀ d ∈ (t ++ v).getLast?, Printable d := by
    intro d hd
    rcases List.eq_nil_or_concat' v with rfl | ⟨v, e, rfl⟩
    · rw [List.append_nil] at hd
      rw [ht d hd]
      exact printable_space
    · obtain rfl : e = d := by simpa [← List.append_assoc] using hd
      exact hprint e (by simp)
  have hlabel := holds_concat_of_printable (hprint c (by simp)) hfront
  rw [List.append_assoc] at hlabel
  have hv : width (t ++ v) = width t + v.length :=
    width_append_ascii t (fun c hc => ascii_of_printable (hprint c (by simp [hc])))
      fun hmem => hline (by simp [hmem])
  refine hlabel.mono ?_
  rw [hwidth, hv, List.length_append, List.length_singleton]
  omega

/-! ### What is gained -/

/-- The columns taken for sure, as far as `limit`, when a text is written behind `n` of them: one more
for each visible character of ASCII, and else the `k` that stay. -/
def reached (k limit n : Nat) (t : Text) : Nat :=
  if ∀ c ∈ t, Ascii c then min (n + t.visible.length) limit else k

theorem reached_of_ascii (h : ∀ c ∈ t, Ascii c) :
    reached k limit n t = min (n + t.visible.length) limit := if_pos h

theorem reached_of_not_ascii (h : ¬ ∀ c ∈ t, Ascii c) : reached k limit n t = k := if_neg h

theorem reached_nil_le (k limit n : Nat) : reached k limit n [] ≤ n := by
  rw [reached_of_ascii (by simp)]
  exact Nat.min_le_left ..

theorem reached_le (h : k ≤ limit) (n : Nat) (t : Text) : reached k limit n t ≤ limit := by
  unfold reached
  split
  · exact Nat.min_le_right ..
  · exact h

theorem le_reached (hn : k ≤ n) (h : k ≤ limit) (t : Text) : k ≤ reached k limit n t := by
  unfold reached
  split
  · exact le_min (Nat.le_add_right_of_le hn) h
  · exact Nat.le_refl k

theorem reached_mono {limit' : Nat} (h : limit ≤ limit') (k n : Nat) (t : Text) :
    reached k limit n t ≤ reached k limit' n t := by
  unfold reached
  split
  · omega
  · exact Nat.le_refl k

theorem reached_append (h : k ≤ limit) (n : Nat) (t u : Text) :
    reached k limit n (t ++ u) ≤ reached k limit (reached k limit n t) u := by
  by_cases hu : ∀ c ∈ u, Ascii c
  · rw [reached_of_ascii hu]
    by_cases ht : ∀ c ∈ t, Ascii c
    · rw [reached_of_ascii ht, reached_of_ascii fun c hc => (List.mem_append.1 hc).elim (ht c) (hu c),
        visible_append, List.length_append]
      omega
    · rw [reached_of_not_ascii ht,
        reached_of_not_ascii fun h => ht fun c hc => h c (List.mem_append_left u hc)]
      omega
  · rw [reached_of_not_ascii hu,
      reached_of_not_ascii fun h => hu fun c hc => h c (List.mem_append_right t hc)]

end MarkupText.Text
