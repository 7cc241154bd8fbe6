import MarkupText.Proofs.Text.Position

/-!
# Ranks of positions

`rank p t n` counts the characters with `p` that start before byte `n`. Unlike the byte itself, a
rank does not change when characters without `p` come and go: an edit that replaces only such
characters keeps the rank of every position that moves along with it (`rank_movedStart`,
`rank_movedStop`). So ranks say of which characters a span is, whatever the layout did since.
-/

namespace MarkupText.Text

/-- The number of characters with `p` that start before byte `n`. -/
def rank (p : Char → Bool) : Text → Nat → Nat
  | [], _ => 0
  | c :: t, n => if n = 0 then 0 else (if p c then 1 else 0) + rank p t (n - c.utf8Size)

variable {p : Char → Bool} {t u l m r i : Text} {c : Char} {n k : Nat}

@[simp] theorem rank_nil (p : Char → Bool) (n : Nat) : rank p [] n = 0 := rfl

@[simp] theorem rank_zero (p : Char → Bool) (t : Text) : rank p t 0 = 0 := by
  cases t <;> rfl

theorem rank_cons (h : 0 < n) (c : Char) (t : Text) :
    rank p (c :: t) n = (if p c then 1 else 0) + rank p t (n - c.utf8Size) :=
  if_neg (Nat.ne_of_gt h)

theorem rank_append (p : Char → Bool) (t u : Text) (n : Nat) :
    rank p (t ++ u) n = rank p t n + rank p u (n - t.size) := by
  induction t generalizing n with
  | nil => simp
  | cons c t ih =>
    rcases Nat.eq_zero_or_pos n with rfl | hn
    · simp
    · rw [List.cons_append, rank_cons hn, rank_cons hn, ih, size_cons, Nat.add_assoc, Nat.sub_sub]

theorem rank_of_size_le (h : t.size ≤ n) : rank p t n = t.countP p := by
  induction t generalizing n with
  | nil => rfl
  | cons c t ih =>
    have hc := c.utf8Size_pos
    rw [size_cons] at h
    rw [rank_cons (by omega), ih (by omega), List.countP_cons, Nat.add_comm]

theorem rank_le_countP (p : Char → Bool) (t : Text) (n : Nat) : rank p t n ≤ t.countP p := by
  induction t generalizing n with
  | nil => exact Nat.le_refl 0
  | cons c t ih =>
    rcases Nat.eq_zero_or_pos n with rfl | hn
    · simp
    · have := ih (n - c.utf8Size)
      rw [rank_cons hn, List.countP_cons]
      omega

theorem rank_mono (p : Char → Bool) (t : Text) (h : n ≤ k) : rank p t n ≤ rank p t k := by
  induction t generalizing n k with
  | nil => exact Nat.le_refl 0
  | cons c t ih =>
    rcases Nat.eq_zero_or_pos n with rfl | hn
    · simp
    · have := ih (n := n - c.utf8Size) (k := k - c.utf8Size) (by omega)
      rw [rank_cons hn, rank_cons (by omega)]
      omega

theorem rank_lt_rank (h : At t n c) (hc : p c = true) (hlt : n < k) : rank p t n < rank p t k := by
  obtain ⟨l, r, rfl, rfl⟩ := h
  have hle : rank p l (size l) ≤ rank p l k := rank_mono p l (Nat.le_of_lt hlt)
  have hpos : 0 < k - size l := by omega
  rw [rank_append, rank_append, Nat.sub_self, rank_zero, rank_cons hpos, hc, if_pos rfl]
  omega

theorem le_iff_rank_le (h : At t k c) (hc : p c = true) : n ≤ k ↔ rank p t n ≤ rank p t k := by
  constructor
  · exact rank_mono p t
  · intro hle
    by_contra hlt
    have := rank_lt_rank h hc (Nat.lt_of_not_le hlt)
    omega

theorem rank_eq_zero (h : ∀ c ∈ t, p c = false) (n : Nat) : rank p t n = 0 := by
  have hle := rank_le_countP p t n
  have hzero : t.countP p = 0 :=
    List.countP_eq_zero.2 fun c hc => by rw [h c hc]; exact Bool.false_ne_true
  omega

theorem rank_size (p : Char → Bool) (l r : Text) : rank p (l ++ r) l.size = l.countP p := by
  rw [rank_append, Nat.sub_self, rank_zero, Nat.add_zero, rank_of_size_le (Nat.le_refl _)]

theorem rank_append_right (h : n ≤ t.size) (u : Text) : rank p (t ++ u) n = rank p t n := by
  rw [rank_append, Nat.sub_eq_zero_of_le h, rank_zero, Nat.add_zero]

/-- Between two texts, characters without `p` do not count. -/
theorem rank_skip (hm : ∀ c ∈ m, p c = false) (n : Nat) :
    rank p (l ++ m ++ r) n = rank p l n + rank p r (n - (l.size + m.size)) := by
  rw [rank_append, rank_append, rank_eq_zero hm, size_append, Nat.add_zero]

/-- At their end, they do not count either. -/
theorem rank_skip_end (hm : ∀ c ∈ m, p c = false) (l r : Text) :
    rank p (l ++ m ++ r) (l ++ m : Text).size = rank p (l ++ m ++ r) l.size := by
  have hnone : m.countP p = 0 := List.countP_eq_zero.2 (by simpa using hm)
  rw [rank_size, List.append_assoc, rank_size, List.countP_append, hnone, Nat.add_zero]

section Edit
variable (hm : ∀ c ∈ m, p c = false) (hi : ∀ c ∈ i, p c = false)
include hm hi

/-- A position may go anywhere where as much lies behind the edit. -/
theorem rank_moved {n n' : Nat} (h : n' = n ∧ n ≤ l.size ∨ l.size ≤ n ∧ l.size ≤ n' ∧
    n' - (l.size + i.size) = n - (l.size + m.size)) :
    rank p (l ++ i ++ r) n' = rank p (l ++ m ++ r) n := by
  rw [rank_skip hm, rank_skip hi]
  rcases h with ⟨rfl, hn⟩ | ⟨hn, hn', heq⟩
  · rw [Nat.sub_eq_zero_of_le (by omega), Nat.sub_eq_zero_of_le (by omega)]
  · rw [rank_of_size_le hn, rank_of_size_le hn', heq]

theorem rank_movedStart (n : Nat) :
    rank p (l ++ i ++ r) (movedStart l.size m.size i.size n) = rank p (l ++ m ++ r) n := by
  refine rank_moved hm hi ?_
  unfold movedStart
  split
  · omega
  · split <;> omega

theorem rank_movedStop (n : Nat) :
    rank p (l ++ i ++ r) (movedStop l.size m.size i.size n) = rank p (l ++ m ++ r) n := by
  refine rank_moved hm hi ?_
  unfold movedStop
  split
  · omega
  · split <;> omega

end Edit

/-! ### Visible characters -/

/-- The number of visible characters that start before byte `n`. -/
def seen (t : Text) (n : Nat) : Nat := rank (! isBlank ·) t n

theorem length_visible (t : Text) : t.visible.length = t.countP (! isBlank ·) :=
  List.countP_eq_length_filter.symm

theorem shown_of_visible : ∀ c, (! isBlank c) = true → Shown c :=
  fun _ h => shown_of_not_blank (by simpa using h)

theorem seen_mono (t : Text) (h : n ≤ k) : seen t n ≤ seen t k := rank_mono _ t h

theorem seen_le_length (t : Text) (n : Nat) : seen t n ≤ t.visible.length :=
  length_visible t ▸ rank_le_countP _ t n

theorem seen_of_size_le (h : t.size ≤ n) : seen t n = t.visible.length :=
  length_visible t ▸ rank_of_size_le h

theorem seen_size (l r : Text) : seen (l ++ r) l.size = l.visible.length :=
  length_visible l ▸ rank_size _ l r

theorem le_iff_seen_le (h : At t k c) (hc : isBlank c = false) : n ≤ k ↔ seen t n ≤ seen t k :=
  le_iff_rank_le h (by rw [hc]; rfl)

theorem seen_append_blank (hm : m.visible = []) (t : Text) : seen (t ++ m) = seen t := by
  funext n
  have hblank : ∀ c ∈ m, (! isBlank c) = false := fun c hc => by
    rw [visible_eq_nil_iff.1 hm c hc]
    rfl
  rw [seen, rank_append, rank_eq_zero hblank, Nat.add_zero]
  rfl

theorem seen_min_size (t : Text) (n : Nat) : seen t (min n t.size) = seen t n := by
  rcases Nat.le_total n t.size with h | h
  · rw [Nat.min_eq_left h]
  · rw [Nat.min_eq_right h, seen_of_size_le h, seen_of_size_le (Nat.le_refl _)]

/-- Every visible character stands somewhere. -/
theorem exists_at_seen (h : k < t.visible.length) :
    ∃ n c, At t n c ∧ isBlank c = false ∧ seen t n = k := by
  induction t generalizing k with
  | nil => cases h
  | cons d t ih =>
    cases hd : isBlank d with
    | true =>
      rw [visible_cons_of_blank hd] at h
      obtain ⟨n, c, hat, hc, hk⟩ := ih h
      refine ⟨d.utf8Size + n, c, hat.append_left [d], hc, ?_⟩
      have hpos := d.utf8Size_pos
      rw [seen, rank_cons (by omega), hd, Nat.add_sub_cancel_left]
      exact (Nat.zero_add _).trans hk
    | false =>
      cases k with
      | zero => exact ⟨0, d, ⟨[], t, rfl, rfl⟩, hd, rank_zero _ _⟩
      | succ k =>
        have hvisible : visible (d :: t) = d :: visible t := List.filter_cons_of_pos (by simp [hd])
        rw [hvisible] at h
        obtain ⟨n, c, hat, hc, hk⟩ := ih (Nat.lt_of_succ_lt_succ h)
        refine ⟨d.utf8Size + n, c, hat.append_left [d], hc, ?_⟩
        have hpos := d.utf8Size_pos
        rw [seen, rank_cons (by omega), hd, Nat.add_sub_cancel_left, Nat.add_comm]
        exact congrArg (· + 1) hk

end MarkupText.Text
