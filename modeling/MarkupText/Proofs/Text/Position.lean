import MarkupText.Span
import MarkupText.Proofs.Text.Visible

/-!
# Positions under edits

`Boundary t n` says that byte `n` of `t` lies between two characters, `At t n c` that the character
`c` stands there. `movedStart` and `movedStop` keep boundaries when some characters of a text are
replaced. When only spaces are replaced, `movedStart` keeps the positions where a shown character
starts (`Lead`) and `movedStop` those where one ends (`Trail`).
-/

namespace MarkupText

section Moved
variable {pos removed inserted n : Nat}

theorem movedStart_of_lt (h : n < pos) : movedStart pos removed inserted n = n := if_pos h

theorem movedStart_of_le (h : pos + removed ≤ n) :
    movedStart pos removed inserted n = n - removed + inserted := by
  rw [movedStart, if_neg (by omega), if_pos h]

theorem movedStart_of_inside (h : pos ≤ n) (h' : n < pos + removed) :
    movedStart pos removed inserted n = pos + inserted := by
  rw [movedStart, if_neg (by omega), if_neg (by omega)]

theorem movedStop_of_le (h : n ≤ pos) : movedStop pos removed inserted n = n := if_pos h

theorem movedStop_of_lt (h : pos + removed < n) :
    movedStop pos removed inserted n = n - removed + inserted := by
  rw [movedStop, if_neg (by omega), if_pos h]

theorem movedStop_of_inside (h : pos < n) (h' : n ≤ pos + removed) :
    movedStop pos removed inserted n = pos := by
  rw [movedStop, if_neg (by omega), if_neg (by omega)]

end Moved

namespace Text

/-- Byte `n` starts a character or ends the text. -/
def Boundary (t : Text) (n : Nat) : Prop := ∃ l r, t = l ++ r ∧ l.size = n

/-- The character `c` stands at byte `n`. -/
def At (t : Text) (n : Nat) (c : Char) : Prop := ∃ l r, t = l ++ c :: r ∧ l.size = n

/-- Neither a space nor a newline. -/
def Shown (c : Char) : Prop := c ≠ ' ' ∧ c ≠ '\n'

instance (c : Char) : Decidable (Shown c) := inferInstanceAs (Decidable (_ ∧ _))

/-- A shown character starts at byte `n`. -/
def Lead (t : Text) (n : Nat) : Prop := ∃ c, At t n c ∧ Shown c

/-- A shown character ends at byte `n`. -/
def Trail (t : Text) (n : Nat) : Prop := ∃ p c, At t p c ∧ Shown c ∧ p + c.utf8Size = n

theorem shown_of_not_blank {c : Char} (h : isBlank c = false) : Shown c := by
  constructor <;> rintro rfl
  · rw [isBlank_space] at h; cases h
  · rw [isBlank_newline] at h; cases h

theorem size_eq_zero_iff {t : Text} : t.size = 0 ↔ t = [] := by
  cases t with
  | nil => simp
  | cons c t => have := c.utf8Size_pos; simp; omega

theorem isBoundary_iff {t : Text} {n : Nat} : t.isBoundary n = true ↔ Boundary t n := by
  rw [isBoundary, Option.isSome_iff_exists]
  constructor
  · rintro ⟨⟨l, r⟩, h⟩
    exact ⟨l, r, splitAt?_eq_some_iff.1 h⟩
  · rintro ⟨l, r, h⟩
    exact ⟨(l, r), splitAt?_eq_some_iff.2 h⟩

theorem size_eq_length {t : Text} (h : ∀ c ∈ t, c.utf8Size = 1) : t.size = t.length := by
  induction t with
  | nil => rfl
  | cons c t ih =>
    rw [size_cons, h c List.mem_cons_self, ih fun d hd => h d (List.mem_cons_of_mem _ hd),
      List.length_cons, Nat.add_comm]

theorem slice?_eq_some {t m : Text} {start stop : Nat} (h : t.slice? start stop = some m) :
    ∃ l r, t = l ++ m ++ r ∧ l.size = start ∧ start + m.size = stop := by
  unfold slice? at h
  split at h
  · rename_i hle
    obtain ⟨⟨l, r⟩, hl, h⟩ := Option.bind_eq_some_iff.1 h
    obtain ⟨⟨m', r'⟩, hr, h⟩ := Option.bind_eq_some_iff.1 h
    obtain rfl := Option.some.inj h
    obtain ⟨rfl, rfl⟩ := splitAt?_eq_some_iff.1 hl
    obtain ⟨rfl, hm⟩ := splitAt?_eq_some_iff.1 hr
    exact ⟨l, r', by simp, rfl, by omega⟩
  · cases h

/-- Of two cuts of a text the one at the smaller position is inside the first part of the other. -/
theorem append_eq_of_size_le {l x l' y : Text} (h : l ++ x = l' ++ y) (hs : l'.size ≤ l.size) :
    ∃ u, l = l' ++ u ∧ y = u ++ x := by
  rcases List.append_eq_append_iff.1 h with ⟨u, rfl, rfl⟩ | ⟨u, rfl, rfl⟩
  · have hu : u = [] := size_eq_zero_iff.1 (by rw [size_append] at hs; omega)
    exact ⟨[], by simp [hu], by simp [hu]⟩
  · exact ⟨u, rfl, rfl⟩

namespace Boundary
variable {t u l m r i : Text} {n p : Nat}

theorem size (t : Text) : Boundary t t.size := ⟨t, [], by simp, rfl⟩

theorem le (h : Boundary t n) : n ≤ t.size := by
  obtain ⟨l, r, rfl, rfl⟩ := h
  simp

theorem append_right (h : Boundary t n) (u : Text) : Boundary (t ++ u) n := by
  obtain ⟨l, r, rfl, rfl⟩ := h
  exact ⟨l, r ++ u, by simp, rfl⟩

theorem append_left (h : Boundary t n) (u : Text) : Boundary (u ++ t) (u.size + n) := by
  obtain ⟨l, r, rfl, rfl⟩ := h
  exact ⟨u ++ l, r, by simp, by simp⟩

theorem of_append (h : Boundary (t ++ u) n) (hn : n ≤ t.size) : Boundary t n := by
  obtain ⟨l, r, hlr, rfl⟩ := h
  obtain ⟨v, rfl, -⟩ := append_eq_of_size_le hlr hn
  exact ⟨l, v, rfl, rfl⟩

theorem of_append_left (h : Boundary (t ++ u) n) (hn : t.size ≤ n) : Boundary u (n - t.size) := by
  obtain ⟨l, r, hlr, rfl⟩ := h
  obtain ⟨v, rfl, rfl⟩ := append_eq_of_size_le hlr.symm hn
  exact ⟨v, r, rfl, by simp⟩

theorem shift (h : Boundary (l ++ m ++ r) p) (hp : l.size + m.size ≤ p) :
    Boundary (l ++ i ++ r) (p - m.size + i.size) := by
  have h' := (h.of_append_left (by rw [size_append]; exact hp)).append_left (l ++ i)
  rw [size_append, size_append] at h'
  rwa [show p - m.size + i.size = l.size + i.size + (p - (l.size + m.size)) by omega]

theorem movedStart (h : Boundary (l ++ m ++ r) p) :
    Boundary (l ++ i ++ r) (movedStart l.size m.size i.size p) := by
  rw [List.append_assoc] at h
  unfold MarkupText.movedStart
  split
  · rename_i hp
    rw [List.append_assoc]
    exact (h.of_append (Nat.le_of_lt hp)).append_right _
  · split
    · rename_i hp
      rw [← List.append_assoc] at h
      exact h.shift hp
    · have h' := (Boundary.size (l ++ i)).append_right r
      rwa [size_append] at h'

theorem movedStop (h : Boundary (l ++ m ++ r) p) :
    Boundary (l ++ i ++ r) (movedStop l.size m.size i.size p) := by
  rw [List.append_assoc] at h
  unfold MarkupText.movedStop
  split
  · rename_i hp
    rw [List.append_assoc]
    exact (h.of_append hp).append_right _
  · split
    · rename_i hp
      rw [← List.append_assoc] at h
      exact h.shift (Nat.le_of_lt hp)
    · rw [List.append_assoc]
      exact (Boundary.size l).append_right _

end Boundary

namespace At
variable {t u l r i : Text} {c : Char} {n k : Nat}

theorem boundary (h : At t n c) : Boundary t n := by
  obtain ⟨l, r, rfl, rfl⟩ := h
  exact ⟨l, c :: r, rfl, rfl⟩

theorem boundary_end (h : At t n c) : Boundary t (n + c.utf8Size) := by
  obtain ⟨l, r, rfl, rfl⟩ := h
  exact ⟨l ++ [c], r, by simp, by simp⟩

theorem append_right (h : At t n c) (u : Text) : At (t ++ u) n c := by
  obtain ⟨l, r, rfl, rfl⟩ := h
  exact ⟨l, r ++ u, by simp, rfl⟩

theorem append_left (h : At t n c) (u : Text) : At (u ++ t) (u.size + n) c := by
  obtain ⟨l, r, rfl, rfl⟩ := h
  exact ⟨u ++ l, r, by simp, by simp⟩

theorem mem (h : At t n c) : c ∈ t := by
  obtain ⟨l, r, rfl, -⟩ := h
  simp

theorem lt_size (h : At t n c) : n < t.size := by
  have := h.boundary_end.le
  have := c.utf8Size_pos
  omega

/-- One character stands at a position. -/
theorem unique {d : Char} (h : At t n c) (h' : At t n d) : c = d := by
  obtain ⟨l, r, rfl, rfl⟩ := h
  obtain ⟨l', r', heq, hsize⟩ := h'
  obtain ⟨v, rfl, hv⟩ := append_eq_of_size_le heq (Nat.le_of_eq hsize)
  have hempty : v = [] := size_eq_zero_iff.1 (by rw [size_append] at hsize; omega)
  rw [hempty] at hv
  exact (List.cons.inj hv).1.symm

theorem append_cases (h : At (t ++ u) n c) : At t n c ∨ ∃ q, n = t.size + q ∧ At u q c := by
  obtain ⟨l, r, heq, rfl⟩ := h
  rcases List.append_eq_append_iff.1 heq with ⟨v, rfl, hu⟩ | ⟨v, rfl, hv⟩
  · exact .inr ⟨size v, by simp, v, r, hu, rfl⟩
  · cases v with
    | nil => exact .inr ⟨0, by simp, [], r, by simpa using hv.symm, rfl⟩
    | cons d v =>
      obtain ⟨rfl, -⟩ := List.cons.inj hv
      exact .inl ⟨l, v, rfl, rfl⟩

theorem of_append (h : At (t ++ u) n c) (hn : n < t.size) : At t n c := by
  rcases h.append_cases with h | ⟨q, rfl, -⟩
  · exact h
  · omega

/-- A character ends before the next boundary. -/
theorem end_le {m : Nat} (h : At t n c) (hm : Boundary t m) (hlt : n < m) : n + c.utf8Size ≤ m := by
  obtain ⟨l, r, rfl, rfl⟩ := hm
  exact (h.of_append hlt).boundary_end.le

theorem spaces_cases (h : At (l ++ spaces k ++ r) n c) (hc : c ≠ ' ') :
    At l n c ∨ ∃ q, n = l.size + k + q ∧ At r q c := by
  rcases h.append_cases with h₁ | ⟨q, hq, h₁⟩
  · rcases h₁.append_cases with h₂ | ⟨q, -, h₂⟩
    · exact .inl h₂
    · exact absurd (List.eq_of_mem_replicate h₂.mem) hc
  · exact .inr ⟨q, by rw [hq, size_append, size_spaces], h₁⟩

/-- A character that is no space keeps its place when spaces are replaced. -/
theorem edit (h : At (l ++ spaces k ++ r) n c) (hc : c ≠ ' ') :
    At (l ++ i ++ r) (movedStart l.size k i.size n) c ∧
      movedStop l.size k i.size (n + c.utf8Size) =
        movedStart l.size k i.size n + c.utf8Size := by
  have hpos := c.utf8Size_pos
  rcases h.spaces_cases hc with h₁ | ⟨q, rfl, h₁⟩
  · have hle := h₁.boundary_end.le
    have hs : movedStart l.size k i.size n = n := by rw [movedStart, if_pos (by omega)]
    rw [hs, movedStop, if_pos hle, List.append_assoc]
    exact ⟨h₁.append_right _, rfl⟩
  · have hs : movedStart l.size k i.size (l.size + k + q) = (l ++ i).size + q := by
      rw [movedStart, if_neg (by omega), if_pos (by omega), size_append]; omega
    rw [hs, movedStop, if_neg (by omega), if_pos (by omega), size_append]
    exact ⟨by rw [← size_append]; exact h₁.append_left _, by omega⟩

end At

namespace Lead
variable {t u l r i : Text} {n k : Nat}

theorem boundary (h : Lead t n) : Boundary t n := h.elim fun _ h => h.1.boundary

theorem append_right (h : Lead t n) (u : Text) : Lead (t ++ u) n :=
  h.elim fun c h => ⟨c, h.1.append_right u, h.2⟩

theorem of_append (h : Lead (t ++ u) n) (hn : n < t.size) : Lead t n :=
  h.elim fun c h => ⟨c, h.1.of_append hn, h.2⟩

theorem movedStart (h : Lead (l ++ spaces k ++ r) n) :
    Lead (l ++ i ++ r) (movedStart l.size k i.size n) :=
  h.elim fun c h => ⟨c, (h.1.edit h.2.1).1, h.2⟩

/-- The first character of a text that is not skipped. -/
theorem of_takeWhile {skip : Char → Bool} (hskip : ∀ c, skip c = false → Shown c) {t : Text}
    (ht : ∃ c ∈ t, skip c = false) (l r : Text) :
    Lead (l ++ t ++ r) (l.size + size (t.takeWhile skip)) := by
  induction t generalizing l with
  | nil => obtain ⟨c, hc, -⟩ := ht; cases hc
  | cons d t ih =>
    cases hd : skip d with
    | false => exact ⟨d, ⟨l, t ++ r, by simp, by simp [hd]⟩, hskip d hd⟩
    | true =>
      have ht' : ∃ c ∈ t, skip c = false := by
        obtain ⟨c, hc, hc'⟩ := ht
        rcases List.mem_cons.1 hc with rfl | hc
        · rw [hd] at hc'; cases hc'
        · exact ⟨c, hc, hc'⟩
      have := ih ht' (l ++ [d])
      simpa [hd, Nat.add_assoc] using this

end Lead

namespace Trail
variable {t u l r i : Text} {n k : Nat}

theorem boundary (h : Trail t n) : Boundary t n := by
  obtain ⟨p, c, h, -, rfl⟩ := h
  exact h.boundary_end

theorem append_right (h : Trail t n) (u : Text) : Trail (t ++ u) n := by
  obtain ⟨p, c, h, hc, rfl⟩ := h
  exact ⟨p, c, h.append_right u, hc, rfl⟩

theorem of_append (h : Trail (t ++ u) n) (hn : n ≤ t.size) : Trail t n := by
  obtain ⟨p, c, h, hc, rfl⟩ := h
  have := c.utf8Size_pos
  exact ⟨p, c, h.of_append (by omega), hc, rfl⟩

theorem of_getLast? {c : Char} (h : t.getLast? = some c) (hc : Shown c) : Trail t t.size := by
  obtain ⟨l, rfl⟩ := List.getLast?_eq_some_iff.1 h
  exact ⟨Text.size l, c, ⟨l, [], rfl, rfl⟩, hc, by simp⟩

theorem movedStop (h : Trail (l ++ spaces k ++ r) n) :
    Trail (l ++ i ++ r) (movedStop l.size k i.size n) := by
  obtain ⟨p, c, h, hc, rfl⟩ := h
  obtain ⟨hat, hstop⟩ := h.edit (i := i) hc.1
  exact ⟨_, c, hat, hc, hstop.symm⟩

/-- The last character of a text that is not skipped. -/
theorem of_takeWhile {skip : Char → Bool} (hskip : ∀ c, skip c = false → Shown c) {t : Text}
    (ht : ∃ c ∈ t, skip c = false) (l r : Text) :
    Trail (l ++ t ++ r) (l.size + t.size - size (t.reverse.takeWhile skip)) := by
  induction t using List.reverseRecOn generalizing r with
  | nil => obtain ⟨c, hc, -⟩ := ht; cases hc
  | append_singleton t d ih =>
    cases hd : skip d with
    | false =>
      exact ⟨(l ++ t).size, d, ⟨l ++ t, r, by simp, rfl⟩, hskip d hd, by simp [hd]; omega⟩
    | true =>
      have ht' : ∃ c ∈ t, skip c = false := by
        obtain ⟨c, hc, hc'⟩ := ht
        rcases List.mem_append.1 hc with hc | hc
        · exact ⟨c, hc, hc'⟩
        · rw [List.mem_singleton.1 hc, hd] at hc'; cases hc'
      have := ih ht' ([d] ++ r)
      simp only [List.reverse_append, List.reverse_singleton, List.singleton_append,
        List.takeWhile_cons, hd, if_true, size_append, size_cons, size_nil] at this ⊢
      rw [show l.size + (size t + (d.utf8Size + 0)) -
        (d.utf8Size + size (List.takeWhile skip t.reverse)) =
        l.size + size t - size (List.takeWhile skip t.reverse) by omega]
      simpa using this

end Trail

/-- What a range covers that begins and ends with shown characters. -/
theorem slice_of_lead_trail {t : Text} {start stop : Nat} (hstart : Lead t start)
    (hstop : Trail t stop) (hlt : start < stop) :
    ∃ c d, ((t.slice? start stop).getD []).head? = some c ∧
      ((t.slice? start stop).getD []).getLast? = some d ∧ Shown c ∧ Shown d := by
  obtain ⟨c, ⟨l, x, rfl, rfl⟩, hc⟩ := hstart
  obtain ⟨p, d, ⟨l', y, heq, rfl⟩, hd, rfl⟩ := hstop
  have heq' : (l' ++ [d]) ++ y = l ++ c :: x := by rw [heq]; simp
  obtain ⟨u, hu, hcx⟩ := append_eq_of_size_le heq' (by simp at hlt ⊢; omega)
  have hsize : size l' + d.utf8Size = size l + size u := by
    simpa using congrArg Text.size hu
  have hslice : slice? (l ++ c :: x) (size l) (size l' + d.utf8Size) = some u := by
    rw [hsize, hcx, ← List.append_assoc]
    exact slice?_append_size l u y
  have hne : u ≠ [] := by
    rintro rfl
    rw [hsize] at hlt
    exact absurd hlt (Nat.lt_irrefl _)
  rw [hslice]
  refine ⟨c, d, ?_, ?_, hc, hd⟩
  · have hhead : (u ++ y).head? = u.head? := List.head?_append_of_ne_nil u hne
    rw [Option.getD_some, ← hhead, ← hcx]
    rfl
  · rw [Option.getD_some, ← List.getLast?_append_of_ne_nil l hne, ← hu]
    exact List.getLast?_concat ..

end Text
end MarkupText
