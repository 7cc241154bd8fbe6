import MarkupText.Decimal.Digits

/-!
# Sets of characters

A `CharSet` lists the places at which membership changes as the characters are walked in order. A
character is known by its `rank` among all characters, so no gap stands where the code points of
surrogates are left out, and a set has one list only. The two operations are `complement` and
`combine`, which joins two sets by a connective on membership; `mem_complement` and `mem_combine`
say that membership follows it.
-/

namespace MarkupText

/-- The number of code points that are surrogates, which stand for no character. -/
def surrogateCount : Nat := 0x800

/-- The number of characters that come before one. -/
def rankOf (codePoint : Nat) : Nat :=
  if codePoint < 0xD800 then codePoint else codePoint - surrogateCount

/-- The code point of the character that comes after `rank` others. -/
def codePointOf (rank : Nat) : Nat := if rank < 0xD800 then rank else rank + surrogateCount

/-- The last code point. -/
def lastCodePoint : Nat := 0x10FFFF

/-- A number in hexadecimal digits. -/
def hexNumber (t : String) : Nat :=
  t.toList.foldl (fun n c => 16 * n + (hexValue? c).getD 0) 0

/-- A set of characters by the ranks at which membership changes, in order. -/
structure CharSet where
  bounds : List Nat
  sorted : bounds.Pairwise (· < ·) := by simp

namespace CharSet

/-- Membership of the character at `n`, if it is `inside` up to the first bound. -/
def holdsAt (n : Nat) (inside : Bool) : List Nat → Bool
  | [] => inside
  | b :: bs => if n < b then inside else holdsAt n (!inside) bs

/-- Whether a set has the character of a code point. -/
def has (codePoint : Nat) (s : CharSet) : Bool := holdsAt (rankOf codePoint) false s.bounds

def mem (c : Char) (s : CharSet) : Bool := s.has c.toNat

theorem holdsAt_not (n : Nat) (inside : Bool) (bs : List Nat) :
    holdsAt n (!inside) bs = !holdsAt n inside bs := by
  induction bs generalizing inside with
  | nil => rfl
  | cons b bs ih => simp only [holdsAt, ih]; split <;> rfl

theorem holdsAt_eq_bne (n : Nat) (x : Bool) (bs : List Nat) :
    holdsAt n x bs = (x != holdsAt n false bs) := by
  cases x
  · simp
  · simpa using holdsAt_not n false bs

theorem holdsAt_of_lt {n : Nat} {x : Bool} {bs : List Nat} (h : ∀ b ∈ bs, n < b) :
    holdsAt n x bs = x := by
  cases bs with
  | nil => rfl
  | cons b bs => simp [holdsAt, h b (List.mem_cons_self ..)]

/-! ## Complement -/

/-- Changes membership from rank 0 on. -/
def toggle : List Nat → List Nat
  | 0 :: bs => bs
  | bs => 0 :: bs

theorem holdsAt_toggle (n : Nat) (inside : Bool) (bs : List Nat) :
    holdsAt n inside (toggle bs) = !holdsAt n inside bs := by
  unfold toggle
  split <;> simp [holdsAt, holdsAt_not]

theorem sorted_toggle {bs : List Nat} (h : bs.Pairwise (· < ·)) :
    (toggle bs).Pairwise (· < ·) := by
  unfold toggle
  split
  · exact (List.pairwise_cons.1 h).2
  · rename_i hne
    refine List.pairwise_cons.2 ⟨fun b hb => ?_, h⟩
    match bs, h, hne with
    | a :: bs, h, hne =>
      have ha : 0 < a := Nat.pos_of_ne_zero fun h0 => hne bs (h0 ▸ rfl)
      rcases List.mem_cons.1 hb with rfl | hb
      · exact ha
      · exact Nat.lt_trans ha ((List.pairwise_cons.1 h).1 b hb)

/-- The characters outside a set. -/
def complement (s : CharSet) : CharSet where
  bounds := toggle s.bounds
  sorted := sorted_toggle s.sorted

theorem mem_complement (c : Char) (s : CharSet) : s.complement.mem c = !s.mem c :=
  holdsAt_toggle ..

/-! ## Connectives -/

/-- A bound in front of the others, if membership changes there. -/
def boundIf (changes : Bool) (b : Nat) (bs : List Nat) : List Nat := if changes then b :: bs else bs

/-- The bounds of the set whose membership is `f` of the memberships in two others, which are `x`
and `y` up to their first bounds. -/
def merge (f : Bool → Bool → Bool) (x y : Bool) : List Nat → List Nat → List Nat
  | [], cs => if f x y = f x (!y) then [] else cs
  | bs, [] => if f x y = f (!x) y then [] else bs
  | b :: bs, c :: cs =>
    if b < c then boundIf (f x y != f (!x) y) b (merge f (!x) y bs (c :: cs))
    else if c < b then boundIf (f x y != f x (!y)) c (merge f x (!y) (b :: bs) cs)
    else boundIf (f x y != f (!x) (!y)) b (merge f (!x) (!y) bs cs)
termination_by bs cs => bs.length + cs.length

theorem eq_or_mem_of_mem_boundIf {p : Bool} {b d : Nat} {bs : List Nat}
    (hd : d ∈ boundIf p b bs) : d = b ∨ d ∈ bs := by
  unfold boundIf at hd
  split at hd
  · exact List.mem_cons.1 hd
  · exact .inr hd

theorem sorted_boundIf {p : Bool} {b : Nat} {bs : List Nat} (hb : ∀ d ∈ bs, b < d)
    (h : bs.Pairwise (· < ·)) : (boundIf p b bs).Pairwise (· < ·) := by
  unfold boundIf
  split
  · exact List.pairwise_cons.2 ⟨hb, h⟩
  · exact h

theorem holdsAt_boundIf {n b : Nat} {bs : List Nat} {x y : Bool} (hb : ∀ d ∈ bs, b < d) :
    holdsAt n x (boundIf (x != y) b bs) = if n < b then x else holdsAt n y bs := by
  unfold boundIf
  split
  · cases x <;> cases y <;> simp_all [holdsAt]
  · rename_i h
    obtain rfl : x = y := by simpa using h
    split
    · rename_i hn
      exact holdsAt_of_lt fun d hd => Nat.lt_trans hn (hb d hd)
    · rfl

section merge
variable {f : Bool → Bool → Bool} {x y : Bool} {bs cs : List Nat}

theorem mem_of_mem_merge {d : Nat} (hd : d ∈ merge f x y bs cs) : d ∈ bs ∨ d ∈ cs := by
  fun_induction merge f x y bs cs with
  | case1 => simp at hd
  | case2 => exact .inr hd
  | case3 => simp at hd
  | case4 => exact .inl hd
  | case5 x y b bs c cs _ ih | case6 x y b bs c cs _ _ ih | case7 x y b bs c cs _ _ ih =>
    rcases eq_or_mem_of_mem_boundIf hd with rfl | hd
    · simp
    · rcases ih hd with h | h <;> simp_all

/-- A bound before all those of two sets is before all those of their merge. -/
theorem lt_of_mem_merge {a : Nat} (hb : ∀ d ∈ bs, a < d) (hc : ∀ d ∈ cs, a < d) :
    ∀ d ∈ merge f x y bs cs, a < d :=
  fun d hd => (mem_of_mem_merge hd).elim (hb d) (hc d)

/-- The first bound of one list is before all those of another with a greater first bound. -/
theorem lt_of_mem_sorted {a b : Nat} (hab : a < b) (hs : (b :: bs).Pairwise (· < ·)) :
    ∀ d ∈ b :: bs, a < d := by
  intro d hd
  rcases List.mem_cons.1 hd with rfl | hd
  · exact hab
  · exact Nat.lt_trans hab ((List.pairwise_cons.1 hs).1 d hd)

theorem sorted_merge (hb : bs.Pairwise (· < ·)) (hc : cs.Pairwise (· < ·)) :
    (merge f x y bs cs).Pairwise (· < ·) := by
  fun_induction merge f x y bs cs with
  | case1 => exact .nil
  | case2 => exact hc
  | case3 => exact .nil
  | case4 => exact hb
  | case5 x y b bs c cs hlt ih =>
    have ⟨hb', hbs⟩ := List.pairwise_cons.1 hb
    exact sorted_boundIf (lt_of_mem_merge hb' (lt_of_mem_sorted hlt hc)) (ih hbs hc)
  | case6 x y b bs c cs _ hlt ih =>
    have ⟨hc', hcs⟩ := List.pairwise_cons.1 hc
    exact sorted_boundIf (lt_of_mem_merge (lt_of_mem_sorted hlt hb) hc') (ih hb hcs)
  | case7 x y b bs c cs h1 h2 ih =>
    have ⟨hb', hbs⟩ := List.pairwise_cons.1 hb
    have ⟨hc', hcs⟩ := List.pairwise_cons.1 hc
    obtain rfl : b = c := by omega
    exact sorted_boundIf (lt_of_mem_merge hb' hc') (ih hbs hcs)

theorem holdsAt_merge_nil_left (n : Nat) (cs : List Nat) :
    holdsAt n (f x y) (if f x y = f x (!y) then [] else cs) = f x (holdsAt n y cs) := by
  rw [holdsAt_eq_bne n y cs]
  split
  · cases y <;> cases holdsAt n false cs <;> simp_all [holdsAt]
  · rw [holdsAt_eq_bne]
    cases y <;> cases holdsAt n false cs <;> cases hf : f x false <;> cases ht : f x true <;>
      simp_all

theorem holdsAt_merge_nil_right (n : Nat) (bs : List Nat) :
    holdsAt n (f x y) (if f x y = f (!x) y then [] else bs) = f (holdsAt n x bs) y :=
  holdsAt_merge_nil_left n bs (f := fun y x => f x y)

theorem holdsAt_merge (n : Nat) (hb : bs.Pairwise (· < ·)) (hc : cs.Pairwise (· < ·)) :
    holdsAt n (f x y) (merge f x y bs cs) = f (holdsAt n x bs) (holdsAt n y cs) := by
  fun_induction merge f x y bs cs with
  | case1 x y cs h | case2 x y cs h =>
    simpa [h, holdsAt] using holdsAt_merge_nil_left n cs (f := f) (x := x) (y := y)
  | case3 x y bs _ h | case4 x y bs _ h =>
    simpa [h, holdsAt] using holdsAt_merge_nil_right n bs (f := f) (x := x) (y := y)
  | case5 x y b bs c cs hlt ih =>
    have ⟨hb', hbs⟩ := List.pairwise_cons.1 hb
    rw [holdsAt_boundIf (lt_of_mem_merge hb' (lt_of_mem_sorted hlt hc)), ih hbs hc]
    simp only [holdsAt]
    split
    · rw [if_pos (by omega)]
    · rfl
  | case6 x y b bs c cs _ hlt ih =>
    have ⟨hc', hcs⟩ := List.pairwise_cons.1 hc
    rw [holdsAt_boundIf (lt_of_mem_merge (lt_of_mem_sorted hlt hb) hc'), ih hb hcs]
    simp only [holdsAt]
    split
    · rw [if_pos (by omega)]
    · rfl
  | case7 x y b bs c cs h1 h2 ih =>
    have ⟨hb', hbs⟩ := List.pairwise_cons.1 hb
    have ⟨hc', hcs⟩ := List.pairwise_cons.1 hc
    obtain rfl : b = c := by omega
    rw [holdsAt_boundIf (lt_of_mem_merge hb' hc'), ih hbs hcs]
    simp only [holdsAt]
    split <;> rfl

end merge

/-- The characters for which `f` of the memberships in `s` and `t` holds, where `f` does not hold
of characters in neither. -/
def combine (f : Bool → Bool → Bool) (s t : CharSet) : CharSet where
  bounds := merge f false false s.bounds t.bounds
  sorted := sorted_merge s.sorted t.sorted

theorem mem_combine {f : Bool → Bool → Bool} (hf : f false false = false) (c : Char)
    (s t : CharSet) : (combine f s t).mem c = f (s.mem c) (t.mem c) := by
  have h := holdsAt_merge (f := f) (x := false) (y := false) (rankOf c.toNat) s.sorted t.sorted
  rwa [hf] at h

def union (s t : CharSet) : CharSet := combine (· || ·) s t

def intersection (s t : CharSet) : CharSet := combine (· && ·) s t

def difference (s t : CharSet) : CharSet := combine (fun x y => x && !y) s t

def symmetricDifference (s t : CharSet) : CharSet := combine (· != ·) s t

theorem mem_union (c : Char) (s t : CharSet) : (s.union t).mem c = (s.mem c || t.mem c) :=
  mem_combine rfl c s t

theorem mem_difference (c : Char) (s t : CharSet) :
    (s.difference t).mem c = (s.mem c && !t.mem c) :=
  mem_combine rfl c s t

/-! ## Making sets -/

/-- The set without members. -/
def empty : CharSet where bounds := []

/-- The set of all characters. -/
def all : CharSet where bounds := [0]

/-- The characters from one code point to another. -/
def ofRange (first last : Nat) : CharSet :=
  let lo := rankOf first
  let hi := rankOf last + 1
  if h : lo < hi then
    if last = lastCodePoint then { bounds := [lo] }
    else { bounds := [lo, hi], sorted := by simpa using h }
  else empty

def single (c : Char) : CharSet := ofRange c.toNat c.toNat

/-- The union of ranges. -/
def ofRanges (l : List (Nat × Nat)) : CharSet :=
  (l.mergeSort fun p q => p.1 ≤ q.1).foldr (fun (lo, hi) s => (ofRange lo hi).union s) empty

def ofCodePoints (l : List Nat) : CharSet := ofRanges (l.map fun n => (n, n))

def unionAll (l : List CharSet) : CharSet := l.foldr union empty

/-- The ends of a range of code points in hexadecimal, with a hyphen between them if they differ. -/
def readRange (t : String) : Nat × Nat :=
  match t.splitOn "-" with
  | [first, last] => (hexNumber first, hexNumber last)
  | _ => (hexNumber t, hexNumber t)

/-- The set written as code points and ranges of code points in hexadecimal, with blanks between
them. -/
def ofText (lines : List String) : CharSet :=
  ofRanges (lines.flatMap fun line => (line.splitOn " ").map readRange)

/-! ## Looking into sets -/

/-- The ranges of code points from one bound to the next. -/
def rangesOf : List Nat → List (Nat × Nat)
  | [] => []
  | [lo] => [(codePointOf lo, lastCodePoint)]
  | lo :: hi :: bs => (codePointOf lo, codePointOf (hi - 1)) :: rangesOf bs

/-- The ranges of code points that make up a set, with surrogates in them where they span the gap
in the characters. -/
def ranges (s : CharSet) : List (Nat × Nat) := rangesOf s.bounds

/-- The only member, if there is just one. -/
def single? (s : CharSet) : Option Char :=
  match s.ranges with
  | [(lo, hi)] => if lo = hi then some (Char.ofNat lo) else none
  | _ => none

def isEmpty (s : CharSet) : Bool := s.bounds.isEmpty

/-- Whether all members are ASCII characters. -/
def isAscii (s : CharSet) : Bool := s.ranges.all fun r => r.2 < 0x80

end CharSet
end MarkupText
