import MarkupText.Text.Blank

/-!
# Text and positions in it

`Text` is a list of characters. A position is an offset in bytes of the UTF-8 form, so `size` sums
the encoded lengths of the characters and `splitAt?` answers only at character boundaries. The rest
of the module cuts text: into blank-separated `words`, into `rows` and `lines`, and at both ends
(`trim`).
-/

namespace MarkupText

/-- Text is a list of characters; positions in it count bytes of its UTF-8 form. -/
abbrev Text := List Char

namespace Text

/-- Length in bytes. -/
def size : Text → Nat
  | [] => 0
  | c :: t => c.utf8Size + size t

@[simp] theorem size_nil : size [] = 0 := rfl

@[simp] theorem size_cons (c : Char) (t : Text) : size (c :: t) = c.utf8Size + size t := rfl

@[simp] theorem size_append (s t : Text) : size (s ++ t) = size s + size t := by
  induction s with
  | nil => simp
  | cons c s ih => simp [ih, Nat.add_assoc]

/-- The parts before and after byte `n`; `none` unless `n` is a character boundary. -/
def splitAt? : Text → Nat → Option (Text × Text)
  | t, 0 => some ([], t)
  | [], _ + 1 => none
  | c :: t, n + 1 =>
    if c.utf8Size ≤ n + 1 then
      (splitAt? t (n + 1 - c.utf8Size)).map fun (l, r) => (c :: l, r)
    else none

/-- Whether byte `n` starts a character or ends the text. -/
def isBoundary (t : Text) (n : Nat) : Bool := (t.splitAt? n).isSome

/-- The text in `[start, stop)`, if both ends are character boundaries in order. -/
def slice? (t : Text) (start stop : Nat) : Option Text :=
  if start ≤ stop then do
    let (_, r) ← t.splitAt? start
    let (m, _) ← r.splitAt? (stop - start)
    return m
  else none

/-- The text with `removed` bytes at `pos` replaced by `insert`; unchanged when either end of the
removed range is no boundary. -/
def splice (t : Text) (pos removed : Nat) (insert : Text) : Text :=
  match t.splitAt? pos with
  | none => t
  | some (l, r) =>
    match r.splitAt? removed with
    | none => t
    | some (_, r') => l ++ insert ++ r'

theorem splitAt?_append_size (s t : Text) : splitAt? (s ++ t) s.size = some (s, t) := by
  induction s with
  | nil => cases t <;> rfl
  | cons c s ih =>
    have h := c.utf8Size_pos
    obtain ⟨n, hn⟩ : ∃ n, c.utf8Size + size s = n + 1 := ⟨c.utf8Size + size s - 1, by omega⟩
    have hs : n + 1 - c.utf8Size = size s := by omega
    rw [size_cons, hn]
    simp only [List.cons_append, splitAt?]
    rw [if_pos (by omega), hs, ih]
    rfl

theorem eq_append_of_splitAt? {t l r : Text} {n : Nat} (h : splitAt? t n = some (l, r)) :
    t = l ++ r ∧ l.size = n := by
  induction t generalizing n l with
  | nil =>
    cases n with
    | zero => simp only [splitAt?, Option.some.injEq, Prod.mk.injEq] at h; simp [← h.1, ← h.2]
    | succ n => simp [splitAt?] at h
  | cons c t ih =>
    cases n with
    | zero => simp only [splitAt?, Option.some.injEq, Prod.mk.injEq] at h; simp [← h.1, ← h.2]
    | succ n =>
      simp only [splitAt?] at h
      split at h
      · obtain ⟨⟨l', r'⟩, hs, he⟩ := Option.map_eq_some_iff.1 h
        simp only [Prod.mk.injEq] at he
        obtain ⟨rfl, rfl⟩ := he
        obtain ⟨ht, hl⟩ := ih hs
        exact ⟨by rw [ht]; rfl, by rw [size_cons]; omega⟩
      · cases h

theorem splitAt?_eq_some_iff {t l r : Text} {n : Nat} :
    splitAt? t n = some (l, r) ↔ t = l ++ r ∧ l.size = n :=
  ⟨eq_append_of_splitAt?, fun ⟨ht, hn⟩ => ht ▸ hn ▸ splitAt?_append_size l r⟩

theorem slice?_append_size (l m r : Text) :
    slice? (l ++ m ++ r) l.size (l.size + m.size) = some m := by
  simp only [slice?, List.append_assoc, splitAt?_append_size, if_pos (Nat.le_add_right ..),
    Nat.add_sub_cancel_left, Option.bind_eq_bind, Option.bind_some, Option.pure_def]

theorem splice_append_size (l m r insert : Text) :
    splice (l ++ m ++ r) l.size m.size insert = l ++ insert ++ r := by
  simp only [splice, List.append_assoc, splitAt?_append_size]

/-- `n` spaces. -/
def spaces (n : Nat) : Text := List.replicate n ' '

@[simp] theorem size_spaces (n : Nat) : size (spaces n) = n := by
  induction n with
  | zero => rfl
  | succ n ih =>
    rw [spaces, List.replicate_succ, size_cons, ← spaces, ih]
    exact Nat.add_comm ..

/-- Without the longest tail of characters satisfying `p`. -/
def dropEndWhile (p : Char → Bool) (t : Text) : Text := (t.reverse.dropWhile p).reverse

/-- Without blanks at either end. -/
def trim (t : Text) : Text := dropEndWhile isBlank (t.dropWhile isBlank)

/-- Whether nothing but blanks occurs. -/
def blank (t : Text) : Bool := t.all isBlank

theorem not_of_mem_splitOnP {p : Char → Bool} {t w : Text} (hw : w ∈ t.splitOnP p) {c : Char}
    (hc : c ∈ w) : p c = false := by
  induction t generalizing w with
  | nil =>
    rw [List.splitOnP_nil, List.mem_singleton] at hw
    subst hw
    cases hc
  | cons d t ih =>
    rw [List.splitOnP_cons_eq_if_modifyHead] at hw
    split at hw
    · rcases List.mem_cons.1 hw with rfl | hw
      · cases hc
      · exact ih hw hc
    · rename_i hd
      obtain ⟨v, vs, h⟩ := List.exists_cons_of_ne_nil (List.splitOnP_ne_nil p t)
      rw [h, List.modifyHead_cons] at hw
      rcases List.mem_cons.1 hw with rfl | hw
      · rcases List.mem_cons.1 hc with rfl | hc
        · exact Bool.eq_false_iff.2 hd
        · exact ih (h ▸ List.mem_cons_self) hc
      · exact ih (h ▸ List.mem_cons_of_mem _ hw) hc

/-- The maximal runs of non-blank characters. -/
def words (t : Text) : List Text := (t.splitOnP isBlank).filter (! ·.isEmpty)

/-- Words hold no blanks. -/
theorem not_isBlank_of_mem_words {t w : Text} (hw : w ∈ words t) {c : Char} (hc : c ∈ w) :
    isBlank c = false :=
  not_of_mem_splitOnP (List.mem_filter.1 hw).1 hc

/-- The text between newlines. -/
def rows (t : Text) : List Text := t.splitOn '\n'

theorem newline_notMem_of_mem_rows {t row : Text} (h : row ∈ rows t) : '\n' ∉ row := fun hc =>
  absurd (not_of_mem_splitOnP h hc) (by decide)

/-- Without one carriage return at the end. -/
def dropReturn (t : Text) : Text := if t.getLast? = some '\r' then t.dropLast else t

/-- The lines of the text: a newline ends a line, together with a carriage return before it, and an
empty line after the last newline does not count. -/
def lines (t : Text) : List Text :=
  let rs := rows t
  rs.dropLast.map dropReturn ++ (rs.getLast?.filter (! ·.isEmpty)).toList

/-- What follows the last newline. -/
def lastRow (t : Text) : Text := (t.reverse.takeWhile (· != '\n')).reverse

/-- The parts before and after the first `c`, which is in neither. -/
def cut? (c : Char) (t : Text) : Option (Text × Text) :=
  if t.contains c then some (t.takeWhile (· != c), (t.dropWhile (· != c)).drop 1) else none

/-- Without the last character, if that is `c`. -/
def dropLast? (c : Char) (t : Text) : Option Text :=
  if t.getLast? = some c then some t.dropLast else none

/-- ASCII letters in lower case, all else kept. -/
def toLower (t : Text) : Text := t.map Char.toLower

/-- Equality up to the case of ASCII letters. -/
def sameLetters (s t : Text) : Bool := toLower s == toLower t

/-- Order by code points, which for well-formed text is also the order of the encoded bytes. -/
def lt : Text → Text → Bool
  | [], [] => false
  | [], _ :: _ => true
  | _ :: _, [] => false
  | c :: s, d :: t => c.toNat < d.toNat || (c == d && lt s t)

end Text
end MarkupText
