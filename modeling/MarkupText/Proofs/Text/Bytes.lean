import MarkupText.Proofs.Text.Position

/-!
# Bytes of a text

`Text.bytes` is the UTF-8 form in which positions count, and `Text.bytesIn` the part of it between
two positions, whether these lie between characters or not. A text is known by its bytes and the
byte 255 behind them, which is in no text (`Text.bytes_append_inj`).
-/

namespace MarkupText.Text
variable {s t u l r : Text} {start mid stop : Nat}

/-- The UTF-8 form. -/
def bytes (t : Text) : List UInt8 := t.flatMap String.utf8EncodeChar

@[simp] theorem bytes_nil : bytes [] = [] := rfl

@[simp] theorem bytes_cons (c : Char) (t : Text) :
    bytes (c :: t) = String.utf8EncodeChar c ++ bytes t := List.flatMap_cons

@[simp] theorem bytes_append (s t : Text) : bytes (s ++ t) = bytes s ++ bytes t :=
  List.flatMap_append

@[simp] theorem length_bytes (t : Text) : (bytes t).length = t.size := by
  induction t with
  | nil => rfl
  | cons c t ih => simp [ih]

/-! ### Parts -/

/-- The bytes in `[start, stop)`. -/
def bytesIn (t : Text) (start stop : Nat) : List UInt8 := (t.bytes.drop start).take (stop - start)

theorem bytesIn_append (t : Text) (h : start ≤ mid) (h' : mid ≤ stop) :
    t.bytesIn start stop = t.bytesIn start mid ++ t.bytesIn mid stop := by
  unfold bytesIn
  rw [show stop - start = (mid - start) + (stop - mid) by omega, List.take_add, List.drop_drop,
    show start + (mid - start) = mid by omega]

theorem bytesIn_append_right (h : stop ≤ l.size) (r : Text) :
    bytesIn (l ++ r) start stop = bytesIn l start stop := by
  unfold bytesIn
  rcases Nat.le_total stop start with hle | hle
  · rw [Nat.sub_eq_zero_of_le hle, List.take_zero, List.take_zero]
  · rw [bytes_append, List.drop_append_of_le_length (by rw [length_bytes]; omega),
      List.take_append_of_le_length (by rw [List.length_drop, length_bytes]; omega)]

theorem bytesIn_append_left (l r : Text) (start stop : Nat) :
    bytesIn (l ++ r) (l.size + start) (l.size + stop) = bytesIn r start stop := by
  unfold bytesIn
  rw [bytes_append, ← length_bytes l, List.drop_length_add_append, Nat.add_sub_add_left]

theorem bytesIn_size (t : Text) : t.bytesIn 0 t.size = t.bytes := by
  rw [bytesIn, List.drop_zero, Nat.sub_zero, ← length_bytes t, List.take_length]

/-- Between characters the bytes are those of the characters. -/
theorem bytesIn_of_slice? (h : t.slice? start stop = some u) : t.bytesIn start stop = u.bytes := by
  obtain ⟨l, r, rfl, rfl, rfl⟩ := slice?_eq_some h
  rw [bytesIn_append_right (by simp)]
  have hin := bytesIn_append_left l u 0 u.size
  rwa [Nat.add_zero, bytesIn_size] at hin

/-! ### Unique reading -/

theorem notMem_utf8EncodeChar (c : Char) : 255 ∉ String.utf8EncodeChar c := by
  have hne {n : Nat} (h : n < 255) : 255 ≠ UInt8.ofNat n := fun heq => by
    have := congrArg UInt8.toNat heq
    rw [UInt8.toNat_ofNat', Nat.mod_eq_of_lt (by omega)] at this
    exact absurd this (by change 255 ≠ n; omega)
  unfold String.utf8EncodeChar
  dsimp only
  repeat' split
  all_goals
    simp only [List.mem_cons, List.not_mem_nil, or_false, not_or]
    repeat' apply And.intro
    all_goals exact hne (by omega)

theorem notMem_bytes (t : Text) : 255 ∉ t.bytes := fun h => by
  obtain ⟨c, -, hc⟩ := List.mem_flatMap.1 h
  exact notMem_utf8EncodeChar c hc

theorem bytes_inj : s.bytes = t.bytes ↔ s = t := by
  rw [← String.ofList_inj, ← String.toByteArray_inj, String.toByteArray_ofList,
    String.toByteArray_ofList, List.utf8Encode, List.utf8Encode, List.toByteArray_inj]
  rfl

/-- A text ends at the first byte 255. -/
theorem bytes_append_inj {x y : List UInt8} (h : s.bytes ++ 255 :: x = t.bytes ++ 255 :: y) :
    s = t ∧ x = y := by
  have hfirst (u : Text) (z : List UInt8) :
      (u.bytes ++ 255 :: z).takeWhile (· != 255) = u.bytes := by
    rw [List.takeWhile_append_of_pos fun b hb =>
      bne_iff_ne.2 (ne_of_mem_of_not_mem hb (notMem_bytes u))]
    simp
  have hbytes : s.bytes = t.bytes := by rw [← hfirst s x, h, hfirst t y]
  rw [hbytes] at h
  exact ⟨bytes_inj.1 hbytes, (List.cons.inj (List.append_cancel_left h)).2⟩

end MarkupText.Text
