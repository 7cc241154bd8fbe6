import MarkupText.Text.Basic

/-!
# Digits and whole numbers

Powers of the two bases, values of digits, and whole numbers as text: `natText` writes without
leading zeros and `readNat?` reads digits after an optional plus sign.
-/

namespace MarkupText

/-- The powers of two. -/
def pow2 (n : Nat) : Nat := Nat.pow 2 n

/-- The powers of ten. -/
def pow10 (n : Nat) : Nat := Nat.pow 10 n

/-- The lower-case hexadecimal digit of a value below 16. -/
def hexDigit (n : Nat) : Char := if n < 10 then Char.ofNat (48 + n) else Char.ofNat (87 + n)

/-- The value of a decimal digit. -/
def digitValue? (c : Char) : Option Nat :=
  if '0' ≤ c ∧ c ≤ '9' then some (c.toNat - 48) else none

/-- The value of a hexadecimal digit of either case. -/
def hexValue? (c : Char) : Option Nat :=
  if '0' ≤ c ∧ c ≤ '9' then some (c.toNat - 48)
  else if 'a' ≤ c ∧ c ≤ 'f' then some (c.toNat - 87)
  else if 'A' ≤ c ∧ c ≤ 'F' then some (c.toNat - 55)
  else none

/-- Whether the character is one of the ten ASCII digits. -/
def isDigit (c : Char) : Bool := (digitValue? c).isSome

/-- The number a run of digits stands for, read on from `n`. -/
def digitsValue (n : Nat) (t : Text) : Nat :=
  t.foldl (fun n c => 10 * n + (digitValue? c).getD 0) n

/-- A number in decimal digits. -/
def natText (n : Nat) : Text := (Nat.toDigits 10 n)

/-- A number of at most `width` hexadecimal digits, with leading zeros. -/
def hexText : (width : Nat) → (n : Nat) → Text
  | 0, _ => []
  | w + 1, n => hexText w (n / 16) ++ [hexDigit (n % 16)]

/-- The number below `bound` written by one or more digits after an optional plus sign. -/
def readNat? (bound : Nat) (t : Text) : Option Nat :=
  let digits := if t.head? = some '+' then t.drop 1 else t
  if digits.isEmpty || !digits.all isDigit then none
  else
    let n := digitsValue 0 digits
    if n < bound then some n else none

end MarkupText
