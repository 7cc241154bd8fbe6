import MarkupText.Character.Folding
import MarkupText.Text.Basic

/-!
# Flags

Flags change how the rest of a group is read: whether case matters, what dots and line assertions
mean, whether blanks and comments stand between the signs, and whether classes are of ASCII only.
`Flags.skip` passes over what does not count, and `length_skip_le` says that it only shortens the
text.
-/

namespace MarkupText.Pattern

/-- Flags in force. -/
structure Flags where
  anyCase : Bool := false
  multiLine : Bool := false
  dotAll : Bool := false
  /-- Blanks and comments do not count. -/
  spaced : Bool := false
  /-- A carriage return ends a line too. -/
  anyLineEnd : Bool := false
  /-- Classes are of ASCII characters only. -/
  asciiOnly : Bool := false

namespace Flags

/-- The text after blanks and comments, each from a number sign to the end of its line. -/
def skipSpace (inComment : Bool) : Text → Text
  | [] => []
  | c :: t =>
    if inComment then skipSpace (c != '\n') t
    else if isBlank c then skipSpace false t
    else if c = '#' then skipSpace true t
    else c :: t

theorem length_skipSpace_le (inComment : Bool) (t : Text) :
    (skipSpace inComment t).length ≤ t.length := by
  induction t generalizing inComment with
  | nil => simp [skipSpace]
  | cons c t ih =>
    have step (b : Bool) : (skipSpace b t).length ≤ (c :: t).length :=
      Nat.le_trans (ih b) (Nat.le_succ _)
    simp only [skipSpace]
    split
    · exact step _
    · split
      · exact step _
      · split
        · exact step _
        · exact Nat.le_refl _

/-- The text without what does not count at its start. -/
def skip (f : Flags) (t : Text) : Text := if f.spaced then skipSpace false t else t

theorem length_skip_le (f : Flags) (t : Text) : (f.skip t).length ≤ t.length := by
  unfold skip
  split
  · exact length_skipSpace_le false t
  · exact Nat.le_refl _

/-- The next character that counts. Of a comment only the sign and the blanks after it are
passed. -/
def peek (f : Flags) (t : Text) : Option Char :=
  if f.spaced then
    match t.dropWhile isBlank with
    | '#' :: t => (t.dropWhile isBlank).head?
    | t => t.head?
  else t.head?

/-- The longest run of characters that satisfy `p` at the start of a text, with what does not count
left out between them, and the text after it. -/
def span (f : Flags) (p : Char → Bool) : Text → Text × Text
  | [] => ([], [])
  | c :: t =>
    if p c then
      let (run, rest) := span f p (f.skip t)
      (c :: run, rest)
    else ([], c :: t)
termination_by t => t.length
decreasing_by
  have := length_skip_le f t
  simp only [List.length_cons]
  omega

/-- A set with what the flags add to it. -/
def close (f : Flags) (s : CharSet) : CharSet :=
  if !f.anyCase then s else if f.asciiOnly then s.closeOverAsciiCase else s.closeOverCase

/-- A set as the flags admit it. -/
def admit? (f : Flags) (s : CharSet) : Option CharSet :=
  if f.asciiOnly && !s.isAscii then none else some s

/-- A set or its complement. What the flags add is added first. -/
def closeOrNegate? (f : Flags) (negated : Bool) (s : CharSet) : Option CharSet :=
  f.admit? (if negated then (f.close s).complement else f.close s)

/-- Sets or clears the flag of a letter. -/
def change? (f : Flags) (letter : Char) (on : Bool) : Option Flags :=
  match letter with
  | 'i' => some { f with anyCase := on }
  | 'm' => some { f with multiLine := on }
  | 's' => some { f with dotAll := on }
  | 'x' => some { f with spaced := on }
  | 'R' => some { f with anyLineEnd := on }
  | 'u' => some { f with asciiOnly := !on }
  | 'U' => some f
  | _ => none

/-- Reads letters up to the colon or the parenthesis that ends them. `on` tells whether flags are
being set, `fresh` whether none was read since the last sign, `used` which were read. -/
def read? (f : Flags) (on fresh : Bool) (used : List Char) : Text → Option (Flags × Char × Text)
  | [] => none
  | c :: t =>
    if c = ':' ∨ c = ')' then
      if fresh && (!on || c = ')') then none else some (f, c, t)
    else if used.contains c then none
    else if c = '-' then read? f false true (c :: used) t
    else do read? (← f.change? c on) on false (c :: used) t

end Flags
end MarkupText.Pattern
