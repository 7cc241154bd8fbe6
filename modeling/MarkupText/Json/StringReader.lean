import MarkupText.Decimal.Digits
import MarkupText.Json.Cursor

/-!
# Reading JSON strings

`readString` reads up to the closing quote and decodes escapes. Escapes for the two halves of a
surrogate pair stand for one character; a half on its own is refused.
-/

namespace MarkupText.Json

/-- The four hexadecimal digits of an escape as a number. -/
def readHex : Reader Nat := fun c =>
  if Text.size c.rest < 4 then .error (c.errorAfter (Text.size c.rest) .eofString)
  else match (c.rest.take 4).mapM hexValue? with
    | some ds => .ok (ds.foldl (fun n d => 16 * n + d) 0, c.skip 4)
    | none => .error (c.errorAfter 4 .invalidEscape)

/-- Reads `d`, which must continue an escape for the second half of a surrogate pair. -/
def expectInPair (d : Char) (c : Cursor) : Except ReadError Cursor :=
  match c.rest with
  | [] => .error (c.errorHere .eofString)
  | e :: _ => if e = d then .ok c.next else .error (c.errorNext .unexpectedHexEnd)

/-- The character of an escape whose digits come next. -/
def readUnicode : Reader Char := fun c => do
  let (high, c) ← readHex c
  if 0xDC00 ≤ high ∧ high ≤ 0xDFFF then .error (c.errorHere .loneSurrogate)
  else if 0xD800 ≤ high ∧ high ≤ 0xDBFF then
    let c ← expectInPair '\\' c
    let c ← expectInPair 'u' c
    let (low, c) ← readHex c
    if 0xDC00 ≤ low ∧ low ≤ 0xDFFF then
      return (Char.ofNat (0x10000 + (high - 0xD800) * 0x400 + (low - 0xDC00)), c)
    else .error (c.errorHere .loneSurrogate)
  else return (Char.ofNat high, c)

/-- The character of an escape, after its backslash. -/
def readEscape : Reader Char := fun c =>
  match c.rest with
  | [] => .error (c.errorHere .eofString)
  | 'u' :: _ => readUnicode c.next
  | '"' :: _ => .ok ('"', c.next)
  | '\\' :: _ => .ok ('\\', c.next)
  | '/' :: _ => .ok ('/', c.next)
  | 'b' :: _ => .ok ('\x08', c.next)
  | 'f' :: _ => .ok ('\x0c', c.next)
  | 'n' :: _ => .ok ('\n', c.next)
  | 'r' :: _ => .ok ('\r', c.next)
  | 't' :: _ => .ok ('\t', c.next)
  | _ => .error (c.errorNext .invalidEscape)

/-- Reads on to the closing quote; `done` holds the characters so far in reverse. Each step reads at
least one character, so `fuel` need not exceed the length of the text. -/
def readStringFrom : (fuel : Nat) → (done : Text) → Reader Text
  | 0, _, c => .error (c.errorHere .eofString)
  | fuel + 1, done, c =>
    match c.rest with
    | [] => .error (c.errorHere .eofString)
    | '"' :: _ => .ok (done.reverse, c.next)
    | '\\' :: _ => do
      let (d, c) ← readEscape c.next
      readStringFrom fuel (d :: done) c
    | d :: _ =>
      if d.toNat < 0x20 then .error (c.errorNext .controlCharacter)
      else readStringFrom fuel (d :: done) c.next

/-- The string whose opening quote was just read. -/
def readString : Reader Text := fun c =>
  readStringFrom (c.rest.length + 1) [] c

end MarkupText.Json
