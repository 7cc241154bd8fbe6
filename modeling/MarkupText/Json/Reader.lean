import MarkupText.Json.NumberReader
import MarkupText.Json.StringReader

/-!
# Reading JSON

`Json.read` reads one value from the start of a text and `Json.finish` checks that nothing follows
it. Arrays and objects may be nested `maxNesting` deep.
-/

namespace MarkupText.Json

/-- How many brackets may be open at once. -/
def maxNesting : Nat := 127

/-- Reads the remaining characters of a literal word. -/
def readWord (v : Value) : Text → Reader Value
  | [], c => .ok (v, c)
  | d :: ds, c =>
    match c.rest with
    | [] => .error (c.errorHere .eofValue)
    | e :: _ => if e = d then readWord v ds c.next else .error (c.errorNext .expectedIdent)

/-- Reads the items of an array and its closing bracket. Each item takes at least one character, so
`fuel` need not exceed the length of the text. -/
def readItems (readValue : Reader Value) :
    (fuel : Nat) → (done : List Value) → Reader (List Value)
  | 0, _, c => .error (c.errorNext .eofList)
  | fuel + 1, done, c => do
    let c := c.skipSpace
    match c.rest with
    | [] => .error (c.errorNext .eofList)
    | ']' :: _ => return (done.reverse, c.next)
    | d :: _ =>
      let c ← if done.isEmpty then pure c
        else if d = ',' then
          let c := c.next.skipSpace
          match c.rest with
          | [] => .error (c.errorNext .eofValue)
          | ']' :: _ => .error (c.errorNext .trailingComma)
          | _ => pure c
        else .error (c.errorNext .expectedListEnd)
      let (v, c) ← readValue c
      readItems readValue fuel (v :: done) c

/-- Reads a key, whose quote comes next, the colon and the value after it. -/
def readField (readValue : Reader Value) : Reader (Text × Value) := fun c => do
  let (key, c) ← readString c.next
  let c := c.skipSpace
  match c.rest with
  | [] => .error (c.errorNext .eofObject)
  | ':' :: _ =>
    let (v, c) ← readValue c.next
    return ((key, v), c)
  | _ => .error (c.errorNext .expectedColon)

/-- Reads the fields of an object and its closing brace, as `readItems` does. -/
def readFields (readValue : Reader Value) :
    (fuel : Nat) → (done : List (Text × Value)) → Reader (List (Text × Value))
  | 0, _, c => .error (c.errorNext .eofObject)
  | fuel + 1, done, c => do
    let c := c.skipSpace
    match c.rest with
    | [] => .error (c.errorNext .eofObject)
    | '\x7d' :: _ => return (done.reverse, c.next)
    | d :: _ =>
      let c ← if done.isEmpty then
          if d = '"' then pure c else .error (c.errorNext .keyMustBeString)
        else if d = ',' then
          let c := c.next.skipSpace
          match c.rest with
          | [] => .error (c.errorNext .eofValue)
          | '"' :: _ => pure c
          | '\x7d' :: _ => .error (c.errorNext .trailingComma)
          | _ => .error (c.errorNext .keyMustBeString)
        else .error (c.errorNext .expectedObjectEnd)
      let (field, c) ← readField readValue c
      readFields readValue fuel (field :: done) c

/-- Reads a value, with `inner` for what stands in brackets; without it brackets are refused. -/
def readWith (inner : Option (Reader Value)) : Reader Value := fun c =>
  let c := c.skipSpace
  match c.rest with
  | [] => .error (c.errorNext .eofValue)
  | 'n' :: _ => readWord .null "ull".toList c.next
  | 't' :: _ => readWord (.bool true) "rue".toList c.next
  | 'f' :: _ => readWord (.bool false) "alse".toList c.next
  | '"' :: _ => do
    let (t, c) ← readString c.next
    return (.string t, c)
  | '[' :: t =>
    match inner with
    | none => .error (c.errorNext .recursionLimit)
    | some readValue => do
      let (vs, c) ← readItems readValue (t.length + 1) [] c.next
      return (.array vs, c)
  | '\x7b' :: t =>
    match inner with
    | none => .error (c.errorNext .recursionLimit)
    | some readValue => do
      let (fs, c) ← readFields readValue (t.length + 1) [] c.next
      return (.object fs, c)
  | d :: _ =>
    if d = '-' ∨ isDigit d then do
      let (n, c) ← readNumber c
      return (.number n, c)
    else .error (c.errorNext .expectedValue)

/-- Reads a value with at most `nesting` open brackets. -/
def readValue : (nesting : Nat) → Reader Value
  | 0 => readWith none
  | n + 1 => readWith (some (readValue n))

/-- Reads one value from the start of a text. -/
def read (t : Text) : Except ReadError (Value × Cursor) :=
  readValue maxNesting { rest := t }

/-- Checks that nothing follows. -/
def finish (c : Cursor) : Except ReadError Unit :=
  let c := c.skipSpace
  if c.rest.isEmpty then .ok () else .error (c.errorNext .trailingCharacters)

end MarkupText.Json
