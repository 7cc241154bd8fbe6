import MarkupText.Text.Basic

/-!
# Positions in JSON text

A `Cursor` is the text still to be read with the line and column of the byte last read, as
complaints quote them. Lines count from one, columns count the bytes read since the last newline.
-/

namespace MarkupText.Json

/-- What is wrong with a text that is no JSON. -/
inductive Complaint where
  | eofValue
  | eofList
  | eofObject
  | eofString
  | expectedColon
  | expectedListEnd
  | expectedObjectEnd
  | expectedIdent
  | expectedValue
  | invalidEscape
  | invalidNumber
  | numberOutOfRange
  | controlCharacter
  | keyMustBeString
  | loneSurrogate
  | unexpectedHexEnd
  | trailingComma
  | trailingCharacters
  | recursionLimit
deriving DecidableEq

def Complaint.text : Complaint → String
  | eofValue => "EOF while parsing a value"
  | eofList => "EOF while parsing a list"
  | eofObject => "EOF while parsing an object"
  | eofString => "EOF while parsing a string"
  | expectedColon => "expected \x60:\x60"
  | expectedListEnd => "expected \x60,\x60 or \x60]\x60"
  | expectedObjectEnd => "expected \x60,\x60 or \x60\x7d\x60"
  | expectedIdent => "expected ident"
  | expectedValue => "expected value"
  | invalidEscape => "invalid escape"
  | invalidNumber => "invalid number"
  | numberOutOfRange => "number out of range"
  | controlCharacter => "control character (\\u0000-\\u001F) found while parsing a string"
  | keyMustBeString => "key must be a string"
  | loneSurrogate => "lone leading surrogate in hex escape"
  | unexpectedHexEnd => "unexpected end of hex escape"
  | trailingComma => "trailing comma"
  | trailingCharacters => "trailing characters"
  | recursionLimit => "recursion limit exceeded"

/-- A complaint about a place of the text. -/
structure ReadError where
  complaint : Complaint
  line : Nat
  column : Nat
deriving DecidableEq

/-- A place in the text. -/
structure Cursor where
  rest : Text
  line : Nat := 1
  column : Nat := 0

namespace Cursor

/-- The place after one character. -/
def next (c : Cursor) : Cursor :=
  match c.rest with
  | [] => c
  | '\n' :: t => ⟨t, c.line + 1, 0⟩
  | d :: t => ⟨t, c.line, c.column + d.utf8Size⟩

/-- Line and column after `n` bytes, which may end inside a character. -/
def afterBytes (line column : Nat) : (n : Nat) → Text → Nat × Nat
  | 0, _ => (line, column)
  | _ + 1, [] => (line, column)
  | n + 1, d :: t =>
    if d = '\n' then afterBytes (line + 1) 0 n t
    else if d.utf8Size ≤ n + 1 then afterBytes line (column + d.utf8Size) (n + 1 - d.utf8Size) t
    else (line, column + (n + 1))
termination_by _ t => t.length

/-- The complaint `n` bytes after this place. -/
def errorAfter (c : Cursor) (n : Nat) (complaint : Complaint) : ReadError :=
  let (line, column) := afterBytes c.line c.column n c.rest
  { complaint, line, column }

/-- The complaint about what was read last. -/
def errorHere (c : Cursor) (complaint : Complaint) : ReadError := c.errorAfter 0 complaint

/-- The complaint about what comes next. -/
def errorNext (c : Cursor) (complaint : Complaint) : ReadError := c.errorAfter 1 complaint

/-- The place after `n` characters. -/
def skip : (n : Nat) → Cursor → Cursor
  | 0, c => c
  | n + 1, c => skip n c.next

/-- The place of the next character that is no space, tab, newline or carriage return. -/
def skipSpace (c : Cursor) : Cursor :=
  skip (c.rest.takeWhile fun d => d == ' ' || d == '\n' || d == '\t' || d == '\r').length c

/-- The next character, the NUL character at the end. -/
def peek (c : Cursor) : Char := c.rest.headD '\x00'

end Cursor

/-- What reads a piece of the text: it gives the piece and the place after it. -/
abbrev Reader (α : Type) := Cursor → Except ReadError (α × Cursor)

end MarkupText.Json
