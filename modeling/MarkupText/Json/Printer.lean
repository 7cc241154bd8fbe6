import MarkupText.Json.Value

/-!
# Writing JSON

`Json.Value.pretty` writes a value with one item or field a line, each level indented by two spaces;
empty arrays and objects stay on one line. Only quotes, backslashes and control characters are
escaped.
-/

namespace MarkupText.Json

/-- A character inside a string. -/
def escaped (c : Char) : Text :=
  match c with
  | '"' => "\\\"".toList
  | '\\' => "\\\\".toList
  | '\x08' => "\\b".toList
  | '\x0c' => "\\f".toList
  | '\n' => "\\n".toList
  | '\r' => "\\r".toList
  | '\t' => "\\t".toList
  | c => if c.toNat < 0x20 then "\\u".toList ++ hexText 4 c.toNat else [c]

/-- A string in quotes. -/
def quoted (t : Text) : Text := '"' :: t.flatMap escaped ++ ['"']

/-- The start of a line at some level. -/
def lineStart (level : Nat) : Text := '\n' :: Text.spaces (2 * level)

mutual

/-- A value at some level. -/
def Value.prettyAt (level : Nat) : Value → Text
  | .null => "null".toList
  | .bool b => (if b then "true" else "false").toList
  | .number n => n.text
  | .string t => quoted t
  | .array [] => "[]".toList
  | .array (v :: vs) =>
    '[' :: lineStart (level + 1) ++ v.prettyAt (level + 1) ++ prettyItems (level + 1) vs ++
      lineStart level ++ [']']
  | .object [] => "\x7b\x7d".toList
  | .object ((k, v) :: fs) =>
    '\x7b' :: lineStart (level + 1) ++ quoted k ++ ": ".toList ++ v.prettyAt (level + 1) ++
      prettyFields (level + 1) fs ++ lineStart level ++ ['\x7d']

/-- Further items, each after a comma. -/
def prettyItems (level : Nat) : List Value → Text
  | [] => []
  | v :: vs => ',' :: lineStart level ++ v.prettyAt level ++ prettyItems level vs

/-- Further fields, each after a comma. -/
def prettyFields (level : Nat) : List (Text × Value) → Text
  | [] => []
  | (k, v) :: fs =>
    ',' :: lineStart level ++ quoted k ++ ": ".toList ++ v.prettyAt level ++ prettyFields level fs

end

/-- A value in lines. -/
def Value.pretty (v : Value) : Text := v.prettyAt 0

end MarkupText.Json
