import MarkupText.Character.Age
import MarkupText.Character.Boundary

/-!
# Properties by name

`Property.set?` finds the characters that have a property, which is asked for by the name of a
trait, a general category or a script, or by the name of a property and one of its values. Names are
compared loosely, as `Property.normalize` says.
-/

namespace MarkupText

/-- How a property of characters is asked for. -/
inductive Property where
  | named (name : Text)
  | valued (property value : Text)
deriving DecidableEq

namespace Property

/-- The form in which names are compared: in lower case, without blanks, hyphens, low lines and
characters other than ASCII, and without `is` in front, unless only the letter `c` is left. -/
def normalize (t : Text) : String :=
  let hasIs := (t.take 2).map Char.toLower = ['i', 's']
  let isKept (c : Char) : Bool := c.toNat < 0x80 && c != ' ' && c != '_' && c != '-'
  let rest := ((if hasIs then t.drop 2 else t).filter isKept).map Char.toLower
  String.ofList (if hasIs && rest = ['c'] then ['i', 's', 'c'] else rest)

/-- The characters with a value of a property. -/
def valuedSet? (property value : String) : Option CharSet :=
  match property with
  | "gc" | "generalcategory" => (Makeup.category? value).map (·.set)
  | "sc" | "script" => Script.set? value
  | "scx" | "scriptextensions" => Script.extended? value
  | "age" => Age.upTo? value
  | "gcb" | "graphemeclusterbreak" => (Makeup.find? value Boundary.grapheme).map (·.set)
  | "wb" | "wordbreak" => (Makeup.find? value Boundary.word).map (·.set)
  | "sb" | "sentencebreak" => (Makeup.find? value Boundary.sentence).map (·.set)
  | _ => none

/-- The characters with a property, if there is one of that name. -/
def set? : Property → Option CharSet
  | named name =>
    let name := normalize name
    match (Trait.named? name).or (Makeup.category? name) with
    | some m => some m.set
    | none => Script.set? name
  | valued property value => valuedSet? (normalize property) (normalize value)

end Property
end MarkupText
