import MarkupText.Json.Printer
import MarkupText.Rendered

/-!
# Rendered text as JSON

`Rendered.toJson` gives the text, the spans over it and the images that are awaited.
-/

namespace MarkupText
open Json

namespace Console

/-- An object from field names and values. -/
def object (fields : List (String × Value)) : Value :=
  .object (fields.map fun (k, v) => (k.toList, v))

def natural (n : Nat) : Value := .number (.natural n)

/-- A value that may be absent. -/
def orNull (f : α → Value) : Option α → Value
  | some a => f a
  | none => .null

def colorJson (c : Color) : Value :=
  object [("r", natural c.r.toNat), ("g", natural c.g.toNat), ("b", natural c.b.toNat),
    ("a", natural c.a.toNat)]

def requestJson (r : ImageRequest) : Value :=
  object [("token", natural r.token), ("source", .string r.source), ("alt", .string r.alt),
    ("width_hint", orNull natural r.widthHint), ("height_hint", orNull natural r.heightHint),
    ("max_proportion", .number (.decimal r.maxProportion))]

/-- The fields of a mark. -/
def markFields : Mark → List (String × Value)
  | .face f => [("kind", .string "face".toList), ("face", .string f.name.toList)]
  | .colors fg bg => [("kind", .string "colors".toList), ("foreground", orNull colorJson fg),
      ("background", orNull colorJson bg)]
  | .link href => [("kind", .string "link".toList), ("href", .string href)]
  | .image r => [("kind", .string "image".toList), ("request", requestJson r)]
  | .ruler => [("kind", .string "break".toList)]

def spanJson (a : Span) : Value :=
  object ([("start", natural a.start), ("end", natural a.stop)] ++ markFields a.mark)

end Console

/-- The text, its spans and its images. -/
def Rendered.toJson (r : Rendered) : Value :=
  Console.object [("text", .string r.text), ("annotations", .array (r.spans.map Console.spanJson)),
    ("images", .array (r.images.map Console.requestJson))]

end MarkupText
