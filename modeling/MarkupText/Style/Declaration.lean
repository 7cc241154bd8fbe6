import MarkupText.Color.Notation
import MarkupText.Warning

/-!
# Inline style

Of a `style` text only the declarations of `color`, `background-color` and the color part of
`background` matter. `Style.read` collects them, at most one per property: a later declaration
replaces an earlier one unless only the earlier one is important. A value that is no color is
skipped with a warning; anything else that is not understood is skipped silently.
-/

namespace MarkupText

/-- A property that is honored. -/
inductive ColorProperty where
  | foreground
  | background
deriving DecidableEq

/-- One declaration of a color. -/
structure Declaration where
  property : ColorProperty
  value : Color
  important : Bool
deriving DecidableEq

namespace Style

/-- The parts before and after the last `c`. -/
def cutLast? (c : Char) (t : Text) : Option (Text × Text) :=
  (Text.cut? c t.reverse).map fun (after, before) => (before.reverse, after.reverse)

/-- A value without its mark of importance, and whether it had one. -/
def splitImportant (t : Text) : Text × Bool :=
  let t := t.trim
  match cutLast? '!' t with
  | some (value, mark) =>
    if Text.sameLetters mark.trim "important".toList then (value.dropEndWhile isBlank, true)
    else (t, false)
  | none => (t, false)

/-- The parts of a value between blanks outside parentheses, `depth` of which are open. -/
def components (depth : Nat) : Text → List Text
  | [] => [[]]
  | c :: t =>
    if isBlank c && depth = 0 then [] :: components 0 t
    else
      let depth := if c = '(' then depth + 1 else if c = ')' then depth - 1 else depth
      match components depth t with
      | [] => [[c]]
      | w :: ws => (c :: w) :: ws

/-- The first component of a `background` value that is a color. -/
def backgroundColor? (value : Text) : Option Color :=
  ((components 0 value).filter fun p => !p.isEmpty && !"url(".toList.isPrefixOf p).findSome?
    Color.ofText?

/-- What one part of a style text amounts to. -/
inductive Part where
  | skipped
  | unparseable
  | declared (d : Declaration)

/-- Reads the text between two semicolons. -/
def readPart (t : Text) : Part :=
  match t.cut? ':' with
  | none => .skipped
  | some (name, value) =>
    let (value, important) := splitImportant value
    let declare (property : ColorProperty) (other : Part) : Option Color → Part
      | some value => .declared { property, value, important }
      | none => other
    match String.ofList (Text.toLower name.trim) with
    | "color" => declare .foreground .unparseable (Color.ofText? value)
    | "background-color" => declare .background .unparseable (Color.ofText? value)
    | "background" => declare .background .skipped (backgroundColor? value)
    | _ => .skipped

/-- The declarations with a further one, which takes the place of one for the same property. -/
def put (d : Declaration) : List Declaration → List Declaration
  | [] => [d]
  | e :: ds =>
    if e.property = d.property then (if e.important && !d.important then e else d) :: ds
    else e :: put d ds

/-- The report of a value that is no color. -/
def unparseableWarning (part : Text) : Warning where
  component := "Style".toList
  message := "unparseable color in '".toList ++ part.trim ++ ['\'']

/-- The declarations of a style text, and the warnings it gives rise to. -/
def read (t : Text) : List Declaration × List Warning :=
  (t.splitOn ';').foldl (fun (ds, ws) part =>
    match readPart part with
    | .skipped => (ds, ws)
    | .unparseable => (ds, ws ++ [unparseableWarning part])
    | .declared d => (put d ds, ws)) ([], [])

end Style
end MarkupText
