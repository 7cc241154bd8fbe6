import MarkupText.Json.Reader
import MarkupText.Tree.Basic
import MarkupText.Warning

/-!
# Trees in JSON

A tree arrives as JSON. A node is a string, which is a text leaf, or an object: with a key `tag` an
element with optional `attrs` and `children`, with `text` a text leaf, with `comment` a comment. The
top level is one node or an array of nodes. A known key that occurs twice or has the wrong kind of
value makes the next form be tried; other keys are ignored. `Item.ofJson?` recognizes the forms and
`Loaded.ofItems` puts the nodes into an arena in document order.
-/

namespace MarkupText

/-- A node as it appears in JSON. -/
inductive Item where
  | text (t : Text)
  | element (name : Text) (attributes : List (Text × Json.Value)) (children : List Item)
  | comment (t : Text)

namespace Item
open Json

/-- Whether a key occurs at most once. -/
def atMostOnce (fields : List (Text × Value)) (key : String) : Bool :=
  (fields.filter (·.1 == key.toList)).length ≤ 1

/-- The string that an object holds under a key that occurs once. -/
def stringField? (fields : List (Text × Value)) (key : String) : Option Text :=
  if atMostOnce fields key then
    match fields.lookup key.toList with
    | some (.string t) => some t
    | _ => none
  else none

/-- The attributes of an element; none if the key is absent. -/
def attributesField? (fields : List (Text × Value)) : Option (List (Text × Value)) :=
  if atMostOnce fields "attrs" then
    match fields.lookup "attrs".toList with
    | none => some []
    | some (.object attributes) => some attributes
    | some _ => none
  else none

/-- The node of an object, given for each field the nodes that its value holds if that is an array
of nodes. -/
def ofFields? (fields : List (Text × Value)) (nodes : List (Text × Option (List Item))) :
    Option Item :=
  let element? : Option Item := do
    let name ← stringField? fields "tag"
    let attributes ← attributesField? fields
    let children ← if atMostOnce fields "children" then
        (nodes.lookup "children".toList).getD (some [])
      else none
    return element name attributes children
  element? <|> (stringField? fields "text").map text <|>
    (stringField? fields "comment").map comment

mutual

/-- The node that a value stands for. -/
def ofJson? : Value → Option Item
  | .string t => some (.text t)
  | .object fields => ofFields? fields (fieldNodes fields)
  | _ => none

/-- The nodes that a list of values stands for, if each is a node. -/
def listOfJson? : List Value → Option (List Item)
  | [] => some []
  | v :: vs =>
    match ofJson? v, listOfJson? vs with
    | some i, some is => some (i :: is)
    | _, _ => none

/-- The nodes that each field holds. -/
def fieldNodes : List (Text × Value) → List (Text × Option (List Item))
  | [] => []
  | (key, .array vs) :: fields => (key, listOfJson? vs) :: fieldNodes fields
  | (key, _) :: fields => (key, none) :: fieldNodes fields

end

/-- The top-level nodes of a value. -/
def rootsOfJson? : Value → Option (List Item)
  | .array vs => listOfJson? vs
  | v => (ofJson? v).map ([·])

/-- An attribute value as text; arrays and objects have none. -/
def attributeText? : Value → Option Text
  | .string t => some t
  | .number n => some n.text
  | .bool b => some (if b then "true" else "false").toList
  | .null => some []
  | .array _ | .object _ => none

/-- The report of an attribute that is dropped. -/
def structuredWarning (tag name : Text) : Warning where
  component := "DOM".toList
  message := "ignoring structured value of attribute '".toList ++ name ++ "' on <".toList ++ tag ++
    ['>']

/-- Attributes in the order of their names, the last one of a name. -/
def sortedAttributes (attributes : List (Text × Value)) : List (Text × Value) :=
  attributes.foldl (fun sorted (name, value) =>
    let others := sorted.filter (·.1 != name)
    let (before, after) := others.partition fun e => Text.lt e.1 name
    before ++ (name, value) :: after) []

/-- The attributes with text values, and reports of the others. -/
def readAttributes (tag : Text) (attributes : List (Text × Value)) : Attributes × List Warning :=
  let sorted := sortedAttributes attributes
  (.ofList (sorted.filterMap fun (name, value) =>
      (attributeText? value).map fun t => (Text.toLower name, t)),
    (sorted.filter fun (_, value) => (attributeText? value).isNone).map fun (name, _) =>
      structuredWarning tag name)

end Item

/-- A tree that was read, and the reports about it. -/
structure Loaded where
  tree : Tree := {}
  warnings : List Warning := []

namespace Loaded

/-- Adds a node as the last child of `parent` and gives its index. -/
def add (l : Loaded) (parent : NodeId) (content : Content) : NodeId × Loaded :=
  let (id, tree) := l.tree.add parent content
  (id, { l with tree })

mutual

/-- Adds a node and all below it to `parent`. -/
def insert (parent : NodeId) (l : Loaded) : Item → Loaded
  | .text t => (l.add parent (.text t)).2
  | .comment t => (l.add parent (.comment t)).2
  | .element name attributes children =>
    let (attributes, warnings) := Item.readAttributes name attributes
    let (id, l) := { l with warnings := l.warnings ++ warnings }.add parent
      (.element (.ofName name attributes))
    insertAll id l children

/-- Adds nodes in order. -/
def insertAll (parent : NodeId) (l : Loaded) : List Item → Loaded
  | [] => l
  | i :: is => insertAll parent (insert parent l i) is

end

/-- The tree of top-level nodes. -/
def ofItems (items : List Item) : Loaded := insertAll Tree.root {} items

end Loaded

/-- Why a text holds no tree. -/
inductive TreeError where
  | malformed (e : Json.ReadError)
  /-- A JSON value that is neither a node nor an array of nodes. -/
  | noNode
deriving DecidableEq

namespace TreeError

/-- The complaint, with its place in the text. -/
def complaint : TreeError → Text
  | malformed e => e.complaint.text.toList ++ " at line ".toList ++ natText e.line ++
      " column ".toList ++ natText e.column
  | noNode => "data did not match any variant of untagged enum JsonRoot".toList

def message (e : TreeError) : Text := "malformed node tree: ".toList ++ e.complaint

end TreeError

/-- Reads a tree. A value of the wrong form is reported before anything that follows the value. -/
def Tree.ofJsonText (t : Text) : Except TreeError Loaded :=
  match Json.read t with
  | .error e => .error (.malformed e)
  | .ok (v, c) =>
    match Item.rootsOfJson? v with
    | none => .error .noNode
    | some items =>
      match Json.finish c with
      | .error e => .error (.malformed e)
      | .ok () => .ok (.ofItems items)

end MarkupText
