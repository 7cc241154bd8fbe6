import MarkupText.Tag

/-!
# Markup trees

A `Tree` is an arena of nodes that refer to each other by index; node 0 is the document. Nodes are
added with `alloc` and linked with `append`, which does not keep a node from having two parents or
from being its own descendant. The walks over a tree allow for that.
-/

namespace MarkupText

/-- Attributes in the order of their names, each name once. -/
abbrev Attributes := List (Text × Text)

namespace Attributes

/-- Sets an attribute. -/
def insert (name value : Text) : Attributes → Attributes
  | [] => [(name, value)]
  | (n, v) :: as =>
    if name = n then (name, value) :: as
    else if Text.lt name n then (name, value) :: (n, v) :: as
    else (n, v) :: insert name value as

/-- The attributes of a list, of which later ones win. -/
def ofList (l : List (Text × Text)) : Attributes :=
  l.foldl (fun as (n, v) => insert n v as) []

def get? (as : Attributes) (name : Text) : Option Text := List.lookup name as

@[simp] theorem get?_insert_self (as : Attributes) (name value : Text) :
    (as.insert name value).get? name = some value := by
  induction as with
  | nil => simp [insert, get?]
  | cons a as ih =>
    obtain ⟨n, v⟩ := a
    simp only [insert]
    split
    · simp [get?]
    · split
      · simp [get?]
      · rename_i h _
        simpa [get?, List.lookup_cons, beq_false_of_ne h] using ih

theorem get?_insert_of_ne (as : Attributes) {name other : Text} (h : other ≠ name) (value : Text) :
    (as.insert name value).get? other = as.get? other := by
  induction as with
  | nil => simp [insert, get?, List.lookup_cons, beq_false_of_ne h]
  | cons a as ih =>
    obtain ⟨n, v⟩ := a
    simp only [insert]
    split
    · rename_i hn
      subst hn
      simp [get?, List.lookup_cons, beq_false_of_ne h]
    · split
      · simp [get?, List.lookup_cons, beq_false_of_ne h]
      · simp only [get?, List.lookup_cons] at ih ⊢
        split <;> simp_all

end Attributes

/-- An element without its children. -/
structure Element where
  /-- The name in lower case. -/
  name : Text
  tag : Tag
  attributes : Attributes
deriving DecidableEq

namespace Element

/-- The element of a name in any case. -/
def ofName (name : Text) (attributes : Attributes) : Element :=
  { name := Text.toLower name, tag := Tag.ofName name, attributes }

/-- The value of an attribute. -/
def attr? (e : Element) (name : String) : Option Text := e.attributes.get? name.toList

/-- The value of an attribute that holds more than blanks. -/
def filledAttr? (e : Element) (name : String) : Option Text :=
  (e.attr? name).filter (! ·.blank)

end Element

/-- What a node is. -/
inductive Content where
  | document
  | element (e : Element)
  | text (t : Text)
  | comment (t : Text)
deriving DecidableEq

/-- The index of a node. -/
abbrev NodeId := Nat

/-- A node with its links. -/
structure Node where
  content : Content
  parent : Option NodeId := none
  children : List NodeId := []

/-- An arena of nodes. -/
structure Tree where
  nodes : Array Node := #[{ content := .document }]

namespace Tree

/-- The document node. -/
def root : NodeId := 0

/-- Depth at which walks stop. -/
def maxDepth : Nat := 256

def size (t : Tree) : Nat := t.nodes.size

def get? (t : Tree) (id : NodeId) : Option Node := t.nodes[id]?

/-- Adds a node without links and gives its index. -/
def alloc (t : Tree) (content : Content) : NodeId × Tree :=
  (t.size, { nodes := t.nodes.push { content } })

/-- Makes `child` the last child of `parent`, if both exist. -/
def append (t : Tree) (parent child : NodeId) : Tree :=
  if parent < t.size ∧ child < t.size then
    { nodes := (t.nodes.modify parent fun n => { n with children := n.children ++ [child] }).modify
        child fun n => { n with parent := some parent } }
  else t

/-- Adds a node as the last child of `parent`. -/
def add (t : Tree) (parent : NodeId) (content : Content) : NodeId × Tree :=
  let (id, t) := t.alloc content
  (id, t.append parent id)

/-- Adds an element as the last child of `parent`; names of attributes are taken in lower case. -/
def addElement (t : Tree) (parent : NodeId) (name : Text) (attributes : List (Text × Text)) :
    NodeId × Tree :=
  let attributes := Attributes.ofList (attributes.map fun (n, v) => (Text.toLower n, v))
  t.add parent (.element (.ofName name attributes))

def parent? (t : Tree) (id : NodeId) : Option NodeId := (t.get? id).bind (·.parent)

def children (t : Tree) (id : NodeId) : List NodeId := ((t.get? id).map (·.children)).getD []

/-- The element at a node. -/
def element? (t : Tree) (id : NodeId) : Option Element :=
  match (t.get? id).map Node.content with
  | some (.element e) => some e
  | _ => none

/-- The text at a leaf. -/
def text? (t : Tree) (id : NodeId) : Option Text :=
  match (t.get? id).map Node.content with
  | some (.text s) => some s
  | _ => none

/-- The tag of the element at a node. -/
def tag? (t : Tree) (id : NodeId) : Option Tag := (t.element? id).map (·.tag)

@[simp] theorem size_append (t : Tree) (parent child : NodeId) :
    (t.append parent child).size = t.size := by
  unfold append; split <;> simp [size]

@[simp] theorem size_alloc (t : Tree) (content : Content) : (t.alloc content).2.size = t.size + 1 :=
  Array.size_push ..

@[simp] theorem size_add (t : Tree) (parent : NodeId) (content : Content) :
    (t.add parent content).2.size = t.size + 1 := by
  simp [add]

end Tree
end MarkupText
