import MarkupText.Pattern.Escape

/-!
# Sets in brackets

`readSet?` reads a set in brackets: characters, ranges, escapes, classes by name and nested sets,
with the operators `&&`, `--` and `~~` between them, which bind equally and to the left. It also
gives the height of the set as a tree, which is limited.
-/

namespace MarkupText.Pattern

/-- An operator between sets. -/
inductive SetOperator where
  | intersection
  | difference
  | symmetricDifference

def SetOperator.apply : SetOperator → CharSet → CharSet → CharSet
  | intersection => .intersection
  | difference => .difference
  | symmetricDifference => .symmetricDifference

/-- The operator at the start of a text. -/
def setOperator? : Text → Option SetOperator
  | '&' :: '&' :: _ => some .intersection
  | '-' :: '-' :: _ => some .difference
  | '~' :: '~' :: _ => some .symmetricDifference
  | _ => none

/-- A set with the height of the tree that it was read from. -/
structure TallSet where
  set : CharSet
  height : Nat

/-- A set in brackets that is being read. -/
structure OpenSet where
  negated : Bool := false
  /-- What stands before the last operator, and the operator. -/
  left : Option (TallSet × SetOperator) := none
  /-- The items after it. -/
  items : List TallSet := []

namespace OpenSet

def add (o : OpenSet) (s : CharSet) (height : Nat) : OpenSet :=
  { o with items := ⟨s, height⟩ :: o.items }

/-- The union of the items after the last operator. -/
def operand (o : OpenSet) : TallSet where
  set := .unionAll (o.items.map (·.set))
  height := (o.items.map (·.height)).foldl max 0 + if 1 < o.items.length then 1 else 0

/-- The set read so far. Operators take what the flags add along. -/
def value (f : Flags) (o : OpenSet) : TallSet :=
  match o.left with
  | none => o.operand
  | some (l, op) =>
    { set := op.apply (f.close l.set) (f.close o.operand.set)
      height := max l.height o.operand.height + 1 }

/-- Puts an operator after what was read. -/
def operate (f : Flags) (o : OpenSet) (op : SetOperator) : OpenSet :=
  { o with left := some (o.value f, op), items := [] }

/-- The set that the brackets make. -/
def close? (f : Flags) (o : OpenSet) : Option TallSet := do
  let v := o.value f
  return { set := ← f.closeOrNegate? o.negated v.set, height := v.height + 1 }

end OpenSet

/-- The classes with a name. -/
def namedSet? : String → Option CharSet
  | "alnum" => some (.ofText ["30-39 41-5A 61-7A"])
  | "alpha" => some (.ofText ["41-5A 61-7A"])
  | "ascii" => some (.ofText ["0-7F"])
  | "blank" => some (.ofText ["9 20"])
  | "cntrl" => some (.ofText ["0-1F 7F"])
  | "digit" => some (.ofText ["30-39"])
  | "graph" => some (.ofText ["21-7E"])
  | "lower" => some (.ofText ["61-7A"])
  | "print" => some (.ofText ["20-7E"])
  | "punct" => some (.ofText ["21-2F 3A-40 5B-60 7B-7E"])
  | "space" => some (.ofText ["9-D 20"])
  | "upper" => some (.ofText ["41-5A"])
  | "word" => some asciiWord
  | "xdigit" => some (.ofText ["30-39 41-46 61-66"])
  | _ => none

/-- Reads a class by name, after the opening bracket; `none` when no such class stands there. -/
def readNamedSet? (t : Text) : Option (Bool × CharSet × Text) :=
  match t with
  | ':' :: t => do
    let (negated, t) := if t.head? = some '^' then (true, t.drop 1) else (false, t)
    let (name, rest) ← Text.cut? ':' t
    if rest.head? = some ']' then return (negated, ← namedSet? (String.ofList name), rest.drop 1)
    else none
  | _ => none

/-- Reads the start of a set, after the opening bracket. Hyphens there are members, and so is a
closing bracket that comes first. -/
def readOpening (f : Flags) (t : Text) : OpenSet × Text :=
  let t := f.skip t
  let (negated, t) := if t.head? = some '^' then (true, f.skip (t.drop 1)) else (false, t)
  let (hyphens, t) := f.span (· == '-') t
  let o := hyphens.foldl (fun o c => o.add (.single c) 0) { negated }
  if hyphens.isEmpty && t.head? = some ']' then (o.add (.single ']') 0, f.skip (t.drop 1))
  else (o, t)

/-- Reads a member that may be the end of a range. -/
def readMember? (f : Flags) : Text → Option (Escape × Text)
  | [] => none
  | '\\' :: t => readEscape? f t
  | c :: t => some (.char c false, t)

/-- The set of a member. -/
def memberSet? (f : Flags) : Escape → Option CharSet
  | .char c _ => f.admit? (.single c)
  | .set s => some s
  | .place _ => none

/-- Reads a member, or a range from one to another. A hyphen before a closing bracket or another
hyphen makes no range. -/
def readRange? (f : Flags) (t : Text) : Option (CharSet × Text) := do
  let (m, t) ← readMember? f t
  match f.skip t with
  | '-' :: t' =>
    let next := f.peek t'
    if next = some ']' ∨ next = some '-' then return (← memberSet? f m, f.skip t)
    else
      let (n, rest) ← readMember? f (f.skip t')
      match m, n with
      | .char first _, .char last _ =>
        if first ≤ last then return (← f.admit? (.ofRange first.toNat last.toNat), rest) else none
      | _, _ => none
  | t => return (← memberSet? f m, t)

/-- Reads a set up to its closing bracket, where `outer` are the sets around it. Each step reads at
least one character, so `fuel` need not exceed the length of the text. -/
def readSetFrom? (f : Flags) :
    (fuel : Nat) → (o : OpenSet) → (outer : List OpenSet) → Text → Option (TallSet × Text)
  | 0, _, _, _ => none
  | fuel + 1, o, outer, t =>
    match f.skip t with
    | [] => none
    | ']' :: t => do
      let s ← o.close? f
      match outer with
      | [] => return (s, t)
      | p :: outer => readSetFrom? f fuel (p.add s.set s.height) outer t
    | '[' :: t =>
      match readNamedSet? t with
      | some (negated, s, t) => do
        readSetFrom? f fuel (o.add (← f.closeOrNegate? negated s) 0) outer t
      | none =>
        let (inner, t) := readOpening f t
        readSetFrom? f fuel inner (o :: outer) t
    | t =>
      match setOperator? t with
      | some op => readSetFrom? f fuel (o.operate f op) outer (t.drop 2)
      | none => do
        let (s, t) ← readRange? f t
        readSetFrom? f fuel (o.add s 0) outer t

/-- Reads a set after its opening bracket. -/
def readSet? (f : Flags) (t : Text) : Option (TallSet × Text) :=
  let (o, t) := readOpening f t
  readSetFrom? f (t.length + 1) o [] t

end MarkupText.Pattern
