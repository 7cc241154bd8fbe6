import MarkupText.Pattern.SetReader
import MarkupText.Pattern.Size

/-!
# Reading patterns

`Pattern.ofText?` reads the usual notation: `|`, repetition by `*`, `+`, `?` and counts in braces,
each with an optional `?` after it, groups with an optional name, flags for the rest of a group or
for a group of their own, sets in brackets, and escapes. There are no look-around assertions and no
references back. The tree that the notation describes must not be higher than `heightLimit`, and the
pattern must not be larger than `sizeLimit`.
-/

namespace MarkupText.Pattern

/-- The greatest height of the tree that a notation describes. -/
def heightLimit : Nat := 250

/-- A part of a notation: the pattern, and the height of its tree. -/
structure Piece where
  pattern : Pattern
  height : Nat
  /-- Whether it changes flags, so that there is nothing to repeat. -/
  isFlags : Bool := false

namespace Piece

/-- A piece in a tree of one more level; `none` if that is too high. -/
def raise? (p : Piece) : Option Piece :=
  if p.height < heightLimit then some { p with height := p.height + 1 } else none

/-- The greatest height of some pieces. -/
def tallest (ps : List Piece) : Nat := (ps.map (·.height)).foldl max 0

/-- Several pieces made into one; one piece stays as it is. -/
def combine? (make : List Pattern → Pattern) (ps : List Piece) : Option Piece :=
  let p : Piece := { pattern := make (ps.map (·.pattern)), height := tallest ps }
  if 1 < ps.length then p.raise? else some p

end Piece

/-- A group that is being read. -/
structure OpenGroup where
  /-- The flags around it. -/
  outer : Flags := {}
  isNoted : Bool := false
  /-- The alternatives that are complete, the last first. -/
  alternatives : List Piece := []
  /-- The present alternative, the last piece first. -/
  pieces : List Piece := []

namespace OpenGroup

def push (g : OpenGroup) (p : Piece) : OpenGroup := { g with pieces := p :: g.pieces }

/-- Ends the present alternative. -/
def nextAlternative? (g : OpenGroup) : Option OpenGroup := do
  let p ← Piece.combine? sequenceOf g.pieces.reverse
  return { g with alternatives := p :: g.alternatives, pieces := [] }

/-- What the group contains. -/
def content? (g : OpenGroup) : Option Piece := do
  Piece.combine? choiceOf (← g.nextAlternative?).alternatives.reverse

/-- The group as a piece of the group around it. -/
def close? (g : OpenGroup) : Option Piece := do
  let p ← (← g.content?).raise?
  return if g.isNoted then { p with pattern := group p.pattern } else p

end OpenGroup

/-- A notation that is being read. -/
structure Reading where
  flags : Flags := {}
  present : OpenGroup := {}
  /-- The groups around the present one, the innermost first. -/
  around : List OpenGroup := []
  names : List Text := []

namespace Reading

def push (r : Reading) (p : Piece) : Reading := { r with present := r.present.push p }

/-- Opens a group inside which `flags` hold. -/
def openGroup (r : Reading) (flags : Flags) (isNoted : Bool) : Reading :=
  { r with
    flags, present := { outer := r.flags, isNoted }, around := r.present :: r.around }

/-- Closes the present group; `none` if none is open. -/
def closeGroup? (r : Reading) : Option Reading :=
  match r.around with
  | [] => none
  | g :: around => do
    let p ← r.present.close?
    return { r with flags := r.present.outer, present := g.push p, around }

/-- Repeats the last piece; `none` if there is nothing to repeat. -/
def repeatLast? (r : Reading) (least : Nat) (most : Option Nat) : Option Reading :=
  match r.present.pieces with
  | [] => none
  | p :: ps =>
    if p.isFlags then none
    else do
      let p ← Piece.raise? { p with pattern := repeatOf p.pattern least most }
      return { r with present := { r.present with pieces := p :: ps } }

end Reading

/-- Whether a character may stand in the name of a group, or at its start. -/
def isNameChar (first : Bool) (c : Char) : Bool :=
  c == '_' || Trait.alphabetic.set.mem c ||
    !first && (".[]".toList.contains c || (Category.setOf Category.numbers).mem c)

/-- Reads the name of a group up to its closing angle bracket. -/
def readGroupName? (t : Text) : Option (Text × Text) := do
  let (name, rest) ← Text.cut? '>' t
  match name with
  | [] => none
  | c :: cs =>
    if isNameChar true c && cs.all (isNameChar false) then some (name, rest) else none

/-- Reads what follows an opening parenthesis, and opens a group or changes flags. -/
def readOpening? (r : Reading) : Text → Option (Reading × Text)
  | '?' :: 'P' :: '<' :: t | '?' :: '<' :: t => do
    let (name, t) ← readGroupName? t
    if r.names.contains name then none
    else return ({ r.openGroup r.flags true with names := name :: r.names }, t)
  | '?' :: t => do
    let (flags, sign, t) ← r.flags.read? true true [] t
    if sign = ':' then return (r.openGroup flags false, t)
    else return ({ r with flags }.push { pattern := empty, height := 0, isFlags := true }, t)
  | t => some (r.openGroup r.flags true, t)

/-- Reads a number with blanks around it. -/
def readCount? (f : Flags) (t : Text) : Option (Nat × Text) :=
  let (digits, t) := f.span isDigit (t.dropWhile isBlank)
  let n := digitsValue 0 digits
  if digits.isEmpty || pow2 32 ≤ n then none else some (n, (f.span isBlank t).2)

/-- Reads the bounds of a repetition, after the opening brace. -/
def readBounds? (f : Flags) (t : Text) : Option (Nat × Option Nat × Text) := do
  let (least, t) ← readCount? f (f.skip t)
  match t with
  | '\x7d' :: t => return (least, some least, f.skip t)
  | ',' :: t =>
    match f.skip t with
    | '\x7d' :: t => return (least, none, f.skip t)
    | t =>
      let (most, t) ← readCount? f t
      if t.head? = some '\x7d' && least ≤ most then return (least, some most, f.skip (t.drop 1))
      else none
  | _ => none

/-- Reads a repetition operator; `some none` if there is none. -/
def readRepetition? (f : Flags) : Text → Option (Option (Nat × Option Nat × Text))
  | '*' :: t => some (some (0, none, t))
  | '+' :: t => some (some (1, none, t))
  | '?' :: t => some (some (0, some 1, t))
  | '\x7b' :: t => (readBounds? f t).map some
  | _ => some none

/-- A character as the flags would have it. -/
def characterOf? (f : Flags) (c : Char) (isByte : Bool) : Option Pattern :=
  if f.asciiOnly && isByte && 0x80 ≤ c.toNat then none
  else some (ofSet (f.close (.single c)))

/-- What a dot stands for. -/
def dotSet (f : Flags) : CharSet :=
  if f.dotAll then .all
  else CharSet.complement (if f.anyLineEnd then .ofText ["A D"] else .ofText ["A"])

def startAssertion (f : Flags) : Assertion :=
  if !f.multiLine then .textStart else if f.anyLineEnd then .anyLineStart else .lineStart

def endAssertion (f : Flags) : Assertion :=
  if !f.multiLine then .textEnd else if f.anyLineEnd then .anyLineEnd else .lineEnd

/-- Reads one piece that is neither a group nor repeated. -/
def readPiece? (f : Flags) : Text → Option (Piece × Text)
  | [] => none
  | '.' :: t => (f.admit? (dotSet f)).map fun s => (⟨ofSet s, 0, false⟩, t)
  | '^' :: t => some (⟨assert (startAssertion f), 0, false⟩, t)
  | '$' :: t => some (⟨assert (endAssertion f), 0, false⟩, t)
  | '[' :: t => do
    let (s, t) ← readSet? f t
    if s.height ≤ heightLimit then return (⟨ofSet s.set, s.height, false⟩, t) else none
  | '\\' :: t => do
    let (e, t) ← readEscape? f t
    let p ← match e with
      | .char c isByte => characterOf? f c isByte
      | .set s => some (ofSet s)
      | .place a => some (assert a)
    return (⟨p, 0, false⟩, t)
  | c :: t => (characterOf? f c false).map fun p => (⟨p, 0, false⟩, t)

/-- Reads to the end of the text. Each step reads at least one character, so `fuel` need not exceed
the length of the text. -/
def readFrom? : (fuel : Nat) → Reading → Text → Option Reading
  | 0, _, _ => none
  | fuel + 1, r, t =>
    match r.flags.skip t with
    | [] => some r
    | '(' :: t => do
      let (r, t) ← readOpening? r (r.flags.skip t)
      readFrom? fuel r t
    | ')' :: t => do readFrom? fuel (← r.closeGroup?) t
    | '|' :: t => do readFrom? fuel { r with present := ← r.present.nextAlternative? } t
    | t => do
      match ← readRepetition? r.flags t with
      | some (least, most, t) =>
        let t := if t.head? = some '?' then t.drop 1 else t
        readFrom? fuel (← r.repeatLast? least most) t
      | none =>
        let (p, t) ← readPiece? r.flags t
        readFrom? fuel (r.push p) t

/-- The pattern that a text denotes. -/
def ofText? (t : Text) : Option Pattern := do
  let r ← readFrom? (t.length + 1) {} t
  if r.around.isEmpty then
    let p ← r.present.content?
    if p.pattern.size ≤ sizeLimit then some p.pattern else none
  else none

end MarkupText.Pattern
