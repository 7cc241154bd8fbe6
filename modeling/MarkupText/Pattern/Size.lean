import MarkupText.Character.Encoding
import MarkupText.Pattern.Basic

/-!
# The size of patterns

A pattern is as large as the machine that would match it byte by byte, forward or backward, with
each repetition written out. The size counts the states of that machine and the links that lead out
of them, so a pattern of a few characters with large bounds can be told to be too large without
building anything.
-/

namespace MarkupText.Pattern

/-- The greatest size of a pattern that is admitted. -/
def sizeLimit : Nat := 10 * pow2 20

/-- The size of a state by itself. -/
def stateSize : Nat := 32

/-- The size of a link out of a state that chooses among others. -/
def linkSize : Nat := 4

/-- The size of a state that goes on by ranges of bytes. -/
def rangesSize (count : Nat) : Nat := stateSize + 8 * count

/-- The size of a part of a machine. -/
structure Extent where
  size : Nat
  /-- Whether it ends in a state that chooses, so that a link is needed to go on. -/
  isOpen : Bool := false

namespace Extent

/-- The size with the link to what follows. -/
def linked (e : Extent) : Nat := if e.isOpen then e.size + linkSize else e.size

/-- Parts in a row; the last one is not linked. -/
def row : List Extent → Extent
  | [] => ⟨stateSize, false⟩
  | [e] => e
  | e :: es => { row es with size := e.linked + (row es).size }

/-- A choice among parts. -/
def choice (es : List Extent) : Extent where
  size := es.foldl (fun n e => n + e.linked + linkSize) (2 * stateSize)

/-- A part repeated, of which every match `consumes` characters or not. -/
def repeated (e : Extent) (consumes : Bool) (least : Nat) (most : Option Nat) : Extent :=
  match most with
  | none =>
    if 0 < least then ⟨least * e.linked + stateSize + linkSize, true⟩
    else if consumes then ⟨e.linked + stateSize + linkSize, true⟩
    else ⟨e.linked + 3 * stateSize + 4 * linkSize, false⟩
  | some most =>
    if least = most then ⟨(most - 1) * e.linked + e.size, e.isOpen⟩
    else if least = 0 ∧ most = 1 then ⟨e.linked + 2 * stateSize + 2 * linkSize, false⟩
    else
      let start := if least = 0 then 2 * stateSize else stateSize
      ⟨most * e.linked + start + (most - least) * (stateSize + 2 * linkSize), false⟩

/-- One character of a set. -/
def ofSet (backward : Bool) (s : CharSet) : Extent where
  size :=
    if s.isEmpty then stateSize
    else if s.isAscii then stateSize + rangesSize s.ranges.length
    else
      let ss := Encoding.ofSet s
      if backward then
        2 * stateSize + stateSize * Encoding.startCount [] ss + linkSize * ss.length
      else (Encoding.shared ss).foldl (fun n node => n + rangesSize node.length) stateSize

end Extent

mutual
/-- Whether every match has a character, as seen from the form of the pattern. -/
def consumes : Pattern → Bool
  | empty | assert _ => false
  | literal t => !t.isEmpty
  | oneOf s => !s.isEmpty
  | repeated p least _ => 0 < least && consumes p
  | group p => consumes p
  | sequence ps => someConsumes ps
  | choice ps => allConsume ps

def someConsumes : List Pattern → Bool
  | [] => false
  | p :: ps => consumes p || someConsumes ps

def allConsume : List Pattern → Bool
  | [] => true
  | p :: ps => consumes p && allConsume ps
end

mutual
/-- The size of the part of a machine that matches a pattern. Only forward are groups noted. -/
def extent (backward : Bool) : Pattern → Extent
  | empty | assert _ => ⟨stateSize, false⟩
  | literal t => ⟨stateSize * t.size, false⟩
  | oneOf s => .ofSet backward s
  | repeated p least most => (extent backward p).repeated (consumes p) least most
  | group p =>
    let e := extent backward p
    if backward then e else ⟨e.linked + 2 * stateSize, false⟩
  | sequence ps =>
    let es := extents backward ps
    .row (if backward then es.reverse else es)
  | choice ps => .choice (extents backward ps)

def extents (backward : Bool) : List Pattern → List Extent
  | [] => []
  | p :: ps => extent backward p :: extents backward ps
end

/-- A machine looks for a match anywhere: it may pass over bytes first. -/
def seekSize : Nat := 2 * stateSize + rangesSize 1 + 2 * linkSize

/-- The size of a pattern. -/
def size (p : Pattern) : Nat :=
  seekSize + max ((extent false p).linked + 3 * stateSize) ((extent true p).linked + stateSize)

end MarkupText.Pattern
