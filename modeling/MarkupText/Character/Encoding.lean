import MarkupText.Character.CharSet

/-!
# Encodings of sets

The characters of a set in UTF-8, as sequences of ranges of bytes: each sequence stands for all
texts of one byte from each of its ranges, and together they are the encodings of the members, in
order. `shared` merges the ends of sequences that are equal into a graph.
-/

namespace MarkupText.Encoding

/-- A range of bytes. -/
abbrev ByteRange := Nat × Nat

/-- The sequences for the numbers from `lo` to `hi`, written in a first byte counted from `base`
and `tail` bytes of six bits. -/
def sequences (base : Nat) : (tail lo hi : Nat) → List (List ByteRange)
  | 0, lo, hi => [[(base + lo, base + hi)]]
  | tail + 1, lo, hi =>
    let unit := pow2 (6 * (tail + 1))
    let below (n a b : Nat) : List (List ByteRange) :=
      (sequences 0x80 tail a b).map ((base + n, base + n) :: ·)
    let a := lo / unit
    let b := hi / unit
    if a = b then below a (lo % unit) (hi % unit)
    else
      let hasHead := lo % unit ≠ 0
      let hasEnd := hi % unit ≠ unit - 1
      let first := if hasHead then a + 1 else a
      let stop := if hasEnd then b else b + 1
      (if hasHead then below a (lo % unit) (unit - 1) else []) ++
        (if first < stop then
          [(base + first, base + stop - 1) :: List.replicate (tail + 1) (0x80, 0xBF)]
        else []) ++
        (if hasEnd then below b 0 (hi % unit) else [])

/-- The code points that take equally many bytes: the first and the last, the number of bytes after
the first one, and what the first byte is counted from. -/
def blocks : List (Nat × Nat × Nat × Nat) :=
  [(0, 0x7F, 0, 0), (0x80, 0x7FF, 1, 0xC0), (0x800, 0xD7FF, 2, 0xE0), (0xE000, 0xFFFF, 2, 0xE0),
    (0x10000, 0x10FFFF, 3, 0xF0)]

/-- The encodings of the code points of a range. -/
def ofRange (lo hi : Nat) : List (List ByteRange) :=
  blocks.flatMap fun (first, last, tail, base) =>
    let lo := max lo first
    let hi := min hi last
    if lo ≤ hi then sequences base tail lo hi else []

/-- The encodings of the members of a set. -/
def ofSet (s : CharSet) : List (List ByteRange) := s.ranges.flatMap fun (lo, hi) => ofRange lo hi

/-- How many ranges sequences have in common at their start. -/
def commonStart : List ByteRange → List ByteRange → Nat
  | r :: rs, q :: qs => if r = q then commonStart rs qs + 1 else 0
  | _, _ => 0

/-- The number of ranges of sequences, where a start is counted once for all in a row that have
it. -/
def startCount : List ByteRange → List (List ByteRange) → Nat
  | _, [] => 0
  | last, s :: ss => (s.length - commonStart last s) + startCount s ss

/-- A node of a graph: ranges of bytes, each with the number of the node that it leads to. -/
abbrev Node := List (ByteRange × Nat)

/-- Adds the node for sequences of at most `depth` ranges to a graph, unless it is there already,
and gives its number. Number 0 is the end. -/
def shareFrom : (depth : Nat) → List Node → List (List ByteRange) → Nat × List Node
  | 0, nodes, _ => (0, nodes)
  | depth + 1, nodes, ss =>
    if ss.all List.isEmpty then (0, nodes)
    else
      let (node, nodes) := (ss.splitBy fun s t => s.head? == t.head?).foldl
        (fun (node, nodes) group =>
          let (n, nodes) := shareFrom depth nodes (group.map (·.drop 1))
          match group.head?.bind List.head? with
          | some r => (node ++ [(r, n)], nodes)
          | none => (node, nodes))
        (([] : Node), nodes)
      match nodes.idxOf? node with
      | some k => (k + 1, nodes)
      | none => (nodes.length + 1, nodes ++ [node])

/-- The nodes of a graph for sequences, in which equal ends of sequences are shared. -/
def shared (ss : List (List ByteRange)) : List Node := (shareFrom 4 [] ss).2

end MarkupText.Encoding
