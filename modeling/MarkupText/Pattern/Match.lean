import MarkupText.Character.Trait
import MarkupText.Pattern.Basic

/-!
# Matching

A match is followed through the text one character at a time. A `Progress` is a pattern with marks
where the matches under way stand: each mark is at a place that has just been reached. `step` moves
all marks over a character at once and may let a match start, so the work for a character is bounded
by the size of the pattern, and no order among alternatives matters. `Pattern.occursIn` asks for a
match anywhere in a text.
-/

namespace MarkupText.Pattern

/-- A place in a text: the characters on both sides. -/
structure Place where
  before : Option Char
  after : Option Char

namespace Place

/-- Whether a character stands on a side and belongs to a word. -/
def isWord (asciiOnly : Bool) (side : Option Char) : Bool :=
  side.any fun c => if asciiOnly then c.isAlphanum || c == '_' else Trait.word.mem c

def satisfiesEdge (p : Place) (asciiOnly : Bool) (e : WordEdge) : Bool :=
  let before := isWord asciiOnly p.before
  let after := isWord asciiOnly p.after
  match e with
  | .boundary => before != after
  | .noBoundary => before == after
  | .start => !before && after
  | .stop => before && !after
  | .startHalf => !before
  | .stopHalf => !after

def satisfies (p : Place) : Assertion → Bool
  | .textStart => p.before.isNone
  | .textEnd => p.after.isNone
  | .lineStart => p.before.isNone || p.before == some '\n'
  | .lineEnd => p.after.isNone || p.after == some '\n'
  | .anyLineStart =>
    p.before.isNone || p.before == some '\n' || p.before == some '\r' && p.after != some '\n'
  | .anyLineEnd =>
    p.after.isNone || p.after == some '\r' || p.after == some '\n' && p.before != some '\r'
  | .word e asciiOnly => p.satisfiesEdge asciiOnly e

end Place

mutual
/-- Whether a pattern matches the empty text at a place. -/
def isEmptyAt (x : Place) : Pattern → Bool
  | empty => true
  | literal t => t.isEmpty
  | oneOf _ => false
  | assert a => x.satisfies a
  | repeated p least _ => least == 0 || isEmptyAt x p
  | group p => isEmptyAt x p
  | sequence ps => areEmptyAt x ps
  | choice ps => someEmptyAt x ps

def areEmptyAt (x : Place) : List Pattern → Bool
  | [] => true
  | p :: ps => isEmptyAt x p && areEmptyAt x ps

def someEmptyAt (x : Place) : List Pattern → Bool
  | [] => false
  | p :: ps => isEmptyAt x p || someEmptyAt x ps
end

mutual
/-- A pattern with the same matches in texts of at most `n` characters. More rounds than that are
never needed: one of them matches the empty text, and can stand for others or be left out. -/
def upTo (n : Nat) : Pattern → Pattern
  | repeated p least most =>
    repeated (upTo n p) (min least (n + 1)) (most.filter (· ≤ n))
  | group p => upTo n p
  | sequence ps => sequence (upToAll n ps)
  | choice ps => choice (upToAll n ps)
  | p => p

def upToAll (n : Nat) : List Pattern → List Pattern
  | [] => []
  | p :: ps => upTo n p :: upToAll n ps
end

/-- A pattern with marks in it. -/
inductive Progress where
  /-- No mark. -/
  | idle (p : Pattern)
  /-- A text, with what is left of it after each mark. -/
  | literal (t : Text) (left : List Text)
  /-- One character of a set, which has just been read. -/
  | read (s : CharSet)
  | sequence (ms : List Progress)
  | choice (ms : List Progress)
  /-- A pattern that may be repeated without limit, or left out. -/
  | loop (m : Progress)

namespace Progress

mutual
/-- Whether the pattern matches the empty text at a place. -/
def isEmptyAt (x : Place) : Progress → Bool
  | idle p => Pattern.isEmptyAt x p
  | literal t _ => t.isEmpty
  | read _ => false
  | sequence ms => areEmptyAt x ms
  | choice ms => someEmptyAt x ms
  | loop _ => true

def areEmptyAt (x : Place) : List Progress → Bool
  | [] => true
  | m :: ms => isEmptyAt x m && areEmptyAt x ms

def someEmptyAt (x : Place) : List Progress → Bool
  | [] => false
  | m :: ms => isEmptyAt x m || someEmptyAt x ms
end

mutual
/-- Whether a mark reaches the end of the pattern at a place. -/
def isDoneAt (x : Place) : Progress → Bool
  | idle _ => false
  | literal _ left => left.any List.isEmpty
  | read _ => true
  | sequence ms => areDoneAt x false ms
  | choice ms => someDoneAt x ms
  | loop m => isDoneAt x m

/-- Whether a mark reaches the end of a sequence; `arrived` tells whether one stands before it. -/
def areDoneAt (x : Place) (arrived : Bool) : List Progress → Bool
  | [] => arrived
  | m :: ms => areDoneAt x (isDoneAt x m || arrived && isEmptyAt x m) ms

def someDoneAt (x : Place) : List Progress → Bool
  | [] => false
  | m :: ms => isDoneAt x m || someDoneAt x ms
end

end Progress

/-- The rounds of a repetition in a row, the first one and those after it: as many as there must be,
then those that may be left out. -/
def rounds (first other : Progress) (least : Nat) (most : Option Nat) : List Progress :=
  let optional (m : Progress) : Progress := .choice [m, .idle empty]
  let kinds : List (Progress → Progress) := List.replicate least id ++
    match most with
    | none => [.loop]
    | some n => List.replicate (n - least) optional
  match kinds with
  | [] => []
  | k :: ks => k first :: ks.map (· other)

/-- What is left of texts after a character. -/
def advance (c : Char) (left : List Text) : List Text :=
  left.filterMap fun t => if t.head? = some c then some (t.drop 1) else none

mutual
/-- Starts a match at a place and reads the character after it. -/
def enter (x : Place) (c : Char) : Pattern → Progress
  | empty => .idle empty
  | literal t => .literal t (advance c [t])
  | oneOf s => if s.mem c then .read s else .idle (oneOf s)
  | assert a => .idle (assert a)
  | repeated p least most =>
    let m := enter x c p
    .sequence (rounds m (if isEmptyAt x p then m else .idle p) least most)
  | group p => enter x c p
  | sequence ps => .sequence (enterRow x c true ps)
  | choice ps => .choice (enterEach x c ps)

/-- Starts a match of a sequence, if one has `arrived` at it. -/
def enterRow (x : Place) (c : Char) (arrived : Bool) : List Pattern → List Progress
  | [] => []
  | p :: ps =>
    (if arrived then enter x c p else .idle p) :: enterRow x c (arrived && isEmptyAt x p) ps

def enterEach (x : Place) (c : Char) : List Pattern → List Progress
  | [] => []
  | p :: ps => enter x c p :: enterEach x c ps
end

namespace Progress

mutual
/-- Moves all marks from a place over the character after it; `arrived` tells whether a match starts
at the place too. -/
def step (x : Place) (c : Char) (arrived : Bool) : Progress → Progress
  | idle p => if arrived then enter x c p else idle p
  | literal t left => literal t (advance c (if arrived then t :: left else left))
  | read s => if arrived && s.mem c then read s else idle (oneOf s)
  | sequence ms => sequence (stepRow x c arrived ms)
  | choice ms => choice (stepEach x c arrived ms)
  | loop m => loop (step x c (arrived || isDoneAt x m) m)

def stepRow (x : Place) (c : Char) (arrived : Bool) : List Progress → List Progress
  | [] => []
  | m :: ms =>
    step x c arrived m :: stepRow x c (isDoneAt x m || arrived && isEmptyAt x m) ms

def stepEach (x : Place) (c : Char) (arrived : Bool) : List Progress → List Progress
  | [] => []
  | m :: ms => step x c arrived m :: stepEach x c arrived ms
end

/-- Whether a match under way, or one that starts at a place from here on, reaches its end. -/
def succeeds (m : Progress) (before : Option Char) : Text → Bool
  | [] => endsAt ⟨before, none⟩
  | c :: t =>
    let x : Place := ⟨before, some c⟩
    endsAt x || succeeds (m.step x c true) (some c) t
where
  endsAt (x : Place) : Bool := isDoneAt x m || isEmptyAt x m

end Progress

/-- Whether the pattern matches some part of the text. -/
def occursIn (p : Pattern) (t : Text) : Bool := (Progress.idle (p.upTo t.length)).succeeds none t

end MarkupText.Pattern
