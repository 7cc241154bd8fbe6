import MarkupText.Character.CharSet
import MarkupText.Text.Basic

/-!
# Patterns

A `Pattern` is a regular expression: texts, sets of characters, conditions on places, repetition,
groups, sequences and choices. `sequenceOf`, `choiceOf` and `repeatOf` build patterns in a simple
form: no sequence in a sequence, no choice among single characters, no repetition of what matches
only the empty text.
-/

namespace MarkupText

/-- What is asked of a place with regard to words. -/
inductive WordEdge where
  | boundary
  | noBoundary
  | start
  | stop
  /-- No character of a word before the place. -/
  | startHalf
  /-- No character of a word after the place. -/
  | stopHalf
deriving DecidableEq

/-- A condition on a place between characters. -/
inductive Assertion where
  | textStart
  | textEnd
  | lineStart
  | lineEnd
  /-- The start of a line where lines end in a carriage return, a newline or the two together. -/
  | anyLineStart
  | anyLineEnd
  /-- A condition with regard to words, which may be made up of ASCII characters only. -/
  | word (edge : WordEdge) (asciiOnly : Bool)
deriving DecidableEq

/-- A regular expression. -/
inductive Pattern where
  | empty
  | literal (t : Text)
  | oneOf (s : CharSet)
  | assert (a : Assertion)
  /-- At least `least` and at most `most` times, without limit if that is not given. -/
  | repeated (p : Pattern) (least : Nat) (most : Option Nat)
  /-- A part whose match is of interest by itself. -/
  | group (p : Pattern)
  | sequence (ps : List Pattern)
  | choice (ps : List Pattern)

namespace Pattern

mutual
/-- Whether the empty text is all that can be matched, as seen from the form of the pattern. -/
def isOnlyEmpty : Pattern → Bool
  | empty => true
  | literal t => t.isEmpty
  | oneOf _ => false
  | assert _ => true
  | repeated p _ _ => p.isOnlyEmpty
  | group p => p.isOnlyEmpty
  | sequence ps | choice ps => areOnlyEmpty ps

def areOnlyEmpty : List Pattern → Bool
  | [] => true
  | p :: ps => p.isOnlyEmpty && areOnlyEmpty ps
end

/-- One character of a set; a text if the set leaves no choice. -/
def ofSet (s : CharSet) : Pattern :=
  match s.single? with
  | some c => literal [c]
  | none => oneOf s

/-- A pattern repeated. Further rounds of a match of the empty text change nothing, so there is at
most one. -/
def repeatOf (p : Pattern) (least : Nat) (most : Option Nat) : Pattern :=
  let (least, most) := if p.isOnlyEmpty then (min least 1, some (min (most.getD 1) 1))
    else (least, most)
  if most = some 0 then empty
  else if least = 1 ∧ most = some 1 then p
  else repeated p least most

/-- The members of a sequence. -/
def parts : Pattern → List Pattern
  | empty => []
  | sequence ps => ps
  | p => [p]

/-- Puts texts in a row together. -/
def joinLiterals : List Pattern → List Pattern
  | [] => []
  | p :: ps =>
    match p, joinLiterals ps with
    | literal s, literal t :: qs => literal (s ++ t) :: qs
    | p, qs => p :: qs

def sequenceOf (ps : List Pattern) : Pattern :=
  match joinLiterals (ps.flatMap parts) with
  | [] => empty
  | [p] => p
  | qs => sequence qs

/-- The members of a choice. -/
def alternatives : Pattern → List Pattern
  | choice ps => ps
  | p => [p]

/-- The code point of a text of one character. -/
def codePoint? : Pattern → Option Nat
  | literal [c] => some c.toNat
  | _ => none

def set? : Pattern → Option CharSet
  | oneOf s => some s
  | _ => none

/-- A choice. One among single characters, or among sets, is a set. -/
def choiceOf (ps : List Pattern) : Pattern :=
  match ps.flatMap alternatives with
  | [p] => p
  | qs =>
    match qs.mapM codePoint?, qs.mapM set? with
    | some ns, _ => ofSet (.ofCodePoints ns)
    | none, some sets => ofSet (.unionAll sets)
    | none, none => choice qs

end Pattern
end MarkupText
