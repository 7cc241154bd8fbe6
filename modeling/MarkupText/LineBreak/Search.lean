import MarkupText.LineBreak.Rules
import MarkupText.Text.Width

/-!
# Choosing where to split a line

A line that is too wide is split at a cut. `usableCuts` lists the cuts that lie after the leading
columns reserved for indentation or a list label and after some visible content; `findBreak` takes
the last one that fits, and when that one would put a forbidden character at the end or the start
of a line, a legal one at most `scanLimit` positions away.
-/

namespace MarkupText.LineBreak

/-- How far around a rejected cut a legal one is looked for, in characters. -/
def scanLimit : Nat := 4

/-- What splitting between two characters amounts to. -/
inductive CutKind where
  | legal
  /-- Breakable, but a line would begin or end with a character that must not. -/
  | rejected
  | never
deriving DecidableEq

/-- A place to split a line: `pos` characters and `column` columns stay on it. -/
structure Cut where
  pos : Nat
  column : Nat
  kind : CutKind

/-- The kind of the cut between `before` and `after`. -/
def cutKind (rules : Rules) (before after : Char) : CutKind :=
  if before = ' ' ∨ after = ' ' then .legal
  else if !rules.breakable before && !rules.breakable after then .never
  else if rules.noStart after || rules.noEnd before then .rejected
  else .legal

/-- The cuts in front of each character of a text that follows `before`. `seen` tells whether
anything but spaces stands in front of the first of them. -/
def cutsFrom (rules : Rules) (before : Char) (pos column : Nat) (seen : Bool) : Text → List Cut
  | [] => []
  | c :: t =>
    let rest := cutsFrom rules c (pos + 1) (column + Text.charWidth c) (seen || c != ' ') t
    if seen then ⟨pos, column, cutKind rules before c⟩ :: rest else rest

/-- Number and columns of the leading characters that fill `indentation` columns, all of them if the
line is shorter; `pos` characters of `column` columns have been passed. -/
def reserved (indentation : Nat) (pos column : Nat) : Text → Nat × Nat
  | [] => (pos, column)
  | c :: t =>
    if indentation ≤ column then (pos, column)
    else reserved indentation (pos + 1) (column + Text.charWidth c) t

/-- The cuts of a line after its first `indentation` columns and after some visible content. -/
def usableCuts (rules : Rules) (line : Text) (indentation : Nat) : List Cut :=
  let (pos, column) := reserved indentation 0 0 line
  match line.drop pos with
  | [] => []
  | c :: t => cutsFrom rules c (pos + 1) (column + Text.charWidth c) (c != ' ') t

/-- The position at which to split a line to get at most `width` columns, or the closest legal
position beyond if there is none; `none` when the line has to stay whole. -/
def findBreak (rules : Rules) (line : Text) (indentation width : Nat) : Option Nat :=
  let cuts := usableCuts rules line indentation
  match (cuts.filter (·.column ≤ width)).reverse.find? (·.kind != .never) with
  | none => (cuts.find? (·.kind == .legal)).map (·.pos)
  | some last =>
    if last.kind = .legal then some last.pos
    else
      let legal := cuts.filter (·.kind == .legal)
      let before := legal.reverse.find? fun c => c.pos < last.pos && last.pos ≤ c.pos + scanLimit
      let after := legal.find? fun c => last.pos < c.pos && c.pos ≤ last.pos + scanLimit
      some (((before <|> after).map (·.pos)).getD last.pos)

end MarkupText.LineBreak
