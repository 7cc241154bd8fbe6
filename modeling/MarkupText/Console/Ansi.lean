import MarkupText.Rendered

/-!
# Styled terminal output

`Rendered.ansi` cuts the text wherever a span begins or ends and writes each run in the style that
the spans over it add up to, as an escape sequence, the run and a reset. No style is kept across a
newline.
-/

namespace MarkupText
namespace Console

/-- How a run of text looks. -/
structure RunStyle where
  foreground : Option Color := none
  background : Option Color := none
  bold : Bool := false
  dimmed : Bool := false
  italic : Bool := false
  underline : Bool := false
  strikethrough : Bool := false
deriving DecidableEq

namespace RunStyle

/-- The style with a further mark on it. -/
def add (s : RunStyle) : Mark → RunStyle
  | .face .bold => { s with bold := true }
  | .face .italic => { s with italic := true }
  | .face .underline => { s with underline := true }
  | .face .strikethrough => { s with strikethrough := true }
  | .face .monospace => s
  | .colors fg bg => { s with foreground := fg <|> s.foreground, background := bg <|> s.background }
  | .link _ => { s with underline := true }
  | .image _ => { s with italic := true }
  | .ruler => { s with dimmed := true }

/-- The style that marks add up to in order. -/
def ofMarks (ms : List Mark) : RunStyle := ms.foldl add {}

/-- The code of a color, for a foreground or a background. -/
def colorCode (kind : String) (c : Color) : Text :=
  [';'].intercalate (kind.toList :: ['2'] :: [c.r, c.g, c.b].map fun v => natText v.toNat)

/-- The effects with their codes, and whether the style has them. -/
def effects (s : RunStyle) : List (Char × Bool) :=
  [('1', s.bold), ('2', s.dimmed), ('3', s.italic), ('4', s.underline), ('9', s.strikethrough)]

/-- The codes of a style. -/
def codes (s : RunStyle) : List Text :=
  (s.foreground.map (colorCode "38")).toList ++ (s.background.map (colorCode "48")).toList ++
    (s.effects.filter (·.2)).map fun e => [e.1]

end RunStyle

/-- An escape sequence that sets codes. -/
def setCodes (codes : Text) : Text := '\x1b' :: '[' :: codes ++ ['m']

/-- Text in a style; in no style at all it is written as it is. -/
def styled (s : RunStyle) (t : Text) : Text :=
  if t.isEmpty || s.codes.isEmpty then t
  else setCodes ([';'].intercalate s.codes) ++ t ++ setCodes ['0']

/-- The positions at which the text is cut, in order and without repetition. -/
def cuts (r : Rendered) : List Nat :=
  let ends := r.spans.flatMap (fun a => [a.start, a.stop]) ++ [0, r.text.size]
  (ends.filter r.text.isBoundary).mergeSort.eraseReps

/-- The marks over all of `[start, stop)`. -/
def marksOver (r : Rendered) (start stop : Nat) : List Mark :=
  (r.spans.filter fun a => a.start ≤ start && stop ≤ a.stop).map (·.mark)

/-- One run, each of its lines in the style of the spans over it. -/
def styledRun (r : Rendered) (start stop : Nat) : Text :=
  let t := (r.text.slice? start stop).getD []
  let style := RunStyle.ofMarks (marksOver r start stop)
  ['\n'].intercalate (t.rows.map (styled style))

/-- The runs between neighbouring cuts. -/
def styledRuns (r : Rendered) : List Nat → Text
  | start :: stop :: rest => styledRun r start stop ++ styledRuns r (stop :: rest)
  | _ => []

end Console

/-- The text with escape sequences for its spans. -/
def Rendered.ansi (r : Rendered) : Text := Console.styledRuns r (Console.cuts r)

end MarkupText
