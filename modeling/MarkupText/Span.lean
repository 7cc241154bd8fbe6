import MarkupText.Color.Basic

/-!
# Spans

The output text is plain characters; faces, colors, link targets, image placeholders and rulers
travel as spans, marks over byte ranges `[start, stop)` of it. `Span.edit` moves a range along when
the text under it is replaced: characters that survive stay covered, inserted ones are covered only
by a range that reaches past both ends of the edit.
-/

namespace MarkupText

/-- A typographic face. -/
inductive Face where
  | bold
  | italic
  | underline
  | strikethrough
  | monospace
deriving DecidableEq

namespace Face

def all : List Face := [bold, italic, underline, strikethrough, monospace]

def name : Face → String
  | bold => "bold"
  | italic => "italic"
  | underline => "underline"
  | strikethrough => "strikethrough"
  | monospace => "monospace"

/-- The face of exactly this name. -/
def ofName? (t : Text) : Option Face := all.find? (·.name.toList == t)

end Face

/-- What a fetcher needs to supply one image. -/
structure ImageRequest where
  /-- Names the placeholder within one render. -/
  token : Nat
  source : Text
  alt : Text
  widthHint : Option Nat := none
  heightHint : Option Nat := none
  /-- Largest fraction of the window the image may take. -/
  maxProportion : Float
deriving BEq

/-- What a span says about its range. -/
inductive Mark where
  | face (face : Face)
  /-- A color that is not set keeps the default of the display. -/
  | colors (foreground background : Option Color)
  | link (href : Text)
  /-- A placeholder that awaits image data. -/
  | image (request : ImageRequest)
  /-- A thematic break. -/
  | ruler
deriving BEq

def Mark.isColors : Mark → Bool
  | .colors .. => true
  | _ => false

/-- A mark over the bytes `[start, stop)`. -/
structure Span where
  start : Nat
  stop : Nat
  mark : Mark
deriving BEq

/-- Where a start or an open position goes when `removed` bytes at `pos` become `inserted` bytes: a
position at or inside the edit moves behind the insertion. -/
def movedStart (pos removed inserted p : Nat) : Nat :=
  if p < pos then p else if pos + removed ≤ p then p - removed + inserted else pos + inserted

/-- Where an end goes: a position at or inside the edit stays in front of the insertion. -/
def movedStop (pos removed inserted p : Nat) : Nat :=
  if p ≤ pos then p else if pos + removed < p then p - removed + inserted else pos

namespace Span

/-- The span moved right. -/
def shift (a : Span) (offset : Nat) : Span :=
  { a with start := a.start + offset, stop := a.stop + offset }

/-- The span after an edit of the text under it. -/
def edit (pos removed inserted : Nat) (a : Span) : Span :=
  { a with
    start := movedStart pos removed inserted a.start
    stop := movedStop pos removed inserted a.stop }

/-- Whether the range meets `[start, stop)`. -/
def meets (a : Span) (start stop : Nat) : Bool := a.start < stop && start < a.stop

/-- The part of the range inside `[start, stop)`. -/
def clamp (a : Span) (start stop : Nat) : Span :=
  { a with start := max a.start start, stop := min a.stop stop }

end Span
end MarkupText
