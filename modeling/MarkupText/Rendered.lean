import MarkupText.Span

/-!
# Rendered text and image fills

`Rendered` is what a render gives: the text, the spans over it and the images that are awaited.
`Rendered.fill` puts the replacement of one image in the place of its placeholder; fills may come in
any order, each at most once.
-/

namespace MarkupText

/-- The result of a render. -/
structure Rendered where
  /-- A newline ends each line. -/
  text : Text := []
  spans : List Span := []
  /-- The placeholders in the text, in document order. -/
  images : List ImageRequest := []
  /-- Tokens of the placeholders that were replaced. -/
  filled : List Nat := []
deriving BEq

/-- What a fetcher answers for one placeholder. -/
structure ImageFill where
  token : Nat
  replacement : Text

/-- Why a fill cannot be applied. -/
inductive FillError where
  | unknownToken (token : Nat)
  | alreadyFilled (token : Nat)
deriving DecidableEq

namespace FillError

/-- A token as messages quote it. -/
def quoted (token : Nat) : Text := "PendingImage(".toList ++ natText token ++ [')']

def message : FillError → Text
  | unknownToken n => "no image placeholder for token ".toList ++ quoted n
  | alreadyFilled n => "image placeholder ".toList ++ quoted n ++ " was already filled".toList

end FillError

namespace Rendered

/-- The text under a span. -/
def textOf (r : Rendered) (a : Span) : Text := (r.text.slice? a.start a.stop).getD []

/-- The span of the placeholder with this token. -/
def placeholder? (r : Rendered) (token : Nat) : Option Span :=
  r.spans.find? fun a => match a.mark with
    | .image request => request.token == token
    | _ => false

/-- A span after `[start, stop)` was replaced by `inserted` bytes: what lay inside covers all of the
replacement, other spans keep to their characters. -/
def fillSpan (start stop inserted : Nat) (a : Span) : Span :=
  if start ≤ a.start ∧ a.stop ≤ stop then { a with start, stop := start + inserted }
  else a.edit start (stop - start) inserted

/-- Replaces a placeholder. -/
def fill (r : Rendered) (f : ImageFill) : Except FillError Rendered :=
  if r.filled.contains f.token then .error (.alreadyFilled f.token)
  else match r.placeholder? f.token with
    | none => .error (.unknownToken f.token)
    | some p => .ok
      { r with
        text := r.text.splice p.start (p.stop - p.start) f.replacement
        spans := r.spans.map (fillSpan p.start p.stop f.replacement.size)
        filled := f.token :: r.filled }

/-- Applies fills in order up to the first that fails, which is reported; otherwise their number
is. -/
def fillAll (r : Rendered) : List ImageFill → Rendered × Except FillError Nat
  | [] => (r, .ok 0)
  | f :: fs =>
    match r.fill f with
    | .error e => (r, .error e)
    | .ok r =>
      let (r, result) := fillAll r fs
      (r, result.map (· + 1))

end Rendered
end MarkupText
