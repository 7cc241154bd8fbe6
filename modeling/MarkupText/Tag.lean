import MarkupText.Text.Basic

/-!
# Tags

The closed vocabulary of elements that have a rule of their own. Every name resolves to one `Tag`;
names outside the vocabulary resolve to `Tag.unknown`, so no element is ever an error.
-/

namespace MarkupText

/-- An element of the vocabulary. -/
inductive Tag where
  | a | article | aside | audio | b | blockquote | body | br | caption | center | cite | code | dd
  | del | div | dl | dt | em | figure | font | footer | h1 | h2 | h3 | h4 | h5 | h6 | head | header
  | hr | html | i | img | ins | kbd | li | mainPart | nav | ol | p | pre | s | samp | script
  | sectionPart | span | strike | strong | style | table | tbody | td | template | tfoot | th
  | thead | title | tr | tt | u | ul | var | video
  /-- Any element outside the vocabulary. -/
  | unknown
deriving DecidableEq

namespace Tag

/-- The tags with their names. -/
def names : List (Tag × String) := [
  (a, "a"), (article, "article"), (aside, "aside"), (audio, "audio"), (b, "b"),
  (blockquote, "blockquote"), (body, "body"), (br, "br"), (caption, "caption"),
  (center, "center"), (cite, "cite"), (code, "code"), (dd, "dd"), (del, "del"), (div, "div"),
  (dl, "dl"), (dt, "dt"), (em, "em"), (figure, "figure"), (font, "font"), (footer, "footer"),
  (h1, "h1"), (h2, "h2"), (h3, "h3"), (h4, "h4"), (h5, "h5"), (h6, "h6"), (head, "head"),
  (header, "header"), (hr, "hr"), (html, "html"), (i, "i"), (img, "img"), (ins, "ins"),
  (kbd, "kbd"), (li, "li"), (mainPart, "main"), (nav, "nav"), (ol, "ol"), (p, "p"), (pre, "pre"),
  (s, "s"), (samp, "samp"), (script, "script"), (sectionPart, "section"), (span, "span"),
  (strike, "strike"), (strong, "strong"), (style, "style"), (table, "table"), (tbody, "tbody"),
  (td, "td"), (template, "template"), (tfoot, "tfoot"), (th, "th"), (thead, "thead"),
  (title, "title"), (tr, "tr"), (tt, "tt"), (u, "u"), (ul, "ul"), (var, "var"), (video, "video"),
  (unknown, "#unknown")]

/-- The name in lower case. -/
def name (t : Tag) : String := ((names.find? (·.1 = t)).map (·.2)).getD "#unknown"

/-- The tag of a name in any case. -/
def ofName (n : Text) : Tag :=
  ((names.find? fun e => Text.sameLetters e.2.toList n).map (·.1)).getD unknown

/-- The level of a heading. -/
def headingLevel? : Tag → Option Nat
  | h1 => some 1
  | h2 => some 2
  | h3 => some 3
  | h4 => some 4
  | h5 => some 5
  | h6 => some 6
  | _ => none

/-- Whether the element groups rows of a table. -/
def isRowGroup (t : Tag) : Bool := t = thead || t = tbody || t = tfoot

/-- Whether the element is a cell of a table. -/
def isCell (t : Tag) : Bool := t = td || t = th

end Tag
end MarkupText
