import MarkupText.Character.Property
import MarkupText.Pattern.Basic
import MarkupText.Pattern.Flags

/-!
# Escapes

What a backslash stands for together with what follows it: one character, a set of characters or a
condition on a place. Code points are written in hexadecimal, properties of characters by name.
-/

namespace MarkupText.Pattern

/-- What an escape stands for. -/
inductive Escape where
  /-- A character; `isByte` if it is written as a byte. -/
  | char (c : Char) (isByte : Bool)
  | set (s : CharSet)
  | place (a : Assertion)

/-- A set that a letter stands for, or its complement; the sets are closed over case as they are. -/
def letterSet? (f : Flags) (negated : Bool) (unlimited ascii : CharSet) : Option CharSet :=
  let s := if f.asciiOnly then ascii else unlimited
  f.admit? (if negated then s.complement else s)

/-- The ASCII characters of words. -/
def asciiWord : CharSet := .ofText ["30-39 41-5A 5F 61-7A"]

/-- Decimal digits. -/
def decimalDigits : CharSet := Category.setOf [.decimalNumber]

/-- Blanks, as `isBlank` has them. -/
def blanks : CharSet := .ofText ["9-D 20 85 A0 1680 2000-200A 2028-2029 202F 205F 3000"]

/-- The control characters with a letter. -/
def controlEscape? : Char → Option Char
  | 'a' => some '\x07'
  | 'f' => some '\x0c'
  | 't' => some '\t'
  | 'n' => some '\n'
  | 'r' => some '\r'
  | 'v' => some '\x0b'
  | _ => none

/-- Whether a character may be escaped to stand for itself: ASCII characters other than letters,
digits and angle brackets. -/
def isEscapable (c : Char) : Bool :=
  c.toNat < 0x80 && !c.isAlphanum && c != '<' && c != '>'

/-- The character that hexadecimal digits stand for. -/
def hexChar? (digits : Text) : Option Char := do
  let n := (← digits.mapM hexValue?).foldl (fun n d => 16 * n + d) 0
  if digits.isEmpty || !(n < 0xD800 || (0xDFFF < n && n < 0x110000)) then none
  else some (Char.ofNat n)

/-- Reads a number of hexadecimal digits. -/
def readHexDigits? (f : Flags) : (count : Nat) → Text → Option (Text × Text)
  | 0, t => some ([], t)
  | count + 1, t =>
    match f.skip t with
    | [] => none
    | c :: t => (readHexDigits? f count t).map fun (digits, rest) => (c :: digits, rest)

/-- Reads a code point: a number of digits, or as many as there are in braces. -/
def readCodePoint? (f : Flags) (width : Nat) (t : Text) : Option (Escape × Text) := do
  match f.skip t with
  | '\x7b' :: t =>
    let (digits, rest) := f.span (· != '\x7d') (f.skip t)
    if rest.isEmpty then none else return (.char (← hexChar? digits) false, rest.drop 1)
  | t =>
    let (digits, rest) ← readHexDigits? f width t
    return (.char (← hexChar? digits) (width == 2), rest)

/-- The parts of a text before and after the first unequal sign, that is `!=`. -/
def cutUnequal? : Text → Option (Text × Text)
  | [] => none
  | '!' :: '=' :: t => some ([], t)
  | c :: t => (cutUnequal? t).map fun (l, r) => (c :: l, r)

/-- A property in braces, and whether what lacks it is meant. -/
def propertyOf (t : Text) : Property × Bool :=
  match cutUnequal? t, Text.cut? ':' t, Text.cut? '=' t with
  | some (property, value), _, _ => (.valued property value, true)
  | none, some (property, value), _ => (.valued property value, false)
  | none, none, some (property, value) => (.valued property value, false)
  | none, none, none => (.named t, false)

/-- Reads a property: one letter, or a name in braces. -/
def readProperty? (f : Flags) (negated : Bool) (t : Text) : Option (Escape × Text) := do
  let ((property, lacking), rest) ← match f.skip t with
    | '\x7b' :: t =>
      let (name, rest) := f.span (· != '\x7d') (f.skip t)
      if rest.isEmpty then none else some (propertyOf name, rest.drop 1)
    | '\\' :: _ | [] => none
    | c :: t => some ((.named [c], false), t)
  if f.asciiOnly then none
  else return (.set (← f.closeOrNegate? (negated != lacking) (← property.set?)), rest)

/-- The edges of words that have a name. -/
def wordEdge? : String → Option WordEdge
  | "start" => some .start
  | "end" => some .stop
  | "start-half" => some .startHalf
  | "end-half" => some .stopHalf
  | _ => none

/-- Reads the name of an edge in braces after `\b`. Braces with anything but a name in them belong
to a repetition. -/
def readWordEdge? (f : Flags) (t : Text) : Option (WordEdge × Text) :=
  let isNameChar (c : Char) : Bool := c.isAlpha || c == '-'
  match t with
  | '\x7b' :: t' =>
    match f.skip t' with
    | [] => none
    | c :: u =>
      if isNameChar c then do
        let (name, rest) := f.span isNameChar (c :: u)
        if rest.head? = some '\x7d' then return (← wordEdge? (String.ofList name), rest.drop 1)
        else none
      else some (.boundary, t)
  | t => some (.boundary, t)

/-- Reads an escape, after the backslash. -/
def readEscape? (f : Flags) : Text → Option (Escape × Text)
  | [] => none
  | c :: t =>
    let set (negated : Bool) (unlimited ascii : CharSet) : Option (Escape × Text) :=
      (letterSet? f negated unlimited ascii).map fun s => (.set s, t)
    let edge (e : WordEdge) : Escape := .place (.word e f.asciiOnly)
    match c with
    | 'd' | 'D' => set (c == 'D') decimalDigits (.ofRange 0x30 0x39)
    | 's' | 'S' => set (c == 'S') blanks (.ofText ["9-D 20"])
    | 'w' | 'W' => set (c == 'W') Trait.word asciiWord
    | 'p' | 'P' => readProperty? f (c == 'P') t
    | 'x' => readCodePoint? f 2 t
    | 'u' => readCodePoint? f 4 t
    | 'U' => readCodePoint? f 8 t
    | 'A' => some (.place .textStart, t)
    | 'z' => some (.place .textEnd, t)
    | 'b' => (readWordEdge? f t).map fun (e, t) => (edge e, t)
    | 'B' => some (edge .noBoundary, t)
    | '<' => some (edge .start, t)
    | '>' => some (edge .stop, t)
    | c =>
      match controlEscape? c with
      | some d => some (.char d false, t)
      | none => if isEscapable c then some (.char c false, t) else none

end MarkupText.Pattern
