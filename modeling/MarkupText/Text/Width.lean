import MarkupText.Text.Basic
import MarkupText.Text.EmojiTable
import MarkupText.Text.WidthTable

/-!
# Width on a character grid

`charWidth` is the number of cells of one character. `width` measures a text. It is the sum of the
character widths except where characters are shown together: a control character counts one, a
carriage return with its newline one, emoji sequences two, and the ligatures of some scripts as much
as their glyph. A text is measured from its end, since a selector or a joiner tells about what
stands before it; `Context` is what the next character has to know of the text after it.
-/

namespace MarkupText
namespace Text

/-- The C0 and C1 control characters and delete. -/
def isControl (c : Char) : Bool := c.toNat < 0x20 || (0x7F ≤ c.toNat && c.toNat < 0xA0)

/-- Cells occupied by one character. Only the sign beyyal takes three. -/
def charWidth (c : Char) : Nat :=
  let n := c.toNat
  if isControl c then 0
  else if n < 0xAD then 1
  else if n = 0x17D8 then 3
  else if inRanges n wideRanges then 2
  else if inRanges n zeroWidthRanges then 0
  else 1

/-! ### Classes of characters -/

def isZeroWidthJoiner (c : Char) : Bool := c.toNat = 0x200D

/-- The five skin tones. -/
def isSkinTone (c : Char) : Bool := 0x1F3FB ≤ c.toNat && c.toNat ≤ 0x1F3FF

/-- The letters that are written in pairs for a flag. -/
def isRegionalIndicator (c : Char) : Bool := 0x1F1E6 ≤ c.toNat && c.toNat ≤ 0x1F1FF

def isTagLetter (c : Char) : Bool := 0xE0061 ≤ c.toNat && c.toNat ≤ 0xE007A

def isTagDigit (c : Char) : Bool := 0xE0030 ≤ c.toNat && c.toNat ≤ 0xE0039

/-- Characters shown as emoji by default. -/
def isEmoji (c : Char) : Bool := inRanges c.toNat emojiRanges

/-- Characters that a selector turns into emoji. -/
def takesEmojiStyle (c : Char) : Bool := inRanges c.toNat styledRanges

/-- Emoji that a selector turns into narrow text; the enclosed ideographs stay wide. -/
def takesTextStyle (c : Char) : Bool :=
  takesEmojiStyle c && isEmoji c && !(0x1F200 ≤ c.toNat && c.toNat ≤ 0x1F2FF)

/-- The curly quotation marks, which have a wide form. -/
def isCurlyQuote (c : Char) : Bool := [0x2018, 0x2019, 0x201C, 0x201D].contains c.toNat

/-- Marks that are ignored by default, so that they part no ligature. -/
def isIgnorableMark (c : Char) : Bool :=
  inRanges c.toNat [(0x34F, 0x34F), (0x17B4, 0x17B5), (0x180B, 0x180D), (0x180F, 0x180F),
    (0xFE00, 0xFE0F), (0xE0100, 0xE01EF)]

/-- Marks that lie over a pair of joined Arabic letters. -/
def isTransparent (c : Char) : Bool := charWidth c = 0 && !inRanges c.toNat opaqueZeroWidthRanges

def isLam (c : Char) : Bool :=
  inRanges c.toNat [(0x644, 0x644), (0x6B5, 0x6B8), (0x76A, 0x76A), (0x8A6, 0x8A6), (0x8C7, 0x8C7)]

def isAlef (c : Char) : Bool :=
  inRanges c.toNat [(0x622, 0x623), (0x625, 0x625), (0x627, 0x627), (0x671, 0x673), (0x675, 0x675),
    (0x773, 0x774), (0x870, 0x882)]

/-- Khmer letters that have a form below the letter before them. -/
def isSubjoinable (c : Char) : Bool :=
  inRanges c.toNat [(0x1780, 0x1782), (0x1784, 0x1787), (0x1789, 0x178C), (0x178E, 0x1793),
    (0x1795, 0x1798), (0x179B, 0x179D), (0x17A0, 0x17A0), (0x17A2, 0x17A2), (0x17A7, 0x17A7),
    (0x17AB, 0x17AC), (0x17AF, 0x17AF)]

def isTifinaghConsonant (c : Char) : Bool := inRanges c.toNat [(0x2D31, 0x2D65), (0x2D6F, 0x2D6F)]

/-! ### What follows a character -/

/-- What stands after a character, as far as the cells of the character depend on it. `joined` tells
whether a joiner stands before it. -/
inductive Follower where
  | plain
  | newline
  | skinTone
  /-- One regional indicator. -/
  | region
  /-- Several regional indicators. -/
  | regions
  | emoji
  /-- An emoji with a joiner before it; the characters below stand before such a joiner. -/
  | joinedEmoji
  | joinedKeycap
  | joinedRegion
  | joinedRegionPairs
  /-- An odd number of regional indicators, more than one. -/
  | joinedRegions
  /-- The end of a flag by tags. -/
  | joinedTags (letters digits : Nat)
  | alef
  | lamed (joined : Bool)
  | ya (joined : Bool)
  /-- The Buginese vowel i with a joined letter ya. -/
  | yaAfterVowel
  | tifinagh (joined : Bool)
  /-- A Tifinagh consonant with the consonant joiner before it. -/
  | tifinaghAfterJoiner
  | lowTone
  | orkhonI (joined : Bool)
  | subjoinable
  | vowelE
  | vowelAi
deriving DecidableEq

/-- A character that asks for a form of the one before it. -/
inductive Selector where
  | text
  | emoji
  | fullwidth
deriving DecidableEq

/-- What has to be known of the text after a character. -/
structure Context where
  follower : Follower := .plain
  selector : Option Selector := none
deriving DecidableEq

namespace Follower

/-- Whether a selector before the character leaves it what it is: letters of ligatures. -/
def keepsSelected : Follower → Bool
  | alef | lamed _ | ya _ | yaAfterVowel | tifinagh _ | tifinaghAfterJoiner | lowTone | orkhonI _
  | subjoinable | vowelE | vowelAi => true
  | _ => false

/-- Whether an emoji in front of the character is part of its sequence. -/
def isJoined : Follower → Bool
  | joinedEmoji | joinedKeycap => true
  | _ => false

/-- Whether joiners and ignorable marks may stand between the letters of the ligature. -/
def isLoose (f : Follower) : Bool := f.keepsSelected && f ≠ alef

/-- The same with a joiner before it. -/
def join : Follower → Follower
  | lamed _ => lamed true
  | ya _ => ya true
  | tifinagh _ => tifinagh true
  | orkhonI _ => orkhonI true
  | f => f

/-- What a character is to the one before it. -/
def ofChar (c : Char) : Follower :=
  let n := c.toNat
  if n < 0x5DC then .plain
  else if n = 0x5DC then .lamed false
  else if n < 0x883 then (if isAlef c then .alef else .plain)
  else if n = 0x1A10 then .ya false
  else if isSubjoinable c then .subjoinable
  else if isTifinaghConsonant c then .tifinagh false
  else if n = 0xA4FC || n = 0xA4FD then .lowTone
  else if n = 0x10C03 then .orkhonI false
  else if n = 0x16D67 then .vowelE
  else if n = 0x16D68 then .vowelAi
  else if isRegionalIndicator c then .region
  else if isSkinTone c then .skinTone
  else if isEmoji c then .emoji
  else .plain

/-- The cells that `c` adds before a joined flag of tags. The tags name a region by letters, or by
digits with up to four letters after them. -/
def beforeTags? (letters digits : Nat) (c : Char) : Option (Int × Follower) :=
  if isTagLetter c && digits = 0 && letters < 6 then some (0, .joinedTags (letters + 1) 0)
  else if isTagDigit c && letters ≤ 4 && digits < 3 then some (0, .joinedTags letters (digits + 1))
  else if c.toNat = 0x1F3F4 && (digits = 3 || digits = 0 && 3 ≤ letters) then some (0, .emoji)
  else none

/-- The cells that `c` adds when it is shown together with what follows it, and what both are to the
character before them; `none` when it is shown by itself. -/
def beforeIt? (f : Follower) (c : Char) : Option (Int × Follower) :=
  let n := c.toNat
  match f with
  | alef =>
    if isLam c then some (0, .plain) else if isTransparent c then some (0, .alef) else none
  | lamed true => if n = 0x5D0 then some (0, .plain) else none
  | subjoinable => if n = 0x17D2 then some (-1, .plain) else none
  | ya true => if n = 0x1A17 then some (0, .yaAfterVowel) else none
  | yaAfterVowel => if n = 0x1A15 then some (0, .plain) else none
  | tifinagh joined =>
    if n = 0x2D7F then some (1, .tifinaghAfterJoiner)
    else if joined && isTifinaghConsonant c then some (0, .plain)
    else none
  | tifinaghAfterJoiner => if isTifinaghConsonant c then some (-1, .plain) else none
  | lowTone => if 0xA4F8 ≤ n && n ≤ 0xA4FB then some (0, .plain) else none
  | orkhonI true => if n = 0x10C32 then some (0, .plain) else none
  | vowelE =>
    if n = 0x16D63 || n = 0x16D69 then some (0, .plain)
    else if n = 0x16D67 then some (0, .vowelAi)
    else if n = 0x16D68 then some (1, .vowelE)
    else none
  | vowelAi => if n = 0x16D63 then some (0, .plain) else none
  | skinTone =>
    if inRanges n modifierBaseRanges then some (0, .emoji)
    else if isZeroWidthJoiner c then some (0, .joinedEmoji)
    else none
  | region => if isRegionalIndicator c then some (1, .regions) else none
  | regions =>
    if isRegionalIndicator c then some (1, .regions)
    else if isZeroWidthJoiner c then some (0, .joinedEmoji)
    else none
  | emoji => if isZeroWidthJoiner c then some (0, .joinedEmoji) else none
  | joinedEmoji =>
    if n = 0x20E3 then some (0, .joinedKeycap)
    else if isRegionalIndicator c then some (1, .joinedRegion)
    else if isSkinTone c then some (0, .skinTone)
    else if n = 0xE007F then some (0, .joinedTags 0 0)
    else if isEmoji c then some (0, .emoji)
    else none
  | joinedRegion => if isRegionalIndicator c then some (-1, .joinedRegionPairs) else none
  | joinedRegionPairs =>
    if isRegionalIndicator c then some (3, .joinedRegions)
    else if isZeroWidthJoiner c then some (0, .joinedEmoji)
    else none
  | joinedRegions =>
    if isRegionalIndicator c then some (-1, .joinedRegionPairs)
    else if isZeroWidthJoiner c then some (0, .joinedEmoji)
    else none
  | joinedTags letters digits => beforeTags? letters digits c
  | _ => none

end Follower

namespace Context

/-- The context before a selector. -/
def select (x : Context) (s : Selector) : Context :=
  if x.follower.keepsSelected || (s = .emoji && x.follower.isJoined) then
    { x with selector := some s }
  else { selector := some s }

/-- The context after a selector that meets no character it applies to. -/
def unselect (x : Context) : Context :=
  if x.selector.isNone then x
  else if x.follower.keepsSelected then { x with selector := none }
  else {}

end Context

/-- The selector that a character is. -/
def selector? (c : Char) : Option Selector :=
  match c.toNat with
  | 0xFE01 => some .fullwidth
  | 0xFE0E => some .text
  | 0xFE0F => some .emoji
  | _ => none

/-- The cells of the selected form of a character. -/
def selectedWidth? (x : Context) (c : Char) : Option (Int × Context) :=
  match x.selector with
  | some .emoji =>
    if takesEmojiStyle c then some (if x.follower.isJoined then 0 else 2, { follower := .emoji })
    else none
  | some .text => if takesTextStyle c then some (1, {}) else none
  | some .fullwidth => if isCurlyQuote c then some (2, {}) else none
  | none => none

/-- The cells that a character adds in front of a text, and the context before it. -/
def cellsBefore (c : Char) (x : Context) : Int × Context :=
  if c.toNat ≤ 0xA0 then
    match selectedWidth? x c with
    | some r => r
    | none =>
      if c = '\n' then (1, { follower := .newline })
      else if c = '\r' && x.follower = .newline then (0, {})
      else (1, {})
  else match selectedWidth? x c with
    | some r => r
    | none =>
      match selector? c with
      | some s => (0, (if x.selector = some .emoji then x.unselect else x).select s)
      | none =>
        let f := x.unselect.follower
        if f.isLoose && isZeroWidthJoiner c then (0, { follower := f.join })
        else if f.isLoose && isIgnorableMark c then (0, { follower := f })
        else match f.beforeIt? c with
          | some (n, f) => (n, { follower := f })
          | none => (charWidth c, { follower := .ofChar c })

/-- The cells of a text, and the context before it. -/
def measure (t : Text) : Int × Context :=
  t.foldr (fun c r => let (n, x) := cellsBefore c r.2; (n + r.1, x)) (0, {})

/-- Cells occupied by a text. -/
def width (t : Text) : Nat := (measure t).1.toNat

end Text
end MarkupText
