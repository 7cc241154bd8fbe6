import MarkupText.Text.Basic

/-!
# Character classes for line breaking

`Rules` answers four questions about single characters. `Rules.kinsoku` is the stock classification:
characters of the CJK scripts may be split anywhere and are written without spaces, except that
closing punctuation and small kana begin no line and opening brackets end none.
-/

namespace MarkupText.LineBreak

/-- A classification of characters. -/
structure Rules where
  /-- A line may be split before or after the character without a space. -/
  breakable : Char → Bool
  /-- Two neighbours of this class are written without a space between them. -/
  spaceless : Char → Bool
  /-- The character must not begin a line. -/
  noStart : Char → Bool
  /-- The character must not end a line. -/
  noEnd : Char → Bool

/-- Closing punctuation, iteration marks and small kana. -/
def noStartChars : Text :=
  ("!),.:;?]\x7d¢°’”‰′″℃、。々〉》」』】〕〗〙〛ぁぃぅぇぉっゃゅょゎゕゖ゛゜ゝゞァィゥェォッャュョヮヵヶ・ーヽヾ！％），．：；？］｝｡｣､･" ++
    "ｧｨｩｪｫｬｭｮｯｰﾞﾟ").toList

/-- Opening brackets and currency signs. -/
def noEndChars : Text := "([\x7b£¥‘“〈《「『【〔〖〘〚＄（［｛｢￡￥".toList

/-- The blocks of scripts written without spaces between words. -/
def isCjk (c : Char) : Bool :=
  let n := c.toNat
  (0x2E80 ≤ n && n ≤ 0x2FDF) || (0x3000 ≤ n && n ≤ 0x30FF) || (0x31F0 ≤ n && n ≤ 0x31FF) ||
    (0x3400 ≤ n && n ≤ 0x4DBF) || (0x4E00 ≤ n && n ≤ 0x9FFF) || (0xF900 ≤ n && n ≤ 0xFAFF) ||
    (0xFF00 ≤ n && n ≤ 0xFFEF) || (0x20000 ≤ n && n ≤ 0x2FFFF)

namespace Rules

/-- The stock classification with further characters that begin or end no line. -/
def kinsokuWith (extraNoStart extraNoEnd : Text) : Rules where
  breakable := isCjk
  spaceless := isCjk
  noStart c := noStartChars.contains c || extraNoStart.contains c
  noEnd c := noEndChars.contains c || extraNoEnd.contains c

/-- The stock classification. -/
def kinsoku : Rules := kinsokuWith [] []

/-- The classification by membership in four sets. -/
def ofSets (breakable spaceless noStart noEnd : Text) : Rules where
  breakable := breakable.contains
  spaceless := spaceless.contains
  noStart := noStart.contains
  noEnd := noEnd.contains

end Rules
end MarkupText.LineBreak
