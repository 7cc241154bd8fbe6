import MarkupText.Character.Trait

/-!
# Boundaries

Three properties sort characters by their part in finding the boundaries of grapheme clusters,
words and sentences. Each table lists the values of one property by name, with the makeup of the
characters that have it.
-/

namespace MarkupText.Boundary
open Makeup Trait

/-- Marks that stand before the digits of a number. -/
def numberMark : Makeup := prependedMark.minus (text ["70F"])

/-- Modern Hangul syllables without a final consonant. -/
def openSyllable : Makeup := every 28 0xAC00 399

/-- The values of the property of grapheme clusters. -/
def grapheme : List (String × Makeup) := [
  ("cr", text ["D"]),
  ("lf", text ["A"]),
  ("cn control", ((categories [.control, .lineSeparator, .paragraphSeparator, .format]).or
    (defaultIgnorable.and unassigned)).minus
    (prependedMark.or (text ["A D 200C-200D E0020-E007F"]))),
  ("ex extend", graphemeExtend.or emojiModifier),
  ("zwj", text ["200D"]),
  ("ri regionalindicator", text ["1F1E6-1F1FF"]),
  ("pp prepend", prependedMark.or (text [
    "D4E 111C2-111C3 113D1 1193F 11941 11A3A 11A84-11A89 11D46 11F02"])),
  ("sm spacingmark",
    (((categories [.spacingMark]).minus graphemeExtend).or (text ["E33 EB3"])).minus
    (text [
    "102B-102C 1038 1062-1064 1067-106D 1083 1087-108C 108F 109A-109C 1A61 1A63-1A64 AA7B AA7D",
    "11720-11721"])),
  ("l", text ["1100-115F A960-A97C"]),
  ("v", text ["1160-11A7 D7B0-D7C6 16D63 16D67-16D6A"]),
  ("t", text ["11A8-11FF D7CB-D7FB"]),
  ("lv", openSyllable),
  ("lvt", (text ["AC00-D7A3"]).minus openSyllable)]

/-- Signs of the kana that are joined with each other in words. -/
def katakana : Makeup := (script "kana").or (text ["3031-3035 309B-309C 30A0 30FC FF70"])

def hebrewLetter : Makeup := (script "hebr").and (categories [.otherLetter])

/-- Scripts whose words are found only with a dictionary. -/
def unspacedScript : Makeup :=
  (((script "thai").or ((script "laoo").or (script "mymr"))).or
    ((script "khmr").or ((script "tale").or (script "talu")))).or
    ((script "lana").or ((script "tavt").or (script "ahom")))

/-- What extends the character before it in a word. -/
def wordExtend : Makeup := (graphemeExtend.or (categories [.spacingMark])).or emojiModifier

def wordLetter : Makeup :=
  (alphabetic.minus ((ideographic.or katakana).or ((hebrewLetter.or (script "hira")).or
    (unspacedScript.or wordExtend)))).or (text [
    "2C2-2C5 2D2-2D7 2DE-2DF 2E5-2EB 2ED 2EF-2FF 55A-55C 55E 58A 5F3 70F A708-A716 A720-A721",
    "A789-A78A AB5B"])

/-- The values of the property of words. -/
def word : List (String × Makeup) := [
  ("cr", text ["D"]),
  ("lf", text ["A"]),
  ("nl newline", text ["B-C 85 2028-2029"]),
  ("dq doublequote", text ["22"]),
  ("sq singlequote", text ["27"]),
  ("ex extendnumlet", (categories [.connectorPunctuation]).or (text ["202F"])),
  ("extend", wordExtend),
  ("zwj", text ["200D"]),
  ("fo format", (categories [.format]).minus (prependedMark.or (text ["200B-200D E0020-E007F"]))),
  ("hl hebrewletter", hebrewLetter),
  ("ka katakana", katakana),
  ("le aletter", wordLetter),
  ("mb midnumlet", text ["2E 2018-2019 2024 FE52 FF07 FF0E"]),
  ("ml midletter", text ["3A B7 387 55F 5F4 2027 FE13 FE55 FF1A"]),
  ("mn midnum", text ["2C 3B 37E 589 60C-60D 66C 7F8 2044 FE10 FE14 FE50 FE54 FF0C FF1B"]),
  ("nu numeric", ((categories [.decimalNumber]).or (text ["66B"])).or numberMark),
  ("ri regionalindicator", text ["1F1E6-1F1FF"]),
  ("wsegspace", text ["20 1680 2000-2006 2008-200A 205F 3000"])]

def sentenceLower : Makeup := lowercase.minus (graphemeExtend.or (text ["10D0-10FA 10FD-10FF"]))

def sentenceUpper : Makeup :=
  (uppercase.or (categories [.titlecaseLetter])).minus (text ["1C90-1CBA 1CBD-1CBF"])

/-- What extends the character before it in a sentence. -/
def sentenceExtend : Makeup := (graphemeExtend.or (categories [.spacingMark])).or (text ["200D"])

/-- Stops that may also stand inside a sentence. -/
def ambiguousTerminal : Makeup := text ["2E 2024 FE52 FF0E"]

/-- The values of the property of sentences. -/
def sentence : List (String × Makeup) := [
  ("cr", text ["D"]),
  ("lf", text ["A"]),
  ("se sep", text ["85 2028-2029"]),
  ("ex extend", sentenceExtend),
  ("fo format", (categories [.format]).minus (numberMark.or (text ["200C-200D E0020-E007F"]))),
  ("sp", text ["9 B-C 20 A0 1680 2000-200A 202F 205F 3000"]),
  ("lo lower", sentenceLower),
  ("up upper", sentenceUpper),
  ("le oletter", (alphabetic.or (text ["5F3"])).minus
    ((sentenceLower.or sentenceUpper).or sentenceExtend)),
  ("nu numeric", ((categories [.decimalNumber]).or (text ["66B-66C"])).or numberMark),
  ("at aterm", ambiguousTerminal),
  ("st sterm", sentenceTerminal.minus ambiguousTerminal),
  ("cl close", (categories [.openPunctuation, .closePunctuation, .initialPunctuation,
    .finalPunctuation]).or
    (text ["22 27 275B-2760 2E00-2E01 2E06-2E08 2E0B 1F676-1F678"])),
  ("sc scontinue", text [
    "2C-2D 3A-3B 37E 55D 60C-60D 7F8 1802 1808 2013-2014 3001 FE10-FE11 FE13-FE14 FE31-FE32",
    "FE50-FE51 FE54-FE55 FE58 FE63 FF0C-FF0D FF1A-FF1B FF64"])]

end MarkupText.Boundary
