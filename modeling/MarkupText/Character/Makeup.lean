import MarkupText.Character.Category
import MarkupText.Character.Script

/-!
# The makeup of sets

A `Makeup` says what a set of characters is made up of, in terms of categories, scripts and single
ranges. It is plain data, so of many sets with a name only those that are asked for are worked out.
-/

namespace MarkupText

/-- What a set of characters is made up of. -/
inductive Makeup where
  /-- Code points, as `CharSet.ofText` reads them. -/
  | text (lines : List String)
  | categories (l : List Category)
  | script (name : String)
  /-- Every `step`th code point from `first` on, `count` of them. -/
  | every (step first count : Nat)
  | or (p q : Makeup)
  | and (p q : Makeup)
  | minus (p q : Makeup)

namespace Makeup

def set : Makeup → CharSet
  | text lines => .ofText lines
  | categories l => Category.setOf l
  | script name => (Script.set? name).getD .empty
  | every step first count => .ofCodePoints ((List.range count).map fun k => first + k * step)
  | or p q => p.set.union q.set
  | and p q => p.set.intersection q.set
  | minus p q => p.set.difference q.set

/-- All characters. -/
def any : Makeup := text ["0-10FFFF"]

/-- The characters without a category. -/
def unassigned : Makeup := any.minus (categories Category.everything)

/-- The makeup listed under a name, where blanks part the names of one makeup. -/
def find? (name : String) (table : List (String × Makeup)) : Option Makeup :=
  (table.find? fun row => (row.1.splitOn " ").contains name).map (·.2)

/-- The makeup of a general category or a group of them. -/
def category? (name : String) : Option Makeup :=
  find? name <|
    [("any", any), ("assigned", any.minus unassigned), ("ascii", text ["0-7F"]),
      ("cn unassigned", unassigned), ("c other", unassigned.or (categories Category.others))] ++
    Category.table.map fun row => (row.1, categories row.2)

end Makeup
end MarkupText
