import MarkupText.Flow.Insert
import MarkupText.LineBreak.Search
import MarkupText.Proofs.Text.Width
import Mathlib.Data.List.DropRight

/-!
# Breaking lines of words

Where the rules allow no cut inside words, the usable cuts of a line are those beside its spaces.
So a line that fits without its last word is split in front of that word
(`LineBreak.findBreak_lastWord`), and so is a line of two words; a line of a single word is not
split at all (`LineBreak.findBreak_word`).
-/

namespace MarkupText.LineBreak

open Text

variable {rules : Rules} {before c d : Char} {s t u w : Text} {pos column indentation width : Nat}

/-- The character is no place to split a line. -/
def Solid (rules : Rules) (c : Char) : Prop := c ≠ ' ' ∧ rules.breakable c = false

theorem cutKind_of_solid (hb : Solid rules before) (hc : Solid rules c) :
    cutKind rules before c = .never := by
  simp [cutKind, hb.1, hb.2, hc.1, hc.2]

theorem cutsFrom_append (s t : Text) :
    cutsFrom rules before pos column true (s ++ t) =
      cutsFrom rules before pos column true s ++
        cutsFrom rules (s.getLast?.getD before) (pos + s.length) (column + cols s) true t := by
  induction s generalizing before pos column with
  | nil => rfl
  | cons c s ih =>
    have hlast : (c :: s).getLast?.getD before = s.getLast?.getD c := by
      cases s <;> simp [List.getLast?_cons]
    simp only [List.cons_append, cutsFrom, Bool.true_or, if_true, ih, hlast, List.length_cons,
      cols_cons, Nat.add_assoc, Nat.add_comm 1]

theorem never_of_mem_cutsFrom (hb : Solid rules before) (ht : ∀ c ∈ t, Solid rules c) :
    ∀ cut ∈ cutsFrom rules before pos column true t, cut.kind = .never := by
  induction t generalizing before pos column with
  | nil => exact fun _ h => by cases h
  | cons c t ih =>
    have hc := ht c List.mem_cons_self
    simp only [cutsFrom, Bool.true_or, if_true]
    intro cut hcut
    rcases List.mem_cons.1 hcut with rfl | hcut
    · exact cutKind_of_solid hb hc
    · exact ih hc (fun d hd => ht d (List.mem_cons_of_mem _ hd)) cut hcut

theorem reserved_spaces (n : Nat) (h : column + n = indentation) (t : Text) :
    reserved indentation pos column (spaces n ++ t) = (pos + n, indentation) := by
  induction n generalizing pos column with
  | zero =>
    obtain rfl : column = indentation := h
    cases t <;> simp [spaces, reserved]
  | succ n ih =>
    change reserved indentation pos column (' ' :: (spaces n ++ t)) = _
    rw [reserved, if_neg (by omega), charWidth_space, ih (by omega)]
    simp only [Prod.mk.injEq, and_true]
    omega

theorem usableCuts_indented (hc : c ≠ ' ') (t : Text) :
    usableCuts rules (spaces indentation ++ c :: t) indentation =
      cutsFrom rules c (indentation + 1) (indentation + charWidth c) true t := by
  have hdrop : (spaces indentation ++ c :: t).drop indentation = c :: t :=
    List.drop_left' (List.length_replicate ..)
  have hseen : (c != ' ') = true := by simpa using hc
  simp [usableCuts, reserved_spaces indentation (Nat.zero_add _), hdrop, hseen]

theorem findBreak_word (hne : w ≠ []) (h : ∀ c ∈ w, Solid rules c) :
    findBreak rules (spaces indentation ++ w) indentation width = none := by
  obtain ⟨c, w, rfl⟩ := List.exists_cons_of_ne_nil hne
  have hnever : ∀ cut ∈ usableCuts rules (spaces indentation ++ c :: w) indentation,
      cut.kind = .never := by
    rw [usableCuts_indented (h c List.mem_cons_self).1]
    exact never_of_mem_cutsFrom (h c List.mem_cons_self)
      fun d hd => h d (List.mem_cons_of_mem _ hd)
  have hfit : ((usableCuts rules (spaces indentation ++ c :: w) indentation).filter
      (·.column ≤ width)).reverse.find? (·.kind != .never) = none :=
    List.find?_eq_none.2 fun cut hcut => by
      rw [hnever cut (List.mem_filter.1 (List.mem_reverse.1 hcut)).1]; decide
  have hlegal : (usableCuts rules (spaces indentation ++ c :: w) indentation).find?
      (·.kind == .legal) = none :=
    List.find?_eq_none.2 fun cut hcut => by rw [hnever cut hcut]; decide
  rw [findBreak]
  simp only [hfit, hlegal, Option.map_none]

/-- The line up to the space in front of its last word. -/
structure Stem (rules : Rules) (indentation width : Nat) (u : Text) : Prop where
  head : ∃ c, u.head? = some c ∧ c ≠ ' '
  last : ∃ d, u.getLast? = some d ∧ d ≠ ' '
  fits : indentation + cols u ≤ width ∨ ∀ c ∈ u, Solid rules c

/-- Both cuts beside the last space of a line split off the last word. -/
theorem splitLine_lastWord (hu : Stem rules indentation width u) (hw : ∀ c ∈ w, Solid rules c)
    (hpos : pos = indentation + u.length ∨ pos = indentation + u.length + 1) :
    Page.splitLine (spaces indentation ++ u ++ ' ' :: w) pos = (spaces indentation ++ u, w) := by
  obtain ⟨d, hd, hdne⟩ := hu.last
  obtain ⟨v, rfl⟩ := List.getLast?_eq_some_iff.1 hd
  have hlen : (spaces indentation ++ (v ++ [d])).length = indentation + (v ++ [d]).length := by
    simp [spaces]
  have hkeep : dropEndWhile (· == ' ') (spaces indentation ++ (v ++ [d])) =
      spaces indentation ++ (v ++ [d]) := by
    rw [← List.append_assoc]
    exact List.rdropWhile_concat_neg _ _ _ (by simpa using hdne)
  have hword : w.dropWhile (· == ' ') = w := by
    cases w with
    | nil => rfl
    | cons c w => simp [(hw c List.mem_cons_self).1]
  rcases hpos with rfl | rfl
  · rw [Page.splitLine, List.take_left' hlen, List.drop_left' hlen, hkeep]
    simp [hword]
  · have hlen' : (spaces indentation ++ (v ++ [d]) ++ [' ']).length =
        indentation + (v ++ [d]).length + 1 := by
      rw [List.length_append, hlen]; rfl
    rw [List.append_cons, Page.splitLine, List.take_left' hlen', List.drop_left' hlen', hword]
    have htrim : dropEndWhile (· == ' ') (spaces indentation ++ (v ++ [d]) ++ [' ']) =
        dropEndWhile (· == ' ') (spaces indentation ++ (v ++ [d])) :=
      List.rdropWhile_concat_pos _ _ _ rfl
    rw [htrim, hkeep]

/-- The cuts of a line: those in front of the last space, those beside it, and those inside the last
word. -/
theorem usableCuts_lastWord (hu : Stem rules indentation width u) (hw : ∀ c ∈ w, Solid rules c)
    (hne : w ≠ []) : ∃ as bs,
      usableCuts rules (spaces indentation ++ u ++ ' ' :: w) indentation =
        as ++ ⟨indentation + u.length, indentation + cols u, .legal⟩ ::
          ⟨indentation + u.length + 1, indentation + cols u + 1, .legal⟩ :: bs ∧
      (∀ cut ∈ bs, cut.kind = .never) ∧
      ((∀ c ∈ u, Solid rules c) → ∀ cut ∈ as, cut.kind = .never) := by
  obtain ⟨c, hc, hcne⟩ := hu.head
  obtain ⟨u, rfl⟩ := List.head?_eq_some_iff.1 hc
  obtain ⟨e, w, rfl⟩ := List.exists_cons_of_ne_nil hne
  have hpos : indentation + 1 + u.length = indentation + (c :: u).length := by
    rw [List.length_cons]; omega
  have hcols : indentation + charWidth c + cols u = indentation + cols (c :: u) := by
    rw [cols_cons]; omega
  refine ⟨cutsFrom rules c (indentation + 1) (indentation + charWidth c) true u,
    cutsFrom rules e (indentation + (c :: u).length + 1 + 1)
      (indentation + cols (c :: u) + 1 + charWidth e) true w, ?_, ?_, ?_⟩
  · rw [List.append_assoc, List.cons_append, usableCuts_indented hcne, cutsFrom_append, hpos,
      hcols]
    simp [cutsFrom, cutKind, charWidth_space]
  · exact never_of_mem_cutsFrom (hw e List.mem_cons_self)
      fun d hd => hw d (List.mem_cons_of_mem _ hd)
  · exact fun h => never_of_mem_cutsFrom (h c List.mem_cons_self)
      fun d hd => h d (List.mem_cons_of_mem _ hd)

/-- A line that fits without its last word, or that has two words, is split in front of the last
word. -/
theorem findBreak_lastWord (hu : Stem rules indentation width u) (hw : ∀ c ∈ w, Solid rules c)
    (hne : w ≠ []) : ∃ pos,
      findBreak rules (spaces indentation ++ u ++ ' ' :: w) indentation width = some pos ∧
      Page.splitLine (spaces indentation ++ u ++ ' ' :: w) pos = (spaces indentation ++ u, w) := by
  obtain ⟨as, bs, hcuts, hbs, has⟩ := usableCuts_lastWord hu hw hne
  have hbs' : (bs.filter (·.column ≤ width)).reverse.find? (·.kind != .never) = none :=
    List.find?_eq_none.2 fun cut hcut => by
      rw [hbs cut (List.mem_filter.1 (List.mem_reverse.1 hcut)).1]; decide
  have hfind : findBreak rules (spaces indentation ++ u ++ ' ' :: w) indentation width =
      some (indentation + u.length) ∨
    findBreak rules (spaces indentation ++ u ++ ' ' :: w) indentation width =
      some (indentation + u.length + 1) := by
    rw [findBreak, hcuts]
    by_cases hfit : indentation + cols u ≤ width
    · by_cases hfit' : indentation + cols u + 1 ≤ width
      · right
        simp [hfit, hfit', hbs']
      · left
        simp [hfit, hfit', hbs']
    · left
      -- no cut fits: the first legal one is searched for, and none is inside the one word of `u`
      have hnever := has (hu.fits.resolve_left hfit)
      have has' : (as.filter (·.column ≤ width)).reverse.find? (·.kind != .never) = none :=
        List.find?_eq_none.2 fun cut hcut => by
          rw [hnever cut (List.mem_filter.1 (List.mem_reverse.1 hcut)).1]; decide
      have hlegal : as.find? (·.kind == .legal) = none :=
        List.find?_eq_none.2 fun cut hcut => by rw [hnever cut hcut]; decide
      have hfit' : ¬ indentation + cols u + 1 ≤ width := fun h => hfit (Nat.le_of_succ_le h)
      simp [hfit, hfit', hbs', has', hlegal]
  rcases hfind with h | h
  · exact ⟨_, h, splitLine_lastWord hu hw (.inl rfl)⟩
  · exact ⟨_, h, splitLine_lastWord hu hw (.inr rfl)⟩

end MarkupText.LineBreak
