import MarkupText.Proofs.LineBreak.Spaces
import MarkupText.Proofs.Text.Position
import MarkupText.Proofs.Text.Words

/-!
# Greedy word wrap

`Greedy.wrap` puts on each line the indentation and as many words as fit. One word more goes on the
last line or on a new one (`Greedy.linesOf_concat`). `SpaceSeparated` says of a text that blanks alone
set off its words; then a line is as wide as its indentation and its characters, and it begins and
ends with a word.
-/

namespace MarkupText

open Text LineBreak

namespace Greedy
variable {indentation width : Nat} {line l : List Text} {ws : List Text} {w : Text}

/-- A line of words. -/
def lineOf (indentation : Nat) (ws : List Text) : Text := spaces indentation ++ [' '].intercalate ws

/-- The lines of some words, of which the first line begins with `line`. -/
def pack (indentation width : Nat) (line : List Text) : List Text → List (List Text)
  | [] => [line]
  | w :: ws =>
    if (lineOf indentation (line ++ [w])).width ≤ width then
      pack indentation width (line ++ [w]) ws
    else line :: pack indentation width [w] ws

/-- The lines of some words. -/
def linesOf (indentation width : Nat) : List Text → List (List Text)
  | [] => []
  | w :: ws => pack indentation width [w] ws

/-- The words wrapped at `width` columns: on each line the indentation and as many words as fit, or
a single word. -/
def wrap (indentation width : Nat) (ws : List Text) : Text :=
  ['\n'].intercalate ((linesOf indentation width ws).map (lineOf indentation))

theorem wrap_singleton (indentation width : Nat) (w : Text) :
    wrap indentation width [w] = lineOf indentation [w] := List.intercalate_singleton

/-- A line that fits, or that cannot be shorter. -/
def Kept (indentation width : Nat) (l : List Text) : Prop :=
  l.length = 1 ∨ (lineOf indentation l).width ≤ width

/-- A word behind a line: on the line if it fits, else on the next. -/
def place (indentation width : Nat) (l : List Text) (w : Text) : List (List Text) :=
  if (lineOf indentation (l ++ [w])).width ≤ width then [l ++ [w]] else [l, [w]]

theorem pack_concat (line ws : List Text) (hne : line ≠ []) (hline : Kept indentation width line) :
    ∃ ls l, pack indentation width line ws = ls ++ [l] ∧ l ≠ [] ∧ Kept indentation width l ∧
      (∀ v ∈ l, v ∈ line ++ ws) ∧
      ∀ w, pack indentation width line (ws ++ [w]) = ls ++ place indentation width l w := by
  induction ws generalizing line with
  | nil =>
    refine ⟨[], line, rfl, hne, hline, by simp, fun w => ?_⟩
    simp only [List.nil_append, pack, place]
  | cons v ws ih =>
    by_cases hfit : (lineOf indentation (line ++ [v])).width ≤ width
    · obtain ⟨ls, l, hpack, hl, hkept, hmem, hplace⟩ := ih (line ++ [v]) (by simp) (.inr hfit)
      refine ⟨ls, l, ?_, hl, hkept, by simpa using hmem, fun w => ?_⟩
      · rw [pack, if_pos hfit, hpack]
      · rw [List.cons_append, pack, if_pos hfit, hplace]
    · obtain ⟨ls, l, hpack, hl, hkept, hmem, hplace⟩ := ih [v] (by simp) (.inl rfl)
      refine ⟨line :: ls, l, ?_, hl, hkept, fun u hu => ?_, fun w => ?_⟩
      · rw [pack, if_neg hfit, hpack, List.cons_append]
      · exact List.mem_append_right _ (hmem u hu)
      · rw [List.cons_append, pack, if_neg hfit, hplace, List.cons_append]

/-- The last line, and what one word more does to it. -/
theorem linesOf_concat (indentation width : Nat) (hne : ws ≠ []) :
    ∃ ls l, linesOf indentation width ws = ls ++ [l] ∧ l ≠ [] ∧ Kept indentation width l ∧
      (∀ v ∈ l, v ∈ ws) ∧
      ∀ w, linesOf indentation width (ws ++ [w]) = ls ++ place indentation width l w := by
  obtain ⟨v, ws, rfl⟩ := List.exists_cons_of_ne_nil hne
  exact pack_concat [v] ws (by simp) (.inl rfl)

@[simp] theorem lineOf_singleton (indentation : Nat) (w : Text) :
    lineOf indentation [w] = spaces indentation ++ w :=
  congrArg (spaces indentation ++ ·) List.intercalate_singleton

/-- The lines above the last. -/
def above (indentation : Nat) (ls : List (List Text)) : Text :=
  (ls.map (lineOf indentation · ++ ['\n'])).flatten

theorem join_concat (sep : Text) (xs : List Text) (x : Text) :
    sep.intercalate (xs ++ [x]) = (xs.map (· ++ sep)).flatten ++ x := by
  induction xs with
  | nil => exact List.intercalate_singleton
  | cons y xs ih =>
    rw [List.cons_append, List.intercalate_cons_of_ne_nil (by simp), ih]
    simp

theorem join_lines (ls : List (List Text)) (l : List Text) :
    ['\n'].intercalate ((ls ++ [l]).map (lineOf indentation)) =
      above indentation ls ++ lineOf indentation l := by
  rw [List.map_append, List.map_singleton, join_concat, List.map_map]
  rfl

theorem above_eq (indentation : Nat) (ls : List (List Text)) :
    above indentation ls = [] ∨ (above indentation ls).getLast? = some '\n' := by
  rcases List.eq_nil_or_concat' ls with rfl | ⟨ls, l, rfl⟩
  · exact .inl rfl
  · right
    simp [above]

theorem join_place (ls : List (List Text)) (l : List Text) (w : Text) :
    ['\n'].intercalate ((ls ++ place indentation width l w).map (lineOf indentation)) =
      if (lineOf indentation (l ++ [w])).width ≤ width then
        above indentation ls ++ lineOf indentation (l ++ [w])
      else above indentation ls ++ lineOf indentation l ++ '\n' :: lineOf indentation [w] := by
  unfold place
  split
  · exact join_lines ls _
  · rw [show [l, [w]] = [l] ++ [[w]] from rfl, ← List.append_assoc, join_lines]
    simp [above]

end Greedy

open Greedy

/-- Texts whose words are set off by blanks alone: no line may be split inside a word, none is
written without a space in front, and widths add up. -/
structure SpaceSeparated (rules : Rules) (cs : Text) : Prop where
  unbreakable : ∀ c ∈ cs, rules.breakable c = false
  spaced : ∀ c ∈ cs, rules.spaceless c = false
  positive : ∀ c ∈ cs, isBlank c = false → 0 < charWidth c
  additive : ∀ t : Text, (∀ c ∈ t, c = ' ' ∨ c ∈ cs ∧ isBlank c = false) →
    t.width = cols t

theorem spaceSeparated_kinsoku {cs : Text} (h : ∀ c ∈ cs, Printable c ∨ c = '\n') :
    SpaceSeparated .kinsoku cs where
  unbreakable c hc := by
    have hlow : c.toNat < 0x7F := (h c hc).elim And.right (by rintro rfl; decide)
    simp [Rules.kinsoku, Rules.kinsokuWith, isCjk]
    omega
  spaced c hc := by
    have hlow : c.toNat < 0x7F := (h c hc).elim And.right (by rintro rfl; decide)
    simp [Rules.kinsoku, Rules.kinsokuWith, isCjk]
    omega
  positive c hc hblank := by
    rcases h c hc with hc | rfl
    · rw [charWidth_of_printable hc]
      exact Nat.one_pos
    · rw [isBlank_newline] at hblank; cases hblank
  additive t ht := width_eq_cols fun c hc => by
    rcases ht c hc with rfl | ⟨hmem, hblank⟩
    · exact ⟨by decide, by decide⟩
    · rcases h c hmem with hc | rfl
      · exact hc
      · rw [isBlank_newline] at hblank; cases hblank

/-- A word of some text. -/
def Inked (cs w : Text) : Prop := w ≠ [] ∧ ∀ c ∈ w, c ∈ cs ∧ isBlank c = false

section Lines
variable {rules : Rules} {cs : Text} {l ws : List Text} {w u v : Text} {indentation width : Nat}

theorem inked_of_mem_words {t : Text} (ht : ∀ c ∈ t, c ∈ cs) (h : w ∈ words t) : Inked cs w :=
  ⟨ne_nil_of_mem_words h, fun _ hc => ⟨ht _ (mem_of_mem_words h hc), not_isBlank_of_mem_words h hc⟩⟩

theorem Inked.append (hu : Inked cs u) (hv : Inked cs v) : Inked cs (u ++ v) :=
  ⟨by simp [hu.1], fun c hc => (List.mem_append.1 hc).elim (hu.2 c) (hv.2 c)⟩

theorem Inked.ne_space (h : Inked cs w) {c : Char} (hc : c ∈ w) : c ≠ ' ' :=
  (shown_of_not_blank (h.2 c hc).2).1

theorem Inked.solid (h : Inked cs w) (hcs : SpaceSeparated rules cs) {c : Char} (hc : c ∈ w) :
    Solid rules c :=
  ⟨h.ne_space hc, hcs.unbreakable c (h.2 c hc).1⟩

theorem mem_join (hl : ∀ w ∈ l, Inked cs w) {c : Char} (hc : c ∈ [' '].intercalate l) :
    c = ' ' ∨ c ∈ cs ∧ isBlank c = false := by
  induction l with
  | nil => cases hc
  | cons w l ih =>
    cases l with
    | nil =>
      rw [List.intercalate_singleton] at hc
      exact .inr ((hl w List.mem_cons_self).2 c hc)
    | cons v l =>
      rw [List.intercalate_cons_of_ne_nil (List.cons_ne_nil v l)] at hc
      rcases List.mem_append.1 hc with hc | hc
      · rcases List.mem_append.1 hc with hc | hc
        · exact .inr ((hl w List.mem_cons_self).2 c hc)
        · exact .inl (List.mem_singleton.1 hc)
      · exact ih (fun v hv => hl v (List.mem_cons_of_mem _ hv)) hc

theorem mem_lineOf (hl : ∀ w ∈ l, Inked cs w) {c : Char} (hc : c ∈ lineOf indentation l) :
    c = ' ' ∨ c ∈ cs ∧ isBlank c = false :=
  (List.mem_append.1 hc).elim (fun h => .inl (List.eq_of_mem_replicate h)) (mem_join hl)

theorem newline_notMem_lineOf (hl : ∀ w ∈ l, Inked cs w) : '\n' ∉ lineOf indentation l := by
  intro h
  rcases mem_lineOf hl h with h | ⟨-, h⟩
  · cases h
  · rw [isBlank_newline] at h; cases h

theorem width_lineOf (hcs : SpaceSeparated rules cs) (hl : ∀ w ∈ l, Inked cs w) :
    (lineOf indentation l).width = indentation + cols ([' '].intercalate l) := by
  rw [hcs.additive _ fun c => mem_lineOf hl]
  exact (cols_append _ _).trans (by rw [cols_spaces])

theorem head_join (hne : l ≠ []) (hl : ∀ w ∈ l, Inked cs w) :
    ∃ c, ([' '].intercalate l).head? = some c ∧ c ∈ cs ∧ isBlank c = false := by
  obtain ⟨w, l, rfl⟩ := List.exists_cons_of_ne_nil hne
  obtain ⟨hw, hmem⟩ := hl w List.mem_cons_self
  obtain ⟨c, w, rfl⟩ := List.exists_cons_of_ne_nil hw
  refine ⟨c, ?_, hmem c List.mem_cons_self⟩
  cases l with
  | nil => rw [List.intercalate_singleton]; rfl
  | cons v l => rw [List.intercalate_cons_of_ne_nil (List.cons_ne_nil v l)]; rfl

theorem last_join (hne : l ≠ []) (hl : ∀ w ∈ l, Inked cs w) :
    ∃ d, ([' '].intercalate l).getLast? = some d ∧ d ∈ cs ∧ isBlank d = false := by
  obtain ⟨l, w, rfl⟩ := (List.eq_nil_or_concat' l).resolve_left hne
  obtain ⟨hw, hmem⟩ := hl w (by simp)
  obtain ⟨w, d, rfl⟩ := (List.eq_nil_or_concat' w).resolve_left hw
  refine ⟨d, ?_, hmem d (by simp)⟩
  rw [join_concat, ← List.append_assoc, List.getLast?_concat]

theorem last_lineOf (indentation : Nat) (hne : l ≠ []) (hl : ∀ w ∈ l, Inked cs w) :
    ∃ d, (lineOf indentation l).getLast? = some d ∧ d ∈ cs ∧ isBlank d = false := by
  obtain ⟨d, hd, h⟩ := last_join hne hl
  exact ⟨d, by rw [lineOf, List.getLast?_append, hd]; rfl, h⟩

theorem lineOf_concat (hne : l ≠ []) (w : Text) :
    lineOf indentation (l ++ [w]) = lineOf indentation l ++ ' ' :: w := by
  obtain ⟨l, v, rfl⟩ := (List.eq_nil_or_concat' l).resolve_left hne
  rw [lineOf, lineOf, join_concat _ (l ++ [v]), join_concat]
  simp

theorem lineOf_concat_append (l : List Text) (u v : Text) :
    lineOf indentation (l ++ [u ++ v]) = lineOf indentation (l ++ [u]) ++ v := by
  simp [lineOf, join_concat]

theorem width_le_width_append (hcs : SpaceSeparated rules cs) (hu : ∀ w ∈ l ++ [u], Inked cs w)
    (huv : ∀ w ∈ l ++ [u ++ v], Inked cs w) :
    (lineOf indentation (l ++ [u])).width ≤ (lineOf indentation (l ++ [u ++ v])).width := by
  rw [width_lineOf hcs hu, width_lineOf hcs huv, join_concat, join_concat, ← List.append_assoc,
    cols_append _ v]
  omega

theorem indentation_lt_width (hcs : SpaceSeparated rules cs) (hne : l ≠ [])
    (hl : ∀ w ∈ l, Inked cs w) : indentation < (lineOf indentation l).width := by
  obtain ⟨c, hc, hmem, hblank⟩ := head_join hne hl
  obtain ⟨t, ht⟩ := List.head?_eq_some_iff.1 hc
  rw [width_lineOf hcs hl, ht, cols_cons]
  have := hcs.positive c hmem hblank
  omega

theorem stem_of_kept (hcs : SpaceSeparated rules cs) (hne : l ≠ []) (hl : ∀ w ∈ l, Inked cs w)
    (hkept : Kept indentation width l) : Stem rules indentation width ([' '].intercalate l) where
  head := (head_join hne hl).imp fun _ h => ⟨h.1, (shown_of_not_blank h.2.2).1⟩
  last := (last_join hne hl).imp fun _ h => ⟨h.1, (shown_of_not_blank h.2.2).1⟩
  fits := by
    rcases hkept with hone | hfit
    · obtain ⟨w, rfl⟩ := List.length_eq_one_iff.1 hone
      rw [List.intercalate_singleton]
      exact .inr fun c hc => (hl w List.mem_cons_self).solid hcs hc
    · rw [width_lineOf hcs hl] at hfit
      exact .inl hfit

end Lines
end MarkupText
