import MarkupText.Text.Basic
import Mathlib.Data.List.DropRight

/-!
# Visible characters

`Text.visible` is a text without its blanks. Cutting a text into words or rows, trimming it and
dropping its end keep the visible characters, so `visible` is what the layout of a text preserves.
-/

namespace MarkupText.Text

/-- The characters that are not blank, in order. -/
def visible (t : Text) : Text := t.filter (! isBlank ·)

@[simp] theorem visible_nil : visible [] = [] := rfl

@[simp] theorem visible_append (s t : Text) : visible (s ++ t) = visible s ++ visible t :=
  List.filter_append ..

theorem visible_cons_of_blank {c : Char} (h : isBlank c = true) (t : Text) :
    visible (c :: t) = visible t := by
  simp [visible, h]

@[simp] theorem visible_newline (t : Text) : visible ('\n' :: t) = visible t :=
  visible_cons_of_blank isBlank_newline t

theorem visible_eq_nil_iff {t : Text} : visible t = [] ↔ ∀ c ∈ t, isBlank c = true := by
  simp [visible]

@[simp] theorem visible_spaces (n : Nat) : visible (spaces n) = [] :=
  visible_eq_nil_iff.2 fun _ hc => by rw [List.eq_of_mem_replicate hc]; exact isBlank_space

theorem visible_eq_self {t : Text} (h : ∀ c ∈ t, isBlank c = false) : visible t = t :=
  List.filter_eq_self.2 fun c hc => by rw [h c hc]; rfl

@[simp] theorem visible_visible (t : Text) : visible (visible t) = visible t :=
  visible_eq_self fun _ hc => by simpa using (List.mem_filter.1 hc).2

/-! ### Cutting -/

theorem flatten_splitOnP (p : Char → Bool) (t : Text) :
    (t.splitOnP p).flatten = t.filter (! p ·) := by
  induction t with
  | nil => rfl
  | cons c t ih =>
    rw [List.splitOnP_cons_eq_if_modifyHead]
    split
    · rename_i hc
      simp [hc, ih]
    · rename_i hc
      obtain ⟨w, ws, h⟩ := List.exists_cons_of_ne_nil (List.splitOnP_ne_nil p t)
      rw [h, List.flatten_cons] at ih
      simp [h, hc, ← ih]

theorem flatten_words (t : Text) : (words t).flatten = visible t := by
  rw [words, List.flatten_filter_not_isEmpty, flatten_splitOnP]
  rfl

theorem visible_flatten_rows (t : Text) : visible (rows t).flatten = visible t := by
  rw [rows, List.splitOn, flatten_splitOnP, visible, visible, List.filter_filter]
  refine List.filter_congr fun c _ => ?_
  by_cases hc : c = '\n' <;> simp [hc, isBlank_newline]

/-! ### Dropping the ends -/

/-- The definitions do without Mathlib; what is shown of `List.rdropWhile` holds here. -/
theorem dropEndWhile_eq (p : Char → Bool) (t : Text) : dropEndWhile p t = t.rdropWhile p := rfl

theorem dropEndWhile_append (p : Char → Bool) (t : Text) :
    ∃ u, t = dropEndWhile p t ++ u ∧ ∀ c ∈ u, p c = true :=
  ⟨t.rtakeWhile p, (List.rdropWhile_append_rtakeWhile (p := p) (l := t)).symm,
    fun _ hc => List.mem_rtakeWhile_imp hc⟩

theorem dropWhile_append (p : Char → Bool) (t : Text) :
    ∃ u, t = u ++ t.dropWhile p ∧ ∀ c ∈ u, p c = true :=
  ⟨t.takeWhile p, List.takeWhile_append_dropWhile.symm, fun _ hc => List.mem_takeWhile_imp hc⟩

theorem not_of_getLast?_dropEndWhile {p : Char → Bool} {t : Text} {c : Char}
    (h : (dropEndWhile p t).getLast? = some c) : p c = false := by
  rw [dropEndWhile_eq] at h
  obtain ⟨hne, rfl⟩ := List.mem_getLast?_eq_getLast h
  simpa using List.rdropWhile_last_not p t hne

@[simp] theorem visible_dropEndWhile (t : Text) :
    visible (dropEndWhile isBlank t) = visible t := by
  obtain ⟨u, ht, hu⟩ := dropEndWhile_append isBlank t
  conv_rhs => rw [ht, visible_append, visible_eq_nil_iff.2 hu, List.append_nil]

theorem eq_spaces {t : Text} (h : ∀ c ∈ t, (c == ' ') = true) : t = spaces t.length :=
  List.eq_replicate_of_mem fun c hc => eq_of_beq (h c hc)

end MarkupText.Text
