import MarkupText.Proofs.Text.Visible
import Mathlib.Data.List.Basic

/-!
# Words of a concatenation

The words of `s ++ t` are those of `s` and `t`, except that the last word of `s` and the first of
`t` are one word when no blank stands between them.
-/

namespace MarkupText.Text

variable {p : Char → Bool} {s t u : Text} {xs : List Text}

theorem splitOnP_append (p : Char → Bool) (s t : Text) :
    ∃ (xs : List Text) (u v : Text) (vs : List Text), s.splitOnP p = xs ++ [u] ∧
      t.splitOnP p = v :: vs ∧ (s ++ t : Text).splitOnP p = xs ++ (u ++ v) :: vs := by
  induction s with
  | nil =>
    obtain ⟨v, vs, ht⟩ := List.exists_cons_of_ne_nil (List.splitOnP_ne_nil p t)
    exact ⟨[], [], v, vs, rfl, ht, ht⟩
  | cons c s ih =>
    obtain ⟨xs, u, v, vs, hs, ht, hst⟩ := ih
    by_cases hc : p c = true
    · exact ⟨[] :: xs, u, v, vs, by simp [List.splitOnP_cons_eq_if_modifyHead, hc, hs], ht, by simp [List.splitOnP_cons_eq_if_modifyHead, hc, hst]⟩
    · cases xs with
      | nil => exact ⟨[], c :: u, v, vs, by simp [List.splitOnP_cons_eq_if_modifyHead, hc, hs], ht, by simp [List.splitOnP_cons_eq_if_modifyHead, hc, hst]⟩
      | cons x xs =>
        exact ⟨(c :: x) :: xs, u, v, vs, by simp [List.splitOnP_cons_eq_if_modifyHead, hc, hs], ht, by simp [List.splitOnP_cons_eq_if_modifyHead, hc, hst]⟩

theorem head_splitOnP_eq_nil {v : Text} {vs : List Text} (h : t.splitOnP p = v :: vs) :
    v = [] ↔ ∀ c, t.head? = some c → p c = true := by
  cases t with
  | nil =>
    obtain ⟨rfl, -⟩ := List.cons.inj h
    simp
  | cons c t =>
    by_cases hc : p c = true
    · simp only [List.splitOnP_cons_eq_if_modifyHead, hc, if_true] at h
      obtain ⟨rfl, -⟩ := List.cons.inj h
      simp [hc]
    · obtain ⟨w, ws, hw⟩ := List.exists_cons_of_ne_nil (List.splitOnP_ne_nil p t)
      simp only [List.splitOnP_cons_eq_if_modifyHead, hc, hw] at h
      obtain ⟨rfl, -⟩ := List.cons.inj h
      simp [hc]

theorem last_splitOnP_eq_nil (h : s.splitOnP p = xs ++ [u]) :
    u = [] ↔ ∀ c, s.getLast? = some c → p c = true := by
  have hlast : (s.splitOnP p).getLast? = some u := by rw [h, List.getLast?_concat]
  rcases List.eq_nil_or_concat' s with rfl | ⟨s, c, rfl⟩
  · obtain rfl : [] = u := Option.some.inj hlast
    simp
  · obtain ⟨ys, w, v, vs, -, hc, hsc⟩ := splitOnP_append p s [c]
    rw [hsc] at hlast
    by_cases hpc : p c = true
    · obtain ⟨rfl, rfl⟩ : [] = v ∧ [[]] = vs := by simpa [List.splitOnP_cons_eq_if_modifyHead, hpc] using hc
      obtain rfl : [] = u := by simpa using hlast
      simp [hpc]
    · obtain ⟨rfl, rfl⟩ : [c] = v ∧ [] = vs := by simpa [List.splitOnP_cons_eq_if_modifyHead, hpc] using hc
      obtain rfl : w ++ [c] = u := by simpa using hlast
      simp [hpc]

/-- A blank between two texts keeps their words apart. -/
theorem words_append (h : (∀ c, s.getLast? = some c → isBlank c = true) ∨
    ∀ c, t.head? = some c → isBlank c = true) : words (s ++ t) = words s ++ words t := by
  obtain ⟨xs, u, v, vs, hs, ht, hst⟩ := splitOnP_append isBlank s t
  have huv : u = [] ∨ v = [] := h.imp (last_splitOnP_eq_nil hs).2 (head_splitOnP_eq_nil ht).2
  unfold words
  rw [hs, ht, hst]
  rcases huv with rfl | rfl
  · simp [List.filter_cons]
  · cases u <;> simp

/-- Without a blank between two texts, the words that meet are one word. -/
theorem words_append_of_glued {c d : Char} (hs : s.getLast? = some c) (hc : isBlank c = false)
    (ht : t.head? = some d) (hd : isBlank d = false) :
    ∃ ws u v vs, words s = ws ++ [u] ∧ words t = v :: vs ∧
      words (s ++ t) = ws ++ (u ++ v) :: vs := by
  obtain ⟨xs, u, v, vs, hps, hpt, hst⟩ := splitOnP_append isBlank s t
  have hu : u ≠ [] := fun hu => by
    have := (last_splitOnP_eq_nil hps).1 hu c hs
    rw [hc] at this
    cases this
  have hv : v ≠ [] := fun hv => by
    have := (head_splitOnP_eq_nil hpt).1 hv d ht
    rw [hd] at this
    cases this
  refine ⟨xs.filter (! ·.isEmpty), u, v, vs.filter (! ·.isEmpty), ?_, ?_, ?_⟩
  · simp [words, hps, hu]
  · simp [words, hpt, hv]
  · simp [words, hst, hu]

/-- Where the texts meet there is a visible character on both sides. -/
def Glued (s t : Text) : Prop :=
  ∃ c d, s.getLast? = some c ∧ isBlank c = false ∧ t.head? = some d ∧ isBlank d = false

theorem blank_of_not_glued (h : ¬ Glued s t) : (∀ c, s.getLast? = some c → isBlank c = true) ∨
    ∀ d, t.head? = some d → isBlank d = true := by
  by_contra hno
  simp only [not_or, not_forall, Bool.not_eq_true] at hno
  obtain ⟨⟨c, hc, hcblank⟩, d, hd, hdblank⟩ := hno
  exact h ⟨c, d, hc, hcblank, hd, hdblank⟩

/-- Text without blanks is one word. -/
theorem words_of_solid (hne : t ≠ []) (h : ∀ c ∈ t, isBlank c = false) : words t = [t] := by
  rw [words, List.splitOnP_eq_singleton h]
  simp [hne]

theorem ne_nil_of_mem_words {w : Text} (h : w ∈ words t) : w ≠ [] := by
  simpa using (List.mem_filter.1 h).2

theorem mem_of_mem_words {w : Text} {c : Char} (hw : w ∈ words t) (hc : c ∈ w) : c ∈ t := by
  have hmem : c ∈ visible t := flatten_words t ▸ List.mem_flatten.2 ⟨w, hw, hc⟩
  exact (List.mem_filter.1 hmem).1

end MarkupText.Text
