import MarkupText.Buffer
import Mathlib.Data.Set.Insert

/-!
# Painted text

`Text.paint` gives every character of a text the marks of the spans that cover it, so that two texts
with spans can be compared character by character, wherever they stand. Painted text is cut into
rows like text (`Text.rows_paint`). `Buffer.Paints` says that painted text was written behind a
buffer without a change to what was there.
-/

namespace MarkupText

/-- The marks of the spans that cover `[start, stop)`. -/
def marksOver (spans : List Span) (start stop : Nat) : Set Mark :=
  {m | ∃ a ∈ spans, a.mark = m ∧ a.start ≤ start ∧ stop ≤ a.stop}

/-- Characters, each with the marks that cover it. -/
abbrev Painted := List (Char × Set Mark)

namespace Painted

def text (p : Painted) : Text := p.map Prod.fst

/-- Text without marks. -/
def plain (t : Text) : Painted := t.map (·, ∅)

/-- What stands between newlines. -/
def rows (p : Painted) : List Painted := p.splitOnP (·.1 == '\n')

@[simp] theorem text_append (p q : Painted) : text (p ++ q) = text p ++ text q := List.map_append

@[simp] theorem text_plain (t : Text) : text (plain t) = t := by
  simp [text, plain, Function.comp_def]

@[simp] theorem plain_append (s t : Text) : plain (s ++ t) = plain s ++ plain t := List.map_append

end Painted

namespace Text

/-- The characters of a text at byte `pos`, with their marks. -/
def paint (spans : List Span) (pos : Nat) : Text → Painted
  | [] => []
  | c :: t => (c, marksOver spans pos (pos + c.utf8Size)) :: paint spans (pos + c.utf8Size) t

/-- The rows of a text, painted; the first one is at byte `pos`. -/
def paintRows (spans : List Span) (pos : Nat) : List Text → List Painted
  | [] => []
  | t :: ts => paint spans pos t :: paintRows spans (pos + t.size + 1) ts

variable {s t u : Text} {S T : List Span} {p q : Painted} {pos pos' n : Nat}

@[simp] theorem text_paint (spans : List Span) (pos : Nat) (t : Text) :
    (paint spans pos t).text = t := by
  induction t generalizing pos with
  | nil => rfl
  | cons c t ih => exact congrArg (c :: ·) (ih _)

theorem paint_append (spans : List Span) (pos : Nat) (s t : Text) :
    paint spans pos (s ++ t) = paint spans pos s ++ paint spans (pos + s.size) t := by
  induction s generalizing pos with
  | nil => rfl
  | cons c s ih => simp only [List.cons_append, paint, ih, size_cons, Nat.add_assoc]

/-- Marks are looked at only over the characters of the text. -/
theorem paint_congr (h : ∀ start stop, start < stop → stop ≤ t.size →
    marksOver S (pos + start) (pos + stop) = marksOver T (pos' + start) (pos' + stop)) :
    paint S pos t = paint T pos' t := by
  induction t generalizing pos pos' with
  | nil => rfl
  | cons c t ih =>
    have hc := c.utf8Size_pos
    rw [paint, paint, ih fun start stop hlt hle => ?_]
    · have := h 0 c.utf8Size hc (by rw [size_cons]; omega)
      rw [Nat.add_zero, Nat.add_zero] at this
      rw [this]
    · rw [size_cons] at h
      have := h (c.utf8Size + start) (c.utf8Size + stop) (by omega) (by omega)
      simpa only [← Nat.add_assoc] using this

/-! ### Marks -/

theorem marksOver_append (S T : List Span) (start stop : Nat) :
    marksOver (S ++ T) start stop = marksOver S start stop ∪ marksOver T start stop := by
  ext m
  simp [marksOver, or_and_right, exists_or]

theorem marksOver_eq_empty {start stop : Nat} (h : ∀ a ∈ S, ¬ (a.start ≤ start ∧ stop ≤ a.stop)) :
    marksOver S start stop = ∅ := by
  refine Set.eq_empty_iff_forall_notMem.2 ?_
  rintro m ⟨a, ha, -, hcovers⟩
  exact h a ha hcovers

theorem marksOver_shift (S : List Span) (offset start stop : Nat) :
    marksOver (S.map (·.shift offset)) (offset + start) (offset + stop) =
      marksOver S start stop := by
  ext m
  simp only [marksOver, List.mem_map, Set.mem_ofPred_eq, exists_exists_and_eq_and, Span.shift]
  refine exists_congr fun a => and_congr_right fun _ => and_congr_right fun _ => ?_
  omega

/-- Spans that are left out cover nothing. -/
theorem marksOver_filter {keep : Span → Bool} {start stop : Nat}
    (h : ∀ a ∈ S, a.start ≤ start → stop ≤ a.stop → keep a = true) :
    marksOver (S.filter keep) start stop = marksOver S start stop := by
  ext m
  constructor
  · rintro ⟨a, ha, hm, hcovers⟩
    exact ⟨a, (List.mem_filter.1 ha).1, hm, hcovers⟩
  · rintro ⟨a, ha, hm, hcovers⟩
    exact ⟨a, List.mem_filter.2 ⟨ha, h a ha hcovers.1 hcovers.2⟩, hm, hcovers⟩

theorem paint_nil (pos : Nat) (t : Text) : paint [] pos t = .plain t := by
  induction t generalizing pos with
  | nil => rfl
  | cons c t ih =>
    rw [paint, ih, marksOver_eq_empty fun _ ha => absurd ha List.not_mem_nil]
    rfl

/-- Two texts in a row, each with spans of its own. -/
theorem paint_append_append (hs : paint S pos s = p) (ht : paint T n t = q) (hn : pos + s.size = n)
    (hS : ∀ a ∈ S, a.stop ≤ n) (hT : ∀ a ∈ T, n ≤ a.start) :
    paint (S ++ T) pos (s ++ t) = p ++ q := by
  rw [paint_append, hn, ← hs, ← ht]
  congr 1
  · refine paint_congr fun start stop hlt hle => ?_
    rw [marksOver_append, marksOver_eq_empty (S := T), Set.union_empty]
    intro a ha hcovers
    have := hT a ha
    omega
  · refine paint_congr fun start stop hlt hle => ?_
    rw [marksOver_append, marksOver_eq_empty (S := S), Set.empty_union]
    intro a ha hcovers
    have := hS a ha
    omega

/-- Blanks that are marked as a whole, or not at all. -/
theorem paint_spaces (pos n : Nat) (mark : Option Mark) :
    paint (mark.map fun m => ⟨pos, pos + n, m⟩).toList pos (spaces n) =
      List.replicate n (' ', {m | m ∈ mark}) := by
  have hrest (k : Nat) (q : Nat) (hq : pos ≤ q) (hk : q + k ≤ pos + n) :
      paint (mark.map fun m => ⟨pos, pos + n, m⟩).toList q (spaces k) =
        List.replicate k (' ', {m | m ∈ mark}) := by
    induction k generalizing q with
    | zero => rfl
    | succ k ih =>
      have hmarks : marksOver (mark.map fun m => ⟨pos, pos + n, m⟩).toList q (q + 1) =
          {m | m ∈ mark} := by
        ext m
        cases mark with
        | none => simp [marksOver]
        | some m' =>
          have hstop : q + 1 ≤ pos + n := by omega
          constructor
          · rintro ⟨a, ha, rfl, -⟩
            rw [List.mem_singleton.1 ha]
            rfl
          · rintro ⟨rfl⟩
            exact ⟨_, List.mem_singleton_self _, rfl, hq, hstop⟩
      rw [spaces, List.replicate_succ, List.replicate_succ, ← spaces, ← hmarks]
      exact congrArg (_ :: ·) ((ih (q + 1) (by omega) (by omega)).trans (by rw [hmarks]))
  exact hrest n pos (Nat.le_refl _) (Nat.le_refl _)

/-! ### Rows -/

theorem rows_cons_newline (t : Text) : rows ('\n' :: t) = [] :: rows t := rfl

theorem rows_cons {c : Char} (hc : c ≠ '\n') (t : Text) :
    rows (c :: t) = (rows t).modifyHead (c :: ·) := by
  unfold rows
  rw [List.splitOn_cons_eq_if_modifyHead, if_neg (by simpa using hc)]

/-- Painted text is cut where the text is. -/
theorem rows_paint (spans : List Span) (pos : Nat) (t : Text) :
    (paint spans pos t).rows = paintRows spans pos t.rows := by
  unfold Painted.rows
  induction t generalizing pos with
  | nil => rfl
  | cons c t ih =>
    rw [paint, List.splitOnP_cons_eq_if_modifyHead, ih]
    by_cases hc : c = '\n'
    · subst hc
      rw [rows_cons_newline]
      rfl
    · rw [rows_cons hc, if_neg (by simpa using hc)]
      cases rows t with
      | nil => rfl
      | cons w ws =>
        simp only [List.modifyHead_cons, paintRows, paint, size_cons, Nat.add_assoc]

theorem map_text_paintRows (spans : List Span) (pos : Nat) (ts : List Text) :
    (paintRows spans pos ts).map Painted.text = ts := by
  induction ts generalizing pos with
  | nil => rfl
  | cons t ts ih => rw [paintRows, List.map_cons, text_paint, ih]

end Text

open Text

/-! ### Writing -/

namespace Buffer
variable {b c d : Buffer} {p q : Painted} {S T : List Span}

/-- The painted text `p` stands behind what `b` holds, marked by the spans `S` alone. -/
structure Paints (b : Buffer) (S : List Span) (p : Painted) (c : Buffer) : Prop where
  text : c.text = b.text ++ p.text
  spans : c.spans = b.spans ++ S
  paint : Text.paint S b.size p.text = p
  within : ∀ a ∈ S, b.size ≤ a.start ∧ a.stop ≤ c.size

namespace Paints

theorem size (h : Paints b S p c) : c.size = b.size + p.text.size := by
  rw [Buffer.size, h.text, size_append]
  rfl

theorem refl (b : Buffer) : Paints b [] [] b :=
  ⟨(List.append_nil _).symm, (List.append_nil _).symm, rfl, fun _ ha => by cases ha⟩

theorem trans (h : Paints b S p c) (h' : Paints c T q d) : Paints b (S ++ T) (p ++ q) d where
  text := by rw [h'.text, h.text, Painted.text_append, List.append_assoc]
  spans := by rw [h'.spans, h.spans, List.append_assoc]
  paint := by
    rw [Painted.text_append]
    exact paint_append_append h.paint h'.paint h.size.symm (fun a ha => (h.within a ha).2)
      fun a ha => (h'.within a ha).1
  within := fun a ha => by
    have hc := h.size
    have hd := h'.size
    rcases List.mem_append.1 ha with ha | ha
    · have := h.within a ha
      omega
    · have := h'.within a ha
      omega

theorem push (b : Buffer) (t : Text) : Paints b [] (.plain t) (b.push t) where
  text := by rw [text_push, Painted.text_plain]
  spans := (List.append_nil _).symm
  paint := by rw [Painted.text_plain, paint_nil]
  within := fun _ ha => by cases ha

end Paints

/-- Spans that are recorded one by one. -/
theorem spans_addAll (spans : List Span) (b : Buffer) :
    (spans.foldl add b).spans =
      b.spans ++ spans.filter fun a => a.start < a.stop && decide (a.stop ≤ b.size) := by
  induction spans generalizing b with
  | nil => exact (List.append_nil _).symm
  | cons a spans ih =>
    have hsize : (b.add a).size = b.size := congrArg Text.size (text_add b a)
    rw [List.foldl_cons, ih, hsize]
    unfold add annotate
    by_cases h : a.start < a.stop ∧ a.stop ≤ b.size
    · simp [h]
    · rw [if_neg h, List.filter_cons_of_neg (by simpa using h)]

theorem text_addAll (spans : List Span) (b : Buffer) : (spans.foldl add b).text = b.text := by
  induction spans generalizing b with
  | nil => rfl
  | cons a spans ih => exact (ih _).trans (text_add b a)

/-- Text that is written with its spans, which count from its start. -/
theorem paints_addAll (b : Buffer) (t : Text) (spans : List Span)
    (h : ∀ a ∈ spans, a.stop ≤ t.size) :
    ∃ S, Paints b S (paint spans 0 t) ((spans.map (·.shift b.size)).foldl add (b.push t)) := by
  refine ⟨_, ?_, spans_addAll _ (b.push t), ?_, fun a ha => ?_⟩
  · rw [text_addAll, text_push, text_paint]
  · rw [text_paint]
    refine paint_congr fun start stop hlt hle => ?_
    rw [marksOver_filter, marksOver_shift, Nat.zero_add, Nat.zero_add]
    intro a ha hstart hstop
    obtain ⟨a, hmem, rfl⟩ := List.mem_map.1 ha
    have := h a hmem
    have hsize := size_push b t
    simp only [Span.shift] at hstart hstop ⊢
    refine Bool.and_eq_true_iff.2 ⟨decide_eq_true ?_, decide_eq_true ?_⟩ <;> omega
  · obtain ⟨ha, hkept⟩ := List.mem_filter.1 ha
    obtain ⟨a, -, rfl⟩ := List.mem_map.1 ha
    simp only [Bool.and_eq_true, decide_eq_true_eq] at hkept
    refine ⟨Nat.le_add_left .., ?_⟩
    exact Nat.le_trans hkept.2 (Nat.le_of_eq (congrArg Text.size (text_addAll _ _)).symm)

end Buffer
end MarkupText
