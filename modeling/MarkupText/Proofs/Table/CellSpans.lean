import MarkupText.Proofs.Table.Steps

/-!
# Spans of cells

`Cell.Held` says that the spans on the lines of a cell begin and end between characters of the
lines. Cutting a finished text into lines gives such cells (`Cell.held_ofText`), and writing a grid
of such cells into a buffer marks only ranges of that kind (`Renderer.gridUpkeep_held`).
-/

namespace MarkupText

open Text

/-- The spans of a line keep to its characters. -/
def CellLine.Held (l : CellLine) : Prop := ∀ a ∈ l.spans, RangeRule.within l.text a.start a.stop

/-- The spans of a cell keep to the characters of their lines. -/
def Cell.Held (c : Cell) : Prop := ∀ l ∈ c.lines, l.Held

namespace Cell
variable {t l r : Text} {spans : List Span} {start stop n : Nat}

/-- A boundary inside a part of a text, counted from the start of the part. -/
theorem boundary_sub (h : Boundary (l ++ t ++ r) n) (h₁ : l.size ≤ n) (h₂ : n ≤ l.size + t.size) :
    Boundary t (n - l.size) := by
  have hlt : Boundary (l ++ t) n := h.of_append (by rwa [size_append])
  exact hlt.of_append_left h₁

theorem held_lineSpans (h : ∀ a ∈ spans, RangeRule.within (l ++ t ++ r) a.start a.stop) :
    CellLine.Held ⟨t, lineSpans spans l.size t.size⟩ := by
  intro a ha
  obtain ⟨a, hmem, rfl⟩ := List.mem_map.1 ha
  obtain ⟨hmem, hmeets⟩ := List.mem_filter.1 hmem
  obtain ⟨hlt, hgt⟩ : a.start < l.size + t.size ∧ l.size < a.stop := by
    simpa [Span.meets] using hmeets
  have hl : Boundary (l ++ t ++ r) l.size := ((Boundary.size l).append_right t).append_right r
  have ht : Boundary (l ++ t ++ r) (l.size + t.size) := by
    have := (Boundary.size (l ++ t)).append_right r
    rwa [size_append] at this
  constructor
  · refine boundary_sub (l := l) (r := r) ?_ (Nat.le_max_right ..) ?_
    · change Boundary _ (max a.start l.size)
      rcases Nat.le_total a.start l.size with hle | hle
      · rwa [Nat.max_eq_right hle]
      · rw [Nat.max_eq_left hle]
        exact (h a hmem).1
    · exact Nat.max_le.2 ⟨Nat.le_of_lt hlt, Nat.le_add_right ..⟩
  · refine boundary_sub (l := l) (r := r) ?_ ?_ (Nat.min_le_right ..)
    · change Boundary _ (min a.stop (l.size + t.size))
      rcases Nat.le_total a.stop (l.size + t.size) with hle | hle
      · rw [Nat.min_eq_left hle]
        exact (h a hmem).2
      · rwa [Nat.min_eq_right hle]
    · exact Nat.le_min.2 ⟨Nat.le_of_lt hgt, Nat.le_add_right ..⟩

theorem held_cutLines (rows : List Text) (l : Text)
    (h : ∀ a ∈ spans, RangeRule.within (l ++ ['\n'].intercalate rows) a.start a.stop) :
    ∀ line ∈ cutLines spans l.size rows, line.Held := by
  induction rows generalizing l with
  | nil => exact fun _ hline => by cases hline
  | cons t rows ih =>
    intro line hline
    cases rows with
    | nil =>
      obtain rfl := List.mem_singleton.1 hline
      exact held_lineSpans (r := []) (by simpa using h)
    | cons u rows =>
      rw [List.intercalate_cons_of_ne_nil (List.cons_ne_nil u rows)] at h
      rcases List.mem_cons.1 hline with rfl | hline
      · refine held_lineSpans (r := ['\n'] ++ ['\n'].intercalate (u :: rows)) ?_
        simpa using h
      · have hsize : (l ++ t ++ ['\n']).size = l.size + t.size + 1 := by
          simp only [size_append, size_cons, size_nil]; rfl
        refine ih (l ++ t ++ ['\n']) (by simpa using h) line ?_
        rwa [hsize]

theorem held_pad (width : Nat) (background : Option Color) {line : CellLine} (h : line.Held) :
    (pad width background line).Held := by
  intro a ha
  rw [RangeRule.within, text_pad]
  rcases mem_spans_pad ha with ha | ⟨c, rfl⟩
  · exact ⟨(h a ha).1.append_right _, (h a ha).2.append_right _⟩
  · refine ⟨(Boundary.size line.text).append_right _, ?_⟩
    have := Boundary.size (line.text ++ spaces (width - line.text.width))
    rwa [size_append, size_spaces] at this

/-- A cell cut from a finished text is held. -/
theorem held_ofText (h : ∀ a ∈ spans, RangeRule.within t a.start a.stop) (width : Nat)
    (fill : Bool) (background : Option Color) : (ofText t spans width fill background).Held :=
  forall_mem_ofText (held_cutLines t.rows [] (by simpa [rows, List.intercalate_splitOn] using h))
    fun _ hline => held_pad width background hline

end Cell

/-! ### Writing cells -/

namespace Renderer

theorem run_addAll (spans : List Span) (offset : Nat) (b : Buffer)
    (h : ∀ a ∈ spans, RangeRule.within b.text (a.start + offset) (a.stop + offset)) :
    Buffer.Run .within [] b
      (spans.foldl (fun (b : Buffer) (a : Span) => b.add (a.shift offset)) b) := by
  induction spans generalizing b with
  | nil => exact .refl b
  | cons a spans ih =>
    refine .nil_trans (.annotate (h a List.mem_cons_self) a.mark) (ih _ fun a' ha' => ?_)
    rw [Buffer.text_annotate]
    exact h a' (List.mem_cons_of_mem _ ha')

/-- While a grid is written, spans keep to the characters of the text. -/
theorem gridUpkeep_held : GridUpkeep Cell.Held (Buffer.Held .within) where
  push t hb := (Buffer.Run.push _ t).held RangeRule.stable_within hb
  line {b c l} hc hl hb := by
    refine Buffer.Run.held RangeRule.stable_within (.trans_nil (.push b l.text) ?_) hb
    refine run_addAll l.spans b.size _ fun a ha => ?_
    obtain ⟨hstart, hstop⟩ := hc l hl a ha
    rw [Nat.add_comm, Nat.add_comm a.stop]
    exact ⟨hstart.append_left b.text, hstop.append_left b.text⟩
  blanks {b} width color hb := by
    refine Buffer.Run.held RangeRule.stable_within (.trans_nil (.push b (spaces width)) ?_) hb
    exact .annotate ⟨(Boundary.size b.text).append_right _, .size _⟩ _
  colorize start colors hb :=
    (Buffer.run_colorize (fun _ _ _ => RangeRule.within_of_tight) _ start colors).held
      RangeRule.stable_within hb

end Renderer
end MarkupText
