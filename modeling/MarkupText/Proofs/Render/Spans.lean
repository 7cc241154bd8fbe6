import MarkupText.Proofs.Render.Invariant
import MarkupText.Proofs.Render.Reading
import MarkupText.Proofs.Table.CellSpans

/-!
# Spans of renders

The spans of every render are well formed (`wellFormed_renderWith`): they begin and end between
characters of the text, and in trees without tables with characters that are neither spaces nor
newlines. Every step of a descent keeps the spans of its page to the characters of the text, and so
do the cells cut from such pages (`Renderer.invariant_held`): most steps are runs of buffer edits,
and what closes a region marks a visible range.
-/

namespace MarkupText

open Text

namespace Buffer
variable {b : Buffer}

theorem Held.endRegion (h : Held .within b) (mark : Mark) : Held .within (b.endRegion mark) :=
  (run_markVisible (fun _ _ _ => RangeRule.within_of_tight) _ _ _ mark).held
    RangeRule.stable_within h.closeRegion

theorem Held.endColors (h : Held .within b) (colors : ColorPair) :
    Held .within (b.endColors colors) :=
  (run_colorize (fun _ _ _ => RangeRule.within_of_tight) _ _ colors).held
    RangeRule.stable_within h.closeRegion

end Buffer

namespace Renderer
variable {s : Scene} {r : Renderer}

/-- Spans keep to the characters of the text, on pages and in cells. -/
theorem invariant_held (s : Scene) :
    Invariant s (fun _ p => p.buffer.Held .within) fun _ c => c.Held where
  layout _ _ _ h := h
  ensureNewline h := (Buffer.run_ensureNewline _).held RangeRule.stable_within h
  ensureParagraph h := (Buffer.run_ensureParagraph _).held RangeRule.stable_within h
  openRegion h := h
  endRegion mark _ h := h.endRegion mark
  endColors colors h := h.endColors colors
  insert t h := (Page.run_insert _ _ t).held RangeRule.stable_within h
  lineBreak h := (Buffer.run_newline _).held RangeRule.stable_within h
  ruler h := (Buffer.run_putRuler (fun _ _ _ => RangeRule.within_of_tight) _ _ (by omega)).held
    RangeRule.stable_within h
  labelled h := (reads_labelled _).run.held RangeRule.stable_within h
  image {b r} e h := by
    obtain ⟨page, images, heq, hrun, -⟩ :=
      image_spec (fun _ _ _ => RangeRule.within_of_tight) s e r
    rw [heq]
    exact hrun.held RangeRule.stable_within h
  cell _ _ := Buffer.held_empty
  cut _ _ h :=
    Cell.held_ofText (fun a ha => (h.finish RangeRule.stable_within ha).2.2) _ _ _
  grid widths rows hrows h := gridUpkeep_held.writeGrid s widths
    (fun row hrow c hc => (hrows row hrow c hc).elim fun _ hcell => hcell) h

/-- The spans of every page that a descent writes keep to its characters. -/
theorem held_node (levels : Nat) (id : NodeId) (h : r.buffer.Held .within)
    (hcache : r.cache.Keeps fun _ c => c.Held) : (node s levels id r).buffer.Held .within :=
  ((invariant_held s).node levels id (b := false) ⟨h, hcache⟩).page

end Renderer

/-! ### Well-formed results -/

namespace Rendered

/-- The text is empty or ends with one newline after a character that is no blank, and every span
covers a part of the text between two of its characters. -/
structure WellFormed (r : Rendered) : Prop where
  ending : r.text = [] ∨ ∃ t c, r.text = t ++ [c, '\n'] ∧ isBlank c = false
  spans : ∀ a ∈ r.spans, a.start < a.stop ∧ a.stop ≤ r.text.size ∧
    r.text.isBoundary a.start = true ∧ r.text.isBoundary a.stop = true

/-- No span begins or ends with a space or a newline. -/
def Trimmed (r : Rendered) : Prop :=
  ∀ a ∈ r.spans, ∃ c d, (r.textOf a).head? = some c ∧ (r.textOf a).getLast? = some d ∧
    Shown c ∧ Shown d

end Rendered

namespace Renderer
variable {R : RangeRule} {r : Renderer}

theorem ending_finish (r : Renderer) :
    r.finish.text = [] ∨ ∃ t c, r.finish.text = t ++ [c, '\n'] ∧ isBlank c = false := by
  unfold finish
  dsimp only
  cases hlast : r.buffer.finish.1.getLast? with
  | none =>
    rw [List.getLast?_eq_none_iff.1 hlast]
    exact .inl rfl
  | some c =>
    obtain ⟨t, ht⟩ := List.getLast?_eq_some_iff.1 hlast
    refine .inr ⟨t, c, ?_, Buffer.not_isBlank_finish hlast⟩
    rw [ht]
    simp

theorem ok_of_mem_finish (hok : R.Stable) (h : Buffer.Held R r.buffer) {a : Span}
    (ha : a ∈ r.finish.spans) :
    a.start < a.stop ∧ a.stop ≤ r.finish.text.size ∧ R r.finish.text a.start a.stop := by
  obtain ⟨hlt, hle, hrange⟩ := h.finish hok ha
  have htext : r.finish.text = r.buffer.finish.1 ++ ['\n'] := by
    have hne : r.buffer.finish.1.isEmpty = false := by
      cases hfinish : r.buffer.finish.1 with
      | nil => rw [hfinish] at hle; exact absurd (Nat.lt_of_lt_of_le hlt hle) (Nat.not_lt_zero _)
      | cons c t => rfl
    unfold finish
    simp [hne]
  rw [htext, size_append]
  exact ⟨hlt, Nat.le_add_right_of_le hle, hok.append _ hrange⟩

end Renderer

open Renderer

/-- The spans of every render are well formed, and without tables they are trimmed. -/
theorem wellFormed_renderWith (s : Scene) (id : NodeId) (cache : CellCache) :
    (renderWith s id cache).rendered.WellFormed ∧
      (s.tree.TableFree → (renderWith s id cache).rendered.Trimmed) := by
  refine ⟨⟨ending_finish _, fun a ha => ?_⟩, fun hs a ha => ?_⟩
  · have hheld := held_node (s := s) (r := start s cache.clear) Tree.maxDepth id
      Buffer.held_empty fun e he => by cases he
    obtain ⟨hlt, hle, hstart, hstop⟩ := ok_of_mem_finish RangeRule.stable_within hheld ha
    exact ⟨hlt, hle, isBoundary_iff.2 hstart, isBoundary_iff.2 hstop⟩
  · have hreads := reads_node (R := RangeRule.tight) (fun _ _ _ h => h) hs Tree.maxDepth id _
      (plain_start s cache.clear)
    have hheld := hreads.run.held RangeRule.stable_tight Buffer.held_empty
    obtain ⟨hlt, -, hstart, hstop⟩ := ok_of_mem_finish RangeRule.stable_tight hheld ha
    exact slice_of_lead_trail hstart hstop hlt

/-- A word in bold face between spaces. -/
def boldWord : Tree :=
  let (id, t) := ({} : Tree).addElement Tree.root "b".toList []
  (t.add id (.text [' ', 'w', ' '])).2

theorem wellFormed_renderWith_boldWord :
    boldWord.TableFree ∧ (renderWith { tree := boldWord } Tree.root {}).rendered.WellFormed ∧
      (renderWith { tree := boldWord } Tree.root {}).rendered.Trimmed :=
  have hs : boldWord.TableFree := by decide
  have h := wellFormed_renderWith { tree := boldWord } Tree.root {}
  ⟨hs, h.1, h.2 hs⟩

end MarkupText
