import MarkupText.Proofs.Fill.Weave
import MarkupText.Proofs.Render.Placeholders
import MarkupText.Proofs.Render.Spans

/-!
# Fills of renders

The images of a render may arrive in any order (`fillable_renderWith`). Its placeholders stand in
order and apart from each other (`settled_finish`); the rest holds of every text of which that is
true and in which nothing was filled yet (`Settled.fillable`).
-/

namespace MarkupText

open Text

namespace Rendered

/-- All fills can be made, one after the other. -/
def Accepts (r : Rendered) (fs : List ImageFill) : Prop :=
  ∀ gs f hs, fs = gs ++ f :: hs → ∃ r', (r.fillEach gs).fill f = .ok r'

/-- How fills that are made one after the other, whatever becomes of each, change a text. -/
structure Fillable (r : Rendered) : Prop where
  /-- A token that no placeholder has is reported, and nothing changes. -/
  unknown : ∀ fs f, r.placeholder? f.token = none →
    (r.fillEach fs).fill f = .error (.unknownToken f.token) ∧
      r.fillEach (fs ++ [f]) = r.fillEach fs
  /-- So is one that was filled before. -/
  repeated : ∀ fs f, (r.placeholder? f.token).isSome = true → f.token ∈ fs.map (·.token) →
    (r.fillEach fs).fill f = .error (.alreadyFilled f.token) ∧
      r.fillEach (fs ++ [f]) = r.fillEach fs
  /-- All others are filled. -/
  first : ∀ fs f, (r.placeholder? f.token).isSome = true → f.token ∉ fs.map (·.token) →
    ∃ r', (r.fillEach fs).fill f = .ok r'
  /-- The placeholders that are filled stand one after the other. -/
  inOrder : ∀ fs, InOrder r.text 0 (replacements fs [] r.spans)
  /-- The text is the one before with these replaced at once. -/
  text : ∀ fs, (r.fillEach fs).text = weave r.text 0 (replacements fs [] r.spans)
  /-- The order matters only among the fills of one token. -/
  reorder : ∀ fs gs, (∀ n, fs.filter (·.token == n) = gs.filter (·.token == n)) →
    (r.fillEach fs).text = (r.fillEach gs).text ∧ (r.fillEach fs).spans = (r.fillEach gs).spans
  /-- A queue is worked off up to the first fill that fails. -/
  queue : ∀ fs, ∃ done, r.Accepts done ∧
    (fs = done ∧ r.fillAll fs = (r.fillEach done, .ok fs.length) ∨
      ∃ f rest e, fs = done ++ f :: rest ∧ (r.fillEach done).fill f = .error e ∧
        r.fillAll fs = (r.fillEach done, .error e))

variable {r : Rendered} {f : ImageFill} {fs : List ImageFill} {n : Nat}

theorem fillEach_append (r : Rendered) (fs gs : List ImageFill) :
    r.fillEach (fs ++ gs) = (r.fillEach fs).fillEach gs :=
  List.foldl_append ..

theorem isSome_placeholder?_fillEach :
    ((r.fillEach fs).placeholder? n).isSome = (r.placeholder? n).isSome := by
  induction fs generalizing r with
  | nil => rfl
  | cons f fs ih => exact ih.trans isSome_placeholder?_fillOne

theorem mem_filled_fillEach : n ∈ (r.fillEach fs).filled ↔
    n ∈ r.filled ∨ n ∈ fs.map (·.token) ∧ (r.placeholder? n).isSome = true := by
  induction fs generalizing r with
  | nil => simp [fillEach]
  | cons f fs ih =>
    refine ih.trans ?_
    rw [mem_filled_fillOne, isSome_placeholder?_fillOne, List.map_cons, List.mem_cons]
    tauto

theorem fillEach_cons {r' : Rendered} (hf : r.fill f = .ok r') (fs : List ImageFill) :
    r.fillEach (f :: fs) = r'.fillEach fs := by
  change (r.fillOne f).fillEach fs = _
  rw [fillOne, hf]

theorem accepts_cons {r' : Rendered} (hf : r.fill f = .ok r') (h : r'.Accepts fs) :
    r.Accepts (f :: fs) := by
  intro gs g hs heq
  cases gs with
  | nil =>
    obtain ⟨rfl, -⟩ := List.cons.inj heq
    exact ⟨r', hf⟩
  | cons k gs =>
    obtain ⟨rfl, rfl⟩ := List.cons.inj heq
    rw [fillEach_cons hf]
    exact h gs g hs rfl

theorem fillAll_eq (r : Rendered) (fs : List ImageFill) : ∃ done, r.Accepts done ∧
    (fs = done ∧ r.fillAll fs = (r.fillEach done, .ok fs.length) ∨
      ∃ f rest e, fs = done ++ f :: rest ∧ (r.fillEach done).fill f = .error e ∧
        r.fillAll fs = (r.fillEach done, .error e)) := by
  induction fs generalizing r with
  | nil =>
    refine ⟨[], fun gs f hs h => ?_, .inl ⟨rfl, rfl⟩⟩
    exact absurd h.symm (List.append_ne_nil_of_right_ne_nil gs (List.cons_ne_nil f hs))
  | cons f fs ih =>
    cases hf : r.fill f with
    | error e =>
      refine ⟨[], fun gs f hs h => ?_, .inr ⟨f, fs, e, rfl, hf, ?_⟩⟩
      · exact absurd h.symm (List.append_ne_nil_of_right_ne_nil gs (List.cons_ne_nil f hs))
      · rw [fillAll, hf]
        rfl
    | ok r' =>
      obtain ⟨done, hdone, hresult⟩ := ih r'
      refine ⟨f :: done, accepts_cons hf hdone, ?_⟩
      rcases hresult with ⟨rfl, hall⟩ | ⟨g, rest, e, rfl, hg, hall⟩
      · refine .inl ⟨rfl, ?_⟩
        rw [fillAll, hf, fillEach_cons hf]
        simp only [hall]
        rfl
      · refine .inr ⟨g, rest, e, rfl, by rwa [fillEach_cons hf], ?_⟩
        rw [fillAll, hf, fillEach_cons hf]
        simp only [hall]
        rfl

theorem Settled.fillable (h : Settled r) (hfilled : r.filled = []) : r.Fillable := by
  have hskip {fs : List ImageFill} {f : ImageFill} {e : FillError}
      (he : (r.fillEach fs).fill f = .error e) : r.fillEach (fs ++ [f]) = r.fillEach fs := by
    rw [fillEach_append]
    change (r.fillEach fs).fillOne f = _
    rw [Rendered.fillOne, he]
  have hmem {fs : List ImageFill} {n : Nat} : n ∈ (r.fillEach fs).filled ↔
      n ∈ fs.map (·.token) ∧ (r.placeholder? n).isSome = true := by
    rw [mem_filled_fillEach, hfilled]
    simp
  refine ⟨fun fs f hnone => ?_, fun fs f hsome hf => ?_, fun fs f hsome hf => ?_,
    fun fs => h.inOrder_replacements fs [], fun fs => ?_, fun fs gs hfg => ?_, fillAll_eq r⟩
  · have herror : (r.fillEach fs).fill f = .error (.unknownToken f.token) := by
      have hnone' : (r.fillEach fs).placeholder? f.token = none := by
        rw [← Option.not_isSome_iff_eq_none, isSome_placeholder?_fillEach, hnone]
        exact Bool.false_ne_true
      rw [fill_eq, hnone', if_neg]
      rw [hmem, hnone]
      exact fun hf => Bool.false_ne_true hf.2
    exact ⟨herror, hskip herror⟩
  · have herror : (r.fillEach fs).fill f = .error (.alreadyFilled f.token) := by
      rw [fill_eq, if_pos (hmem.2 ⟨hf, hsome⟩)]
    exact ⟨herror, hskip herror⟩
  · have hsome' : ((r.fillEach fs).placeholder? f.token).isSome = true :=
      isSome_placeholder?_fillEach.trans hsome
    obtain ⟨p, hp⟩ := Option.isSome_iff_exists.1 hsome'
    exact ⟨_, by rw [fill_eq, if_neg fun hin => hf (hmem.1 hin).1, hp]⟩
  · rw [h.text_fillEach, hfilled]
  · have hsame := h.fillEach_reorder hfg
    exact ⟨hsame.text, hsame.spans⟩

end Rendered

namespace Renderer

theorem settled_finish {r : Renderer} (hheld : Buffer.Held RangeRule.within r.buffer)
    (hplaced : r.buffer.Placed) : r.finish.Settled := by
  have hok {a : Span} (ha : a ∈ r.finish.spans) := ok_of_mem_finish RangeRule.stable_within hheld ha
  refine ⟨fun a ha => Nat.le_of_lt (hok ha).1, fun a ha => (hok ha).2.2, ?_⟩
  have hcut : ((r.buffer.spans.map fun a =>
      { a with stop := min a.stop r.buffer.finish.1.size }).filter (·.mark.isImage)).Pairwise
        fun p q => p.stop < q.start := by
    rw [List.filter_map, List.pairwise_map]
    refine hplaced.apart.imp fun {p q} hpq => ?_
    obtain ⟨n, -, hp, hq⟩ := hpq
    have : min p.stop r.buffer.finish.1.size ≤ p.stop := Nat.min_le_left ..
    change min p.stop r.buffer.finish.1.size < q.start
    omega
  exact hcut.sublist (List.filter_sublist.filter _)

end Renderer

open Renderer

/-- The images of a render may arrive in any order. -/
theorem fillable_renderWith (s : Scene) (id : NodeId) (cache : CellCache) :
    (renderWith s id cache).rendered.Fillable := by
  have hheld := held_node (s := s) (r := start s cache.clear) Tree.maxDepth id
    Buffer.held_empty fun e he => by cases he
  have hstart : (start s cache.clear).page.Framed false := .empty (start s cache.clear).layout
  have hplaced := placed_node (s := s) Tree.maxDepth id hstart fun e he => by cases he
  exact (settled_finish hheld hplaced).fillable rfl

end MarkupText
