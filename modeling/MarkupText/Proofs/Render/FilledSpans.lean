import MarkupText.Proofs.Render.Fills
import MarkupText.Proofs.Render.Regions
import MarkupText.Proofs.Tree.Built

/-!
# Spans under a fill

What a fill makes of the spans of a render (`filled_renderWith`). A span that reaches past both ends
of a placeholder, or has the same ends, holds the replacement afterwards; one that shares a single
end with the placeholder loses it (`unlinked_fill_linkedImage`). A span apart from the placeholder
keeps its text, which needs `Rendered.Parted`: an empty span at an end of the placeholder would take
the replacement in. Fills leave empty spans behind, but only at placeholders that are filled.
-/

namespace MarkupText

open Text

namespace Rendered

/-- No empty span touches a placeholder that awaits its image. -/
def Parted (r : Rendered) : Prop :=
  ∀ n p, n ∉ r.filled → r.placeholder? n = some p →
    ∀ a ∈ r.spans, a.start < a.stop ∨ a.stop < p.start ∨ p.stop < a.start

/-- What the spans of a text show once `t` stands in the place of `p`. -/
structure Filled (r r' : Rendered) (p : Span) (t : Text) : Prop where
  /-- Each span moves by itself. -/
  spans : r'.spans = r.spans.map (fillSpan p.start p.stop t.size)
  replaced : r'.textOf (fillSpan p.start p.stop t.size p) = t
  /-- Past both ends or past none. -/
  holds : ∀ a ∈ r.spans, a.start ≤ p.start → p.stop ≤ a.stop →
    (a.start = p.start ↔ a.stop = p.stop) →
      (fillSpan p.start p.stop t.size a).start ≤ p.start ∧
      p.start + t.size ≤ (fillSpan p.start p.stop t.size a).stop ∧
      r'.textOf (fillSpan p.start p.stop t.size a) =
        r.textOf { a with stop := p.start } ++ t ++ r.textOf { a with start := p.stop }
  /-- Past the end only. -/
  behind : ∀ a ∈ r.spans, a.start = p.start → p.stop < a.stop →
    (fillSpan p.start p.stop t.size a).start = p.start + t.size ∧
      r'.textOf (fillSpan p.start p.stop t.size a) = r.textOf { a with start := p.stop }
  /-- Past the start only. -/
  before : ∀ a ∈ r.spans, a.start < p.start → a.stop = p.stop →
    (fillSpan p.start p.stop t.size a).stop = p.start ∧
      r'.textOf (fillSpan p.start p.stop t.size a) = r.textOf { a with stop := p.start }
  apart : ∀ a ∈ r.spans, a.stop ≤ p.start ∨ p.stop ≤ a.start →
    r'.textOf (fillSpan p.start p.stop t.size a) = r.textOf a
  within : ∀ a ∈ r'.spans, a.start ≤ a.stop ∧ a.stop ≤ r'.text.size ∧
    r'.text.isBoundary a.start = true ∧ r'.text.isBoundary a.stop = true

/-! ### Empty spans -/

theorem parted_fillSpan {a q : Span} {s e i : Nat} (hp : s ≤ e) (hq : q.start ≤ q.stop)
    (hpq : e < q.start ∨ q.stop < s) (ha : a.start ≤ a.stop)
    (h : a.start < a.stop ∨ a.stop < q.start ∨ q.stop < a.start) :
    (fillSpan s e i a).start < (fillSpan s e i a).stop ∨
      (fillSpan s e i a).stop < (fillSpan s e i q).start ∨
      (fillSpan s e i q).stop < (fillSpan s e i a).start := by
  -- a span inside the placeholder may get empty; `q` is away from it, in front or behind
  have hmoved :
      (fillSpan s e i q).start = (if e < q.start then q.start - (e - s) + i else q.start) ∧
      (fillSpan s e i q).stop = (if e < q.start then q.stop - (e - s) + i else q.stop) := by
    rcases hpq with hlt | hlt
    · rw [fillSpan_of_after hlt hp hq, if_pos hlt, if_pos hlt]
      exact ⟨rfl, rfl⟩
    · rw [fillSpan_of_before hlt hq, if_neg (by omega), if_neg (by omega)]
      exact ⟨rfl, rfl⟩
  rw [hmoved.1, hmoved.2]
  by_cases hin : s ≤ a.start ∧ a.stop ≤ e
  · rw [fillSpan_of_inside hin]
    dsimp only
    split <;> omega
  · rw [fillSpan_of_not_inside hin]
    dsimp only
    unfold movedStart movedStop
    repeat' split
    all_goals omega

variable {r : Rendered} {p a : Span} {f : ImageFill}

theorem Parted.put (h : Parted r) (hr : Settled r) (hp : r.placeholder? f.token = some p) :
    Parted (r.put p f) := by
  intro n q' hn hq' a' ha'
  obtain ⟨a, ha, rfl⟩ := List.mem_map.1 ha'
  rw [placeholder?_put] at hq'
  obtain ⟨q, hq, rfl⟩ := Option.map_eq_some_iff.1 hq'
  obtain ⟨hne, hn⟩ := not_or.1 (mt List.mem_cons.2 hn)
  obtain ⟨hpimage, hptoken⟩ := mem_of_placeholder? hp
  obtain ⟨hqimage, hqtoken⟩ := mem_of_placeholder? hq
  have hpq : p.stop < q.start ∨ q.stop < p.start := by
    rcases hr.cases hpimage hqimage with rfl | hpq
    · exact absurd (Option.some.inj (hqtoken.symm.trans hptoken)) hne
    · exact hpq
  exact parted_fillSpan (hr.ordered p (List.mem_filter.1 hpimage).1)
    (hr.ordered q (List.mem_filter.1 hqimage).1) hpq (hr.ordered a ha) (h n q hn hq a ha)

theorem Parted.fillEach (h : Parted r) (hr : Settled r) (fs : List ImageFill) :
    Parted (r.fillEach fs) ∧ Settled (r.fillEach fs) := by
  induction fs generalizing r with
  | nil => exact ⟨h, hr⟩
  | cons f fs ih =>
    refine ih ?_ (hr.fillOne f)
    rcases fillOne_cases r f with ⟨-, heq⟩ | ⟨p, -, hp, heq⟩
    · rwa [heq]
    · rw [heq]
      exact h.put hr hp

/-! ### One fill -/

theorem textOf_eq {l m x : Text} (htext : r.text = l ++ m ++ x) (hstart : a.start = l.size)
    (hstop : a.stop = l.size + m.size) : r.textOf a = m := by
  rw [textOf, htext, hstart, hstop, slice?_append_size]
  rfl

section Put
variable {r' : Rendered} {l m x t : Text} (htext : r.text = l ++ m ++ x)
  (hput : r'.text = l ++ t ++ x)
include htext

theorem exists_front {n : Nat} (hn : Boundary r.text n) (hle : n ≤ l.size) :
    ∃ k u, l = k ++ u ∧ k.size = n := by
  rw [htext, List.append_assoc] at hn
  obtain ⟨k, u, rfl, hk⟩ := hn.of_append hle
  exact ⟨k, u, rfl, hk⟩

theorem exists_back {n : Nat} (hn : Boundary r.text n) (hle : l.size + m.size ≤ n) :
    ∃ v y, x = v ++ y ∧ l.size + m.size + v.size = n := by
  rw [htext] at hn
  obtain ⟨v, y, rfl, hv⟩ := hn.of_append_left (by rwa [size_append])
  refine ⟨v, y, rfl, ?_⟩
  rw [hv, size_append]
  omega

include hput

theorem holds_fillSpan (ha : RangeRule.within r.text a.start a.stop) (hm : 0 < m.size)
    (hstart : a.start ≤ l.size) (hstop : l.size + m.size ≤ a.stop)
    (hends : a.start = l.size ↔ a.stop = l.size + m.size) :
    (fillSpan l.size (l.size + m.size) t.size a).start ≤ l.size ∧
      l.size + t.size ≤ (fillSpan l.size (l.size + m.size) t.size a).stop ∧
      r'.textOf (fillSpan l.size (l.size + m.size) t.size a) =
        r.textOf { a with stop := l.size } ++ t ++
          r.textOf { a with start := l.size + m.size } := by
  obtain ⟨k, u, rfl, hk⟩ := exists_front htext ha.1 hstart
  obtain ⟨v, y, rfl, hv⟩ := exists_back htext ha.2 hstop
  have hmoved : fillSpan (k ++ u : Text).size ((k ++ u : Text).size + m.size) t.size a =
      ⟨k.size, (k ++ u : Text).size + t.size + v.size, a.mark⟩ := by
    by_cases heq : a.start = (k ++ u : Text).size
    · have heq' := hends.1 heq
      rw [fillSpan_of_inside ⟨by omega, by omega⟩]
      congr 1 <;> omega
    · have hne := mt hends.2 heq
      rw [fillSpan_of_not_inside (by omega), movedStart_of_lt (by omega),
        movedStop_of_lt (by omega)]
      congr 1 <;> omega
  have hfront : r.textOf { a with stop := (k ++ u : Text).size } = u :=
    textOf_eq (x := m ++ (v ++ y)) (by rw [htext]; simp) hk.symm (size_append k u)
  have hback : r.textOf { a with start := (k ++ u : Text).size + m.size } = v :=
    textOf_eq (l := k ++ u ++ m) (x := y) (by rw [htext]; simp) (size_append ..).symm
      (hv.symm.trans (by rw [size_append _ m]))
  rw [hmoved, hfront, hback]
  refine ⟨by simp, Nat.le_add_right .., ?_⟩
  exact textOf_eq (l := k) (x := y) (by rw [hput]; simp) rfl (by simp; omega)

theorem behind_fillSpan (ha : RangeRule.within r.text a.start a.stop) (hm : 0 < m.size)
    (hstart : a.start = l.size) (hstop : l.size + m.size < a.stop) :
    (fillSpan l.size (l.size + m.size) t.size a).start = l.size + t.size ∧
      r'.textOf (fillSpan l.size (l.size + m.size) t.size a) =
        r.textOf { a with start := l.size + m.size } := by
  obtain ⟨v, y, rfl, hv⟩ := exists_back htext ha.2 (Nat.le_of_lt hstop)
  have hmoved : fillSpan l.size (l.size + m.size) t.size a =
      ⟨l.size + t.size, l.size + t.size + v.size, a.mark⟩ := by
    rw [fillSpan_of_not_inside (by omega), movedStart_of_inside (by omega) (by omega),
      movedStop_of_lt (by omega)]
    congr 1
    omega
  have hback : r.textOf { a with start := l.size + m.size } = v :=
    textOf_eq (l := l ++ m) (x := y) (by rw [htext]; simp) (by simp) (by simp; omega)
  rw [hmoved, hback]
  exact ⟨rfl, textOf_eq (l := l ++ t) (x := y) (by rw [hput]; simp) (by simp) (by simp)⟩

theorem before_fillSpan (ha : RangeRule.within r.text a.start a.stop) (hm : 0 < m.size)
    (hstart : a.start < l.size) (hstop : a.stop = l.size + m.size) :
    (fillSpan l.size (l.size + m.size) t.size a).stop = l.size ∧
      r'.textOf (fillSpan l.size (l.size + m.size) t.size a) =
        r.textOf { a with stop := l.size } := by
  obtain ⟨k, u, rfl, hk⟩ := exists_front htext ha.1 (Nat.le_of_lt hstart)
  have hmoved : fillSpan (k ++ u : Text).size ((k ++ u : Text).size + m.size) t.size a =
      ⟨a.start, (k ++ u : Text).size, a.mark⟩ := by
    rw [fillSpan_of_not_inside (by omega), movedStart_of_lt hstart,
      movedStop_of_inside (by omega) (by omega)]
  have hfront : r.textOf { a with stop := (k ++ u : Text).size } = u :=
    textOf_eq (x := m ++ x) (by rw [htext]; simp) hk.symm (size_append k u)
  rw [hmoved, hfront]
  exact ⟨rfl, textOf_eq (x := t ++ x) (by rw [hput]; simp) hk.symm (size_append k u)⟩

theorem apart_fillSpan (ha : RangeRule.within r.text a.start a.stop) (hle : a.start ≤ a.stop)
    (hm : 0 < m.size) (hne : a.start < a.stop ∨ a.stop < l.size ∨ l.size + m.size < a.start)
    (hoff : a.stop ≤ l.size ∨ l.size + m.size ≤ a.start) :
    r'.textOf (fillSpan l.size (l.size + m.size) t.size a) = r.textOf a := by
  obtain ⟨k, w, u, hcut, hk, hw⟩ := exists_cut ha hle
  have hsame : l ++ (m ++ x) = k ++ w ++ u := by rw [← hcut, htext, List.append_assoc]
  rw [textOf_eq hcut hk.symm (by omega)]
  rcases hoff with hoff | hoff
  · obtain ⟨v, rfl, -⟩ := append_eq_of_size_le hsame (by rw [size_append]; omega)
    rw [fillSpan_of_not_inside (by omega), movedStart_of_lt (by omega), movedStop_of_le hoff]
    exact textOf_eq (x := v ++ t ++ x) (by rw [hput]; simp) hk.symm (by dsimp only; omega)
  · rw [← List.append_assoc, List.append_assoc k] at hsame
    obtain ⟨v, rfl, rfl⟩ := append_eq_of_size_le hsame.symm (by rw [size_append]; omega)
    rw [size_append, size_append] at hk
    rw [fillSpan_of_not_inside (by omega), movedStart_of_le (by omega), movedStop_of_lt (by omega)]
    exact textOf_eq (l := l ++ t ++ v) (x := u) (by rw [hput]; simp) (by simp; omega)
      (by simp; omega)

end Put

theorem Settled.filled (h : Settled r) (hparted : Parted r) (hf : f.token ∉ r.filled)
    (hp : r.placeholder? f.token = some p) : r.Filled (r.put p f) p f.replacement := by
  have hmem := (List.mem_filter.1 (mem_of_placeholder? hp).1).1
  have hlt : p.start < p.stop := by
    have := h.ordered p hmem
    have := hparted f.token p hf hp p hmem
    omega
  obtain ⟨l, m, x, htext, hput, hl, hm⟩ := h.text_put hp
  have hpos : 0 < m.size := by omega
  have hstop : p.stop = l.size + m.size := by omega
  have hparts := hparted f.token p hf hp
  refine ⟨rfl, ?_, ?_, ?_, ?_, ?_, fun a ha => ?_⟩
  · rw [fillSpan_of_inside ⟨Nat.le_refl _, Nat.le_refl _⟩]
    exact textOf_eq hput hl.symm (by rw [hl])
  · rw [hstop, ← hl]
    exact fun a ha => holds_fillSpan htext hput (h.within a ha) hpos
  · rw [hstop, ← hl]
    exact fun a ha => behind_fillSpan htext hput (h.within a ha) hpos
  · rw [hstop, ← hl]
    exact fun a ha => before_fillSpan htext hput (h.within a ha) hpos
  · rw [hstop, ← hl] at hparts ⊢
    exact fun a ha => apart_fillSpan htext hput (h.within a ha) (h.ordered a ha) hpos (hparts a ha)
  · obtain ⟨hstart, hstop⟩ := (h.put hp).within a ha
    exact ⟨(h.put hp).ordered a ha, hstop.le, isBoundary_iff.2 hstart, isBoundary_iff.2 hstop⟩

end Rendered

open Renderer

theorem settled_renderWith (s : Scene) (id : NodeId) (cache : CellCache) :
    (renderWith s id cache).rendered.Settled := by
  have hheld := held_node (s := s) (r := start s cache.clear) Tree.maxDepth id
    Buffer.held_empty fun e he => by cases he
  have hstart : (start s cache.clear).page.Framed false := .empty (start s cache.clear).layout
  exact settled_finish hheld
    (placed_node (s := s) Tree.maxDepth id hstart fun e he => by cases he)

/-- A fill of a placeholder that awaits its image, whatever was filled before. -/
theorem filled_renderWith (s : Scene) (id : NodeId) (cache : CellCache) (fs : List ImageFill)
    {f : ImageFill} {p : Span}
    (hf : f.token ∉ ((renderWith s id cache).rendered.fillEach fs).filled)
    (hp : ((renderWith s id cache).rendered.fillEach fs).placeholder? f.token = some p) :
    ∃ r', ((renderWith s id cache).rendered.fillEach fs).fill f = .ok r' ∧
      ((renderWith s id cache).rendered.fillEach fs).Filled r' p f.replacement := by
  have hparted : (renderWith s id cache).rendered.Parted := fun _ _ _ _ a ha =>
    .inl ((wellFormed_renderWith s id cache).1.spans a ha).1
  obtain ⟨hparted, hsettled⟩ := hparted.fillEach (settled_renderWith s id cache) fs
  refine ⟨_, ?_, hsettled.filled hparted hf hp⟩
  rw [Rendered.fill_eq, if_neg hf, hp]

/-- A link that begins with an image and goes on behind it, or that begins in front of it. -/
def linkedImage (before : Text) : Tree :=
  (Loaded.ofItems [.element "a".toList [("href".toList, .string "h".toList)]
    ((if before.isEmpty then [] else [.text before]) ++
      [.element "img".toList [("src".toList, .string "x".toList),
        ("alt".toList, .string "cat".toList)] [],
        .text " tail".toList])]).tree

/-- A link around an image keeps its replacement. -/
theorem filled_renderWith_linkedImage :
    let r := (renderWith { tree := linkedImage ['a'] } Tree.root {}).rendered
    0 ∉ (r.fillEach []).filled ∧ ∃ p, (r.fillEach []).placeholder? 0 = some p ∧
      ∃ r', (r.fillEach []).fill ⟨0, "IMG".toList⟩ = .ok r' ∧
        (r.fillEach []).Filled r' p "IMG".toList := by
  intro r
  have hf : 0 ∉ (r.fillEach []).filled := List.not_mem_nil
  have hsome : ((r.fillEach []).placeholder? 0).isSome = true := by decide +kernel
  obtain ⟨p, hp⟩ := Option.isSome_iff_exists.1 hsome
  exact ⟨hf, p, hp, filled_renderWith { tree := linkedImage ['a'] } Tree.root {} [] hf hp⟩

/-- A link that begins with an image does not keep its replacement. -/
theorem unlinked_fill_linkedImage :
    let ends (r : Rendered) := r.spans.map fun a => (a.start, a.stop)
    let r := (renderWith { tree := linkedImage [] } Tree.root {}).rendered
    r.text = "cat\ntail\n".toList ∧ ends r = [(0, 3), (0, 8)] ∧
      (r.placeholder? 0).map (fun p => (p.start, p.stop)) = some (0, 3) ∧
      ∃ r', r.fill ⟨0, "IMG".toList⟩ = .ok r' ∧ r'.text = "IMG\ntail\n".toList ∧
        ends r' = [(0, 3), (3, 8)] := by
  intro ends r
  have hok : (r.fill ⟨0, "IMG".toList⟩).isOk = true := by decide +kernel
  have hfill : r.fill ⟨0, "IMG".toList⟩ = .ok (r.fillOne ⟨0, "IMG".toList⟩) := by
    unfold Rendered.fillOne
    cases hr : r.fill ⟨0, "IMG".toList⟩ with
    | ok r' => rfl
    | error e => rw [hr] at hok; cases hok
  exact ⟨by decide +kernel, by decide +kernel, by decide +kernel, _, hfill, by decide +kernel,
    by decide +kernel⟩

end MarkupText
