import MarkupText.Proofs.Render.Spans
import MarkupText.Proofs.Render.Telling

/-!
# Faces and links cover what their elements wrote

Telling a writing adds to a tale its text and leaves the open regions as they were (`adds_tell`),
and adds one range for each face or link, over the visible characters of its element
(`addsPassages_tell`). So the spans of a render that are faces or links are those of the elements,
each over what its element wrote (`regions_renderWith`).
-/

namespace MarkupText

open Text

namespace Tale
variable {t u : Tale} {start n : Nat} {ns : List Nat}

@[simp] theorem text_color (start : Nat) (colors : ColorPair) (t : Tale) :
    (t.color start colors).text = t.text := by
  unfold Tale.color
  split <;> rfl

@[simp] theorem regions_color (start : Nat) (colors : ColorPair) (t : Tale) :
    (t.color start colors).regions = t.regions := by
  unfold Tale.color
  split <;> rfl

@[simp] theorem passages_color (start : Nat) (colors : ColorPair) (t : Tale) :
    (t.color start colors).passages = t.passages := by
  unfold Tale.color
  split <;> rfl

theorem closeRegion_of_regions (h : u.regions = n :: ns) :
    u.closeRegion = (n, { u with regions := ns }) := by
  rw [Tale.closeRegion, h]

theorem endRegion_of_regions (h : u.regions = n :: ns) (mark : Mark) :
    u.endRegion mark = ({ u with regions := ns } : Tale).mark n mark := by
  rw [Tale.endRegion, closeRegion_of_regions h]

theorem endColors_of_regions (h : u.regions = n :: ns) (colors : ColorPair) :
    u.endColors colors = ({ u with regions := ns } : Tale).color n colors := by
  rw [Tale.endColors, closeRegion_of_regions h]

end Tale

namespace Written
variable {s : Scene} {styles : StyleStack} {step : Tale → Tale} {u : Text}

/-! ### The text and the open regions -/

/-- The step adds a text to each tale and leaves its open regions as they were. -/
structure Adds (u : Text) (step : Tale → Tale) : Prop where
  text : ∀ t, (step t).text = t.text ++ u
  regions : ∀ t, (step t).regions = t.regions

theorem Adds.marked (h : Adds u step) (mark? : Option Mark) :
    Adds u (tellMarked mark? step) := by
  cases mark? with
  | none => exact h
  | some mark =>
    have hopen (t : Tale) := Tale.endRegion_of_regions (h.regions t.openRegion) mark
    refine ⟨fun t => ?_, fun t => ?_⟩
    · exact (congrArg Tale.text (hopen t)).trans (h.text _)
    · exact (congrArg Tale.regions (hopen t)).trans rfl

theorem Adds.colored {step : StyleStack → Tale → Tale} (h : ∀ styles, Adds u (step styles))
    (s : Scene) (styles : StyleStack) (e : Element) : Adds u (tellColored s styles e step) := by
  by_cases hframe : e.frame.1.isEmpty = true
  · have heq : tellColored s styles e step = step styles := funext fun t => if_pos hframe
    rw [heq]
    exact h styles
  · have heq (t : Tale) : tellColored s styles e step t = _ := (if_neg hframe).trans
      (Tale.endColors_of_regions ((h (e.frame.1 :: styles)).regions t.openRegion) _)
    refine ⟨fun t => ?_, fun t => ?_⟩
    · rw [heq, Tale.text_color]
      exact (h _).text _
    · rw [heq, Tale.regions_color]

theorem adds_tell (s : Scene) (w : Written) (styles : StyleStack) :
    Adds w.plain.visible (w.tell s styles) := by
  induction w generalizing styles with
  | nil => exact ⟨fun t => (List.append_nil _).symm, fun t => rfl⟩
  | text u => exact ⟨fun t => rfl, fun t => rfl⟩
  | append v w ihv ihw =>
    refine ⟨fun t => ?_, fun t => ?_⟩
    · rw [plain, visible_append, ← List.append_assoc, ← (ihv styles).text]
      exact (ihw styles).text _
    · exact ((ihw styles).regions _).trans ((ihv styles).regions t)
  | inside id e w ih => exact .colored (fun styles => (ih styles).marked _) s styles e

end Written

/-! ### Passages -/

/-- Which visible characters the passage is over. -/
def Passage.range (p : Passage) : Mark × Nat × Nat :=
  (p.mark, p.before.visible.length, p.before.visible.length + p.inside.visible.length)

theorem Passage.shows_range (p : Passage) : Tale.shows p.range = ! p.inside.blank := by
  have hinside : 0 < p.inside.visible.length ↔ (! p.inside.blank) = true := by
    rw [Bool.not_eq_true', ← Bool.not_eq_true, Text.blank, List.all_eq_true, List.length_pos_iff,
      Ne, visible_eq_nil_iff]
  rw [Bool.eq_iff_iff, ← hinside, Tale.shows, decide_eq_true_eq, range]
  dsimp only
  omega

namespace Written
variable {s : Scene} {styles : StyleStack} {step : Tale → Tale} {u : Text} {n : Nat}
  {rs : List (Mark × Nat × Nat)}

/-- The ranges of the passages. -/
def ranges (before : Text) (w : Written) : List (Mark × Nat × Nat) :=
  (w.passages before).map (·.range)

/-- On each tale of `n` characters the step adds these passages. -/
def AddsPassages (n : Nat) (rs : List (Mark × Nat × Nat)) (step : Tale → Tale) : Prop :=
  ∀ t, t.text.length = n → (step t).passages = t.passages ++ rs

theorem AddsPassages.marked (h : AddsPassages n rs step) (hstep : Adds u step)
    (mark? : Option Mark) : AddsPassages n
      (rs ++ (mark?.map fun mark => (mark, n, n + u.length)).toList) (tellMarked mark? step) := by
  intro t ht
  cases mark? with
  | none =>
    rw [Option.map_none, Option.toList_none, List.append_nil]
    exact h t ht
  | some mark =>
    have hpassages : (step t.openRegion).passages = t.passages ++ rs := h t.openRegion ht
    have hlength : (step t.openRegion).text.length = n + u.length := by
      rw [hstep.text, List.length_append]
      exact congrArg (· + u.length) ht
    have hmark := Tale.endRegion_of_regions (hstep.regions t.openRegion) mark
    refine (congrArg Tale.passages hmark).trans ?_
    rw [Tale.mark, ht]
    dsimp only
    rw [hlength, hpassages, List.append_assoc]
    rfl

theorem AddsPassages.colored {step : StyleStack → Tale → Tale}
    (h : ∀ styles, AddsPassages n rs (step styles)) (hstep : ∀ styles, Adds u (step styles))
    (s : Scene) (styles : StyleStack) (e : Element) :
    AddsPassages n rs (tellColored s styles e step) := by
  intro t ht
  unfold tellColored
  split
  · exact h styles t ht
  · rw [Tale.endColors_of_regions ((hstep _).regions t.openRegion), Tale.passages_color]
    exact h _ t.openRegion ht

theorem addsPassages_tell (s : Scene) (w : Written) (styles : StyleStack) (before : Text) :
    AddsPassages before.visible.length (w.ranges before) (w.tell s styles) := by
  induction w generalizing styles before with
  | nil => exact fun t _ => (List.append_nil _).symm
  | text u => exact fun t _ => (List.append_nil _).symm
  | append v w ihv ihw =>
    intro t ht
    have hv := (adds_tell s v styles).text t
    have hlength : (v.tell s styles t).text.length = (before ++ v.plain).visible.length := by
      rw [hv, visible_append, List.length_append, List.length_append, ht]
    rw [ranges, passages, List.map_append, ← List.append_assoc]
    refine (ihw styles (before ++ v.plain) _ hlength).trans ?_
    rw [ihv styles before t ht]
    rfl
  | inside id e w ih =>
    have hranges : (inside id e w).ranges before = w.ranges before ++
        (e.regionMark?.map fun mark => (mark, before.visible.length,
          before.visible.length + w.plain.visible.length)).toList := by
      rw [ranges, passages, List.map_append]
      refine congrArg (w.ranges before ++ ·) ?_
      cases e.regionMark? <;> rfl
    rw [hranges]
    exact .colored (fun styles => (ih styles before).marked (adds_tell s w styles) _)
      (fun styles => (adds_tell s w styles).marked _) s styles e

end Written

/-! ### The result -/

namespace Rendered

/-- The text in front of a span. -/
def before (r : Rendered) (a : Span) : Text := (r.text.slice? 0 a.start).getD []

variable {r : Rendered} {a : Span}

/-- A span between two characters divides the text. -/
theorem text_eq_of_within (h : RangeRule.within r.text a.start a.stop) (hle : a.start ≤ a.stop) :
    ∃ u, r.text = r.before a ++ r.textOf a ++ u ∧ (r.before a).size = a.start ∧
      (r.before a ++ r.textOf a : Text).size = a.stop := by
  obtain ⟨hstart, k, u, hk, hstop⟩ := h
  rw [hk] at hstart
  obtain ⟨l, m, rfl, hl⟩ := hstart.of_append (by omega)
  have hbefore : r.before a = l := by
    have := slice?_append_size [] l (m ++ u)
    rw [List.nil_append, size_nil, Nat.zero_add, ← List.append_assoc, ← hk, hl] at this
    rw [before, this]
    rfl
  have htext : r.textOf a = m := by
    have := slice?_append_size l m u
    rw [← hk, ← size_append, hstop, hl] at this
    rw [textOf, this]
    rfl
  rw [hbefore, htext]
  exact ⟨u, hk, hl, hstop⟩

/-- What is visible in front of a span and under it, by its positions. -/
theorem seen_of_within (h : RangeRule.within r.text a.start a.stop) (hle : a.start ≤ a.stop) :
    r.text.seen a.start = (r.before a).visible.length ∧
      r.text.seen a.stop = (r.before a).visible.length + (r.textOf a).visible.length := by
  obtain ⟨u, htext, hstart, hstop⟩ := text_eq_of_within h hle
  constructor
  · rw [← hstart]
    conv_lhs => rw [htext, List.append_assoc]
    exact seen_size _ _
  · rw [← hstop]
    conv_lhs => rw [htext]
    rw [seen_size, visible_append, List.length_append]

end Rendered

/-- What a range of visible characters covers, with what is in front of it. -/
def cutRange (t : Text) (range : Mark × Nat × Nat) : Mark × Text × Text :=
  (range.1, t.take range.2.1, (t.take range.2.2).drop range.2.1)

theorem cutRange_append (mark : Mark) (l m r : Text) :
    cutRange (l ++ m ++ r) (mark, l.length, l.length + m.length) = (mark, l, m) := by
  rw [cutRange, ← List.length_append]
  dsimp only
  rw [List.take_left, List.drop_left, List.append_assoc, List.take_left]

theorem map_cutRange_ranges {w : Written} {ps : List Passage} (hps : ps ⊆ w.passages []) :
    (ps.map (·.range)).map (cutRange w.plain.visible) =
      ps.map fun p => (p.mark, visible p.before, visible p.inside) := by
  rw [List.map_map]
  refine List.map_congr_left fun p hp => ?_
  obtain ⟨u, hu⟩ := Written.prefix_of_mem_passages (hps hp)
  rw [List.nil_append] at hu
  rw [← hu, visible_append, visible_append]
  exact cutRange_append ..

theorem map_cutRange_passagesOf {out : Rendered} (h : ∀ a ∈ out.spans,
    a.start < a.stop ∧ RangeRule.within out.text a.start a.stop) :
    (Tale.passagesOf out.text out.spans).map (cutRange out.text.visible) =
      (out.spans.filter (·.mark.isRegion)).map
        fun a => (a.mark, visible (out.before a), visible (out.textOf a)) := by
  rw [Tale.passagesOf, List.map_map]
  refine List.map_congr_left fun a ha => ?_
  obtain ⟨hlt, hwithin⟩ := h a (List.mem_of_mem_filter ha)
  have hle := Nat.le_of_lt hlt
  obtain ⟨u, htext, -, -⟩ := Rendered.text_eq_of_within hwithin hle
  obtain ⟨hseen, hseen'⟩ := Rendered.seen_of_within hwithin hle
  rw [Function.comp_apply, hseen, hseen']
  conv_lhs => rw [htext, visible_append, visible_append]
  exact cutRange_append ..

/-- The ranges that were kept of some passages are those of passages, all that show something among
them. -/
theorem Tale.Kept.exists_passages {ps : List Passage} {kept : List (Mark × Nat × Nat)}
    (h : Tale.Kept (ps.map (·.range)) kept) : ∃ qs : List Passage, qs.Sublist ps ∧
      qs.filter (! ·.inside.blank) = ps.filter (! ·.inside.blank) ∧ kept = qs.map (·.range) := by
  obtain ⟨qs, hsublist, rfl⟩ := List.sublist_map_iff.1 h.sublist
  have hshows : Tale.shows ∘ Passage.range = fun p => ! p.inside.blank := funext Passage.shows_range
  have hshown := congrArg List.length h.shown
  rw [List.filter_map, List.filter_map, List.length_map, List.length_map, hshows] at hshown
  exact ⟨qs, hsublist, (hsublist.filter _).eq_of_length hshown, rfl⟩

/-- The faces and links of a result are those of the elements of a tree, over what each of them
wrote. -/
structure Rendered.RegionsOf (out : Rendered) (t : Tree) (w : Written) : Prop where
  /-- What was written is what is shown. -/
  text : visible out.text = visible w.plain
  /-- Each element was entered once. -/
  elements : (∀ x ∈ w.elements, t.element? x.1 = some x.2) ∧ (w.elements.map (·.1)).Nodup
  /-- Each one with a mark has one passage, in the order in which they are left. -/
  passages : (w.passages []).map (fun p => (p.id, p.mark)) =
    w.elements.filterMap fun (id, e) => e.regionMark?.map (id, ·)
  /-- The spans are those of some passages, one for each, which are all that show anything and maybe
  others. A span has the visible characters of its passage in front of it and under it. -/
  spans : ∃ ps : List Passage, ps.Sublist (w.passages []) ∧
    ps.filter (! ·.inside.blank) = (w.passages []).filter (! ·.inside.blank) ∧
    (out.spans.filter (·.mark.isRegion)).map
        (fun a => (a.mark, visible (out.before a), visible (out.textOf a))) =
      ps.map fun p => (p.mark, visible p.before, visible p.inside)

open Renderer

/-- Every face and link of the tree covers, in the result, what its element wrote. -/
theorem regions_renderWith (s : Scene) (hs : s.tree.TableFree) (id : NodeId) (cache : CellCache) :
    (renderWith s id cache).rendered.RegionsOf s.tree
      (Written.node s Tree.maxDepth 0 id {}).1 := by
  set out := (renderWith s id cache).rendered
  set w := (Written.node s Tree.maxDepth 0 id {}).1
  have h := tells_node hs Tree.maxDepth id _ (plain_start s cache.clear)
  have htext : visible out.text = visible w.plain := visible_of_reads h.reads
  have hentered := Written.entered_node s Tree.maxDepth 0 id {}
  have hranges : (w.tell s [] {}).passages = w.ranges [] :=
    Written.addsPassages_tell s w [] [] {} rfl
  have hkept : Tale.Kept (w.ranges []) (Tale.passagesOf out.text out.spans) :=
    hranges ▸ (told_renderWith hs id cache).1
  obtain ⟨ps, hsublist, hshown, hps⟩ := hkept.exists_passages
  have hheld := h.reads.run.held RangeRule.stable_tight Buffer.held_empty
  refine ⟨htext, ⟨fun x hx => (hentered.elements x hx).1, hentered.nodup⟩, w.map_passages [],
    ps, hsublist, hshown, ?_⟩
  rw [← map_cutRange_ranges hsublist.subset, ← hps, ← htext]
  refine (map_cutRange_passagesOf fun a ha => ?_).symm
  obtain ⟨hlt, -, hrange⟩ := ok_of_mem_finish RangeRule.stable_tight hheld ha
  exact ⟨hlt, RangeRule.within_of_tight hrange⟩

theorem regions_renderWith_boldWord :
    boldWord.TableFree ∧
      let out := (renderWith { tree := boldWord } Tree.root {}).rendered
      (out.spans.filter (·.mark.isRegion)).map
        (fun a => (a.mark, visible (out.before a), visible (out.textOf a))) =
          [(.face .bold, [], ['w'])] := by
  have hs : boldWord.TableFree := by decide
  obtain ⟨ps, hsublist, hshown, hspans⟩ :=
    (regions_renderWith { tree := boldWord } hs Tree.root {}).spans
  -- the one passage shows something
  have hall : ((Written.node { tree := boldWord } Tree.maxDepth 0 Tree.root {}).1.passages
      []).filter (! ·.inside.blank) =
        (Written.node { tree := boldWord } Tree.maxDepth 0 Tree.root {}).1.passages [] := rfl
  have hps : ps = _ := hsublist.antisymm (hall ▸ hshown ▸ List.filter_sublist)
  exact ⟨hs, hspans.trans (hps ▸ rfl)⟩

end MarkupText
