import MarkupText.Proofs.Buffer.Moves
import MarkupText.Proofs.Render.Edits

/-!
# What a buffer tells

`Tale` is a buffer without its blanks: the visible characters, and the ranges of them that are open,
marked as a region or colored. Positions count visible characters, so blanks that come and go leave
no trace, and every edit of a buffer is a simple step of the tale that it tells (`Told.flow`,
`Told.endRegion`). A range without visible characters may be marked in the tale only.
-/

namespace MarkupText

open Text

/-- Visible characters with marks over ranges of them. -/
structure Tale where
  text : Text := []
  /-- Where each open region starts, innermost first. -/
  regions : List Nat := []
  /-- The ranges of faces and links, in the order in which they were marked. -/
  passages : List (Mark × Nat × Nat) := []
  /-- The colors that each character has. -/
  colors : Nat → List Mark := fun _ => []

namespace Tale

def write (u : Text) (t : Tale) : Tale := { t with text := t.text ++ u }

def openRegion (t : Tale) : Tale := { t with regions := t.text.length :: t.regions }

/-- Closes the innermost region and tells where it starts. -/
def closeRegion (t : Tale) : Nat × Tale :=
  match t.regions with
  | [] => (t.text.length, t)
  | n :: ns => (n, { t with regions := ns })

/-- Marks a range that ends here. -/
def mark (start : Nat) (mark : Mark) (t : Tale) : Tale :=
  { t with passages := t.passages ++ [(mark, start, t.text.length)] }

/-- Colors a range that ends here, where it has no color yet. -/
def color (start : Nat) (colors : ColorPair) (t : Tale) : Tale :=
  if colors.isEmpty then t
  else
    { t with colors := fun k =>
        if start ≤ k ∧ k < t.text.length ∧ t.colors k = [] then
          [.colors colors.foreground colors.background]
        else t.colors k }

def endRegion (mark : Mark) (t : Tale) : Tale := t.closeRegion.2.mark t.closeRegion.1 mark

def endColors (colors : ColorPair) (t : Tale) : Tale := t.closeRegion.2.color t.closeRegion.1 colors

/-- The ranges of faces and links among some spans of a text. -/
def passagesOf (t : Text) (spans : List Span) : List (Mark × Nat × Nat) :=
  (spans.filter (·.mark.isRegion)).map fun a => (a.mark, t.seen a.start, t.seen a.stop)

/-- The colors that some spans of a text give to a visible character. -/
def colorsOf (t : Text) (spans : List Span) (k : Nat) : List Mark :=
  (spans.filter fun a => a.mark.isColors && t.seen a.start ≤ k && k < t.seen a.stop).map (·.mark)

theorem passagesOf_append (t : Text) (spans new : List Span) :
    passagesOf t (spans ++ new) = passagesOf t spans ++ passagesOf t new := by
  unfold passagesOf
  rw [List.filter_append, List.map_append]

theorem colorsOf_append (t : Text) (spans new : List Span) (k : Nat) :
    colorsOf t (spans ++ new) k = colorsOf t spans k ++ colorsOf t new k := by
  unfold colorsOf
  rw [List.filter_append, List.map_append]

section Map
variable {t u : Text} {spans : List Span} {f : Span → Span}
  (h : ∀ a ∈ spans, (f a).mark = a.mark ∧ u.seen (f a).start = t.seen a.start ∧
    u.seen (f a).stop = t.seen a.stop)
include h

theorem passagesOf_map : passagesOf u (spans.map f) = passagesOf t spans := by
  have hfilter : spans.filter ((·.mark.isRegion) ∘ f) = spans.filter (·.mark.isRegion) :=
    List.filter_congr fun a ha => by rw [Function.comp_apply, (h a ha).1]
  unfold passagesOf
  rw [List.filter_map, hfilter, List.map_map]
  refine List.map_congr_left fun a ha => ?_
  obtain ⟨hmark, hstart, hstop⟩ := h a (List.mem_of_mem_filter ha)
  rw [Function.comp_apply, hmark, hstart, hstop]

theorem colorsOf_map : colorsOf u (spans.map f) = colorsOf t spans := by
  funext k
  have hfilter : spans.filter ((fun a => a.mark.isColors && decide (u.seen a.start ≤ k) &&
      decide (k < u.seen a.stop)) ∘ f) = spans.filter fun a => a.mark.isColors &&
        decide (t.seen a.start ≤ k) && decide (k < t.seen a.stop) := by
    refine List.filter_congr fun a ha => ?_
    obtain ⟨hmark, hstart, hstop⟩ := h a ha
    rw [Function.comp_apply, hmark, hstart, hstop]
  unfold colorsOf
  rw [List.filter_map, hfilter, List.map_map]
  exact List.map_congr_left fun a ha => (h a (List.mem_of_mem_filter ha)).1

end Map

/-- Whether a range holds a character. -/
def shows (range : Mark × Nat × Nat) : Bool := range.2.1 < range.2.2

/-- Of some ranges these were kept, all those that hold a character among them. -/
structure Kept (ranges kept : List (Mark × Nat × Nat)) : Prop where
  sublist : kept.Sublist ranges
  shown : kept.filter shows = ranges.filter shows

namespace Kept
variable {ranges kept : List (Mark × Nat × Nat)} {range : Mark × Nat × Nat}

theorem nil : Kept [] [] := ⟨.slnil, rfl⟩

theorem concat (h : Kept ranges kept) (range : Mark × Nat × Nat) :
    Kept (ranges ++ [range]) (kept ++ [range]) :=
  ⟨h.sublist.append (.refl _), by rw [List.filter_append, List.filter_append, h.shown]⟩

theorem drop (h : Kept ranges kept) (hrange : shows range = false) :
    Kept (ranges ++ [range]) kept where
  sublist := h.sublist.trans (List.sublist_append_left _ _)
  shown := by rw [List.filter_append, List.filter_singleton, hrange, h.shown]; simp

end Kept
end Tale

namespace Buffer
variable {σ τ : Nat → Nat} {b c : Buffer} {t : Tale} {u : Text} {start stop s e n : Nat}
  {mark : Mark}

/-- Regions start between characters, and spans begin and end with shown ones. -/
structure Solid (b : Buffer) : Prop where
  tight : Held RangeRule.tight b
  ordered : ∀ a ∈ b.spans, a.start < a.stop
  regions : ∀ n ∈ b.regions, Boundary b.text n

/-- The buffer tells this. -/
structure Told (b : Buffer) (t : Tale) : Prop where
  solid : b.Solid
  text : t.text = b.text.visible
  regions : t.regions = b.regions.map b.text.seen
  passages : Tale.Kept t.passages (Tale.passagesOf b.text b.spans)
  colors : t.colors = Tale.colorsOf b.text b.spans

theorem told_empty : Told {} {} where
  solid := ⟨held_empty, fun _ h => (by cases h), fun _ h => (by cases h)⟩
  text := rfl
  regions := rfl
  passages := .nil
  colors := rfl

/-! ### Flowing text -/

theorem Solid.moves (h : Moves σ τ b c) (hb : b.Solid) : c.Solid := by
  refine ⟨fun a ha => ?_, fun a ha => ?_, fun n hn => ?_⟩
  · rw [h.spans] at ha
    obtain ⟨a, hmem, rfl⟩ := List.mem_map.1 ha
    exact ⟨h.lead (hb.tight a hmem).1, h.trail (hb.tight a hmem).2⟩
  · rw [h.spans] at ha
    obtain ⟨a, hmem, rfl⟩ := List.mem_map.1 ha
    -- the shown character at its start keeps the ends of the span apart
    obtain ⟨d, hat, hd⟩ := (hb.tight a hmem).1
    have hstop := hat.end_le (hb.tight a hmem).2.boundary (hb.ordered a hmem)
    have := d.utf8Size_pos
    have := (h.at_start hat hd.1).2
    have := h.stop_mono hstop
    change σ a.start < τ a.stop
    omega
  · rw [h.regions] at hn
    obtain ⟨m, hm, rfl⟩ := List.mem_map.1 hn
    exact h.boundary (hb.regions m hm)

theorem Told.moves (h : Moves σ τ b c) (hb : b.Told t) :
    c.Told { t with text := c.text.visible } := by
  have hstart {n : Nat} (hn : n ≤ b.size) : c.text.seen (σ n) = b.text.seen n :=
    h.rank_start shown_of_visible hn
  have hstop {n : Nat} (hn : n ≤ b.size) : c.text.seen (τ n) = b.text.seen n :=
    h.rank_stop shown_of_visible hn
  have hspan : ∀ a ∈ b.spans, (a.move σ τ).mark = a.mark ∧
      c.text.seen (a.move σ τ).start = b.text.seen a.start ∧
        c.text.seen (a.move σ τ).stop = b.text.seen a.stop := fun a ha =>
    ⟨rfl, hstart (hb.solid.tight a ha).1.boundary.le, hstop (hb.solid.tight a ha).2.boundary.le⟩
  refine ⟨hb.solid.moves h, rfl, ?_, ?_, ?_⟩
  · rw [h.regions, List.map_map]
    exact hb.regions.trans
      (List.map_congr_left fun n hn => (hstart (hb.solid.regions n hn).le).symm)
  · rw [h.spans, Tale.passagesOf_map hspan]
    exact hb.passages
  · rw [h.spans, Tale.colorsOf_map hspan]
    exact hb.colors

theorem Told.flow (h : Flow u b c) (hb : b.Told t) : c.Told (t.write u) := by
  obtain ⟨σ, τ, hmoves⟩ := h.moves
  have hrun : Run RangeRule.tight u b c := h.run
  have hc := hb.moves hmoves
  rwa [hrun.visible, ← hb.text] at hc

theorem Told.blank (h : Flow [] b c) (hb : b.Told t) : c.Told t := by
  have hc := hb.flow h
  rwa [Tale.write, List.append_nil] at hc

theorem Told.pushLabel (hb : b.Told t) (u : Text) : (b.pushLabel u).Told (t.write u.visible) := by
  obtain ⟨⟨htight, hordered, hregions⟩, htext, hregions', hpassages, hcolors⟩ :=
    hb.flow (.push b u)
  exact ⟨⟨htight, hordered, hregions⟩, htext, hregions', hpassages, hcolors⟩

/-! ### Regions -/

theorem Told.openRegion (hb : b.Told t) : b.openRegion.Told t.openRegion where
  solid := by
    refine ⟨hb.solid.tight, hb.solid.ordered, fun n hn => ?_⟩
    rcases List.mem_cons.1 hn with rfl | hn
    · exact .size b.text
    · exact hb.solid.regions n hn
  text := hb.text
  regions := by
    have hsize : b.text.seen b.size = b.text.visible.length := seen_of_size_le (Nat.le_refl _)
    rw [Tale.openRegion, hb.text, hb.regions, ← hsize]
    rfl
  passages := hb.passages
  colors := hb.colors

theorem Told.closeRegion (hb : b.Told t) : b.closeRegion.2.Told t.closeRegion.2 ∧
    b.text.seen b.closeRegion.1 = t.closeRegion.1 ∧ Boundary b.text b.closeRegion.1 := by
  have hsize : b.text.seen b.size = b.text.visible.length := seen_of_size_le (Nat.le_refl _)
  obtain ⟨hsolid, htext, hregions, hpassages, hcolors⟩ := hb
  unfold Buffer.closeRegion Tale.closeRegion
  cases hb : b.regions with
  | nil =>
    rw [hb] at hregions
    simp only [hregions, List.map_nil]
    exact ⟨⟨hsolid, htext, by rw [hregions, hb], hpassages, hcolors⟩, htext ▸ hsize,
      .size b.text⟩
  | cons n ns =>
    rw [hb] at hregions
    have hn := hsolid.regions n (hb ▸ List.mem_cons_self)
    have hmin : min n b.size = n := Nat.min_eq_left hn.le
    have hsolid' : ({ b with regions := ns } : Buffer).Solid :=
      ⟨hsolid.tight, hsolid.ordered, fun m hm =>
        hsolid.regions m (hb ▸ List.mem_cons_of_mem n hm)⟩
    simp only [hregions, List.map_cons, hmin, true_and]
    exact ⟨⟨hsolid', htext, rfl, hpassages, hcolors⟩, hn⟩

/-- A region over flowing text that is closed unmarked is not told. -/
theorem Told.flow_region (h : Flow u b.openRegion c) (hb : b.Told t) :
    c.closeRegion.2.Told (t.write u) :=
  (hb.openRegion.flow h).closeRegion.1

/-! ### Marks -/

theorem Solid.annotate (hb : b.Solid) (h : RangeRule.tight b.text start stop) (mark : Mark) :
    (b.annotate start stop mark).Solid := by
  unfold Buffer.annotate
  split
  swap
  · exact hb
  rename_i hlt
  refine ⟨fun a ha => ?_, fun a ha => ?_, hb.regions⟩
  · rcases List.mem_append.1 ha with ha | ha
    · exact hb.tight a ha
    · rw [List.mem_singleton.1 ha]
      exact h
  · rcases List.mem_append.1 ha with ha | ha
    · exact hb.ordered a ha
    · rw [List.mem_singleton.1 ha]
      exact hlt.1

/-- Other marks than those of regions and colors are not told. -/
theorem Told.annotate (hb : b.Told t) (h : RangeRule.tight b.text start stop)
    (hregion : mark.isRegion = false) (hcolors : mark.isColors = false) :
    (b.annotate start stop mark).Told t := by
  have hsolid := hb.solid.annotate h mark
  unfold Buffer.annotate at hsolid ⊢
  split
  swap
  · exact hb
  rename_i hlt
  rw [if_pos hlt] at hsolid
  have hpassages : Tale.passagesOf b.text [⟨start, stop, mark⟩] = [] := by
    simp [Tale.passagesOf, hregion]
  have hcolored (k : Nat) : Tale.colorsOf b.text [⟨start, stop, mark⟩] k = [] := by
    simp [Tale.colorsOf, hcolors]
  refine ⟨hsolid, hb.text, hb.regions, ?_, hb.colors.trans (funext fun k => ?_)⟩
  · rw [Tale.passagesOf_append, hpassages, List.append_nil]
    exact hb.passages
  · rw [Tale.colorsOf_append, hcolored, List.append_nil]

theorem markVisible_eq (b : Buffer) (start stop : Nat) (mark : Mark) :
    b.markVisible start stop mark = { b with
      spans := b.spans ++ ((b.visibleRange start stop).map fun r => ⟨r.1, r.2, mark⟩).toList } := by
  unfold Buffer.markVisible
  cases hrange : b.visibleRange start stop with
  | none => simp
  | some range =>
    obtain ⟨l, x, m, y, r, htext, -, hlt, -, -, he, -⟩ := visibleRange_split hrange
    have hle : range.2 ≤ b.size := by
      rw [Buffer.size, htext, ← he]
      simp only [size_append]
      omega
    exact if_pos ⟨hlt, hle⟩

theorem rank_visibleRange (h : b.visibleRange start stop = some (s, e)) {p : Char → Bool}
    (hp : ∀ c, p c = true → Shown c) :
    rank p b.text s = rank p b.text start ∧ rank p b.text e = rank p b.text stop := by
  obtain ⟨l, x, m, y, r, htext, hedge, -, rfl, rfl, rfl, rfl⟩ := visibleRange_split h
  have hnot {v : Text} (hv : ∀ c ∈ v, ¬ Shown c) : ∀ c ∈ v, p c = false :=
    fun c hc => Bool.eq_false_iff.2 fun h => hv c hc (hp c h)
  have hx := hnot fun c hc => hedge c (List.mem_append_left y hc)
  have hy := hnot fun c hc => hedge c (List.mem_append_right x hc)
  rw [htext]
  constructor
  · have := rank_skip_end hx l (m ++ y ++ r)
    simpa only [List.append_assoc] using this
  · exact (rank_skip_end hy (l ++ x ++ m) r).symm

theorem seen_visibleRange (h : b.visibleRange start stop = some (s, e)) :
    b.text.seen s = b.text.seen start ∧ b.text.seen e = b.text.seen stop :=
  rank_visibleRange h shown_of_visible

theorem Solid.markVisible (hb : b.Solid) (start stop : Nat) (mark : Mark) :
    (b.markVisible start stop mark).Solid := by
  unfold Buffer.markVisible
  split
  · rename_i h
    exact hb.annotate (tight_of_visibleRange h) mark
  · exact hb

/-- Behind a start from which nothing can be marked there is no visible character. -/
theorem length_le_of_visibleRange_eq_none (hstart : Boundary b.text start)
    (h : b.visibleRange start b.size = none) : b.text.visible.length ≤ b.text.seen start := by
  by_contra hlt
  obtain ⟨m, c, hat, hc, hm⟩ := exists_at_seen (Nat.lt_of_not_le hlt)
  have hle : start ≤ m := (le_iff_seen_le hat hc).2 (Nat.le_of_eq hm.symm)
  obtain ⟨s, e, hsome⟩ := exists_visibleRange hstart (.size b.text) hat (shown_of_not_blank hc) hle
    hat.lt_size
  rw [show b.visibleRange start b.text.size = none from h] at hsome
  cases hsome

theorem Told.markVisible (hb : b.Told t) (hstart : Boundary b.text start)
    (hmark : mark.isRegion = true) :
    (b.markVisible start b.size mark).Told (t.mark (b.text.seen start) mark) := by
  have hcolors : mark.isColors = false := by cases mark <;> first | rfl | cases hmark
  have hsize : b.text.seen b.size = b.text.visible.length := seen_of_size_le (Nat.le_refl _)
  have hsolid := hb.solid.markVisible start b.size mark
  rw [markVisible_eq] at hsolid ⊢
  refine ⟨hsolid, hb.text, hb.regions, ?_, hb.colors.trans (funext fun k => ?_)⟩
  · rw [Tale.mark, hb.text, Tale.passagesOf_append]
    cases hrange : b.visibleRange start b.size with
    | none =>
      have hle := length_le_of_visibleRange_eq_none hstart hrange
      rw [Option.map_none, Option.toList_none]
      exact (List.append_nil (Tale.passagesOf b.text b.spans)).symm ▸
        hb.passages.drop (decide_eq_false (Nat.not_lt_of_le hle))
    | some range =>
      obtain ⟨hs, he⟩ := seen_visibleRange hrange
      have hnew : Tale.passagesOf b.text [⟨range.1, range.2, mark⟩] =
          [(mark, b.text.seen start, b.text.visible.length)] := by
        simp [Tale.passagesOf, hmark, hs, he, hsize]
      rw [Option.map_some, Option.toList_some, hnew]
      exact hb.passages.concat _
  · have hnew : Tale.colorsOf b.text
        ((b.visibleRange start b.size).map fun r => ⟨r.1, r.2, mark⟩).toList k = [] := by
      cases b.visibleRange start b.size <;> simp [Tale.colorsOf, hcolors]
    rw [Tale.colorsOf_append, hnew, List.append_nil]

theorem Told.endRegion (hb : b.Told t) (hmark : mark.isRegion = true) :
    (b.endRegion mark).Told (t.endRegion mark) := by
  obtain ⟨hclosed, hseen, hstart⟩ := hb.closeRegion
  rw [← b.text_closeRegion] at hseen hstart
  rw [Tale.endRegion, ← hseen]
  exact hclosed.markVisible hstart hmark

/-! ### The finished text -/

theorem seen_finish (b : Buffer) : seen b.finish.1 = seen b.text := by
  obtain ⟨u, htext, hu⟩ := dropEndWhile_append isBlank b.text
  conv_rhs => rw [htext]
  exact (seen_append_blank (visible_eq_nil_iff.2 hu) _).symm

theorem Told.finish (hb : b.Told t) : Tale.Kept t.passages (Tale.passagesOf b.finish.1 b.finish.2) ∧
    t.colors = Tale.colorsOf b.finish.1 b.finish.2 := by
  have hcut : ∀ a ∈ b.spans, ({ a with stop := min a.stop b.finish.1.size } : Span).mark = a.mark ∧
      b.finish.1.seen a.start = b.text.seen a.start ∧
        b.finish.1.seen (min a.stop b.finish.1.size) = b.text.seen a.stop := fun a _ =>
    ⟨rfl, by rw [seen_finish], by rw [seen_min_size, seen_finish]⟩
  -- a span that is dropped holds no visible character
  have hlt {a : Span} (h : b.finish.1.seen a.start < b.finish.1.seen a.stop) :
      a.start < a.stop := by
    by_contra hle
    exact absurd (seen_mono b.finish.1 (Nat.le_of_not_lt hle)) (Nat.not_le_of_lt h)
  obtain ⟨-, -, -, hpassages, hcolors⟩ := hb
  rw [← Tale.passagesOf_map hcut] at hpassages
  rw [← Tale.colorsOf_map hcut] at hcolors
  refine ⟨⟨?_, ?_⟩, hcolors.trans (funext fun k => ?_)⟩
  · exact ((List.filter_sublist.filter _).map _).trans hpassages.sublist
  · refine Eq.trans ?_ hpassages.shown
    unfold Tale.passagesOf
    rw [List.filter_map, List.filter_map]
    refine congrArg (List.map _) ?_
    rw [List.filter_filter, List.filter_filter]
    refine (List.filter_filter ..).trans (List.filter_congr fun a _ => ?_)
    rw [Bool.and_eq_left_iff_imp, Bool.and_eq_true, decide_eq_true_eq]
    exact fun h => hlt (of_decide_eq_true h.1)
  · unfold Tale.colorsOf
    refine congrArg (List.map _) (Eq.symm ((List.filter_filter ..).trans
      (List.filter_congr fun a _ => ?_)))
    rw [Bool.and_eq_left_iff_imp]
    simp only [Bool.and_eq_true, decide_eq_true_eq]
    exact fun h => hlt (by omega)

end Buffer
end MarkupText
