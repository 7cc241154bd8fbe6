import MarkupText.Proofs.Buffer.Tale

/-!
# Colors fill gaps

When colors are laid over a range, the parts of it that have a color already are left out. Those
parts are where `Renderer.gaps` steps over them: a position is in one gap if nothing covers it and
in none otherwise (`count_gaps`). So laying colors over the end of a buffer gives them to each visible
character that has none yet (`Told.colorize`).
-/

namespace MarkupText

open Text

/-- Whether byte `n` is inside the range. -/
def covers (n : Nat) (range : Nat × Nat) : Bool := range.1 ≤ n && n < range.2

/-- Whether byte `n` is inside the span. -/
def Span.covers (n : Nat) (a : Span) : Bool := a.start ≤ n && n < a.stop

namespace Renderer
variable {P : Nat → Prop} {cursor start stop n : Nat} {ranges : List (Nat × Nat)}
  {spans : List Span}

/-! ### Gaps -/

theorem gaps_ends (hcursor : P cursor) (hstop : P stop) (h : ∀ g ∈ ranges, P g.1 ∧ P g.2) :
    ∀ g ∈ gaps cursor stop ranges, P g.1 ∧ P g.2 := by
  induction ranges generalizing cursor with
  | nil =>
    intro g hg
    unfold gaps at hg
    split at hg
    · rw [List.mem_singleton.1 hg]
      exact ⟨hcursor, hstop⟩
    · cases hg
  | cons range ranges ih =>
    obtain ⟨⟨hs, he⟩, hranges⟩ := List.forall_mem_cons.1 h
    have hmax : P (max cursor range.2) := by
      rcases Nat.le_total cursor range.2 with hle | hle
      · rwa [Nat.max_eq_right hle]
      · rwa [Nat.max_eq_left hle]
    intro g hg
    unfold gaps at hg
    dsimp only at hg
    split at hg
    · rcases List.mem_cons.1 hg with rfl | hg
      · exact ⟨hcursor, hs⟩
      · exact ih hmax hranges g hg
    · exact ih hmax hranges g hg

/-- A position is in one gap if no range covers it, and in none otherwise. -/
theorem count_gaps (hsorted : ranges.Pairwise fun a b => a.1 ≤ b.1)
    (hranges : ∀ g ∈ ranges, g.1 ≤ g.2 ∧ g.2 ≤ stop) :
    (gaps cursor stop ranges).countP (covers n) =
      if cursor ≤ n ∧ n < stop ∧ ∀ g ∈ ranges, covers n g = false then 1 else 0 := by
  induction ranges generalizing cursor with
  | nil =>
    unfold gaps
    split
    · simp [List.countP_singleton, covers]
    · rw [if_neg (by omega)]
      rfl
  | cons range ranges ih =>
    obtain ⟨hfirst, hrest⟩ := List.pairwise_cons.1 hsorted
    obtain ⟨⟨hle, hstop⟩, hinside⟩ := List.forall_mem_cons.1 hranges
    have hcount : (gaps cursor stop (range :: ranges)).countP (covers n) =
        (if cursor ≤ n ∧ n < range.1 then 1 else 0) +
          (gaps (max cursor range.2) stop ranges).countP (covers n) := by
      rw [gaps]
      split
      · rw [List.countP_cons, Nat.add_comm]
        simp [covers]
      · rw [if_neg (by omega), Nat.zero_add]
    have hcovers : covers n range = false ↔ ¬ (range.1 ≤ n ∧ n < range.2) := by simp [covers]
    rw [hcount, ih hrest hinside]
    by_cases hgap : cursor ≤ n ∧ n < range.1
    · -- the ranges that follow start behind this gap
      have hnone : ∀ g ∈ range :: ranges, covers n g = false := fun g hg => by
        have : range.1 ≤ g.1 := by
          rcases List.mem_cons.1 hg with rfl | hg
          · exact Nat.le_refl _
          · exact hfirst g hg
        simp only [covers, Bool.and_eq_false_iff, decide_eq_false_iff_not]
        omega
      rw [if_pos hgap, if_neg (by omega), if_pos ⟨hgap.1, by omega, hnone⟩]
    · have hiff : (max cursor range.2 ≤ n ∧ n < stop ∧ ∀ g ∈ ranges, covers n g = false) ↔
          cursor ≤ n ∧ n < stop ∧ ∀ g ∈ range :: ranges, covers n g = false := by
        rw [List.forall_mem_cons, hcovers]
        constructor
        · rintro ⟨hcursor, hn, hfree⟩
          exact ⟨by omega, hn, by omega, hfree⟩
        · rintro ⟨hcursor, hn, hfree, hrest⟩
          exact ⟨by omega, hn, hrest⟩
      rw [if_neg hgap, Nat.zero_add]
      exact if_congr hiff rfl rfl

/-! ### Uncolored parts -/

/-- The colored parts of a range, in order. -/
def coloredParts (spans : List Span) (start stop : Nat) : List (Nat × Nat) :=
  ((spans.filter fun a => a.mark.isColors && a.meets start stop).map fun a =>
    (max a.start start, min a.stop stop)).mergeSort rangeLe

theorem mem_coloredParts {g : Nat × Nat} : g ∈ coloredParts spans start stop ↔
    ∃ a ∈ spans, a.mark.isColors = true ∧ a.meets start stop = true ∧
      (max a.start start, min a.stop stop) = g := by
  rw [coloredParts, List.mem_mergeSort, List.mem_map]
  simp only [List.mem_filter, Bool.and_eq_true, and_assoc]

theorem pairwise_coloredParts (spans : List Span) (start stop : Nat) :
    (coloredParts spans start stop).Pairwise fun a b => a.1 ≤ b.1 := by
  have hle {a b : Nat × Nat} : rangeLe a b = true ↔ a.1 < b.1 ∨ a.1 = b.1 ∧ a.2 ≤ b.2 := by
    simp [rangeLe]
  refine (List.pairwise_mergeSort (fun a b c hab hbc => ?_) (fun a b => ?_) _).imp fun {a b} h => ?_
  · rw [hle] at hab hbc ⊢
    omega
  · rw [Bool.or_eq_true, hle, hle]
    omega
  · rw [hle] at h
    omega

/-- A position of the range is in one uncolored part if no colored span covers it; every other
position is in none. -/
theorem count_uncolored (hle : start ≤ stop) (hspans : ∀ a ∈ spans, a.start < a.stop) :
    (uncolored spans start stop).countP (covers n) =
      if start ≤ n ∧ n < stop ∧ (spans.filter fun a => a.mark.isColors && a.covers n) = [] then 1
      else 0 := by
  have hfree (hstart : start ≤ n) (hstop : n < stop) :
      (∀ g ∈ coloredParts spans start stop, covers n g = false) ↔
        (spans.filter fun a => a.mark.isColors && a.covers n) = [] := by
    rw [List.filter_eq_nil_iff]
    constructor
    · intro h a ha hcovers
      obtain ⟨hcolors, hlo, hhi⟩ : a.mark.isColors = true ∧ a.start ≤ n ∧ n < a.stop := by
        simpa [Span.covers] using hcovers
      have hmeets : a.meets start stop = true := by
        simp only [Span.meets, Bool.and_eq_true, decide_eq_true_eq]
        omega
      have hcovered := h _ (mem_coloredParts.2 ⟨a, ha, hcolors, hmeets, rfl⟩)
      simp only [covers, Bool.and_eq_false_iff, decide_eq_false_iff_not] at hcovered
      omega
    · rintro h g hg
      obtain ⟨a, ha, hcolors, -, rfl⟩ := mem_coloredParts.1 hg
      have hcovered := h a ha
      simp only [hcolors, Span.covers, Bool.true_and, Bool.and_eq_true, decide_eq_true_eq]
        at hcovered
      simp only [covers, Bool.and_eq_false_iff, decide_eq_false_iff_not]
      omega
  have hparts : ∀ g ∈ coloredParts spans start stop, g.1 ≤ g.2 ∧ g.2 ≤ stop := by
    rintro g hg
    obtain ⟨a, ha, -, hmeets, rfl⟩ := mem_coloredParts.1 hg
    have hlt := hspans a ha
    simp only [Span.meets, Bool.and_eq_true, decide_eq_true_eq] at hmeets
    dsimp only
    omega
  refine (count_gaps (pairwise_coloredParts spans start stop) hparts).trans (if_congr ?_ rfl rfl)
  exact and_congr_right fun hstart => and_congr_right fun hstop => hfree hstart hstop

theorem uncolored_ends (hstart : P start) (hstop : P stop)
    (h : ∀ a ∈ spans, P a.start ∧ P a.stop) :
    ∀ g ∈ uncolored spans start stop, P g.1 ∧ P g.2 := by
  refine gaps_ends hstart hstop fun g hg => ?_
  obtain ⟨a, ha, -, -, rfl⟩ := mem_coloredParts.1 hg
  obtain ⟨hs, he⟩ := h a ha
  constructor
  · rcases Nat.le_total a.start start with hle | hle
    · rwa [Nat.max_eq_right hle]
    · rwa [Nat.max_eq_left hle]
  · rcases Nat.le_total a.stop stop with hle | hle
    · rwa [Nat.min_eq_left hle]
    · rwa [Nat.min_eq_right hle]

end Renderer

namespace Buffer
variable {b : Buffer} {n start : Nat} {c : Char} {spans : List Span}

/-! ### Laying colors -/

/-- The colors on a visible character are those of the spans that cover it. -/
theorem colorsOf_seen {t : Text} (hat : At t n c) (hc : isBlank c = false) (spans : List Span) :
    Tale.colorsOf t spans (t.seen n) =
      (spans.filter fun a => a.mark.isColors && a.covers n).map (·.mark) := by
  unfold Tale.colorsOf
  congr 1
  refine List.filter_congr fun a _ => ?_
  have hstart : a.start ≤ n ↔ t.seen a.start ≤ t.seen n := le_iff_seen_le hat hc
  have hstop : a.stop ≤ n ↔ t.seen a.stop ≤ t.seen n := le_iff_seen_le hat hc
  rw [Bool.and_assoc]
  congr 1
  rw [Span.covers, Bool.eq_iff_iff]
  simp only [Bool.and_eq_true, decide_eq_true_eq]
  omega

/-- The spans that marking some ranges records. -/
def markedRanges (b : Buffer) (mark : Mark) (ranges : List (Nat × Nat)) : List Span :=
  ranges.filterMap fun g => (b.visibleRange g.1 g.2).map fun r => ⟨r.1, r.2, mark⟩

theorem markedRanges_cons (b : Buffer) (mark : Mark) (g : Nat × Nat) (ranges : List (Nat × Nat)) :
    b.markedRanges mark (g :: ranges) =
      ((b.visibleRange g.1 g.2).map fun r => ⟨r.1, r.2, mark⟩).toList ++
        b.markedRanges mark ranges := by
  unfold markedRanges
  rw [List.filterMap_cons]
  cases b.visibleRange g.1 g.2 <;> rfl

theorem foldl_markVisible (mark : Mark) (ranges : List (Nat × Nat)) (b : Buffer) :
    ranges.foldl (fun b (s, e) => b.markVisible s e mark) b =
      { b with spans := b.spans ++ b.markedRanges mark ranges } := by
  induction ranges generalizing b with
  | nil => simp [markedRanges]
  | cons g ranges ih =>
    change ranges.foldl _ (b.markVisible g.1 g.2 mark) = _
    rw [ih, markVisible_eq, markedRanges_cons, ← List.append_assoc]
    rfl

theorem mark_of_mem_markedRanges {mark : Mark} {ranges : List (Nat × Nat)} {a : Span}
    (ha : a ∈ b.markedRanges mark ranges) : a.mark = mark := by
  obtain ⟨g, -, hg⟩ := List.mem_filterMap.1 ha
  obtain ⟨r, -, rfl⟩ := Option.map_eq_some_iff.1 hg
  rfl

/-- Marking ranges between characters marks each visible character as often as it is in one. -/
theorem count_markedRanges (hat : At b.text n c) (hc : isBlank c = false) (mark : Mark)
    {ranges : List (Nat × Nat)}
    (hranges : ∀ g ∈ ranges, Boundary b.text g.1 ∧ Boundary b.text g.2) :
    (b.markedRanges mark ranges).countP (·.covers n) = ranges.countP (covers n) := by
  have hshown := shown_of_not_blank hc
  induction ranges with
  | nil => rfl
  | cons g ranges ih =>
    obtain ⟨⟨hs, he⟩, hrest⟩ := List.forall_mem_cons.1 hranges
    rw [markedRanges_cons, List.countP_append, ih hrest, List.countP_cons, Nat.add_comm]
    congr 1
    cases hrange : b.visibleRange g.1 g.2 with
    | none =>
      have hnot : covers n g = false := by
        by_contra hcovers
        simp only [covers, Bool.not_eq_false, Bool.and_eq_true, decide_eq_true_eq] at hcovers
        obtain ⟨s, e, hsome⟩ := exists_visibleRange hs he hat hshown hcovers.1 hcovers.2
        rw [hrange] at hsome
        cases hsome
      simp [hnot]
    | some r =>
      have hiff : Span.covers n ⟨r.1, r.2, mark⟩ = covers n g := by
        have hinside : g.1 ≤ r.1 ∧ r.2 ≤ g.2 := by
          obtain ⟨l, x, m, y, u, -, -, -, hl, hx, hm, hy⟩ := visibleRange_split hrange
          simp only [size_append] at hl hx hm hy
          omega
        have hsame : (g.1 ≤ n ∧ n < g.2) → r.1 ≤ n ∧ n < r.2 := fun h => by
          have := shown_of_visibleRange hrange hat hshown h.1 h.2
          have := c.utf8Size_pos
          omega
        rw [Span.covers, covers, Bool.eq_iff_iff]
        simp only [Bool.and_eq_true, decide_eq_true_eq]
        exact ⟨fun h => by omega, hsame⟩
      simp [hiff]

theorem colorsOf_markedRanges (hat : At b.text n c) (hc : isBlank c = false)
    {ranges : List (Nat × Nat)}
    (hranges : ∀ g ∈ ranges, Boundary b.text g.1 ∧ Boundary b.text g.2) (fg bg : Option Color) :
    Tale.colorsOf b.text (b.markedRanges (.colors fg bg) ranges) (b.text.seen n) =
      List.replicate (ranges.countP (covers n)) (.colors fg bg) := by
  have hfilter : (b.markedRanges (.colors fg bg) ranges).filter
      (fun a => a.mark.isColors && a.covers n) =
      (b.markedRanges (.colors fg bg) ranges).filter (·.covers n) :=
    List.filter_congr fun a ha => by rw [mark_of_mem_markedRanges ha]; rfl
  have hmarks : ((b.markedRanges (.colors fg bg) ranges).filter (·.covers n)).map (·.mark) =
      List.replicate ((b.markedRanges (.colors fg bg) ranges).filter (·.covers n)).length
        (.colors fg bg) := by
    rw [← List.map_const']
    exact List.map_congr_left fun a ha => mark_of_mem_markedRanges (List.mem_of_mem_filter ha)
  rw [colorsOf_seen hat hc, hfilter, hmarks, ← List.countP_eq_length_filter,
    count_markedRanges hat hc _ hranges]

theorem passagesOf_markedRanges (ranges : List (Nat × Nat)) (fg bg : Option Color) :
    Tale.passagesOf b.text (b.markedRanges (.colors fg bg) ranges) = [] := by
  unfold Tale.passagesOf
  rw [List.map_eq_nil_iff, List.filter_eq_nil_iff]
  intro a ha
  rw [mark_of_mem_markedRanges ha]
  exact Bool.false_ne_true

theorem colorsOf_of_length_le {t : Text} {k : Nat} (hk : t.visible.length ≤ k) (spans : List Span) :
    Tale.colorsOf t spans k = [] := by
  unfold Tale.colorsOf
  rw [List.map_eq_nil_iff, List.filter_eq_nil_iff]
  intro a _
  have := seen_le_length t a.stop
  simp only [Bool.and_eq_true, decide_eq_true_eq]
  omega

theorem Solid.colorize (hb : b.Solid) (start : Nat) (colors : ColorPair) :
    (b.colorize start colors).Solid :=
  colorize_induct colors (fun _ start stop hc => hc.markVisible start stop _) hb start

theorem color_eq_self {t : Tale} {start : Nat} {colors : ColorPair} (h : t.text.length ≤ start) :
    t.color start colors = t := by
  unfold Tale.color
  split
  · rfl
  · refine congrArg (fun colors => { t with colors }) (funext fun k => ?_)
    exact if_neg fun hk => by omega

/-- Marking the uncolored parts of a range colors the visible characters without a color. -/
theorem colorsOf_uncolored {s e : Nat} (hb : b.Solid)
    (hrange : b.visibleRange start b.size = some (s, e)) (fg bg : Option Color) (k : Nat) :
    Tale.colorsOf b.text
        (b.spans ++ b.markedRanges (.colors fg bg) (Renderer.uncolored b.spans s e)) k =
      if b.text.seen start ≤ k ∧ k < b.text.visible.length ∧
        Tale.colorsOf b.text b.spans k = [] then [.colors fg bg]
      else Tale.colorsOf b.text b.spans k := by
  have hsize : b.text.seen b.size = b.text.visible.length := seen_of_size_le (Nat.le_refl _)
  obtain ⟨hs, he⟩ := seen_visibleRange hrange
  have htight := tight_of_visibleRange hrange
  have hle : s ≤ e := by
    obtain ⟨l, x, m, y, r, -, -, hlt, -⟩ := visibleRange_split hrange
    exact Nat.le_of_lt hlt
  have hends : ∀ g ∈ Renderer.uncolored b.spans s e, Boundary b.text g.1 ∧ Boundary b.text g.2 :=
    Renderer.uncolored_ends htight.1.boundary htight.2.boundary fun a ha =>
      ⟨(hb.tight a ha).1.boundary, (hb.tight a ha).2.boundary⟩
  rw [Tale.colorsOf_append]
  by_cases hk : k < b.text.visible.length
  swap
  · rw [colorsOf_of_length_le (Nat.le_of_not_lt hk), colorsOf_of_length_le (Nat.le_of_not_lt hk),
      if_neg fun h => hk h.2.1]
    rfl
  -- the new spans cover the character as often as it is in an uncolored part: once or not at all
  obtain ⟨n, c, hat, hc, rfl⟩ := exists_at_seen hk
  have hstart : s ≤ n ↔ b.text.seen start ≤ b.text.seen n := hs ▸ le_iff_seen_le hat hc
  have hstop : n < e := by
    have : e ≤ n ↔ b.text.seen e ≤ b.text.seen n := le_iff_seen_le hat hc
    omega
  have hfree : Tale.colorsOf b.text b.spans (b.text.seen n) = [] ↔
      (b.spans.filter fun a => a.mark.isColors && a.covers n) = [] := by
    rw [colorsOf_seen hat hc, List.map_eq_nil_iff]
  rw [colorsOf_markedRanges hat hc hends, Renderer.count_uncolored hle hb.ordered]
  by_cases h : b.text.seen start ≤ b.text.seen n ∧
      Tale.colorsOf b.text b.spans (b.text.seen n) = []
  · rw [if_pos ⟨hstart.2 h.1, hstop, hfree.1 h.2⟩, if_pos ⟨h.1, hk, h.2⟩, h.2]
    rfl
  · rw [if_neg fun hn => h ⟨hstart.1 hn.1, hfree.2 hn.2.2⟩, if_neg fun hn => h ⟨hn.1, hn.2.2⟩]
    exact List.append_nil _

theorem Told.colorize {t : Tale} (hb : b.Told t) (hstart : Boundary b.text start)
    (colors : ColorPair) : (b.colorize start colors).Told (t.color (b.text.seen start) colors) := by
  have hsolid := hb.solid.colorize start colors
  unfold Buffer.colorize at hsolid ⊢
  by_cases hempty : colors.isEmpty = true
  · rw [if_pos hempty, Tale.color, if_pos hempty]
    exact hb
  rw [if_neg hempty] at hsolid ⊢
  cases hrange : b.visibleRange start b.size with
  | none =>
    have hle := length_le_of_visibleRange_eq_none hstart hrange
    rw [color_eq_self (by rwa [hb.text])]
    exact hb
  | some range =>
    rw [hrange] at hsolid
    dsimp only at hsolid ⊢
    rw [foldl_markVisible] at hsolid ⊢
    rw [Tale.color, if_neg hempty, hb.text, hb.colors]
    refine ⟨hsolid, rfl, hb.regions, ?_, (funext (colorsOf_uncolored hb.solid hrange _ _)).symm⟩
    dsimp only
    rw [Tale.passagesOf_append, passagesOf_markedRanges, List.append_nil]
    exact hb.passages

theorem Told.endColors {t : Tale} (hb : b.Told t) (colors : ColorPair) :
    (b.endColors colors).Told (t.endColors colors) := by
  obtain ⟨hclosed, hseen, hstart⟩ := hb.closeRegion
  rw [← b.text_closeRegion] at hseen hstart
  rw [Tale.endColors, ← hseen]
  exact hclosed.colorize hstart colors

end Buffer
end MarkupText
