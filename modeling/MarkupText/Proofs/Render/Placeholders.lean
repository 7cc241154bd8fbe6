import MarkupText.Proofs.Buffer.Placeholders
import MarkupText.Proofs.Render.Invariant

/-!
# Placeholders in renders

Every step of a descent keeps the placeholders of a page in place (`invariant_framed`): images are
written behind all that is there and on a line of their own, because anything visible that follows
an image starts a new line, and cells hold none. So in every render the placeholders stand in order
and apart from each other (`placed_node`).
-/

namespace MarkupText

open Text

/-- The placeholders of the page are in place, and either the next visible text starts a new line or
a newline stands behind each of them. A page on which images are inhibited has none. -/
structure Page.Framed (inhibited : Bool) (p : Page) : Prop where
  inhibit : p.layout.inhibitImages = inhibited
  none : inhibited = true → p.buffer.images = []
  placed : p.buffer.Placed
  broken : p.layout.kind = .image ∨ ∀ i ∈ p.buffer.images, p.buffer.Broken i

/-- No line of the cell has a placeholder on it. -/
def Cell.Imageless (c : Cell) : Prop := ∀ l ∈ c.lines, ∀ a ∈ l.spans, a.mark.isImage = false

namespace Page.Framed
variable {b : Bool} {p q : Page} {t : Text}

theorem empty (l : Layout) : Framed l.inhibitImages { layout := l } where
  inhibit := rfl
  none _ := rfl
  placed :=
    { below := ⟨fun _ h => (by cases h), fun _ h => (by cases h)⟩
      tight := fun _ h => by cases h
      label := fun _ h => by cases h
      apart := .nil }
  broken := .inr fun _ h => by cases h

theorem grows {c : Buffer} (h : Framed b p) (hc : p.buffer.Grows c) :
    Framed b { p with buffer := c } where
  inhibit := h.inhibit
  none hb := hc.images.trans (h.none hb)
  placed := hc.placed
  broken := h.broken.imp id hc.broken

theorem pours (h : Framed b p) (hpq : Pours t p q) : Framed b q where
  inhibit := by rw [hpq.layout, h.inhibit]
  none hb := by
    obtain ⟨σ, τ, hmoves⟩ := hpq.flow.moves
    rw [hmoves.images, h.none hb]
    rfl
  placed := h.placed.flow hpq.flow
  broken := by
    rw [hpq.layout]
    exact h.broken.imp id (Buffer.Broken.flow hpq.flow)

theorem asText (h : Framed b p) (hbroken : ∀ i ∈ p.buffer.images, p.buffer.Broken i) :
    Framed b (p.onLayout ({ · with kind := .text })) :=
  ⟨h.inhibit, h.none, h.placed, .inr hbroken⟩

theorem broken_freshFor (h : Framed b p) (ht : t.blank = false) :
    ∀ i ∈ (p.freshFor t).buffer.images, (p.freshFor t).buffer.Broken i := by
  intro i hi
  unfold freshFor at hi ⊢
  split at hi
  · rename_i hif
    rw [if_pos hif]
    exact Buffer.broken_newline h.placed hi
  · rename_i hif
    rw [if_neg hif]
    rcases h.broken with hkind | hbroken
    · refine Buffer.broken_of_atLineStart h.placed ?_ hi
      simpa [hkind, ht] using hif
    · exact hbroken i hi

theorem insert (rules : LineBreak.Rules) (h : Framed b p) (t : Text) :
    Framed b (p.insert rules t) := by
  obtain ⟨q, hpq, heq⟩ := insert_eq rules p t
  have hq : Framed b q := (h.pours (pours_freshFor t p)).pours hpq
  rw [heq]
  split
  · exact hq
  · rename_i ht
    exact hq.asText (Buffer.Broken.flow hpq.flow (h.broken_freshFor (Bool.eq_false_iff.2 ht)))

end Page.Framed

namespace Renderer
variable {b : Bool} {r : Renderer} {s : Scene}

/-! ### Rulers and labels -/

theorem framed_lineBreak (h : r.page.Framed b) : (lineBreak r).page.Framed b := by
  have hline : (r.page.onBuffer (·.newline)).Framed b := h.pours (.onBuffer r.buffer.flow_newline)
  exact hline.asText fun i hi => Buffer.broken_newline h.placed hi

theorem framed_ruler (h : r.page.Framed b) : (ruler r).page.Framed b := by
  have hruler (indentation dashes : Nat) :
      (r.page.onBuffer (·.putRuler indentation dashes)).Framed b ∧
        ∀ i ∈ (r.buffer.putRuler indentation dashes).images,
          (r.buffer.putRuler indentation dashes).Broken i := by
    have hline : (r.page.onBuffer (·.ensureNewline)).Framed b :=
      h.pours (.onBuffer r.buffer.flow_ensureNewline)
    let c := r.buffer.ensureNewline.push (spaces indentation)
    let d := c.push (List.replicate dashes '-')
    have hc : r.buffer.ensureNewline.Grows c := .push hline.placed _
    have hd : c.Grows d := .push hc.placed _
    have hmark := hline.grows
      (hc.trans (hd.trans (.annotate hd.placed (rfl : Mark.ruler.isImage = false) c.size d.size)))
    exact ⟨hmark.pours (.onBuffer (Buffer.flow_newline _)),
      fun i hi => Buffer.broken_newline hmark.placed hi⟩
  obtain ⟨hframed, hbroken⟩ := hruler r.layout.indentation
    (max (r.layout.width - r.layout.indentation) 1)
  rw [ruler_eq]
  exact hframed.asText hbroken

theorem framed_labelled (h : r.page.Framed b) : (labelled r).page.Framed b := by
  have hline : (r.page.onBuffer (·.ensureNewline)).Framed b :=
    h.pours (.onBuffer r.buffer.flow_ensureNewline)
  have hindent := Page.pours_indent (r.page.onBuffer (·.ensureNewline))
  have hbroken := Buffer.Broken.flow hindent.flow fun i hi =>
    Buffer.broken_ensureNewline h.placed hi
  have hframed := hline.pours hindent
  exact ⟨hframed.inhibit, hframed.none, hframed.placed.pushLabel hbroken _,
    .inr fun i hi => (hbroken i hi).move (.push _ _)⟩

/-! ### Images -/

theorem countP_freshFor_le {f : Char → Bool} (hf : ∀ c, f c = true → Shown c) (t : Text)
    (p : Page) : (p.freshFor t).buffer.text.countP f ≤ p.buffer.text.countP f := by
  unfold Page.freshFor
  split
  · have hline : f '\n' = false := Bool.eq_false_iff.2 fun h => (hf _ h).2 rfl
    have hle := p.buffer.text_trimSpaces_prefix.sublist.countP_le (p := f)
    change (p.buffer.trimSpaces.text ++ ['\n']).countP f ≤ _
    rw [List.countP_append, List.countP_singleton, hline]
    exact hle
  · exact Nat.le_refl _

theorem blank_placeholder (e : Element) : (placeholder (altText e)).blank = false := by
  have htrim (t : Text) (ht : t.trim ≠ []) : t.trim.blank = false := by
    obtain ⟨c, hc⟩ := Option.ne_none_iff_exists'.1 (mt List.getLast?_eq_none_iff.1 ht)
    have hblank := not_of_getLast?_dropEndWhile hc
    refine Bool.eq_false_iff.2 fun hall => ?_
    rw [List.all_eq_true.1 hall c (List.mem_of_getLast? hc)] at hblank
    cases hblank
  unfold placeholder
  split
  · decide
  · rename_i hne
    unfold altText at hne ⊢
    cases hattr : e.attr? "alt" with
    | none => simp [hattr] at hne
    | some alt =>
      rw [hattr] at hne
      exact htrim alt fun h => hne (List.isEmpty_iff.2 h)

/-- If nothing is shown between the end of a buffer and a newline, then what is shown later stands
behind the newline. -/
theorem newline_lt_of_shown {b c d : Buffer} {σ τ σ' τ' : Nat → Nat} {n start : Nat} {x : Char}
    (hσ : Buffer.Moves σ τ b c) (hσ' : Buffer.Moves σ' τ' c d)
    (hcount : c.text.countP (fun c => decide (Shown c)) ≤ b.text.countP fun c => decide (Shown c))
    (hn : At c.text n '\n') (hx : At d.text start x) (hshown : Shown x)
    (hle : σ' (σ b.size) ≤ start) : At d.text (σ' n) '\n' ∧ σ' n < start := by
  set f : Char → Bool := fun c => decide (Shown c)
  have hf : ∀ c, f c = true → Shown c := fun c => of_decide_eq_true
  have hsize : σ b.size ≤ c.size := hσ.start_le (Nat.le_refl _)
  have hn' := (hσ'.at_start hn (by decide)).1
  have hrank : rank f d.text (σ' n) ≤ rank f d.text (σ' (σ b.size)) := by
    have hend : rank f c.text (σ b.size) = b.text.countP f :=
      (hσ.rank_start hf (Nat.le_refl _)).trans (rank_of_size_le (Nat.le_refl _))
    rw [hσ'.rank_start hf (Nat.le_of_lt hn.lt_size), hσ'.rank_start hf hsize, hend]
    exact Nat.le_trans (rank_le_countP ..) hcount
  have hbefore : σ' n ≤ start :=
    (le_iff_rank_le hx (decide_eq_true hshown)).2 (Nat.le_trans hrank (rank_mono f d.text hle))
  have hne : σ' n ≠ start := fun heq => hshown.2 ((heq ▸ hn').unique hx).symm
  exact ⟨hn', Nat.lt_of_le_of_ne hbefore hne⟩

/-- A placeholder that is written is behind all other positions, and a newline stands between an
earlier one and it. -/
theorem apart_placeholder {p : Page} {t : Text} {start stop : Nat} (h : p.Framed b)
    (ht : t.blank = false) (request : ImageRequest) {q : Page}
    (hq : (p.onBuffer (·.openRegion)).insert s.options.rules t = q)
    (hrange : q.buffer.closeRegion.2.visibleRange q.buffer.closeRegion.1
      q.buffer.closeRegion.2.size = some (start, stop)) :
    q.buffer.closeRegion.2.Below start ∧ ∀ i ∈ q.buffer.closeRegion.2.images,
      Buffer.Apart q.buffer.closeRegion.2.text i ⟨start, stop, .image request⟩ := by
  have hopen : (p.onBuffer (·.openRegion)).Framed b :=
    h.grows (.openRegion h.placed)
  have hfresh := Page.pours_freshFor t (p.onBuffer (·.openRegion))
  have hbroken := hopen.broken_freshFor ht
  have hcount := countP_freshFor_le (fun c => of_decide_eq_true) t (p.onBuffer (·.openRegion))
  obtain ⟨q', hpours, heq⟩ := Page.insert_eq s.options.rules (p.onBuffer (·.openRegion)) t
  have hflow : Buffer.Flow t.visible ((p.onBuffer (·.openRegion)).freshFor t).buffer q.buffer := by
    rw [← hq, heq, if_neg (Bool.eq_false_iff.1 ht)]
    exact hpours.flow
  generalize (p.onBuffer (·.openRegion)).freshFor t = c at hflow hfresh hbroken hcount
  generalize q.buffer = d at hflow hrange ⊢
  obtain ⟨σ, τ, hσ⟩ := hfresh.flow.moves
  obtain ⟨σ', τ', hσ'⟩ := hflow.moves
  have hsize : σ p.buffer.size ≤ c.buffer.size := hσ.start_le (Nat.le_refl _)
  have hstart : d.closeRegion.1 = σ' (σ p.buffer.size) := by
    have hregions : d.regions = σ' (σ p.buffer.size) :: (p.buffer.regions.map σ).map σ' := by
      rw [hσ'.regions, hσ.regions]
      rfl
    unfold Buffer.closeRegion
    rw [hregions]
    exact Nat.min_eq_left (hσ'.start_le hsize)
  have himages : d.closeRegion.2.images = d.images := by
    rw [Buffer.images, Buffer.spans_closeRegion]
    rfl
  have hbelow : d.closeRegion.2.Below (σ' (σ p.buffer.size)) :=
    ((hopen.placed.below.moves hσ).moves hσ').closeRegion
  rw [hstart] at hrange
  obtain ⟨x, hx, hshown⟩ := (Buffer.tight_of_visibleRange hrange).1
  have hle : σ' (σ p.buffer.size) ≤ start := by
    obtain ⟨l, u, m, v, r, -, -, -, hl, hu, -⟩ := Buffer.visibleRange_split hrange
    rw [size_append] at hu
    omega
  rw [himages]
  rw [Buffer.text_closeRegion] at hx ⊢
  refine ⟨hbelow.mono hle, fun i hi => ?_⟩
  rw [hσ'.images] at hi
  obtain ⟨i₀, hi₀, rfl⟩ := List.mem_map.1 hi
  obtain ⟨n, hn, hstop⟩ := hbroken i₀ hi₀
  obtain ⟨hn', hlt⟩ := newline_lt_of_shown hσ hσ' hcount hn hx hshown hle
  exact ⟨σ' n, hn', Nat.le_trans (hσ'.stop_mono hstop) (hσ'.stop_le_start n), hlt⟩

theorem framed_image (e : Element) (h : r.page.Framed b) : (image s e r).page.Framed b := by
  rw [image_eq]
  cases fetchableSource? s e with
  | none => exact h.insert _ _
  | some source =>
    cases hinhibit : r.layout.inhibitImages with
    | true => exact h
    | false =>
      have hopen : (r.page.onBuffer (·.openRegion)).Framed b :=
        h.grows (.openRegion h.placed)
      have hinsert := hopen.insert s.options.rules (placeholder (altText e))
      have hclosed := hinsert.grows (.closeRegion hinsert.placed)
      dsimp only
      generalize hq : Page.insert _ _ _ = q at hinsert hclosed ⊢
      unfold requestImage
      split
      · rename_i hif; cases hif
      · split
        · exact hclosed
        · rename_i start stop hrange
          obtain ⟨hbelow, hapart⟩ := apart_placeholder h (blank_placeholder e)
            (request s e source r.images.length) hq hrange
          refine ⟨hclosed.inhibit, fun hb => ?_, ?_, .inl rfl⟩
          · have himages := h.inhibit
            rw [hb] at himages
            exact absurd (himages.symm.trans hinhibit) (by decide)
          · exact hclosed.placed.annotate_image (Buffer.tight_of_visibleRange hrange) hbelow _
              hapart

/-! ### Cells and grids -/

theorem imageless_lineSpans {spans : List Span} (h : ∀ a ∈ spans, a.mark.isImage = false)
    (start size : Nat) : ∀ a ∈ Cell.lineSpans spans start size, a.mark.isImage = false := by
  intro a ha
  obtain ⟨a₀, ha₀, rfl⟩ := List.mem_map.1 ha
  exact h a₀ (List.mem_filter.1 ha₀).1

theorem imageless_cellOf (cell : Option NodeId) (width : Nat) (fill : Bool) (styles : StyleStack)
    {c : Buffer} (hc : c.images = []) : (cellOf s cell width fill styles c).Imageless := by
  have hspans : ∀ a ∈ c.finish.2, a.mark.isImage = false := fun a ha => by
    obtain ⟨a₀, ha₀, rfl⟩ := List.mem_map.1 (List.mem_filter.1 ha).1
    by_contra himage
    have : a₀ ∈ c.images := Buffer.mem_images.2 ⟨ha₀, Bool.not_eq_false _ ▸ himage⟩
    rw [hc] at this
    cases this
  refine Cell.forall_mem_ofText (fun l hl => ?_) fun l hl a ha => ?_
  · obtain ⟨row, -, n, rfl⟩ := Cell.eq_of_mem_cutLines hl
    exact imageless_lineSpans hspans n row.size
  · rcases Cell.mem_spans_pad ha with ha | ⟨c, rfl⟩
    · exact hl a ha
    · rfl

/-- While a grid is written behind placeholders, no new ones come in. -/
theorem gridUpkeep_grows (b : Buffer) : GridUpkeep Cell.Imageless b.Grows where
  push t hc := hc.trans (.push hc.placed t)
  line {c cell l} hcell hl hc := by
    have hadd (spans : List Span) (hspans : ∀ a ∈ spans, a.mark.isImage = false) (d : Buffer)
        (hd : b.Grows d) :
        b.Grows (spans.foldl (fun (b : Buffer) (a : Span) => b.add (a.shift c.size)) d) := by
      induction spans generalizing d with
      | nil => exact hd
      | cons a spans ih =>
        obtain ⟨ha, hrest⟩ := List.forall_mem_cons.1 hspans
        exact ih hrest _ (hd.trans (.annotate hd.placed ha _ _))
    exact hadd l.spans (hcell l hl) _ (hc.trans (.push hc.placed l.text))
  blanks {c} width color hc :=
    have hblank := hc.trans (.push hc.placed (spaces width))
    hblank.trans (.annotate hblank.placed rfl _ _)
  colorize start colors hc := hc.trans (.colorize hc.placed start colors)

/-- A grid is written behind everything else, with a newline at its end. -/
theorem page_writeGrid (hr : r.buffer.Placed) (widths : List Nat)
    {rows : List (GridRow × List Cell)} (hrows : ∀ row ∈ rows, ∀ c ∈ row.2, c.Imageless) :
    ∃ c, r.buffer.Grows c ∧ (∀ i ∈ c.images, c.Broken i) ∧
      (writeGrid s widths rows r).page = { r.page with buffer := c } := by
  obtain ⟨c, log, hgrid, hkeeps⟩ := writeGrid_spec s widths rows r
  have hc := hkeeps (gridUpkeep_grows r.buffer) hrows (.refl hr)
  refine ⟨c.push (gridRuler r.layout.indentation widths ++ ['\n']), hc.trans (.push hc.placed _),
    fun i hi => ?_, by rw [hgrid]; rfl⟩
  have hpush : c.push (gridRuler r.layout.indentation widths ++ ['\n']) =
      (c.push (gridRuler r.layout.indentation widths)).push ['\n'] := by
    simp [Buffer.push]
  rw [hpush]
  exact Buffer.broken_push_newline (hc.placed.push _).below hi

theorem framed_writeGrid {widths : List Nat} {rows : List (GridRow × List Cell)}
    (hrows : ∀ row ∈ rows, ∀ c ∈ row.2, c.Imageless) (h : r.page.Framed b) :
    ((writeGrid s widths rows r).onLayout ({ · with kind := .text })).page.Framed b := by
  obtain ⟨c, hc, hbroken, hpage⟩ := page_writeGrid (s := s) (r := r) h.placed widths hrows
  rw [onLayout, onPage, hpage]
  exact (h.grows hc).asText hbroken

/-! ### The descent -/

theorem invariant_framed (s : Scene) : Invariant s Page.Framed fun _ c => c.Imageless where
  layout f hkind hinhibit h :=
    ⟨hinhibit.trans h.inhibit, h.none, h.placed, h.broken.imp hkind.trans id⟩
  ensureNewline h := h.pours (.onBuffer (Buffer.flow_ensureNewline _))
  ensureParagraph h := h.pours (.onBuffer (Buffer.flow_ensureParagraph _))
  openRegion h := h.grows (.openRegion h.placed)
  endRegion mark hmark h :=
    h.grows (.endRegion h.placed (by cases mark <;> first | rfl | cases hmark))
  endColors colors h := h.grows (.endColors h.placed colors)
  insert t h := h.insert _ t
  lineBreak h := framed_lineBreak h
  ruler h := framed_ruler h
  labelled h := framed_labelled h
  image e h := framed_image e h
  cell l width := .empty (l.forCell width)
  cut cell key h := imageless_cellOf cell _ _ _ (h.none rfl)
  grid widths rows hrows h :=
    framed_writeGrid (fun row hrow c hc => (hrows row hrow c hc).elim fun _ hcell => hcell) h

/-- The placeholders of every page that a descent writes are in place. -/
theorem placed_node (levels : Nat) (id : NodeId) (h : r.page.Framed b)
    (hcache : r.cache.Keeps fun _ c => c.Imageless) :
    (node s levels id r).buffer.Placed :=
  ((invariant_framed s).node levels id ⟨h, hcache⟩).page.placed

end Renderer
end MarkupText
