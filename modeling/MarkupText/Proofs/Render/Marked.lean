import MarkupText.Proofs.Buffer.Carries
import MarkupText.Proofs.Buffer.LineRequests
import MarkupText.Proofs.Render.Context
import MarkupText.Proofs.Render.Requests
import MarkupText.Proofs.Render.Standing
import MarkupText.Proofs.Render.Regions

/-!
# Placeholders and requests

Every step of a rule but that of an image leaves the placeholders of a page over the characters that
they stand for (`Buffer.Carries`), and whatever is written visibly behind one starts a new line. So
in every result the placeholders are those of the requests, in order, each over its text and with
nothing visible behind it on its line, and none of them is on a line of a grid
(`marked_renderWith`). Where lines are wrapped, only spaces are written behind a placeholder; in
preformatted text other blanks may be (`blankBehind_tabAfterImage`).
-/

namespace MarkupText

open Text

namespace Renderer
variable {s : Scene} {r r' : Renderer} {i : Option Nat} {j m n : Nat} {a : Span} {t : Text}

/-! ### Grids -/

/-- A grid is written with all placeholders as they were. -/
theorem grows_putGrid (hr : Good Page.Framed (fun _ c => c.Imageless) false r) (levels : Nat)
    (g : Grid) : r.buffer.Grows (putGrid s (node s levels) g r).buffer := by
  have hI := invariant_framed s
  have hdrawn := hI.drawn_negotiate (hI.node levels) g r hr.cache
  unfold putGrid
  generalize negotiate s (node s levels) g r = out at hdrawn
  obtain ⟨widths, rows, q⟩ := out
  have hq : q.buffer = r.buffer := congrArg Page.buffer hdrawn.page
  have hrows : ∀ row ∈ g.rows.zip rows, ∀ c ∈ row.2, c.Imageless := fun row hrow c hc =>
    ((List.forall₂_zip hdrawn.drawn hrow).exists_key hc).elim fun _ h => h
  obtain ⟨c, hc, -, hpage⟩ :=
    page_writeGrid (s := s) (r := q) (hq ▸ hr.page.placed) widths hrows
  have hbuffer : (writeGrid s widths (g.rows.zip rows) q).buffer = c := congrArg Page.buffer hpage
  rw [hq, ← hbuffer] at hc
  exact hc

/-! ### Pages -/

/-- The placeholders of the page are in place, and cells hold none. -/
abbrev InPlace (r : Renderer) : Prop := Good Page.Framed (fun _ c => c.Imageless) false r

theorem upkeep_inPlace (s : Scene) : Upkeep s InPlace := (invariant_framed s).upkeep false

/-- The characters that a page does not make up by itself. -/
def isShown (c : Char) : Bool := decide (Shown c)

theorem shown_of_isShown : ∀ c, isShown c = true → Shown c := fun _ h => of_decide_eq_true h

theorem isShown_of_shown {c : Char} (h : Shown c) : isShown c = true := decide_eq_true h

/-- What must not stand behind the placeholder with the number `j` on its line: no character that is
shown if `j` is `i`, and no visible one otherwise. -/
def barred (i : Option Nat) (j : Nat) : Char → Bool :=
  if i = some j then isShown else (! isBlank ·)

theorem shown_of_barred : ∀ c, barred i j c = true → Shown c := by
  unfold barred
  split
  · exact shown_of_isShown
  · exact shown_of_visible

theorem barred_of_visible {c : Char} (h : isBlank c = false) : barred i j c = true := by
  unfold barred
  split
  · exact isShown_of_shown (shown_of_not_blank h)
  · exact congrArg not h

theorem barred_newline : barred i j '\n' = false :=
  Bool.eq_false_iff.2 fun h => (shown_of_barred _ h).2 rfl

/-- The placeholders of a page are those of its requests. No placeholder stands between the first
`m` and the first `n` characters that are shown, and the one with the number `i` was written where
lines are wrapped. -/
structure Marked (i : Option Nat) (m n : Nat) (r : Renderer) : Prop where
  good : r.InPlace
  marks : r.buffer.images.map (·.mark) = r.images.map .image
  shows : ∀ a ∈ r.buffer.images, ∃ q, a.mark = .image q ∧
    r.buffer.under a = (placeholder q.alt).visible ∧ r.buffer.under a ≠ []
  /-- What is written next in sight starts a new line, or the placeholder has its line behind it. -/
  ends : ∀ j a, r.buffer.images[j]? = some a → r.buffer.Ends (barred i j) a ∨
    r.layout.kind = .image ∧ (i = some j → r.layout.fold = .wrap) ∧
      rank (barred i j) r.buffer.text a.stop = r.buffer.text.countP (barred i j)
  written : ∀ j ∈ i, j < r.buffer.images.length
  count : n ≤ r.buffer.text.countP isShown
  clear : ∀ a ∈ r.buffer.images, rank isShown r.buffer.text a.stop ≤ m ∨
    n ≤ rank isShown r.buffer.text a.start

namespace Marked

theorem carries (h : Marked i m n r) (hgood : r'.InPlace)
    (himages : r'.images = r.images) (hc : r.buffer.Carries r'.buffer)
    (hends : ∀ j a, r'.buffer.images[j]? = some a → r'.buffer.Ends (barred i j) a ∨
      r'.layout.kind = .image ∧ (i = some j → r'.layout.fold = .wrap) ∧
        rank (barred i j) r'.buffer.text a.stop = r'.buffer.text.countP (barred i j)) :
    Marked i m n r' where
  good := hgood
  marks := by rw [hc.marks, h.marks, himages]
  shows a' ha' := by
    obtain ⟨a, ha, hstays⟩ := hc.exists_image ha'
    obtain ⟨q, hmark, hunder⟩ := h.shows a ha
    rw [hstays.under hc.visible]
    exact ⟨q, hstays.mark.trans hmark, hunder⟩
  ends := hends
  written j hj := hc.length_images ▸ h.written j hj
  count := Nat.le_trans h.count (hc.count shown_of_isShown)
  clear a' ha' := by
    obtain ⟨a, ha, hstays⟩ := hc.exists_image ha'
    rw [hstays.rank_start shown_of_isShown, hstays.rank_stop shown_of_isShown]
    exact h.clear a ha

/-- Nothing is written that is barred behind a placeholder. -/
theorem quiet (h : Marked i m n r) (hgood : r'.InPlace)
    (himages : r'.images = r.images) (hc : r.buffer.Carries r'.buffer)
    (hkind : r'.layout.kind = r.layout.kind) (hfold : r'.layout.fold = r.layout.fold)
    (hcount : ∀ j, (i = some j → r.layout.fold = .wrap) →
      r'.buffer.text.countP (barred i j) = r.buffer.text.countP (barred i j)) :
    Marked i m n r' := by
  refine h.carries hgood himages hc fun j a' ha' => ?_
  obtain ⟨a, ha, hstays⟩ := hc.exists_getElem? ha'
  refine (h.ends j a ha).imp (hstays.ends shown_of_barred) fun ⟨himage, hwrap, hrank⟩ =>
    ⟨hkind.trans himage, fun hj => hfold.trans (hwrap hj), ?_⟩
  rw [hcount j hwrap, ← hrank]
  exact hstays.rank_stop shown_of_barred

/-- Only spaces and newlines come and go. -/
theorem quiet_flow (h : Marked i m n r) (hgood : r'.InPlace) (himages : r'.images = r.images)
    (hflow : r.buffer.Flow [] r'.buffer) (hkind : r'.layout.kind = r.layout.kind)
    (hfold : r'.layout.fold = r.layout.fold)
    (hcount : ∀ {p : Char → Bool}, (∀ c, p c = true → Shown c) →
      r'.buffer.text.countP p = r.buffer.text.countP p) : Marked i m n r' :=
  h.quiet hgood himages (.flow h.good.page.placed hflow) hkind hfold
    fun _ _ => hcount shown_of_barred

/-- Text grows by nothing, as where regions are opened and closed. -/
theorem quiet_grows (h : Marked i m n r) (hgood : r'.InPlace) (himages : r'.images = r.images)
    (hgrows : r.buffer.Grows r'.buffer) (hlayout : r'.layout = r.layout)
    (htext : r'.buffer.text = r.buffer.text) : Marked i m n r' :=
  h.quiet hgood himages (.grows h.good.page.placed hgrows) (congrArg Layout.kind hlayout)
    (congrArg Layout.fold hlayout) fun _ _ => by rw [htext]

/-- Something is written, with a newline behind each placeholder before. -/
theorem writes (h : Marked i m n r) (hgood : r'.InPlace)
    (himages : r'.images = r.images) (hc : r.buffer.Carries r'.buffer)
    (hends : ∀ j a, r.buffer.images[j]? = some a → r.buffer.Ends (barred i j) a) :
    Marked i m n r' := by
  refine h.carries hgood himages hc fun j a' ha' => ?_
  obtain ⟨a, ha, hstays⟩ := hc.exists_getElem? ha'
  exact .inl (hstays.ends shown_of_barred (hends j a ha))

theorem ends_of_broken (h : Marked i m n r) (hbroken : ∀ a ∈ r.buffer.images, r.buffer.Broken a)
    (j : Nat) (a : Span) (ha : r.buffer.images[j]? = some a) : r.buffer.Ends (barred i j) a := by
  rcases h.ends j a ha with hends | ⟨-, -, hrank⟩
  · exact hends
  · obtain ⟨k, hk, hle⟩ := hbroken a (List.mem_of_getElem? ha)
    refine ⟨k, hk, hle, Nat.le_antisymm ?_ (rank_mono _ _ hle)⟩
    rw [hrank]
    exact rank_le_countP ..

theorem ensureNewline (s : Scene) (h : Marked i m n r) :
    Marked i m n (r.onBuffer (·.ensureNewline)) :=
  h.quiet_flow ((upkeep_inPlace s).ensureNewline h.good) rfl (Buffer.flow_ensureNewline _) rfl rfl
    (Buffer.Reended.ensureNewline r.buffer).countP_eq

theorem ensureParagraph (s : Scene) (h : Marked i m n r) :
    Marked i m n (r.onBuffer (·.ensureParagraph)) :=
  h.quiet_flow ((upkeep_inPlace s).ensureParagraph h.good) rfl (Buffer.flow_ensureParagraph _) rfl
    rfl (Buffer.Reended.ensureParagraph r.buffer).countP_eq

theorem newline (h : Marked i m n r) : Marked i m n (r.onBuffer (·.newline)) :=
  h.quiet_flow (h.good.of_cache rfl (h.good.page.pours (.onBuffer r.buffer.flow_newline))) rfl
    r.buffer.flow_newline rfl rfl (Buffer.Reended.trimmed (Nat.le_refl 1) r.buffer).countP_eq

theorem ends_ensureNewline (s : Scene) (h : Marked i m n r) (j : Nat) (a : Span) :
    r.buffer.ensureNewline.images[j]? = some a → r.buffer.ensureNewline.Ends (barred i j) a :=
  (h.ensureNewline s).ends_of_broken
    (fun _ ha => Buffer.broken_ensureNewline h.good.page.placed ha) j a

theorem openRegion (s : Scene) (h : Marked i m n r) : Marked i m n (r.onBuffer (·.openRegion)) :=
  h.quiet_grows ((upkeep_inPlace s).openRegion h.good) rfl (.openRegion h.good.page.placed) rfl rfl

theorem refold (s : Scene) (fold : FoldMode) (h : Marked i m n r) :
    Marked i m n ((r.onBuffer (·.ensureParagraph)).onLayout ({ · with fold })) :=
  (h.ensureParagraph s).writes ((upkeep_inPlace s).refold fold h.good) rfl (.refl _)
    ((h.ensureParagraph s).ends_of_broken fun _ ha =>
      Buffer.broken_ensureParagraph h.good.page.placed ha)

/-! ### Texts -/

/-- Where lines are wrapped, blank text leaves at most a space. -/
theorem countP_insert_blank (rules : LineBreak.Rules) {p : Page} (hfold : p.layout.fold = .wrap)
    (ht : t.blank = true) {f : Char → Bool} (hf : ∀ c, f c = true → Shown c) :
    (p.insert rules t).buffer.text.countP f = p.buffer.text.countP f := by
  have hspace : p.space.buffer.text.countP f = p.buffer.text.countP f := by
    unfold Page.space
    split
    · rfl
    · have hnot : f ' ' = false := Bool.eq_false_iff.2 fun h => (hf _ h).1 rfl
      change (p.buffer.text ++ [' ']).countP f = _
      rw [List.countP_append, List.countP_singleton, hnot]
      rfl
  have hwrapped : (p.insertWrapped rules t).buffer.text.countP f = p.buffer.text.countP f := by
    unfold Page.insertWrapped
    rw [Page.words_eq_nil_iff.2 ht]
    dsimp only [Page.placeWords]
    split
    · exact hspace
    · rfl
  unfold Page.insert
  split
  · rfl
  · simp only [ht, Bool.not_true, Bool.and_false, Bool.false_and, Bool.false_eq_true, if_false, hfold]
    exact hwrapped

theorem insertText (s : Scene) (t : Text) (h : Marked i m n r) :
    Marked i m n (r.insertText s t) := by
  have hgood : (r.insertText s t).InPlace := (upkeep_inPlace s).insertText t h.good
  have hlayout := Page.layout_insert s.options.rules r.page t
  by_cases ht : t.blank = true
  · have hflow := Page.flow_insert s.options.rules r.page t
    have hvisible : t.visible = [] := visible_eq_nil_iff.2 fun c hc => List.all_eq_true.1 ht c hc
    rw [hvisible] at hflow
    rw [if_pos ht] at hlayout
    refine h.quiet hgood rfl (.flow h.good.page.placed hflow) (congrArg Layout.kind hlayout)
      (congrArg Layout.fold hlayout) fun j hwrap => ?_
    by_cases hj : i = some j
    · exact countP_insert_blank s.options.rules (hwrap hj) ht shown_of_barred
    · have hsame : (r.insertText s t).buffer.text.visible = r.buffer.text.visible := hflow.visible_eq
      rw [barred, if_neg hj, ← length_visible, ← length_visible, hsame]
  · have ht : t.blank = false := Bool.eq_false_iff.2 ht
    let fresh : Renderer := r.onPage (·.freshFor t)
    have hpours := Page.pours_freshFor t r.page
    have hfresh : Marked i m n fresh := by
      change Marked i m n { r with page := r.page.freshFor t }
      unfold Page.freshFor
      split
      · exact h.newline
      · exact h
    obtain ⟨q, hq, heq⟩ := Page.insert_eq s.options.rules r.page t
    have hflow : Buffer.Flow t.visible fresh.buffer (r.insertText s t).buffer := by
      rw [show (r.insertText s t).buffer = _ from congrArg Page.buffer heq,
        if_neg (Bool.eq_false_iff.1 ht)]
      exact hq.flow
    exact hfresh.writes hgood rfl (.flow hfresh.good.page.placed hflow)
      (hfresh.ends_of_broken (h.good.page.broken_freshFor ht))

theorem ends_insertText (s : Scene) {t : Text} (ht : t.blank = false) (h : Marked i m n r) (j : Nat)
    (a : Span) (ha : (r.insertText s t).buffer.images[j]? = some a) :
    (r.insertText s t).buffer.Ends (barred i j) a := by
  have hlayout := Page.layout_insert s.options.rules r.page t
  rw [if_neg (Bool.eq_false_iff.1 ht)] at hlayout
  rcases (h.insertText s t).ends j a ha with hends | ⟨hkind, -⟩
  · exact hends
  · rw [show (r.insertText s t).layout = _ from hlayout] at hkind
    cases hkind

theorem lineBreak (s : Scene) (h : Marked i m n r) : Marked i m n (Renderer.lineBreak r) :=
  h.newline.writes ((upkeep_inPlace s).lineBreak h.good) rfl (.refl _)
    (h.newline.ends_of_broken fun _ ha => Buffer.broken_newline h.good.page.placed ha)

theorem ruler (s : Scene) (h : Marked i m n r) : Marked i m n (Renderer.ruler r) := by
  have hgood : (Renderer.ruler r).InPlace := (upkeep_inPlace s).ruler h.good
  have hline := h.ensureNewline s
  refine hline.writes hgood rfl ?_ (h.ends_ensureNewline s)
  rw [ruler_eq]
  let c := r.buffer.ensureNewline.push (spaces r.layout.indentation)
  let d := c.push (List.replicate (max (r.layout.width - r.layout.indentation) 1) '-')
  have hc : r.buffer.ensureNewline.Grows c := .push hline.good.page.placed _
  have hd : r.buffer.ensureNewline.Grows d := hc.trans (.push hc.placed _)
  have hmark := hd.trans (.annotate hd.placed (rfl : Mark.ruler.isImage = false) c.size d.size)
  exact (Buffer.Carries.grows hline.good.page.placed hmark).trans
    (.flow hmark.placed (Buffer.flow_newline _))

theorem labelled (s : Scene) (h : Marked i m n r) : Marked i m n (Renderer.labelled r) := by
  have hgood : (Renderer.labelled r).InPlace := (upkeep_inPlace s).labelled h.good
  have hline := h.ensureNewline s
  have hflow := (Page.pours_indent (r.page.onBuffer (·.ensureNewline))).flow
  have hplaced := hline.good.page.placed.flow hflow
  refine hline.writes hgood rfl ?_ (h.ends_ensureNewline s)
  exact (Buffer.Carries.flow hline.good.page.placed hflow).trans (.append hplaced rfl rfl)

theorem grid (s : Scene) (levels : Nat) (g : Grid) (h : Marked i m n r) :
    Marked i m n (putGrid s (node s levels) g (r.onBuffer (·.ensureNewline))) := by
  have hgood := (upkeep_inPlace s).grid levels g h.good
  have hline := h.ensureNewline s
  refine hline.writes hgood ?_ ?_ (h.ends_ensureNewline s)
  · exact congrArg Prod.fst (frame_putGrid g _).2
  · exact .grows hline.good.page.placed (grows_putGrid hline.good levels g)

/-! ### Images -/

theorem length_images (h : Marked i m n r) : r.buffer.images.length = r.images.length := by
  simpa using congrArg List.length h.marks

/-- A placeholder is marked behind everything that is shown. It may be the one with the number `i'`
if lines are wrapped. -/
theorem marksLast (h : Marked i m n r) (hgood : r'.InPlace)
    (hends : ∀ j a, r.buffer.images[j]? = some a → r.buffer.Ends (barred i j) a)
    {q : ImageRequest} (hmark : a.mark = .image q) (htext : r'.buffer.text = r.buffer.text)
    (himages : r'.buffer.images = r.buffer.images ++ [a])
    (hrequests : r'.images = r.images ++ [q]) (hkind : r'.layout.kind = .image)
    (hunder : r.buffer.under a = (placeholder q.alt).visible ∧ r.buffer.under a ≠ [])
    (hstop : ∀ {p : Char → Bool}, (∀ c, p c = true → Shown c) →
      rank p r.buffer.text a.stop = r.buffer.text.countP p)
    (hclear : n ≤ rank isShown r.buffer.text a.start) {i' : Option Nat}
    (hi' : i' = i ∨ i = none ∧ i' = some r.images.length ∧ r'.layout.fold = .wrap) :
    Marked i' m n r' := by
  rw [← h.length_images] at hi'
  have hcases {j : Nat} {a' : Span} (ha' : r'.buffer.images[j]? = some a') :
      j < r.buffer.images.length ∧ r.buffer.images[j]? = some a' ∨
        j = r.buffer.images.length ∧ a' = a := by
    rw [himages, List.getElem?_append] at ha'
    split at ha'
    · exact .inl ⟨‹_›, ha'⟩
    · rw [List.getElem?_singleton] at ha'
      split at ha'
      · exact .inr ⟨by omega, (Option.some.inj ha').symm⟩
      · cases ha'
  have hmem {a' : Span} (ha' : a' ∈ r'.buffer.images) : a' ∈ r.buffer.images ∨ a' = a := by
    rw [himages] at ha'
    exact (List.mem_append.1 ha').imp id List.mem_singleton.1
  refine ⟨hgood, ?_, fun a' ha' => ?_, fun j a' ha' => ?_, fun j hj => ?_, ?_, fun a' ha' => ?_⟩
  · rw [himages, List.map_append, h.marks, hrequests, List.map_append, List.map_singleton, hmark,
      List.map_singleton]
  · have heq : r'.buffer.under a' = r.buffer.under a' := by
      rw [Buffer.under, htext, Buffer.under]
    rw [heq]
    rcases hmem ha' with ha' | rfl
    · exact h.shows a' ha'
    · exact ⟨q, hmark, hunder⟩
  · rw [Buffer.Ends, htext]
    rcases hcases ha' with ⟨hlt, ha'⟩ | ⟨rfl, rfl⟩
    · -- what is barred behind earlier placeholders is the same as before
      have hbarred : barred i' j = barred i j := by
        rcases hi' with rfl | ⟨rfl, rfl, -⟩
        · rfl
        · unfold barred
          rw [if_neg (by simp; omega), if_neg (by simp)]
      exact .inl (hbarred ▸ hends j a' ha')
    · refine .inr ⟨hkind, fun hj => ?_, hstop shown_of_barred⟩
      rcases hi' with rfl | ⟨-, -, hfold⟩
      · exact absurd (h.written _ hj) (Nat.lt_irrefl _)
      · exact hfold
  · rw [himages, List.length_append, List.length_singleton]
    rcases hi' with rfl | ⟨-, rfl, -⟩
    · exact Nat.lt_succ_of_lt (h.written j hj)
    · obtain rfl := Option.mem_some_iff.1 hj
      exact Nat.lt_succ_self _
  · rw [htext]
    exact h.count
  · rw [htext]
    rcases hmem ha' with ha' | rfl
    · exact h.clear a' ha'
    · exact .inr hclear

/-- The placeholder of an image is marked over what was written for it, behind everything else. -/
theorem image_of_fetchable (s : Scene) {e : Element} {source : Text}
    (hsource : fetchableSource? s e = some source) (h : Marked i m n r) {i' : Option Nat}
    (hi' : i' = i ∨ i = none ∧ i' = some r.images.length ∧ r.layout.fold = .wrap) :
    Marked i' m n (image s e r) := by
  have hgood : (image s e r).InPlace := (upkeep_inPlace s).image e h.good
  let w := (r.onBuffer (·.openRegion)).insertText s (placeholder (altText e))
  have hwritten : Marked i m n w := (h.openRegion s).insertText s _
  have hends := (h.openRegion s).ends_insertText s (blank_placeholder e)
  have hrun : Buffer.Run RangeRule.tight _ r.buffer.openRegion w.buffer :=
    (Page.flow_insert s.options.rules (r.page.onBuffer (·.openRegion)) _).run
  have hvisible : w.buffer.text.visible = r.buffer.text.visible ++ _ := hrun.visible
  obtain ⟨start, stop, hrange, hstart, hstop, hrank, heq⟩ :=
    image_fetched hsource h.good.page.inhibit
  change w.buffer.text.seen start = _ at hstart
  change w.buffer.text.seen stop = _ at hstop
  change w.buffer.closeRegion.2.visibleRange _ _ = _ at hrange
  rw [heq] at hgood ⊢
  set q := request s e source r.images.length
  have hunder : w.buffer.under ⟨start, stop, .image q⟩ = (placeholder (altText e)).visible := by
    rw [Buffer.under, hvisible, hstart, hstop, ← List.length_append, List.take_length,
      List.drop_left]
  refine hwritten.marksLast hgood hends rfl ?_ ?_ rfl rfl
    ⟨hunder, hunder ▸ visible_placeholder_ne_nil e⟩ (fun hp => (hrank hp).2) ?_ hi'
  · exact (Buffer.text_annotate ..).trans (Buffer.text_closeRegion _)
  · refine (Buffer.images_annotate_image hrange q).trans ?_
    rw [Buffer.images, Buffer.spans_closeRegion]
    rfl
  · exact Nat.le_trans h.count (hrank shown_of_isShown).1

end Marked

theorem upkeep_marked (s : Scene) (i : Option Nat) (m n : Nat) : Upkeep s (Marked i m n) where
  aside {r r'} h hpage himages hcache := by
    have hbuffer : r'.buffer = r.buffer := congrArg Page.buffer hpage
    have hlayout : r'.layout = r.layout := congrArg Page.layout hpage
    exact h.quiet (h.good.of_page hcache hpage) himages (hbuffer ▸ .refl _)
      (congrArg Layout.kind hlayout) (congrArg Layout.fold hlayout) fun _ _ => by rw [hbuffer]
  layout f hkind hinhibit hfold h :=
    h.quiet ((upkeep_inPlace s).layout f hkind hinhibit hfold h.good) rfl (.refl _) hkind hfold
      fun _ _ => rfl
  refold fold h := h.refold s fold
  ensureNewline h := h.ensureNewline s
  ensureParagraph h := h.ensureParagraph s
  openRegion h := h.openRegion s
  endRegion mark hmark h := h.quiet_grows ((upkeep_inPlace s).endRegion mark hmark h.good) rfl
    (.endRegion h.good.page.placed (by cases mark <;> first | rfl | cases hmark)) rfl
    (Buffer.text_endRegion ..)
  endColors colors h := h.quiet_grows ((upkeep_inPlace s).endColors colors h.good) rfl
    (.endColors h.good.page.placed colors) rfl (Buffer.text_endColors ..)
  insertText t h := h.insertText s t
  lineBreak h := h.lineBreak s
  ruler h := h.ruler s
  labelled h := h.labelled s
  image {r} e h := by
    cases hsource : fetchableSource? s e with
    | none =>
      rw [image_eq, hsource]
      exact h.insertText s _
    | some source => exact h.image_of_fetchable s hsource (.inl rfl)
  grid levels g h := h.grid s levels g

end Renderer

/-! ### The result -/

/-- What stands on a line behind a text has no character with `p`, if the next newline has the rank
of the end of the text. -/
theorem Text.exists_line_of_rank {p : Char → Bool} {l u : Text} {k : Nat} (hp : p '\n' = false)
    (hk : At (l ++ u) k '\n') (hle : l.size ≤ k)
    (hrank : rank p (l ++ u) k = rank p (l ++ u) l.size) :
    ∃ x y, u = x ++ '\n' :: y ∧ (∀ c ∈ x, p c = false) ∧ '\n' ∉ x := by
  have hat : At u (k - l.size) '\n' := by
    rcases hk.append_cases with h | ⟨q, rfl, h⟩
    · have := h.lt_size
      omega
    · rwa [Nat.add_sub_cancel_left]
  obtain ⟨v, w, rfl, hv⟩ := hat
  have hsize : k = (l ++ v : Text).size := by
    rw [size_append]
    omega
  have hnone : ∀ c ∈ v, p c = false := by
    rw [rank_size, hsize, ← List.append_assoc, rank_size, List.countP_append] at hrank
    have hzero : v.countP p = 0 := by omega
    exact fun c hc => Bool.eq_false_iff.2 (List.countP_eq_zero.1 hzero c hc)
  obtain ⟨x, y, hxy, hx⟩ := List.eq_append_cons_of_mem (show '\n' ∈ v ++ ['\n'] by simp)
  refine ⟨x, y ++ w, ?_, fun c hc => ?_, hx⟩
  · rw [List.append_cons, hxy]
    simp
  · have hmem : c ∈ v ++ ['\n'] := hxy ▸ List.mem_append_left _ hc
    rcases List.mem_append.1 hmem with hc | hc
    · exact hnone c hc
    · rw [List.mem_singleton.1 hc, hp]

/-- A span with what reaches behind the byte `n` cut off. -/
def Span.cut (n : Nat) (a : Span) : Span := { a with stop := min a.stop n }

/-- The placeholders of images. -/
def Rendered.placeholders (r : Rendered) : List Span := r.spans.filter (·.mark.isImage)

theorem Rendered.visible_textOf {r : Rendered} {a : Span}
    (h : RangeRule.within r.text a.start a.stop) (hle : a.start ≤ a.stop) :
    visible (r.textOf a) =
      ((visible r.text).take (r.text.seen a.stop)).drop (r.text.seen a.start) := by
  obtain ⟨u, htext, -, -⟩ := text_eq_of_within h hle
  obtain ⟨hstart, hstop⟩ := seen_of_within h hle
  rw [hstart, hstop]
  conv_rhs => rw [htext, visible_append, visible_append, ← List.length_append, List.take_left,
    List.drop_left]

namespace Renderer.Marked
variable {r : Renderer} {i : Option Nat} {j m n : Nat} {a : Span} (h : Marked i m n r)
  (ha : a ∈ r.buffer.images)
include h

section Image
include ha

theorem seen_lt : r.buffer.text.seen a.start < r.buffer.text.seen a.stop := by
  obtain ⟨q, -, -, hne⟩ := h.shows a ha
  by_contra hle
  refine hne (List.drop_eq_nil_of_le ?_)
  rw [List.length_take]
  omega

theorem start_lt_cut : a.start < (a.cut r.buffer.finish.1.size).stop := by
  have hlt := h.seen_lt ha
  rw [← Buffer.seen_finish, ← seen_min_size _ a.stop] at hlt
  by_contra hle
  exact absurd (seen_mono _ (Nat.le_of_not_lt hle)) (Nat.not_le_of_lt hlt)

theorem start_lt_size : a.start < r.buffer.finish.1.size :=
  Nat.lt_of_lt_of_le (h.start_lt_cut ha) (Nat.min_le_right ..)

theorem text_finish : r.finish.text = r.buffer.finish.1 ++ ['\n'] := by
  refine text_finish_of_ne_nil fun hnil => ?_
  have hpos := h.start_lt_size ha
  rw [hnil] at hpos
  cases hpos

theorem at_finish {k : Nat} {c : Char} (hk : At r.buffer.text k c)
    (hlt : k < r.buffer.finish.1.size) : At r.finish.text k c := by
  obtain ⟨u, hu, -⟩ := dropEndWhile_append isBlank r.buffer.text
  rw [hu] at hk
  rw [h.text_finish ha]
  exact (hk.of_append hlt).append_right _

theorem tight_cut : RangeRule.tight r.finish.text a.start (a.cut r.buffer.finish.1.size).stop := by
  obtain ⟨u, hu, -⟩ := dropEndWhile_append isBlank r.buffer.text
  have htight : RangeRule.tight r.buffer.text a.start a.stop := h.good.page.placed.tight a ha
  rw [hu] at htight
  rw [h.text_finish ha]
  exact RangeRule.stable_tight.append _ (RangeRule.stable_tight.trim
    (fun _ => Buffer.not_isBlank_finish) htight (h.start_lt_size ha))

/-- What the finished text adds and takes away at the end does not count in front of it. -/
theorem rank_finish {p : Char → Bool} {k : Nat} (hk : k ≤ r.buffer.finish.1.size) :
    rank p r.finish.text k = rank p r.buffer.text k := by
  obtain ⟨u, hu, -⟩ := dropEndWhile_append isBlank r.buffer.text
  rw [h.text_finish ha, rank_append_right hk]
  conv_rhs => rw [hu]
  exact (rank_append_right hk u).symm

omit h ha in
theorem seen_cut (r : Renderer) (a : Span) :
    r.finish.text.seen (a.cut r.buffer.finish.1.size).stop = r.buffer.text.seen a.stop := by
  rw [seen_finish, ← Buffer.seen_finish]
  exact seen_min_size ..

/-- A newline ends the line of a placeholder in the finished text: its own one, or the last one of
the text if what is behind the placeholder was cut off. -/
theorem exists_newline (hj : r.buffer.images[j]? = some a) :
    ∃ k, At r.finish.text k '\n' ∧ (a.cut r.buffer.finish.1.size).stop ≤ k ∧
      rank (barred i j) r.finish.text k =
        rank (barred i j) r.finish.text (a.cut r.buffer.finish.1.size).stop := by
  have hcut : (a.cut r.buffer.finish.1.size).stop ≤ r.buffer.finish.1.size := Nat.min_le_right ..
  have hlast (hle : rank (barred i j) r.buffer.text r.buffer.finish.1.size ≤
      rank (barred i j) r.buffer.text a.stop) :
      ∃ k, At r.finish.text k '\n' ∧ (a.cut r.buffer.finish.1.size).stop ≤ k ∧
        rank (barred i j) r.finish.text k =
          rank (barred i j) r.finish.text (a.cut r.buffer.finish.1.size).stop := by
    refine ⟨_, ⟨r.buffer.finish.1, [], h.text_finish ha, rfl⟩, hcut, ?_⟩
    rw [h.rank_finish ha (Nat.le_refl _), h.rank_finish ha hcut]
    rcases Nat.le_total a.stop r.buffer.finish.1.size with hstop | hstop
    · rw [show (a.cut r.buffer.finish.1.size).stop = a.stop from Nat.min_eq_left hstop]
      exact Nat.le_antisymm hle (rank_mono _ _ hstop)
    · rw [show (a.cut r.buffer.finish.1.size).stop = _ from Nat.min_eq_right hstop]
  rcases h.ends j a hj with ⟨k, hk, hle, hrank⟩ | ⟨-, -, hrank⟩
  · by_cases hlt : k < r.buffer.finish.1.size
    · have hstop : (a.cut r.buffer.finish.1.size).stop = a.stop := Nat.min_eq_left (by omega)
      refine ⟨k, h.at_finish ha hk hlt, Nat.le_trans (Nat.min_le_left ..) hle, ?_⟩
      rw [h.rank_finish ha (Nat.le_of_lt hlt), h.rank_finish ha hcut, hstop, hrank]
    · exact hlast (hrank ▸ rank_mono _ _ (Nat.le_of_not_lt hlt))
  · exact hlast (hrank ▸ rank_le_countP ..)

end Image

theorem placeholders_finish :
    r.finish.placeholders = r.buffer.images.map (·.cut r.buffer.finish.1.size) := by
  change ((r.buffer.spans.map (Span.cut _)).filter fun a => a.start < a.stop).filter _ = _
  rw [List.filter_comm, List.filter_map]
  refine List.filter_eq_self.2 fun a' ha' => ?_
  obtain ⟨a, ha, rfl⟩ := List.mem_map.1 ha'
  exact decide_eq_true (h.start_lt_cut ha)

theorem apart_finish : r.finish.placeholders.Pairwise (Buffer.Apart r.finish.text) := by
  rw [h.placeholders_finish, List.pairwise_map]
  refine h.good.page.placed.apart.imp_of_mem fun {p q} hp hq ⟨k, hk, hpk, hkq⟩ => ?_
  have hlt : k < r.buffer.finish.1.size := Nat.lt_trans hkq (h.start_lt_size hq)
  exact ⟨k, h.at_finish hp hk hlt, Nat.le_trans (Nat.min_le_left ..) hpk, hkq⟩

/-- A placeholder that is not between two characters that are shown is not between the places in the
finished text where they stand. -/
theorem clear_finish {upper v lower : Text} (hm : m = upper.countP isShown)
    (hn : n = (upper ++ v).countP isShown) (htext : r.finish.text = upper ++ v ++ lower) :
    ∀ a ∈ r.finish.placeholders, a.stop ≤ upper.size ∨ (upper ++ v : Text).size ≤ a.start := by
  rw [h.placeholders_finish]
  intro a' ha'
  obtain ⟨a, ha, rfl⟩ := List.mem_map.1 ha'
  obtain ⟨⟨c, hc, hshown⟩, ⟨k, d, hd, hshown', hstop⟩⟩ := h.tight_cut ha
  rcases h.clear a ha with hle | hle
  · left
    have hlast : rank isShown r.finish.text (a.cut r.buffer.finish.1.size).stop ≤
        rank isShown r.finish.text upper.size := by
      refine Nat.le_trans (Nat.le_of_eq (h.rank_finish ha (Nat.min_le_right ..))) ?_
      refine Nat.le_trans (rank_mono _ _ (Nat.min_le_left ..)) (Nat.le_trans hle ?_)
      rw [hm, htext, List.append_assoc, rank_size]
    have hlt : k < upper.size := by
      by_contra hnot
      have hmono := rank_mono isShown r.finish.text (Nat.le_of_not_lt hnot)
      have hstrict := rank_lt_rank hd (isShown_of_shown hshown')
        (Nat.lt_add_of_pos_right d.utf8Size_pos)
      rw [hstop] at hstrict
      omega
    rw [← hstop]
    exact hd.end_le ⟨upper, v ++ lower, by rw [htext, List.append_assoc], rfl⟩ hlt
  · right
    refine (le_iff_rank_le hc (isShown_of_shown hshown)).2 ?_
    rw [h.rank_finish ha (Nat.le_of_lt (h.start_lt_size ha))]
    refine Nat.le_trans ?_ hle
    rw [hn, htext, rank_size]

end Renderer.Marked

/-- The placeholders of a result are those of its requests, in order. -/
structure Rendered.Requested (out : Rendered) : Prop where
  tokens : ∀ i q, out.images[i]? = some q → q.token = min i (Renderer.numberBound - 1)
  marks : out.placeholders.map (·.mark) = out.images.map .image
  /-- Each one is over its text, with nothing but blanks behind it on its line. -/
  shows : ∀ a ∈ out.placeholders, ∃ q x y, a.mark = .image q ∧
    out.text = out.before a ++ out.textOf a ++ (x ++ '\n' :: y) ∧
    out.textOf a ≠ [] ∧ visible (out.textOf a) = visible (Renderer.placeholder q.alt) ∧
    visible x = [] ∧ '\n' ∉ x
  apart : out.placeholders.Pairwise (Buffer.Apart out.text)

/-- The lines stand in the result one after the other, the first of them behind `lead`, and no
placeholder is on them. -/
def Rendered.Clears (out : Rendered) (lead : Text) (ls : List Text) : Prop :=
  (∀ l ∈ lead :: ls, '\n' ∉ l) ∧ ∃ upper lower, upper.Finished ∧
    out.text = upper ++ (lead ++ ended ls) ++ lower ∧ ∀ a ∈ out.placeholders,
      a.stop ≤ upper.size ∨ (upper ++ (lead ++ ended ls) : Text).size ≤ a.start

namespace Renderer
variable {s : Scene} {r : Renderer} {i : Option Nat} {j m n : Nat} {a : Span}

/-- A placeholder of the result is over its text, and nothing that is barred is behind it on its
line. -/
theorem Marked.shows_finish (h : Marked i m n r) (ha : r.finish.placeholders[j]? = some a) :
    ∃ q x y, a.mark = .image q ∧
      r.finish.text = r.finish.before a ++ r.finish.textOf a ++ (x ++ '\n' :: y) ∧
      r.finish.textOf a ≠ [] ∧ visible (r.finish.textOf a) = visible (placeholder q.alt) ∧
      (∀ c ∈ x, barred i j c = false) ∧ '\n' ∉ x := by
  rw [h.placeholders_finish, List.getElem?_map] at ha
  obtain ⟨b, hj, rfl⟩ := Option.map_eq_some_iff.1 ha
  have hb : b ∈ r.buffer.images := List.mem_of_getElem? hj
  set a := b.cut r.buffer.finish.1.size
  have hwithin : RangeRule.within r.finish.text a.start a.stop :=
    RangeRule.within_of_tight (h.tight_cut hb)
  have hle : a.start ≤ a.stop := Nat.le_of_lt (h.start_lt_cut hb)
  have hstart : r.finish.text.seen a.start = r.buffer.text.seen b.start := by
    rw [seen_finish, Buffer.seen_finish]
    rfl
  have hshown : visible (r.finish.textOf a) = r.buffer.under b := by
    rw [Rendered.visible_textOf hwithin hle, hstart, seen_cut, visible_finish]
    rfl
  obtain ⟨q, hmark, hunder, hne⟩ := h.shows b hb
  obtain ⟨u, htext, -, hsize⟩ := Rendered.text_eq_of_within hwithin hle
  obtain ⟨k, hk, hlek, hrank⟩ := h.exists_newline hb hj
  change a.stop ≤ k at hlek
  change _ = rank _ r.finish.text a.stop at hrank
  rw [← hsize] at hlek hrank
  rw [htext] at hk hrank
  obtain ⟨x, y, rfl, hx, hline⟩ := exists_line_of_rank barred_newline hk hlek hrank
  refine ⟨q, x, y, hmark, htext, fun hnil => ?_, hshown.trans hunder, hx, hline⟩
  rw [hnil] at hshown
  exact hne hshown.symm

/-- Behind the placeholder that was written where lines are wrapped, only spaces are left on its
line. -/
theorem Marked.spaces_finish (h : Marked (some j) m n r)
    (ha : r.finish.placeholders[j]? = some a) : ∃ k u,
      r.finish.text = r.finish.before a ++ r.finish.textOf a ++ (spaces k ++ '\n' :: u) := by
  obtain ⟨q, x, y, -, htext, -, -, hx, hline⟩ := h.shows_finish ha
  have hspaces : x = spaces x.length := List.eq_replicate_of_mem fun c hc => by
    have hnot : ¬ Shown c := fun hshown => by
      have hbarred : barred (some j) j c = true := by
        rw [barred, if_pos rfl]
        exact isShown_of_shown hshown
      rw [hx c hc] at hbarred
      cases hbarred
    by_contra hne
    exact hnot ⟨hne, fun heq => hline (heq ▸ hc)⟩
  exact ⟨x.length, y, hspaces ▸ htext⟩

theorem tokens_of_asks (h : Asks s r) : ∀ i q, r.finish.images[i]? = some q →
    q.token = min i (numberBound - 1) := by
  intro i q hq
  change r.images[i]? = some q at hq
  rw [h.images, requests, List.getElem?_map, List.getElem?_zipIdx, Nat.zero_add] at hq
  obtain ⟨⟨⟨e, source⟩, j⟩, hj, rfl⟩ := Option.map_eq_some_iff.1 hq
  obtain ⟨found, -, heq⟩ := Option.map_eq_some_iff.1 hj
  obtain ⟨-, rfl⟩ := Prod.mk.inj heq
  rfl

theorem Marked.requested (h : Marked i m n r) (hasks : Asks s r) : r.finish.Requested := by
  refine ⟨tokens_of_asks hasks, ?_, fun a ha => ?_, h.apart_finish⟩
  · rw [h.placeholders_finish, List.map_map]
    exact h.marks
  · obtain ⟨j, hj⟩ := List.mem_iff_getElem?.1 ha
    obtain ⟨q, x, y, hmark, htext, hne, hshown, hx, hline⟩ := h.shows_finish hj
    refine ⟨q, x, y, hmark, htext, hne, hshown, visible_eq_nil_iff.2 fun c hc => ?_, hline⟩
    by_contra hblank
    have hbarred := hx c hc
    rw [barred_of_visible (Bool.eq_false_iff.2 hblank)] at hbarred
    cases hbarred

theorem marked_start (s : Scene) (cache : CellCache) : Marked none 0 0 (start s cache.clear) where
  good := ⟨.empty (start s cache.clear).layout, fun _ he => by cases he⟩
  marks := rfl
  shows _ ha := by cases ha
  ends _ _ ha := by cases ha
  written _ hj := by cases hj
  count := Nat.zero_le _
  clear _ ha := by cases ha

end Renderer

open Renderer

namespace Visit
variable {s : Scene} {v : Visit} {e : Element} {upper lead grid : Text}

/-- A table writes its grid behind all placeholders. -/
theorem marked_closed (h : Marked none 0 0 (v.filled s (.element e))) (htag : e.tag = .table)
    (htext : (v.filled s (.element e)).buffer.ensureNewline.text = upper ++ lead)
    (hlead : '\n' ∉ lead) (hclosed : (v.closed s (.element e)).buffer.text = upper ++ grid) :
    Marked none (upper.countP isShown) ((upper ++ grid).countP isShown) (v.closed s (.element e)) := by
  have hmarked : Marked none 0 0 (v.closed s (.element e)) := keep_closed (upkeep_marked s none 0 0) h
  have hline := h.ensureNewline s
  refine ⟨hmarked.good, hmarked.marks, hmarked.shows, hmarked.ends, hmarked.written, ?_,
    fun a ha => .inl ?_⟩
  · rw [hclosed]
  · have hgrows := grows_putGrid (s := s) hline.good (v.levels - 1) (Grid.collect s.tree v.id).1
    rw [closed_table htag] at ha
    change a ∈ (putGrid s (node s (v.levels - 1)) _ _).buffer.images at ha
    rw [hgrows.images] at ha
    obtain ⟨k, hk, hle⟩ := Buffer.broken_ensureNewline h.good.page.placed ha
    have hk : At (upper ++ lead) k '\n' := htext ▸ hk
    have hlt : k < upper.size := by
      rcases hk.append_cases with hk | ⟨q, -, hk⟩
      · exact hk.lt_size
      · exact absurd hk.mem hlead
    rw [hclosed]
    refine Nat.le_trans (rank_mono _ _ (Nat.le_of_lt (Nat.lt_of_le_of_lt hle hlt))) ?_
    rw [rank_size]

theorem clears {u : Visit} (huv : Reaches s u v) (h : v.Enters s (.element e))
    (htag : e.tag = .table) (hcache : u.start.cache.Keeps Cell.CutFor) (hu : Marked none 0 0 u.start) :
    ∃ lead, (v.filled s (.element e)).buffer.Leads lead ∧ (u.result s).finish.Clears lead
      (gridLines v.start.layout.indentation (v.grid s e).1 (v.grid s e).2) := by
  obtain ⟨upper, lead, htext, hupper, hlead, hline, hls, hclosed⟩ :=
    exists_closed_grid huv htag hcache
  set grid := lead ++
    ended (gridLines v.start.layout.indentation (v.grid s e).1 (v.grid s e).2)
  have hK := upkeep_marked s none 0 0
  have hfilled : Marked none 0 0 (v.filled s (.element e)) := keep_filled hK (huv.keep hK hu) _
  have hmarked := marked_closed hfilled htag htext hline hclosed
  have hlater := upkeep_marked s none (upper.countP isShown) ((upper ++ grid).countP isShown)
  have hresult := huv.later hlater (keep_result hlater h hmarked)
  have hprefix : upper ++ grid <+: (u.result s).finish.text := by
    rw [← hclosed]
    exact prefix_closed_grid huv h htag hcache text_finish_of_ne_nil
  obtain ⟨lower, hlower⟩ := hprefix
  exact ⟨lead, hlead, List.forall_mem_cons.2 ⟨hline, hls⟩, upper, lower, hupper, hlower.symm,
    hresult.clear_finish rfl rfl hlower.symm⟩

/-- An image leaves its placeholder marked as the one with the number of its request. -/
theorem marked_image {u : Visit} (huv : Reaches s u v) (h : v.Requests s j)
    (hfold : v.start.layout.fold = .wrap) (hu : Marked none 0 0 u.start) :
    Marked (some j) 0 0 (u.result s) := by
  obtain ⟨⟨c, henters⟩, hfetched, hnumber⟩ := h
  obtain ⟨⟨e, source⟩, hfound⟩ := Option.isSome_iff_exists.1 hfetched
  obtain ⟨rfl, himg, hsource⟩ := henters.of_fetched hfound
  have hK := upkeep_marked s (some j) 0 0
  let q := openColors e
    { v.start with visited := v.id :: v.start.visited, path := v.id :: v.start.path }
  have hq : Marked none 0 0 q := (upkeep_marked s none 0 0).openColors e
    ((upkeep_marked s none 0 0).aside (huv.keep (upkeep_marked s none 0 0) hu) rfl rfl rfl)
  have himages : q.images = v.start.images := congrArg Prod.fst (asked_openColors e _)
  have hlayout : q.layout = v.start.layout := layout_openColors ..
  have hmarked : Marked (some j) 0 0 (v.opened s (.element e)) := by
    rw [opened_image himg]
    refine hq.image_of_fetchable s hsource (.inr ⟨rfl, ?_, ?_⟩)
    · rw [himages, hnumber]
    · rw [hlayout, hfold]
  have hfilled : Marked (some j) 0 0 (v.filled s (.element e)) :=
    Upkeep.visits (hK.node _) _ hmarked
  exact huv.later hK (keep_result hK henters (keep_closed hK hfilled))

end Visit

open Visit

/-- The placeholders of a result are those of its requests, each over its text at the end of a line.
Only spaces are left behind one on its line if its image was not written in preformatted text, and
none of them is on a line of a grid. -/
theorem marked_renderWith (s : Scene) (id : NodeId) (cache : CellCache) :
    let u : Visit := ⟨Tree.maxDepth, id, start s cache.clear⟩
    let out := (renderWith s id cache).rendered
    out.Requested ∧
      (∀ i a, out.placeholders[i]? = some a → (∃ v, Reaches s u v ∧ v.Requests s i) ∧
        ∀ v, Reaches s u v → v.Requests s i →
          (v.start.layout.fold = .verbatim ∧ ∃ x ∈ v.start.path, s.tree.tag? x = some .pre) ∨
            ∃ k w, out.text = out.before a ++ out.textOf a ++ (spaces k ++ '\n' :: w)) ∧
      ∀ v e, Reaches s u v → v.Enters s (.element e) → e.tag = .table →
        ∃ lead, (v.filled s (.element e)).buffer.Leads lead ∧ out.Clears lead
          (gridLines v.start.layout.indentation (v.grid s e).1 (v.grid s e).2) := by
  intro u out
  have hstart := marked_start s cache
  have h : Marked none 0 0 (u.result s) := (upkeep_marked s none 0 0).node Tree.maxDepth id _ hstart
  refine ⟨h.requested (asks_start s id cache), fun i a ha => ⟨?_, fun v huv hv => ?_⟩,
    fun v e huv hv htag => ?_⟩
  · have hlt : i < (u.result s).images.length := by
      rw [← h.length_images]
      have hlen := (List.getElem?_eq_some_iff.1 ha).1
      rwa [show out.placeholders = _ from h.placeholders_finish, List.length_map] at hlen
    exact exists_requests s u rfl (Nat.zero_le _) hlt
  · cases hfold : v.start.layout.fold with
    | verbatim => exact .inl ⟨rfl, huv.verbatim rfl hfold⟩
    | wrap => exact .inr ((marked_image huv hv hfold hstart).spaces_finish ha)
  · have hclears := clears huv hv htag (fun _ he => by cases he) hstart
    exact hclears

/-- An image with the alternative text `A`, and what follows it. -/
def imageThen (after : List Item) : List Item :=
  .element "img".toList [("src".toList, .string "x".toList), ("alt".toList, .string "A".toList)] []
    :: after

theorem marked_renderWith_imageThenTable :
    let s : Scene := { tree := (Loaded.ofItems (imageThen [.element "table".toList [] []])).tree }
    let u : Visit := ⟨Tree.maxDepth, Tree.root, start s (Cache.clear {})⟩
    let out := (renderWith s Tree.root {}).rendered
    out.placeholders.length = 1 ∧ out.Requested ∧
      (∃ a, out.placeholders[0]? = some a ∧
        (∃ v, Reaches s u v ∧ v.Requests s 0 ∧ v.start.layout.fold = .wrap) ∧
          ∃ k w, out.text = out.before a ++ out.textOf a ++ (spaces k ++ '\n' :: w)) ∧
      ∃ v e, Reaches s u v ∧ v.Enters s (.element e) ∧ e.tag = .table ∧
        ∃ lead, (v.filled s (.element e)).buffer.Leads lead ∧ out.Clears lead
          (gridLines v.start.layout.indentation (v.grid s e).1 (v.grid s e).2) := by
  intro s u out
  obtain ⟨hrequested, hspaces, hclears⟩ := marked_renderWith s Tree.root {}
  have hone : out.placeholders.length = 1 := by decide +kernel
  have hu : u.Enters s .document := ⟨by decide, rfl, by decide⟩
  let image : Visit := ⟨u.levels - 1, 1, visits (u.below s) [] (u.opened s .document)⟩
  let table : Visit := ⟨u.levels - 1, 2, visits (u.below s) [1] (u.opened s .document)⟩
  have himage : Reaches s u image := .single (@Calls.shown s u .document [] [2] 1 hu rfl)
  have htable : Reaches s u table := .single (@Calls.shown s u .document [1] [] 2 hu rfl)
  have hrequests : image.Requests s 0 :=
    ⟨⟨_, by decide, rfl, by decide +kernel⟩, by decide +kernel, rfl⟩
  have henters : table.Enters s (.element (.ofName "table".toList [])) :=
    ⟨by decide, rfl, by decide +kernel⟩
  obtain ⟨a, hsingle⟩ := List.length_eq_one_iff.1 hone
  have ha : out.placeholders[0]? = some a := by rw [hsingle]; rfl
  have hwrap : image.start.layout.fold = .wrap := rfl
  refine ⟨hone, hrequested, ⟨a, ha, ⟨image, himage, hrequests, hwrap⟩, ?_⟩, table, _, htable, henters,
    rfl, hclears table _ htable henters rfl⟩
  rcases (hspaces 0 a ha).2 image himage hrequests with ⟨hverbatim, -⟩ | hline
  · exact FoldMode.noConfusion (hwrap.symm.trans hverbatim)
  · exact hline

/-- In preformatted text a tab stays behind a placeholder. -/
theorem blankBehind_tabAfterImage :
    let bold : Item := .element "b".toList [] [.text "B".toList]
    let items := [.element "pre".toList [] (imageThen [.text "\t".toList, bold])]
    let out := (renderWith { tree := (Loaded.ofItems items).tree } Tree.root {}).rendered
    out.text = "A\t\nB\n".toList ∧ ∃ a ∈ out.placeholders,
      ¬ ∃ k u, out.text = out.before a ++ out.textOf a ++ (spaces k ++ u) ∧
        (u = [] ∨ u.head? = some '\n') := by
  intro bold items out
  have htext : out.text = "A\t\nB\n".toList := by decide +kernel
  have hspans : out.placeholders.map (fun a => (a.start, a.stop)) = [(0, 1)] := by decide +kernel
  obtain ⟨a, rest, ha, hrange, -⟩ := List.map_eq_cons_iff.1 hspans
  obtain ⟨hstart, hstop⟩ := Prod.mk.inj hrange
  have hbefore : out.before a = [] := by
    rw [Rendered.before, htext, hstart]
    decide
  have hunder : out.textOf a = ['A'] := by
    rw [Rendered.textOf, htext, hstart, hstop]
    decide
  refine ⟨htext, a, ha ▸ List.mem_cons_self, ?_⟩
  rintro ⟨k, u, hu, hend⟩
  rw [htext, hbefore, hunder] at hu
  have htail : ['\t', '\n', 'B', '\n'] = spaces k ++ u := (List.cons.inj hu).2
  cases k with
  | zero =>
    subst htail
    rcases hend with hnil | hnewline
    · cases hnil
    · exact absurd hnewline (by decide)
  | succ k => exact absurd (List.cons.inj htail).1 (by decide)

end MarkupText
