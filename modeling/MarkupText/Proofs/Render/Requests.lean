import MarkupText.Proofs.Buffer.Tale
import MarkupText.Proofs.Render.Frames
import MarkupText.Proofs.Render.Placeholders

/-!
# Requests of images

An image that is fetched always leaves something that can be marked (`image_fetched`), so a page has
a request for each of them. The requests are those of the nodes entered on the page, in the order in
which they were entered (`asks_node`), and each is made by one of the visits (`exists_requests`).
-/

namespace MarkupText

open Text

namespace Buffer
variable {u : Text} {b c : Buffer}

/-- What flowing text writes into a region can be marked, up to the last character that is shown. -/
theorem Flow.exists_range (h : Flow u b.openRegion c) (hu : u ≠ []) : ∃ start stop,
    c.closeRegion.2.visibleRange c.closeRegion.1 c.closeRegion.2.size = some (start, stop) ∧
      c.text.seen start = b.text.visible.length ∧
      c.text.seen stop = b.text.visible.length + u.length ∧
      ∀ {p : Char → Bool}, (∀ d, p d = true → Shown d) →
        b.text.countP p ≤ rank p c.text start ∧ rank p c.text stop = c.text.countP p := by
  obtain ⟨σ, τ, hmoves⟩ := h.moves
  have hle : σ b.size ≤ c.size := hmoves.start_le (Nat.le_refl _)
  have hstart : c.closeRegion.1 = σ b.size := by
    have hregions : c.regions = σ b.size :: b.regions.map σ := hmoves.regions
    unfold closeRegion
    rw [hregions]
    exact Nat.min_eq_left hle
  have hrank {p : Char → Bool} (hp : ∀ d, p d = true → Shown d) :
      rank p c.text (σ b.size) = b.text.countP p :=
    (hmoves.rank_start hp (Nat.le_refl _)).trans (rank_of_size_le (Nat.le_refl _))
  have hfront : c.text.seen (σ b.size) = b.text.visible.length :=
    (hrank shown_of_visible).trans (length_visible b.text).symm
  have hrun : Run RangeRule.tight u b.openRegion c := h.run
  have hsize : c.text.seen c.size = c.text.visible.length := seen_of_size_le (Nat.le_refl _)
  have hback : c.text.seen c.size = b.text.visible.length + u.length := by
    rw [hsize, hrun.visible, List.length_append]
    rfl
  have htext : c.closeRegion.2.text = c.text := text_closeRegion c
  have hboundary : Boundary c.closeRegion.2.text (σ b.size) := by
    rw [htext]
    exact hmoves.boundary (.size b.text)
  rw [hstart]
  cases hrange : c.closeRegion.2.visibleRange (σ b.size) c.closeRegion.2.size with
  | none =>
    have hnone := length_le_of_visibleRange_eq_none hboundary hrange
    rw [htext, hfront, ← hsize, hback] at hnone
    have hpos := List.length_pos_iff.2 hu
    omega
  | some range =>
    obtain ⟨hs, he⟩ := seen_visibleRange hrange
    have hbehind : σ b.size ≤ range.1 := by
      obtain ⟨l, m, _, _, _, -, -, -, hl, hm, -⟩ := visibleRange_split hrange
      rw [← hl, ← hm, size_append]
      exact Nat.le_add_right ..
    rw [htext] at hs he
    refine ⟨range.1, range.2, rfl, hs.trans hfront, he.trans ?_, fun hp => ?_⟩
    · rw [← hback, Buffer.size, htext]
      rfl
    · have hlast := (rank_visibleRange hrange hp).2
      rw [htext] at hlast
      refine ⟨?_, hlast.trans (rank_of_size_le (Nat.le_of_eq (congrArg Text.size htext.symm)))⟩
      rw [← hrank hp]
      exact rank_mono _ _ hbehind

/-- A range that can be marked for an image gets a placeholder. -/
theorem images_annotate_image {start stop s e : Nat} (h : b.visibleRange start stop = some (s, e))
    (q : ImageRequest) :
    (b.annotate s e (.image q)).images = b.images ++ [⟨s, e, .image q⟩] := by
  have hmark : b.markVisible start stop (.image q) = b.annotate s e (.image q) := by
    unfold markVisible
    rw [h]
  rw [← hmark, markVisible_eq, h]
  simp [images, Mark.isImage]

end Buffer

namespace Renderer
variable {s : Scene} {e : Element} {r : Renderer} {source : Text}
  {visit : NodeId → Renderer → Renderer}

theorem visible_placeholder_ne_nil (e : Element) : (placeholder (altText e)).visible ≠ [] := by
  intro hnil
  have hblank := blank_placeholder e
  rw [Text.blank, List.all_eq_true.2 (visible_eq_nil_iff.1 hnil)] at hblank
  cases hblank

/-- An image that is fetched leaves a placeholder with a mark, and a request. -/
theorem image_fetched (hsource : fetchableSource? s e = some source)
    (hr : r.layout.inhibitImages = false) :
    let b := ((r.page.onBuffer (·.openRegion)).insert s.options.rules
      (placeholder (altText e))).buffer
    ∃ start stop, b.closeRegion.2.visibleRange b.closeRegion.1 b.closeRegion.2.size =
        some (start, stop) ∧
      b.text.seen start = r.buffer.text.visible.length ∧
      b.text.seen stop = r.buffer.text.visible.length + (placeholder (altText e)).visible.length ∧
      (∀ {p : Char → Bool}, (∀ d, p d = true → Shown d) →
        r.buffer.text.countP p ≤ rank p b.text start ∧ rank p b.text stop = b.text.countP p) ∧
      image s e r =
        { r with
          page :=
            { buffer := b.closeRegion.2.annotate start stop
                (.image (request s e source r.images.length))
              layout := { r.layout with kind := .image } }
          images := r.images ++ [request s e source r.images.length] } := by
  have hflow := Page.flow_insert s.options.rules (r.page.onBuffer (·.openRegion))
    (placeholder (altText e))
  have hlayout := Page.layout_insert s.options.rules (r.page.onBuffer (·.openRegion))
    (placeholder (altText e))
  obtain ⟨start, stop, hrange, hstart, hstop, hrank⟩ :=
    hflow.exists_range (visible_placeholder_ne_nil e)
  refine ⟨start, stop, hrange, hstart, hstop, hrank, ?_⟩
  rw [image_eq, hsource]
  dsimp only
  rw [if_neg (by rw [hr]; exact Bool.false_ne_true)]
  generalize Page.insert _ _ _ = q at hrange hlayout ⊢
  rw [if_neg (Bool.eq_false_iff.1 (blank_placeholder e))] at hlayout
  unfold requestImage
  rw [show (Renderer.buffer { r with page := { q with buffer := q.buffer.closeRegion.2 } }) =
    q.buffer.closeRegion.2 from rfl, hrange]
  obtain ⟨buffer, layout⟩ := q
  obtain rfl : layout = _ := hlayout
  rfl

/-! ### Requests and nodes -/

/-- The element at a node and the source, if the node is an image that is fetched. -/
def fetched? (s : Scene) (x : NodeId) : Option (Element × Text) :=
  (s.tree.element? x).bind fun e =>
    if e.tag = .img then (fetchableSource? s e).map fun source => (e, source) else none

/-- The requests for the images among some nodes. -/
def requests (s : Scene) (ids : List NodeId) : List ImageRequest :=
  (ids.filterMap (fetched? s)).zipIdx.map fun ((e, source), i) => request s e source i

variable {id x : NodeId} {ids : List NodeId}

theorem requests_concat_none (h : fetched? s x = none) (ids : List NodeId) :
    requests s (ids ++ [x]) = requests s ids := by
  unfold requests
  rw [List.filterMap_append, List.filterMap_cons_none h, List.filterMap_nil, List.append_nil]

theorem requests_concat (h : fetched? s x = some (e, source)) (ids : List NodeId) :
    requests s (ids ++ [x]) =
      requests s ids ++ [request s e source (requests s ids).length] := by
  unfold requests
  rw [List.filterMap_append, List.filterMap_cons_some h, List.filterMap_nil, List.zipIdx_append,
    List.map_append, List.length_map, List.length_zipIdx, Nat.zero_add]
  rfl

theorem role_eq_image {t : Tag} : t.role = .image ↔ t = .img := by
  cases t <;> decide

/-- The requests are those of the nodes entered, each of which was entered once. -/
structure Asks (s : Scene) (r : Renderer) : Prop where
  shown : r.layout.inhibitImages = false
  nodup : r.visited.Nodup
  images : r.images = requests s r.visited.reverse

theorem Asks.of_asked {q : Renderer} (h : Asks s r) (hasked : q.asked = r.asked)
    (hlayout : q.layout.holding = r.layout.holding) : Asks s q := by
  obtain ⟨himages, hvisited⟩ := Prod.mk.inj hasked
  refine ⟨(congrArg Prod.fst hlayout).trans h.shown, hvisited ▸ h.nodup, ?_⟩
  rw [himages, hvisited]
  exact h.images

end Renderer

namespace Visit
open Renderer
variable {s : Scene} {v : Visit} {c : Content} {e : Element} {source : Text}

theorem opened_image (himg : e.tag = .img) : v.opened s (.element e) = image s e (openColors e
    { v.start with visited := v.id :: v.start.visited, path := v.id :: v.start.path }) := by
  unfold Visit.opened opening openRule
  simp only [role_eq_image.2 himg]

theorem Enters.fetched_eq : v.Enters s c → fetched? s v.id =
    match c with
    | .element e =>
      if e.tag = .img then (fetchableSource? s e).map fun source => (e, source) else none
    | _ => none := by
  intro h
  unfold fetched? Tree.element?
  rw [h.content]
  cases c <;> rfl

/-- The visit of a node that is fetched enters an image. -/
theorem Enters.of_fetched (h : v.Enters s c) (hfetched : fetched? s v.id = some (e, source)) :
    c = .element e ∧ e.tag = .img ∧ fetchableSource? s e = some source := by
  rw [h.fetched_eq] at hfetched
  cases c with
  | element d =>
    obtain ⟨htag, hsome⟩ := Option.ite_none_right_eq_some.1 hfetched
    obtain ⟨found, hfound, heq⟩ := Option.map_eq_some_iff.1 hsome
    obtain ⟨rfl, rfl⟩ := Prod.mk.inj heq
    exact ⟨rfl, htag, hfound⟩
  | _ => cases hfetched

/-- An image makes its request, if there is one, when it is entered, and nothing else does. -/
theorem images_opened (h : v.Enters s c) (hv : v.start.layout.inhibitImages = false) :
    (v.opened s c).images = v.start.images ++
      ((fetched? s v.id).map fun p => request s p.1 p.2 v.start.images.length).toList := by
  rw [h.fetched_eq]
  cases c with
  | element e =>
    let q := openColors e
      { v.start with visited := v.id :: v.start.visited, path := v.id :: v.start.path }
    have hq : q.images = v.start.images := congrArg Prod.fst (asked_openColors e _)
    dsimp only
    by_cases himg : e.tag = .img
    · have hlayout : q.layout.inhibitImages = false := by
        rw [show q.layout = v.start.layout from layout_openColors ..]
        exact hv
      rw [opened_image himg, ← hq, if_pos himg]
      cases hsource : fetchableSource? s e with
      | none =>
        rw [image_eq, hsource]
        exact (List.append_nil _).symm
      | some source =>
        obtain ⟨_, _, -, -, -, -, heq⟩ := image_fetched hsource hlayout
        rw [heq]
        rfl
    · rw [if_neg himg]
      exact ((images_openRule (mt role_eq_image.1 himg) q).trans hq).trans (List.append_nil _).symm
  | _ => exact (List.append_nil _).symm

theorem asks_opened (h : v.Enters s c) (hv : Asks s v.start) : Asks s (v.opened s c) := by
  have hholding := holding_opened s v c
  refine ⟨(congrArg Prod.fst hholding).trans hv.shown, ?_, ?_⟩
  · rw [visited_opened]
    exact List.nodup_cons.2 ⟨h.fresh, hv.nodup⟩
  · rw [images_opened h hv.shown, visited_opened, List.reverse_cons, hv.images]
    cases hfetched : fetched? s v.id with
    | none =>
      rw [requests_concat_none hfetched]
      exact List.append_nil _
    | some found =>
      rw [requests_concat hfetched]
      rfl

end Visit

namespace Renderer
variable {s : Scene} {r : Renderer} {visit : NodeId → Renderer → Renderer} {ids : List NodeId}

theorem asks_visits (h : ∀ id r, Asks s r → Asks s (visit id r)) (ids : List NodeId)
    (hr : Asks s r) : Asks s (visits visit ids r) := by
  induction ids generalizing r with
  | nil => exact hr
  | cons id ids ih => exact ih (h id r hr)

/-- A page has the requests of the nodes entered on it. -/
theorem asks_node (s : Scene) (levels : Nat) (id : NodeId) (r : Renderer) (hr : Asks s r) :
    Asks s (node s levels id r) := by
  induction levels generalizing id r with
  | zero => exact hr.of_asked rfl rfl
  | succ levels ih =>
    let v : Visit := ⟨levels + 1, id, r⟩
    change Asks s (v.result s)
    rcases v.enters_or s with ⟨c, h⟩ | ⟨log, h⟩
    · have hfilled : Asks s (v.filled s c) := asks_visits ih _ (Visit.asks_opened h hr)
      have hclosed : Asks s (v.closed s c) := by
        refine hfilled.of_asked (Visit.asked_closed s v c) ?_
        refine (Layout.holding_of_base (Visit.base_closed s v c)).trans ?_
        rw [← Visit.holding_opened s v c]
        exact (Layout.holding_of_base (Visit.base_filled s v c)).symm
      have hdeferred := asks_visits ih (deferred s id c (v.closed s c)) hclosed
      refine hdeferred.of_asked (Visit.asked_result h) (Layout.holding_of_base ?_)
      exact (base_node s _ id r).trans
        ((base_visits (base_node s levels) _ _).trans (Visit.base_closed s v c)).symm
    · rw [h]
      exact hr.of_asked rfl rfl

/-- The visit among some that makes the request with the number `i`. -/
theorem exists_visits_growing {i : Nat} (hr : r.images.length ≤ i)
    (h : i < (visits visit ids r).images.length) : ∃ before x after, ids = before ++ x :: after ∧
      (visits visit before r).images.length ≤ i ∧
      i < (visit x (visits visit before r)).images.length := by
  induction ids generalizing r with
  | nil => exact absurd h (Nat.not_lt_of_le hr)
  | cons id ids ih =>
    by_cases hid : i < (visit id r).images.length
    · exact ⟨[], id, ids, rfl, hr, hid⟩
    · obtain ⟨before, x, after, rfl, hbefore, hx⟩ := ih (Nat.le_of_not_lt hid) h
      exact ⟨id :: before, x, after, rfl, hbefore, hx⟩

theorem asks_start (s : Scene) (id : NodeId) (cache : CellCache) :
    Asks s (node s Tree.maxDepth id (start s cache.clear)) :=
  asks_node s Tree.maxDepth id _ ⟨rfl, .nil, rfl⟩

end Renderer

namespace Visit
open Renderer
variable {s : Scene} {v : Visit} {c : Content} {i : Nat}

/-- The visit makes the request with the number `i`: it enters an image that is fetched. -/
structure Requests (s : Scene) (v : Visit) (i : Nat) : Prop where
  enters : ∃ c, v.Enters s c
  fetched : (fetched? s v.id).isSome = true
  number : v.start.images.length = i

theorem Enters.requests (h : v.Enters s c) (hv : v.start.layout.inhibitImages = false)
    (hle : v.start.images.length ≤ i) (hlt : i < (v.opened s c).images.length) :
    v.Requests s i := by
  rw [images_opened h hv, List.length_append] at hlt
  cases hfetched : fetched? s v.id with
  | none =>
    rw [hfetched] at hlt
    exact absurd hlt (Nat.not_lt_of_le hle)
  | some found =>
    rw [hfetched] at hlt
    exact ⟨⟨c, h⟩, by rw [hfetched]; rfl, Nat.le_antisymm hle (Nat.le_of_lt_succ hlt)⟩

/-- Each request of a page is made by a visit. -/
theorem exists_requests (s : Scene) (v : Visit) (hv : v.start.layout.inhibitImages = false)
    (hle : v.start.images.length ≤ i) (hlt : i < (v.result s).images.length) :
    ∃ w, Reaches s v w ∧ w.Requests s i := by
  obtain ⟨levels, id, r⟩ := v
  induction levels generalizing id r with
  | zero => exact absurd hlt (Nat.not_lt_of_le hle)
  | succ levels ih =>
    let v : Visit := ⟨levels + 1, id, r⟩
    change i < (v.result s).images.length at hlt
    change ∃ w, Reaches s v w ∧ w.Requests s i
    rcases v.enters_or s with ⟨c, h⟩ | ⟨log, heq⟩
    · have hopened : (v.opened s c).layout.inhibitImages = false :=
        (congrArg Prod.fst (holding_opened s v c)).trans hv
      have hclosed : (v.closed s c).layout.inhibitImages = false :=
        (congrArg Prod.fst (Layout.holding_of_base (base_closed s v c))).trans hv
      -- a visit made on the way has images shown as well
      have hcall {ids : List NodeId} {q : Renderer} {x : NodeId}
          (hq : q.layout.inhibitImages = false) (hcall : Calls s v ⟨levels, x, visits (v.below s) ids q⟩)
          (hbefore : (visits (v.below s) ids q).images.length ≤ i)
          (hx : i < (v.below s x (visits (v.below s) ids q)).images.length) :
          ∃ w, Reaches s v w ∧ w.Requests s i := by
        have hbase := base_visits (base_node s (v.levels - 1)) ids q
        obtain ⟨w, hreach, hw⟩ := ih x (visits (v.below s) ids q)
          ((congrArg Prod.fst (Layout.holding_of_base hbase)).trans hq) hbefore hx
        exact ⟨w, .head hcall hreach, hw⟩
      have himages : (v.closed s c).images = (v.filled s c).images :=
        congrArg Prod.fst (asked_closed s v c)
      rw [show (v.result s).images = _ from congrArg Prod.fst (asked_result h)] at hlt
      by_cases hself : i < (v.opened s c).images.length
      · exact ⟨v, .refl, h.requests hv hle hself⟩
      · by_cases hfilled : i < (v.filled s c).images.length
        · obtain ⟨before, x, after, hids, hbefore, hx⟩ :=
            exists_visits_growing (Nat.le_of_not_lt hself) hfilled
          exact hcall hopened (.shown h hids) hbefore hx
        · rw [← himages] at hfilled
          obtain ⟨before, x, after, hids, hbefore, hx⟩ :=
            exists_visits_growing (Nat.le_of_not_lt hfilled) hlt
          exact hcall hclosed (.deferred h hids) hbefore hx
    · rw [heq] at hlt
      exact absurd hlt (Nat.not_lt_of_le hle)

end Visit
end MarkupText
