import MarkupText.Proofs.Render.Deferral
import MarkupText.Proofs.Render.Reading
import MarkupText.Proofs.Render.Standing

/-!
# Every node once on a page

A visit enters its node only if that was not entered before, so the visits on a page enter each node
at most once (`Census`), and what the page shows is, up to blanks, what these visits write
themselves (`once_renderWith`). Of a text node this is its text, and no other node writes that.

A cell is a page of its own, on which nothing but the nodes above it counts as entered. So a text
that two cells share, or a cell and the page around its table, is shown in both places
(`twice_sharedText`).
-/

namespace MarkupText

open Text Renderer

/-! ### What visits write themselves -/

namespace Buffer
variable (b : Buffer)

theorem visible_ensureNewline : visible b.ensureNewline.text = visible b.text :=
  b.flow_ensureNewline.visible_eq

theorem visible_ensureParagraph : visible b.ensureParagraph.text = visible b.text :=
  b.flow_ensureParagraph.visible_eq

theorem visible_separateList (nested : Bool) :
    visible (separateList nested b).text = visible b.text :=
  (flow_separateList nested b).visible_eq

end Buffer

namespace Renderer
variable {s : Scene} {id : NodeId} {e : Element} {r : Renderer}

/-- What the rule of an element writes in front of its content. -/
def ruleText (s : Scene) (e : Element) (l : Layout) : Text :=
  match e.tag.role with
  | .ruler => List.replicate (max 1 (l.width - l.indentation)) '-'
  | .image => imageTextIn s e l
  | .media label => if (e.filledAttr? "src").isSome then label.toList else []
  | .item => labelText l.list
  | _ => []

theorem visible_insertText (s : Scene) (t : Text) (r : Renderer) :
    visible (insertText s t r).buffer.text = visible r.buffer.text ++ visible t :=
  (reads_insertText (R := RangeRule.within) s t r).run.visible

theorem visible_media (s : Scene) (label : String) (e : Element) (r : Renderer) :
    visible (media s label e (fun r => r) r).buffer.text = visible r.buffer.text ++
      visible (if (e.filledAttr? "src").isSome then label.toList else []) := by
  unfold media
  cases e.filledAttr? "src" with
  | none => exact (List.append_nil _).symm
  | some source =>
    dsimp only
    rw [region_eq]
    refine (congrArg visible (Buffer.text_endRegion _ _)).trans ?_
    exact visible_insertText s label.toList (r.onBuffer (·.openRegion))

theorem visible_openRule (s : Scene) (id : NodeId) (e : Element) (r : Renderer) :
    visible (openRule s id e r).buffer.text = visible r.buffer.text ++ visible (ruleText s e r.layout) := by
  unfold openRule ruleText
  cases e.tag.role with
  | ruler => exact (reads_ruler (R := RangeRule.tight) (fun _ _ _ h => h) r).run.visible
  | image =>
    obtain ⟨page, images, heq, hrun, -⟩ := image_spec (R := RangeRule.tight) (fun _ _ _ h => h) s e r
    dsimp only
    rw [heq]
    exact hrun.visible
  | media label => exact visible_media s label e r
  | item => exact (reads_labelled (R := RangeRule.tight) r).run.visible
  | lineBreak => exact (reads_lineBreak (R := RangeRule.tight) r).run.visible
  | paragraph | heading | quote | preformatted =>
    exact (Buffer.visible_ensureParagraph _).trans (List.append_nil _).symm
  | block | definition => exact (Buffer.visible_ensureNewline _).trans (List.append_nil _).symm
  | list numbered => exact (Buffer.visible_separateList _ _).trans (List.append_nil _).symm
  | link =>
    dsimp only
    split <;> exact (List.append_nil _).symm
  | table =>
    dsimp only
    split
    · exact (Buffer.visible_ensureNewline _).trans (List.append_nil _).symm
    · exact (List.append_nil _).symm
  | _ => exact (List.append_nil _).symm

/-- Behind their content only tables write something. -/
theorem visible_closeRule {visit : NodeId → Renderer → Renderer} (h : e.tag.role ≠ .table)
    (l : Layout) (q : Renderer) : visible (closeRule s visit id e l q).buffer.text = visible q.buffer.text := by
  have hregion (q : Renderer) (mark : Mark) :
      visible (q.onBuffer (·.endRegion mark)).buffer.text = visible q.buffer.text :=
    congrArg visible (Buffer.text_endRegion _ mark)
  unfold closeRule
  cases hrole : e.tag.role with
  | table => exact absurd hrole h
  | paragraph | quote => exact Buffer.visible_ensureParagraph _
  | block | item | definition => exact Buffer.visible_ensureNewline _
  | heading | preformatted => exact (Buffer.visible_ensureParagraph _).trans (hregion _ _)
  | list numbered => exact Buffer.visible_separateList _ _
  | link =>
    dsimp only
    split
    · exact hregion _ _
    · rfl
  | face f => exact hregion _ _
  | _ => rfl

end Renderer

namespace Visit
variable {s : Scene} {u v w : Visit} {c : Content}

/-- What a visit writes itself in front of what it shows. -/
def front (s : Scene) (v : Visit) : Content → Text
  | .text t => t
  | .element e => ruleText s e v.start.layout
  | .document | .comment _ => []

/-- What a visit writes itself behind what it shows: the grid of a table. -/
def back (s : Scene) (v : Visit) : Content → Text
  | .element e =>
    if e.tag = .table then
      ended (gridLines v.start.layout.indentation (v.grid s e).1 (v.grid s e).2)
    else []
  | .document | .text _ | .comment _ => []

/-- What a visit writes itself, and none of the visits that it makes. -/
def wrote (s : Scene) (v : Visit) (c : Content) : Text := visible (v.front s c ++ v.back s c)

theorem front_or_back (s : Scene) (v : Visit) (c : Content) : v.front s c = [] ∨ v.back s c = [] := by
  cases c with
  | element e =>
    by_cases h : e.tag = .table
    · left
      unfold front ruleText
      simp only [h, role_eq_table.2]
    · exact .inr (if_neg h)
  | _ => exact .inr rfl

theorem visible_opened (s : Scene) (v : Visit) (c : Content) :
    visible (v.opened s c).buffer.text = visible v.start.buffer.text ++ visible (v.front s c) := by
  let r : Renderer :=
    { v.start with visited := v.id :: v.start.visited, path := v.id :: v.start.path }
  cases c with
  | element e =>
    have hopen : (openColors e r).buffer.text = v.start.buffer.text := by
      unfold openColors
      split <;> rfl
    have hrule := visible_openRule s v.id e (openColors e r)
    rw [hopen, layout_openColors] at hrule
    exact hrule
  | text t => exact visible_insertText s t r
  | _ => exact (List.append_nil _).symm

theorem visible_closed (hr : v.start.cache.Keeps Cell.CutFor) (c : Content) :
    visible (v.closed s c).buffer.text =
      visible (v.filled s c).buffer.text ++ visible (v.back s c) := by
  cases c with
  | element e =>
    by_cases h : e.tag = .table
    · obtain ⟨upper, lead, hline, -, -, -, -, htext⟩ :=
        exists_closed_grid (s := s) (u := v) .refl h hr
      have hback : v.back s (.element e) = _ := if_pos h
      have hfilled := (v.filled s (.element e)).buffer.visible_ensureNewline
      rw [hback, htext, ← hfilled, hline, ← List.append_assoc, visible_append]
    · have hback : v.back s (.element e) = [] := if_neg h
      rw [hback]
      exact (visible_closeRule (mt role_eq_table.1 h) _ _).trans (List.append_nil _).symm
  | _ => exact (List.append_nil _).symm

theorem text_result (h : v.Enters s c) : (v.result s).buffer.text =
    (visits (v.below s) (deferred s v.id c (v.closed s c)) (v.closed s c)).buffer.text := by
  obtain ⟨path, heq⟩ := result_eq h
  rw [heq]
  cases c with
  | element e =>
    change (closeColors s e _).buffer.text = _
    unfold closeColors
    split
    · rfl
    · exact Buffer.text_endColors _ _
  | _ => rfl

/-! ### Which nodes are entered -/

/-- All the visits below some others, on the same page, that enter a node: the nodes are different
ones, and these are the nodes entered after `visited` to give `visited'`. -/
structure Census (s : Scene) (roots : Visit → Prop) (visited visited' : List NodeId)
    (vs : List (Visit × Content)) : Prop where
  sound : ∀ p ∈ vs, (∃ u, roots u ∧ Reaches s u p.1) ∧ p.1.Enters s p.2
  complete : ∀ {u v c}, roots u → Reaches s u v → v.Enters s c → (v, c) ∈ vs
  nodup : (vs.map (·.1.id)).Nodup
  fresh : ∀ p ∈ vs, p.1.id ∉ visited
  entered : ∀ x, x ∈ visited' ↔ x ∈ visited ∨ ∃ p ∈ vs, p.1.id = x

theorem Enters.unique {d : Content} (h : v.Enters s c) (h' : v.Enters s d) : c = d :=
  Option.some.inj (h.content.symm.trans h'.content)

theorem Reaches.cases (h : Reaches s v w) : w = v ∨ ∃ x, Calls s v x ∧ Reaches s x w :=
  (Relation.ReflTransGen.cases_head h).imp_left Eq.symm

namespace Census
variable {R R' : Visit → Prop} {xs ys zs : List NodeId} {vs ws : List (Visit × Content)}

theorem nil (s : Scene) (xs : List NodeId) : Census s (fun _ => False) xs xs [] where
  sound _ hp := by cases hp
  complete h := h.elim
  nodup := .nil
  fresh _ hp := by cases hp
  entered x := by simp

/-- A visit that enters no node makes none. -/
theorem skipped (h : ∀ c, ¬ v.Enters s c) (xs : List NodeId) : Census s (· = v) xs xs [] where
  sound _ hp := by cases hp
  complete {u w c} hu hw hc := by
    obtain rfl : u = v := hu
    rcases hw.cases with rfl | ⟨x, hcall, -⟩
    · exact absurd hc (h c)
    · cases hcall with
      | shown h' => exact absurd h' (h _)
      | deferred h' => exact absurd h' (h _)
  nodup := .nil
  fresh _ hp := by cases hp
  entered x := by simp

theorem congr (h : Census s R xs ys vs) (hR : ∀ u, R u ↔ R' u) : Census s R' xs ys vs :=
  funext (fun u => propext (hR u)) ▸ h

theorem perm (h : Census s R xs ys vs) (hvs : vs.Perm ws) : Census s R xs ys ws where
  sound p hp := h.sound p (hvs.mem_iff.2 hp)
  complete hu hv hc := hvs.mem_iff.1 (h.complete hu hv hc)
  nodup := (hvs.map _).nodup_iff.1 h.nodup
  fresh p hp := h.fresh p (hvs.mem_iff.2 hp)
  entered x := by simp only [h.entered, hvs.mem_iff]

theorem append (h : Census s R xs ys vs) (h' : Census s R' ys zs ws) :
    Census s (fun u => R u ∨ R' u) xs zs (vs ++ ws) where
  sound p hp := by
    rcases List.mem_append.1 hp with hp | hp
    · obtain ⟨⟨u, hu, hreach⟩, hc⟩ := h.sound p hp
      exact ⟨⟨u, .inl hu, hreach⟩, hc⟩
    · obtain ⟨⟨u, hu, hreach⟩, hc⟩ := h'.sound p hp
      exact ⟨⟨u, .inr hu, hreach⟩, hc⟩
  complete hu hv hc := List.mem_append.2 <|
    hu.imp (fun hu => h.complete hu hv hc) fun hu => h'.complete hu hv hc
  nodup := by
    rw [List.map_append]
    refine List.nodup_append.2 ⟨h.nodup, h'.nodup, fun x hx y hy => ?_⟩
    rintro rfl
    obtain ⟨p, hp, rfl⟩ := List.mem_map.1 hx
    obtain ⟨q, hq, hid⟩ := List.mem_map.1 hy
    exact h'.fresh q hq ((h.entered _).2 (.inr ⟨p, hp, hid.symm⟩))
  fresh p hp := by
    rcases List.mem_append.1 hp with hp | hp
    · exact h.fresh p hp
    · exact fun hx => h'.fresh p hp ((h.entered _).2 (.inl hx))
  entered x := by
    rw [h'.entered, h.entered, or_assoc]
    simp only [List.mem_append, or_and_right, exists_or]

/-- The visit that makes the others comes first. -/
theorem enter (h : Census s (Calls s v) (v.id :: v.start.visited) ys vs) (hv : v.Enters s c) :
    Census s (· = v) v.start.visited ys ((v, c) :: vs) where
  sound p hp := by
    rcases List.mem_cons.1 hp with rfl | hp
    · exact ⟨⟨v, rfl, .refl⟩, hv⟩
    · obtain ⟨⟨u, hcall, hreach⟩, hc⟩ := h.sound p hp
      exact ⟨⟨v, rfl, .head hcall hreach⟩, hc⟩
  complete {u w d} hu hw hd := by
    obtain rfl : u = v := hu
    rcases hw.cases with rfl | ⟨x, hcall, hreach⟩
    · rw [hv.unique hd]
      exact List.mem_cons_self
    · exact List.mem_cons_of_mem _ (h.complete hcall hreach hd)
  nodup := by
    refine List.nodup_cons.2 ⟨fun hmem => ?_, h.nodup⟩
    obtain ⟨p, hp, hid⟩ := List.mem_map.1 hmem
    exact h.fresh p hp (hid ▸ List.mem_cons_self)
  fresh p hp := by
    rcases List.mem_cons.1 hp with rfl | hp
    · exact hv.fresh
    · exact fun hx => h.fresh p hp (List.mem_cons_of_mem _ hx)
  entered x := by
    rw [h.entered, List.mem_cons]
    simp only [List.mem_cons, exists_eq_or_imp, eq_comm (a := x)]
    tauto

end Census

/-- The visits of some nodes in order. -/
def Listed (s : Scene) (levels : Nat) (ids : List NodeId) (r : Renderer) (w : Visit) : Prop :=
  ∃ before x after, ids = before ++ x :: after ∧
    w = ⟨levels, x, visits (node s levels) before r⟩

theorem listed_cons {levels : Nat} {id : NodeId} {ids : List NodeId} {r : Renderer} :
    Listed s levels (id :: ids) r w ↔
      w = ⟨levels, id, r⟩ ∨ Listed s levels ids (node s levels id r) w := by
  constructor
  · rintro ⟨before, x, after, hids, rfl⟩
    cases before with
    | nil =>
      obtain ⟨rfl, -⟩ := List.cons.inj hids
      exact .inl rfl
    | cons y before =>
      obtain ⟨rfl, rfl⟩ := List.cons.inj hids
      exact .inr ⟨before, x, after, rfl, rfl⟩
  · rintro (rfl | ⟨before, x, after, rfl, rfl⟩)
    · exact ⟨[], id, ids, rfl, rfl⟩
    · exact ⟨id :: before, x, after, rfl, rfl⟩

theorem calls_iff (h : v.Enters s c) : Calls s v w ↔
    Listed s (v.levels - 1) (shown s v.id c) (v.opened s c) w ∨
      Listed s (v.levels - 1) (deferred s v.id c (v.closed s c)) (v.closed s c) w := by
  constructor
  · intro hcall
    cases hcall with
    | shown h' hids =>
      obtain rfl := h.unique h'
      exact .inl ⟨_, _, _, hids, rfl⟩
    | deferred h' hids =>
      obtain rfl := h.unique h'
      exact .inr ⟨_, _, _, hids, rfl⟩
  · rintro (⟨before, x, after, hids, rfl⟩ | ⟨before, x, after, hids, rfl⟩)
    · exact .shown h hids
    · exact .deferred h hids

/-- What some visits write themselves, one after another. -/
def written (s : Scene) (vs : List (Visit × Content)) : Text :=
  vs.flatMap fun p => p.1.wrote s p.2

theorem written_append (vs ws : List (Visit × Content)) :
    written s (vs ++ ws) = written s vs ++ written s ws :=
  List.flatMap_append

/-! ### The whole page -/

/-- The cells that are kept are cut from pages. -/
abbrev CutCells (r : Renderer) : Prop := Good (fun _ _ => True) Cell.CutFor false r

theorem upkeep_cutCells (s : Scene) : Upkeep s CutCells := (invariant_cutFor s).upkeep false

/-- The visits below `roots` that lead from `r` to `q`, and what they wrote. -/
def Accounts (s : Scene) (roots : Visit → Prop) (r q : Renderer) (vs : List (Visit × Content)) :
    Prop :=
  Census s roots r.visited q.visited vs ∧
    visible q.buffer.text = visible r.buffer.text ++ written s vs

theorem accounts_visits {levels : Nat}
    (h : ∀ id r, CutCells r → ∃ vs, Accounts s (· = ⟨levels, id, r⟩) r (node s levels id r) vs)
    (ids : List NodeId) (r : Renderer) (hr : CutCells r) :
    ∃ vs, Accounts s (Listed s levels ids r) r (visits (node s levels) ids r) vs := by
  induction ids generalizing r with
  | nil =>
    refine ⟨[], (Census.nil s r.visited).congr fun w => ⟨False.elim, ?_⟩, (List.append_nil _).symm⟩
    rintro ⟨before, x, after, hids, -⟩
    simp at hids
  | cons id ids ih =>
    obtain ⟨vs, hvs, htext⟩ := h id r hr
    obtain ⟨ws, hws, htext'⟩ := ih _ ((upkeep_cutCells s).node levels id r hr)
    refine ⟨vs ++ ws, (hvs.append hws).congr fun w => listed_cons.symm, ?_⟩
    change visible (visits (node s levels) ids (node s levels id r)).buffer.text = _
    rw [htext', htext, written_append, List.append_assoc]

/-- The visits that a visit makes are accounted for, and so it is. -/
theorem accounts_result (h : v.Enters s c) (hr : CutCells v.start)
    (hbelow : ∀ ids r, CutCells r →
      ∃ vs, Accounts s (Listed s (v.levels - 1) ids r) r (visits (v.below s) ids r) vs) :
    ∃ vs, Accounts s (· = v) v.start (v.result s) vs := by
  have hK := upkeep_cutCells s
  have hopened : CutCells (v.opened s c) := keep_opened hK hr c
  have hclosed : CutCells (v.closed s c) := keep_closed hK (keep_filled hK hr c)
  obtain ⟨vs, hvs, htext⟩ := hbelow (shown s v.id c) _ hopened
  obtain ⟨ws, hws, htext'⟩ := hbelow (deferred s v.id c (v.closed s c)) _ hclosed
  have hvisited := congrArg Prod.snd (asked_closed s v c)
  have hresult := congrArg Prod.snd (asked_result h)
  change (v.closed s c).visited = (visits (v.below s) (shown s v.id c) (v.opened s c)).visited
    at hvisited
  change (v.result s).visited = Renderer.visited (visits (v.below s) _ _) at hresult
  rw [visited_opened, ← hvisited] at hvs
  rw [← hresult] at hws
  have hcensus := (((hvs.append hws).congr fun w => (calls_iff h).symm).enter h)
  have hall : visible (v.result s).buffer.text = visible v.start.buffer.text ++
      (visible (v.front s c) ++ written s vs ++ visible (v.back s c) ++ written s ws) := by
    rw [text_result h, htext', visible_closed hr.cache]
    change visible (visits (v.below s) (shown s v.id c) (v.opened s c)).buffer.text ++ _ ++ _ = _
    rw [htext, visible_opened]
    simp only [List.append_assoc]
  have hwrote : v.wrote s c = visible (v.front s c) ++ visible (v.back s c) := visible_append ..
  rcases front_or_back s v c with hfront | hback
  · -- a grid stands behind what the caption shows
    refine ⟨vs ++ (v, c) :: ws, hcensus.perm List.perm_middle.symm, ?_⟩
    rw [hall, written_append]
    change _ = _ ++ (_ ++ (v.wrote s c ++ written s ws))
    rw [hwrote, hfront]
    simp
  · refine ⟨(v, c) :: (vs ++ ws), hcensus, ?_⟩
    rw [hall]
    change _ = _ ++ (v.wrote s c ++ written s (vs ++ ws))
    rw [hwrote, hback, written_append]
    simp

theorem accounts_node (s : Scene) (levels : Nat) (id : NodeId) (r : Renderer) (hr : CutCells r) :
    ∃ vs, Accounts s (· = ⟨levels, id, r⟩) r (node s levels id r) vs := by
  induction levels generalizing id r with
  | zero =>
    refine ⟨[], .skipped (fun c h => ?_) _, (List.append_nil _).symm⟩
    exact absurd h.levels (Nat.lt_irrefl 0)
  | succ levels ih =>
    let v : Visit := ⟨levels + 1, id, r⟩
    by_cases hv : ∃ c, v.Enters s c
    · obtain ⟨c, h⟩ := hv
      exact accounts_result h hr (accounts_visits ih)
    · obtain ⟨log, hlog⟩ := (v.enters_or s).resolve_left hv
      refine ⟨[], ?_⟩
      change Accounts s _ r (v.result s) []
      rw [hlog]
      exact ⟨.skipped (not_exists.1 hv) _, (List.append_nil _).symm⟩

end Visit

open Visit

/-- On the page, and on the page of every cell, the visits enter different nodes, and the text is what
they write themselves. So it is with whatever cells were kept before, and with every cell that a
render meets. -/
theorem once_renderWith (s : Scene) (id : NodeId) (cache : CellCache) :
    (∃ vs, Census s (· = ⟨Tree.maxDepth, id, start s cache.clear⟩) []
        (node s Tree.maxDepth id (start s cache.clear)).visited vs ∧
      visible (renderWith s id cache).rendered.text = written s vs) ∧
    (∀ v w, Meets s ⟨Tree.maxDepth, id, start s cache.clear⟩ v → CallsCell s v w →
      ∃ cell width r, Kept s r.cache ∧
        w = ⟨v.levels - 1, cell, cellStart s (some cell) width r⟩) ∧
    ∀ r levels cell width fill, Kept s r.cache →
      ∃ t spans background, (freshCell s (node s levels) (some cell) width fill r).1 =
        Cell.ofText t spans width fill background ∧
        ∃ vs, Census s (· = ⟨levels, cell, cellStart s (some cell) width r⟩) r.path
            (node s levels cell (cellStart s (some cell) width r)).visited vs ∧
          visible t = written s vs := by
  refine ⟨?_, fun v w hv hw => hw.exists_start (hv.kept (.clear cache)),
    fun r levels cell width fill hr => ?_⟩
  · obtain ⟨vs, hvs, htext⟩ := accounts_node s Tree.maxDepth id (start s cache.clear)
      ⟨trivial, (Kept.clear (s := s) cache).keeps⟩
    exact ⟨vs, hvs, (visible_finish _).trans htext⟩
  · obtain ⟨vs, hvs, htext⟩ := accounts_node s levels cell (cellStart s (some cell) width r)
      ⟨trivial, hr.keeps⟩
    rw [freshCell_eq]
    exact ⟨_, _, _, rfl, vs, hvs, (Buffer.visible_finish _).trans htext⟩

/-- A paragraph, and a table of one cell with the same text in it. -/
def sharedText : Tree :=
  let (p, t) := ({} : Tree).addElement Tree.root "p".toList []
  let (x, t) := t.add p (.text "x".toList)
  let (table, t) := t.addElement Tree.root "table".toList []
  let (row, t) := t.addElement table "tr".toList []
  let (cell, t) := t.addElement row "td".toList []
  t.append cell x

theorem text_sharedText : (renderWith { tree := sharedText } Tree.root {}).rendered.text =
    "x\n\n+---+\n|x  |\n+---+\n".toList := by
  let s : Scene := { tree := sharedText }
  let page : Visit := ⟨Tree.maxDepth, Tree.root, start s (Cache.clear {})⟩
  have hpage : page.Enters s .document := ⟨by decide, rfl, by decide⟩
  let table : Visit := ⟨255, 3, node s 255 1 (page.opened s .document)⟩
  let e := Element.ofName "table".toList []
  have htable : table.Enters s (.element e) := ⟨by decide, rfl, by decide +kernel⟩
  have hgrid : (table.result s).buffer.text = "x\n\n+---+\n|x  |\n+---+\n".toList := by
    rw [text_result htable, deferred_eq_nil (s := s) (by decide)]
    change (table.closed s (.element e)).buffer.text = _
    decide +kernel
  have hall : (page.result s).buffer.text = (table.result s).buffer.text := by
    rw [text_result hpage]
    rfl
  change (page.result s).finish.text = _
  unfold finish Buffer.finish
  rw [hall, hgrid]
  decide +kernel

theorem once_renderWith_sharedText :
    let s : Scene := { tree := sharedText }
    let r := start s (Cache.clear {})
    Kept s r.cache ∧
      (∃ vs, written s vs = "x+---+|x|+---+".toList ∧ (vs.map (·.1.id)).Nodup) ∧
      ∃ t spans background, (freshCell s (node s 253) (some 5) 1 true r).1 =
        Cell.ofText t spans 1 true background ∧
        ∃ vs, written s vs = visible t ∧ (vs.map (·.1.id)).Nodup := by
  intro s r
  have hkept : Kept s r.cache := .clear {}
  obtain ⟨⟨vs, hvs, htext⟩, -, hcell⟩ := once_renderWith s Tree.root {}
  obtain ⟨t, spans, background, heq, ws, hws, hcelltext⟩ := hcell r 253 5 1 true hkept
  rw [text_sharedText] at htext
  exact ⟨hkept, ⟨vs, htext.symm.trans (by decide +kernel), hvs.nodup⟩,
    t, spans, background, heq, ws, hcelltext.symm, hws.nodup⟩

/-- The text is shown by the paragraph and by the cell. -/
theorem twice_sharedText :
    let text := (renderWith { tree := sharedText } Tree.root {}).rendered.text
    (List.range sharedText.size).filterMap sharedText.text? = ["x".toList] ∧
      text = "x\n\n+---+\n|x  |\n+---+\n".toList ∧ text.count 'x' = 2 := by
  intro text
  have htext : text = _ := text_sharedText
  exact ⟨by decide +kernel, htext, by rw [htext]; decide⟩

end MarkupText
