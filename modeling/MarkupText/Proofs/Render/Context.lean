import MarkupText.Proofs.Render.Frames

/-!
# The context of a visit

A rule pushes colors, opens regions and changes the layout for its content, and takes all of it
back: `Restores r r'` says that `r'` has the context of `r`, and each rule restores the context if
what it does for its content does (`Restoring`). So does a descent, from whatever it starts
(`restores_result`). Of what content leaves behind, only the number for the next item of a list is
part of the context. What a visit finds unwrapped is in preformatted text (`Reaches.verbatim`).
-/

namespace MarkupText

namespace Buffer
variable {R : RangeRule} {t : Text} {b c : Buffer}

@[simp] theorem regions_annotate (b : Buffer) (start stop : Nat) (mark : Mark) :
    (b.annotate start stop mark).regions = b.regions := by
  unfold annotate
  split <;> rfl

@[simp] theorem regions_closeRegion (b : Buffer) :
    b.closeRegion.2.regions = b.regions.tail := by
  unfold closeRegion
  split
  · rename_i h
    rw [h]
    rfl
  · rename_i h
    rw [h]
    rfl

@[simp] theorem regions_markVisible (b : Buffer) (start stop : Nat) (mark : Mark) :
    (b.markVisible start stop mark).regions = b.regions := by
  unfold markVisible
  split
  · exact regions_annotate ..
  · rfl

theorem regions_colorize (b : Buffer) (start : Nat) (colors : ColorPair) :
    (b.colorize start colors).regions = b.regions :=
  colorize_induct colors (fun c s e hc => (c.regions_markVisible s e _).trans hc) rfl start

theorem regions_endRegion (b : Buffer) (mark : Mark) :
    (b.endRegion mark).regions = b.regions.tail :=
  (regions_markVisible ..).trans b.regions_closeRegion

theorem regions_endColors (b : Buffer) (colors : ColorPair) :
    (b.endColors colors).regions = b.regions.tail :=
  (regions_colorize ..).trans b.regions_closeRegion

/-- A run closes what it opens. -/
theorem Run.regions (h : Run R t b c) : c.regions.length = b.regions.length := by
  induction h with
  | refl b => rfl
  | trans _ _ ih₁ ih₂ => exact ih₂.trans ih₁
  | push b t => rfl
  | pushLabel b t => rfl
  | splice h hi => exact List.length_map _
  | annotate h mark => rw [regions_annotate]
  | region _ ih =>
    rw [regions_closeRegion, List.length_tail, ih]
    rfl

/-- Writing a grid opens and closes nothing. -/
theorem gridUpkeep_regions (regions : List Nat) :
    Renderer.GridUpkeep (fun _ => True) fun b => b.regions = regions where
  push _ hb := hb
  line {b c l} _ _ hb := by
    have hadd (spans : List Span) (base : Nat) (b : Buffer) :
        (spans.foldl (fun (b : Buffer) (a : Span) => b.add (a.shift base)) b).regions =
          b.regions := by
      induction spans generalizing b with
      | nil => rfl
      | cons a spans ih => exact (ih _).trans (b.regions_annotate _ _ _)
    exact (hadd l.spans b.size _).trans hb
  blanks _ _ hb := (regions_annotate ..).trans hb
  colorize _ _ hb := (regions_colorize ..).trans hb

end Buffer

/-- The label is the same, or is a number that may have gone up within its bound. -/
inductive ListLabel.Advances : ListLabel → ListLabel → Prop
  | same (l : ListLabel) : Advances l l
  | number {n m : Nat} (h : n < Renderer.numberBound → n ≤ m ∧ m < Renderer.numberBound) :
    Advances (.number n) (.number m)

namespace ListLabel

theorem Advances.trans {l m k : ListLabel} (h₁ : Advances l m) (h₂ : Advances m k) :
    Advances l k := by
  cases h₁ with
  | same => exact h₂
  | number hnm =>
    cases h₂ with
    | same => exact .number hnm
    | number hmp =>
      refine .number fun hn => ?_
      obtain ⟨hle, hm⟩ := hnm hn
      obtain ⟨hle', hp⟩ := hmp hm
      exact ⟨Nat.le_trans hle hle', hp⟩

theorem advances_nextLabel (l : ListLabel) : Advances l (Renderer.nextLabel l) := by
  cases l with
  | number n =>
    refine .number fun hn => ?_
    omega
  | _ => exact .same _

end ListLabel

namespace Renderer
variable {s : Scene} {visit : NodeId → Renderer → Renderer} {body f : Renderer → Renderer}
  {r r' r'' : Renderer} {id : NodeId} {e : Element} {t : Text}

/-- `r'` has the context of `r`. -/
structure Restores (r r' : Renderer) : Prop where
  width : r'.layout.width = r.layout.width
  indentation : r'.layout.indentation = r.layout.indentation
  fold : r'.layout.fold = r.layout.fold
  tableDepth : r'.layout.tableDepth = r.layout.tableDepth
  inhibitImages : r'.layout.inhibitImages = r.layout.inhibitImages
  list : r.layout.list.Advances r'.layout.list
  styles : r'.styles = r.styles
  path : r'.path = r.path
  regions : r'.buffer.regions.length = r.buffer.regions.length

/-- A step that restores the context, from whatever it starts. -/
def Restoring (f : Renderer → Renderer) : Prop := ∀ r, Restores r (f r)

namespace Restores

theorem refl (r : Renderer) : Restores r r := ⟨rfl, rfl, rfl, rfl, rfl, .same _, rfl, rfl, rfl⟩

theorem trans (h₁ : Restores r r') (h₂ : Restores r' r'') : Restores r r'' where
  width := h₂.width.trans h₁.width
  indentation := h₂.indentation.trans h₁.indentation
  fold := h₂.fold.trans h₁.fold
  tableDepth := h₂.tableDepth.trans h₁.tableDepth
  inhibitImages := h₂.inhibitImages.trans h₁.inhibitImages
  list := h₁.list.trans h₂.list
  styles := h₂.styles.trans h₁.styles
  path := h₂.path.trans h₁.path
  regions := h₂.regions.trans h₁.regions

/-- Writing restores the context: it closes the regions that it opens, and leaves of the layout all
but the kind. -/
theorem of_run (page : Page) (images : List ImageRequest)
    (hrun : Buffer.Run .tight t r.buffer page.buffer)
    (hlayout : page.layout = { r.layout with kind := page.layout.kind }) :
    Restores r { r with page, images } where
  width := (congrArg Layout.width hlayout :)
  indentation := (congrArg Layout.indentation hlayout :)
  fold := (congrArg Layout.fold hlayout :)
  tableDepth := (congrArg Layout.tableDepth hlayout :)
  inhibitImages := (congrArg Layout.inhibitImages hlayout :)
  list := by
    have hlist : page.layout.list = r.layout.list := (congrArg Layout.list hlayout :)
    change r.layout.list.Advances page.layout.list
    rw [hlist]
    exact .same _
  styles := rfl
  path := rfl
  regions := hrun.regions

theorem edit {g : Buffer → Buffer} (h : Restores r r')
    (hg : Buffer.Run .tight t r'.buffer (g r'.buffer)) : Restores r (r'.onBuffer g) :=
  h.trans (of_run (r'.page.onBuffer g) r'.images hg rfl)

end Restores

/-! ### Rules -/

namespace Restoring

theorem comp {g : Renderer → Renderer} (hf : Restoring f) (hg : Restoring g) :
    Restoring fun r => g (f r) :=
  fun r => (hf r).trans (hg _)

theorem edit {g : Buffer → Buffer} (hg : ∀ b, Buffer.Run .tight [] b (g b)) :
    Restoring (·.onBuffer g) :=
  fun r => (Restores.refl r).edit (hg _)

theorem visits (hvisit : ∀ id, Restoring (visit id)) (ids : List NodeId) :
    Restoring fun r => ids.foldl (fun r id => visit id r) r := by
  induction ids with
  | nil => exact Restores.refl
  | cons id ids ih => exact (hvisit id).comp ih

theorem insertText (s : Scene) (t : Text) : Restoring (insertText s t) := by
  intro r
  refine .of_run _ r.images (Page.run_insert s.options.rules r.page t) ?_
  rw [Page.layout_insert]
  split <;> rfl

theorem image (s : Scene) (e : Element) : Restoring (image s e) := by
  intro r
  obtain ⟨page, images, heq, hrun, hlayout⟩ := image_spec (fun _ _ _ h => h) s e r
  rw [heq]
  exact .of_run page images hrun hlayout

theorem ruler : Restoring ruler := by
  intro r
  have hdashes : 0 < max (r.layout.width - r.layout.indentation) 1 := by omega
  rw [ruler_eq]
  exact .of_run ((r.page.onBuffer _).onLayout ({ · with kind := .text })) r.images
    (Buffer.run_putRuler (fun _ _ _ h => h) r.buffer _ hdashes) rfl

theorem lineBreak : Restoring lineBreak := fun r =>
  .of_run ((r.page.onBuffer (·.newline)).onLayout ({ · with kind := .text })) r.images
    r.buffer.run_newline rfl

theorem labelled : Restoring labelled := by
  intro r
  have hindent := Page.pours_indent (r.page.onBuffer (·.ensureNewline))
  have hrun := (r.buffer.run_ensureNewline (R := .tight)).nil_trans
    (hindent.flow.run.nil_trans (.pushLabel _ (labelText r.layout.list)))
  exact .of_run (Renderer.labelled r).page r.images hrun (layout_labelled r)

section Content
variable (hbody : Restoring body)
include hbody

theorem inParagraph : Restoring (inParagraph body) :=
  ((edit Buffer.run_ensureParagraph).comp hbody).comp (edit Buffer.run_ensureParagraph)

theorem inBlock : Restoring (inBlock body) :=
  ((edit Buffer.run_ensureNewline).comp hbody).comp (edit Buffer.run_ensureNewline)

theorem region (mark : Mark) : Restoring (region mark body) := by
  intro r
  have hin : Restores (r.onBuffer (·.openRegion)) (body (r.onBuffer (·.openRegion))) := hbody _
  rw [region_eq]
  exact { hin with
    regions := by
      change (Buffer.endRegion mark _).regions.length = _
      rw [Buffer.regions_endRegion, List.length_tail]
      exact congrArg (· - 1) hin.regions }

theorem inColors (s : Scene) (e : Element) : Restoring (inColors s e body) := by
  intro r
  by_cases hframe : e.frame.1.isEmpty = true
  · rw [inColors_eq_of_isEmpty hframe]
    exact { hbody (r.warn e.frame.2) with }
  · let q := { r.warn e.frame.2 with styles := e.frame.1 :: r.styles }.onBuffer (·.openRegion)
    have hin : Restores q (body q) := hbody q
    rw [inColors_eq hframe]
    exact { hin with
      styles := congrArg List.tail hin.styles
      regions := by
        change (Buffer.endColors _ _).regions.length = _
        rw [Buffer.regions_endColors, List.length_tail]
        exact congrArg (· - 1) hin.regions }

theorem indented (extra : Nat) : Restoring (indented extra body) := fun r =>
  { hbody (r.onLayout ({ · with indentation := r.layout.indentation + extra })) with
    indentation := rfl }

theorem link (e : Element) : Restoring (link e body) := by
  unfold Renderer.link
  cases e.filledAttr? "href" with
  | none => exact hbody
  | some href => exact hbody.region _

theorem media (s : Scene) (label : String) (e : Element) : Restoring (media s label e body) := by
  unfold Renderer.media
  cases e.filledAttr? "src" with
  | none => exact hbody
  | some source => exact (insertText s _).region _

theorem list (numbered : Bool) (e : Element) : Restoring (list numbered e body) := by
  intro r
  have hseparate (b : Buffer) :
      Buffer.Run .tight [] b (separateList (r.layout.list != .none) b) :=
    (flow_separateList _ b).run
  have hopen := (Restores.refl r).edit (hseparate r.buffer)
  let q := (r.onBuffer (separateList (r.layout.list != .none))).onLayout
    ({ · with list := firstLabel numbered e })
  have hin : Restores (r.onBuffer (separateList (r.layout.list != .none)))
      ((body q).onLayout ({ · with list := r.layout.list })) :=
    { hbody q with list := .same _ }
  exact (hopen.trans hin).edit (hseparate _)

theorem item : Restoring (item body) := by
  intro r
  have hin : Restores r
      (Renderer.indented (labelText r.layout.list).width body (Renderer.labelled r)) :=
    (labelled r).trans (indented hbody _ _)
  have hline := hin.edit (Buffer.run_ensureNewline _)
  rw [item_eq]
  exact { hline with list := hline.list.trans (ListLabel.advances_nextLabel _) }

theorem preformatted : Restoring (preformatted body) := by
  have hverbatim : Restoring fun r => ((r.onLayout ({ · with fold := .verbatim })).region
      (.face .monospace) body).onLayout ({ · with fold := r.layout.fold }) := fun r =>
    { hbody.region (.face .monospace) (r.onLayout ({ · with fold := .verbatim })) with
      fold := rfl }
  exact hverbatim.inParagraph

end Content

/-! ### Tables -/

theorem writeGrid (s : Scene) (widths : List Nat) (rows : List (GridRow × List Cell)) :
    Restoring (writeGrid s widths rows) := by
  intro r
  obtain ⟨buffer, log, hgrid, hkeeps⟩ := writeGrid_spec s widths rows r
  have hregions : buffer.regions = r.buffer.regions :=
    hkeeps (Buffer.gridUpkeep_regions _) (fun _ _ _ _ => trivial) rfl
  rw [hgrid]
  exact ⟨rfl, rfl, rfl, rfl, rfl, .same _, rfl, rfl, congrArg List.length hregions⟩

theorem putGrid (s : Scene) (visit : NodeId → Renderer → Renderer) (g : Grid) :
    Restoring (putGrid s visit g) := by
  intro r
  obtain ⟨cache, log, haside⟩ := negotiate_aside s visit g r
  unfold Renderer.putGrid
  generalize negotiate s visit g r = out at haside
  obtain ⟨widths, rows, q⟩ := out
  dsimp only at haside ⊢
  subst haside
  exact { writeGrid s widths (g.rows.zip rows) { r with cache, log } with }

theorem table (s : Scene) (hvisit : ∀ id, Restoring (visit id)) (id : NodeId) :
    Restoring (table s visit id) := by
  intro r
  have hcaption : Restoring (putCaption s visit (Grid.collect s.tree id).1) := by
    unfold putCaption
    cases (Grid.collect s.tree id).1.caption with
    | none => exact edit Buffer.run_ensureNewline
    | some c =>
      exact ((edit Buffer.run_ensureNewline).comp (visits hvisit (s.tree.children c))).comp
        (edit Buffer.run_ensureNewline)
  have hgrid := hcaption.comp (putGrid s visit (Grid.collect s.tree id).1)
    (r.warn (Grid.collect s.tree id).2)
  rw [table_eq]
  dsimp only at hgrid ⊢
  split
  · exact { hgrid.trans (visits hvisit _ _) with }
  · exact { hgrid with }

/-! ### The descent -/

theorem rule (s : Scene) (hvisit : ∀ id, Restoring (visit id)) (id : NodeId) (e : Element) :
    Restoring (rule s visit id e) := by
  have hbelow : Restoring (children s visit id) := visits hvisit (s.tree.children id)
  unfold Renderer.rule
  cases e.tag.role with
  | inline => exact hbelow
  | hidden => exact Restores.refl
  | head => exact visits hvisit _
  | paragraph => exact hbelow.inParagraph
  | block => exact hbelow.inBlock
  | lineBreak => exact lineBreak
  | ruler => exact ruler
  | heading => exact (hbelow.region _).inParagraph
  | link => exact hbelow.link e
  | image => exact image s e
  | media label => exact hbelow.media s label e
  | list numbered => exact hbelow.list numbered e
  | item => exact hbelow.item
  | quote => exact (hbelow.indented _).inParagraph
  | definition => exact (hbelow.indented _).inBlock
  | preformatted => exact hbelow.preformatted
  | table => exact table s hvisit id
  | face f => exact hbelow.region _

theorem content (s : Scene) (hvisit : ∀ id, Restoring (visit id)) (id : NodeId) (c : Content) :
    Restoring (content s visit id c) := by
  cases c with
  | document => exact visits hvisit _
  | text t => exact insertText s t
  | comment t => exact Restores.refl
  | element e => exact (rule s hvisit id e).inColors s e

theorem node (s : Scene) (levels : Nat) (id : NodeId) : Restoring (node s levels id) := by
  induction levels generalizing id with
  | zero => exact fun r => { Restores.refl r with }
  | succ levels ih =>
    intro r
    unfold Renderer.node
    cases s.tree.get? id with
    | none => exact .refl r
    | some n =>
      dsimp only
      split
      · exact { Restores.refl r with }
      · have hin := content s ih id n.content
          { r with visited := id :: r.visited, path := id :: r.path }
        exact { hin with path := congrArg List.tail hin.path }

end Restoring

theorem path_openRule (s : Scene) (id : NodeId) (e : Element) (r : Renderer) :
    (openRule s id e r).path = r.path := by
  unfold openRule
  cases e.tag.role with
  | image => exact (Restoring.image s e r).path
  | media label => exact (Restoring.media Restores.refl s label e r).path
  | link | table =>
    dsimp only
    split <;> rfl
  | _ => rfl

theorem fold_openRule (h : e.tag.role ≠ .preformatted) (r : Renderer) :
    (openRule s id e r).layout.fold = r.layout.fold := by
  unfold openRule
  cases hrole : e.tag.role with
  | preformatted => exact absurd hrole h
  | image => exact (Restoring.image s e r).fold
  | media label => exact (Restoring.media Restores.refl s label e r).fold
  | item => exact (Restoring.labelled r).fold
  | link | table =>
    dsimp only
    split <;> rfl
  | _ => rfl

theorem role_eq_preformatted {t : Tag} : t.role = .preformatted ↔ t = .pre := by
  cases t <;> decide

theorem path_closeRule (l : Layout) (q : Renderer) :
    (closeRule s visit id e l q).path = q.path := by
  unfold closeRule
  cases e.tag.role with
  | link =>
    dsimp only
    split <;> rfl
  | table => exact (Restoring.putGrid s visit _ _).path
  | _ => rfl

end Renderer

namespace Visit
open Renderer
variable {s : Scene} {v w : Visit} {c : Content}

theorem path_opened (s : Scene) (v : Visit) (c : Content) :
    (v.opened s c).path = v.id :: v.start.path := by
  cases c with
  | element e =>
    refine (path_openRule s v.id e _).trans ?_
    unfold openColors
    split <;> rfl
  | _ => rfl

theorem path_visits (s : Scene) (levels : Nat) (ids : List NodeId) (r : Renderer) :
    (visits (node s levels) ids r).path = r.path :=
  (Restoring.visits (Restoring.node s levels) ids r).path

theorem path_closed (s : Scene) (v : Visit) (c : Content) :
    (v.closed s c).path = v.id :: v.start.path := by
  have hfilled : (v.filled s c).path = v.id :: v.start.path :=
    (path_visits ..).trans (path_opened s v c)
  cases c with
  | element e => exact (path_closeRule _ _).trans hfilled
  | _ => exact hfilled

/-- A call goes one level down, to a node whose parent is at the head of the path. -/
theorem Calls.descends (h : Calls s v w) :
    v.levels = w.levels + 1 ∧ w.start.path = v.id :: v.start.path := by
  cases h with
  | shown h _ =>
    have hlevels := h.levels
    exact ⟨by dsimp only; omega, (path_visits ..).trans (path_opened ..)⟩
  | deferred h _ =>
    have hlevels := h.levels
    exact ⟨by dsimp only; omega, (path_visits ..).trans (path_closed ..)⟩

theorem Reaches.descends (h : Reaches s v w) :
    ∃ above, w.start.path = above ++ v.start.path ∧ v.levels = w.levels + above.length := by
  induction h with
  | refl => exact ⟨[], rfl, rfl⟩
  | @tail u w _ hcall ih =>
    obtain ⟨above, hpath, hlevels⟩ := ih
    obtain ⟨hlevel, hhead⟩ := hcall.descends
    refine ⟨u.id :: above, ?_, ?_⟩
    · rw [hhead, hpath]
      rfl
    · rw [List.length_cons]
      omega

theorem fold_opened (h : v.Enters s c) (htag : s.tree.tag? v.id ≠ some .pre) :
    (v.opened s c).layout.fold = v.start.layout.fold := by
  cases c with
  | element e =>
    have helement : s.tree.element? v.id = some e := by
      unfold Tree.element?
      rw [h.content]
    have hrole : e.tag.role ≠ .preformatted := fun hrole => htag <| by
      rw [Tree.tag?, helement, Option.map_some, role_eq_preformatted.1 hrole]
    exact (fold_openRule hrole _).trans (congrArg Layout.fold (layout_openColors e _))
  | text t => exact (Restoring.insertText s t _).fold
  | _ => rfl

/-- Only preformatted text is folded otherwise than what is around it. -/
theorem Calls.verbatim (h : Calls s v w) (hw : w.start.layout.fold = .verbatim) :
    v.start.layout.fold = .verbatim ∨ s.tree.tag? v.id = some .pre := by
  cases h with
  | @shown c before after x h hids =>
    have hopened : (v.opened s c).layout.fold = .verbatim :=
      (Restoring.visits (Restoring.node s (v.levels - 1)) before (v.opened s c)).fold.symm.trans hw
    by_cases htag : s.tree.tag? v.id = some .pre
    · exact .inr htag
    · exact .inl ((fold_opened h htag).symm.trans hopened)
  | @deferred c before after x h hids =>
    have hclosed : (v.closed s c).layout.fold = .verbatim :=
      (Restoring.visits (Restoring.node s (v.levels - 1)) before (v.closed s c)).fold.symm.trans hw
    have hbase := congrArg Layout.fold (base_closed s v c)
    exact .inl (hbase.symm.trans hclosed)

/-- What is not wrapped is in preformatted text. -/
theorem Reaches.verbatim (h : Reaches s v w) (hv : v.start.layout.fold = .wrap)
    (hw : w.start.layout.fold = .verbatim) : ∃ x ∈ w.start.path, s.tree.tag? x = some .pre := by
  induction h with
  | refl => exact FoldMode.noConfusion (hv.symm.trans hw)
  | @tail u w _ hcall ih =>
    rw [hcall.descends.2]
    rcases hcall.verbatim hw with hfold | htag
    · obtain ⟨x, hx, htag⟩ := ih hfold
      exact ⟨x, List.mem_cons_of_mem _ hx, htag⟩
    · exact ⟨u.id, List.mem_cons_self, htag⟩

/-- A visit restores the context; the levels left to a visit below are told by the path that it
starts with. -/
theorem restores_result (s : Scene) (v : Visit) : Restores v.start (v.result s) ∧
    ∀ w, Reaches s v w →
      ∃ above, w.start.path = above ++ v.start.path ∧ v.levels = w.levels + above.length :=
  ⟨Restoring.node s v.levels v.id v.start, fun _ h => h.descends⟩

/-- A list item that holds a numbered list. -/
def listInItem : Tree :=
  let inner : Item := .element "li".toList [] [.text "x".toList]
  (Loaded.ofItems [.element "li".toList [] [.element "ol".toList [] [inner]]]).tree

theorem restores_result_listInItem :
    let s : Scene := { tree := listInItem }
    let layout : Layout := { width := 20, indentation := 2, list := .number 3 }
    let v : Visit := ⟨6, 1, { page := { buffer := { regions := [0] }, layout }, path := [0] }⟩
    Restores v.start (v.result s) ∧ (v.result s).layout.list = .number 4 ∧
      ∃ w, Reaches s v w ∧ w.id = 2 ∧
        ∃ above, w.start.path = above ++ [0] ∧ 6 = w.levels + above.length := by
  intro s layout v
  obtain ⟨hrestores, hdescends⟩ := restores_result s v
  have henters : v.Enters s (.element (.ofName "li".toList [])) := ⟨by decide, rfl, by decide⟩
  have hcall := @Calls.shown s v _ [] _ 2 henters rfl
  exact ⟨hrestores, by decide +kernel, _, .single hcall, rfl, hdescends _ (.single hcall)⟩

end Visit
end MarkupText
