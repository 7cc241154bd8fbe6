import MarkupText.Proofs.Buffer.LineEnds
import MarkupText.Proofs.Render.Places
import MarkupText.Proofs.Tree.Built

/-!
# Blocks keep to lines of their own

Behind every block that shows something a line ends, unless the block ends with the label of an item
that shows nothing more (`closes_node`). So siblings that are blocks share no line, if the first of
them does not end like that (`not_sameLine_of_siblings`). Each rule has one lemma, which carries
along whether the visible character written last is one of a label.
-/

namespace MarkupText

open Text

namespace Buffer
variable {b : Buffer}

/-- The buffers have the same text and label. -/
structure Alike (b c : Buffer) : Prop where
  text : c.text = b.text
  labelEnd : c.labelEnd = b.labelEnd

theorem Alike.openRegion (b : Buffer) : Alike b b.openRegion := ⟨rfl, rfl⟩

theorem Alike.annotate (b : Buffer) (start stop : Nat) (mark : Mark) :
    Alike b (b.annotate start stop mark) :=
  ⟨text_annotate .., labelEnd_annotate ..⟩

theorem Alike.markVisible (b : Buffer) (start stop : Nat) (mark : Mark) :
    Alike b (b.markVisible start stop mark) := by
  unfold Buffer.markVisible
  split
  · exact .annotate ..
  · exact ⟨rfl, rfl⟩

theorem Alike.endRegion (b : Buffer) (mark : Mark) : Alike b (b.endRegion mark) :=
  have h := Alike.markVisible b.closeRegion.2 b.closeRegion.1 b.closeRegion.2.size mark
  ⟨h.text.trans (text_closeRegion b), h.labelEnd.trans (labelEnd_closeRegion b)⟩

theorem Alike.endColors (b : Buffer) (colors : ColorPair) : Alike b (b.endColors colors) := by
  refine colorize_induct (P := Alike b) colors (fun c start stop hc => ?_)
    ⟨text_closeRegion b, labelEnd_closeRegion b⟩ _
  have h := Alike.markVisible c start stop (.colors colors.foreground colors.background)
  exact ⟨h.text.trans hc.text, h.labelEnd.trans hc.labelEnd⟩

theorem Labelled.alike {c : Buffer} {bare : Bool} (h : Alike b c) (hb : b.Labelled bare) :
    c.Labelled bare :=
  hb.of_eq h.text h.labelEnd

theorem Fresh.alike {c : Buffer} (h : Alike b c) (hb : b.Fresh) : c.Fresh := by
  unfold Fresh currentLine atLabelEnd Buffer.size at hb ⊢
  rwa [h.text, h.labelEnd]

end Buffer

theorem Text.isEmpty_visible (t : Text) : t.visible.isEmpty = t.blank := by
  rw [Bool.eq_iff_iff, List.isEmpty_iff, visible_eq_nil_iff, Text.blank, List.all_eq_true]

/-- A block that shows something and does not end with a bare label. -/
structure Place.Closed (p : Place) : Prop where
  block : p.element.tag.isBlock = true
  shows : p.inside.plain.blank = false
  notBare : p.bare = false

namespace Renderer

/-- The renderer `r'` has written, after `r`, what was read. A line ends behind each of the closed
places, and `step` tells whether the visible character written last is one of a label. -/
structure Closes (r r' : Renderer) (step : Bool → Bool) (places : Text → List Place)
    (out : Text × Reader) : Prop where
  reads : Reads RangeRule.tight r r' out
  label : ∀ {bare}, r.buffer.Labelled bare → r'.buffer.Labelled (step bare)
  ends : ∀ {bare before}, r.buffer.Labelled bare → r.buffer.text.visible = before.visible →
    ∀ p ∈ places before, p.Closed → r'.buffer.text.LineEnds p.upTo.visible.length

namespace Closes
variable {step step₁ step₂ : Bool → Bool} {places places₁ places₂ : Text → List Place}
  {r r' r'' : Renderer} {out : Text × Reader} {t u : Text} {a b : Reader}

/-- Something without elements is written. -/
theorem of_reads (hreads : Reads RangeRule.tight r r' out)
    (hlabel : ∀ {bare}, r.buffer.Labelled bare → r'.buffer.Labelled (step bare)) :
    Closes r r' step (fun _ => []) out :=
  ⟨hreads, hlabel, fun _ _ _ hp => by cases hp⟩

theorem refl (r : Renderer) : Closes r r id (fun _ => []) ([], r.reader) :=
  .of_reads (.refl _ r) id

theorem trans (h₁ : Closes r r' step₁ places₁ (t, a)) (h₂ : Closes r' r'' step₂ places₂ (u, b)) :
    Closes r r'' (step₂ ∘ step₁) (fun before => places₁ before ++ places₂ (before ++ t))
      (t ++ u, b) where
  reads := h₁.reads.trans h₂.reads
  label hr := h₂.label (h₁.label hr)
  ends hr hbefore p hp hclosed := by
    rcases List.mem_append.1 hp with hp | hp
    · exact h₂.reads.run.lineEnds (h₁.ends hr hbefore p hp hclosed)
    · have hvisible := h₁.reads.run.visible
      rw [hbefore, ← visible_append] at hvisible
      exact h₂.ends (h₁.label hr) hvisible p hp hclosed

theorem before {f : Buffer → Buffer} (hf : r.buffer.Flow [] (f r.buffer))
    (h : Closes (r.onBuffer f) r' step places out) : Closes r r' step places out where
  reads := h.reads.before hf.run
  label hr := h.label (hr.blank hf)
  ends hr hbefore := h.ends (hr.blank hf) (hf.visible_eq.trans hbefore)

theorem after {f : Buffer → Buffer} (h : Closes r r' step places out)
    (hf : r'.buffer.Flow [] (f r'.buffer)) : Closes r (r'.onBuffer f) step places out where
  reads := h.reads.after hf.run
  label hr := (h.label hr).blank hf
  ends hr hbefore p hp hclosed :=
    Buffer.Run.lineEnds (R := RangeRule.tight) hf.run (h.ends hr hbefore p hp hclosed)

end Closes

section Rules
variable {step : Bool → Bool} {places : Text → List Place} {r : Renderer}
  {body : Renderer → Renderer} {out : Text × Reader}

theorem closes_insertText (s : Scene) (t : Text) (r : Renderer) :
    Closes r (r.insertText s t) (· && t.blank) (fun _ => []) (t, r.reader) :=
  .of_reads (reads_insertText s t r) fun hr => by
    have hlabel := hr.flow (Page.flow_insert s.options.rules r.page t)
    rwa [isEmpty_visible] at hlabel

theorem closes_inParagraph (h : Closes (r.onBuffer (·.ensureParagraph))
    (body (r.onBuffer (·.ensureParagraph))) step places out) :
    Closes r (inParagraph body r) step places out :=
  .before r.buffer.flow_ensureParagraph (h.after (Buffer.flow_ensureParagraph _))

theorem closes_inBlock (h : Closes (r.onBuffer (·.ensureNewline))
    (body (r.onBuffer (·.ensureNewline))) step places out) :
    Closes r (inBlock body r) step places out :=
  .before r.buffer.flow_ensureNewline (h.after (Buffer.flow_ensureNewline _))

theorem closes_lineBreak (r : Renderer) :
    Closes r (lineBreak r) id (fun _ => []) ([], r.reader) :=
  .of_reads (reads_lineBreak r) fun hr => hr.blank r.buffer.flow_newline

theorem closes_indented {extra : Nat}
    (h : Closes (r.onLayout ({ · with indentation := r.layout.indentation + extra }))
      (body (r.onLayout ({ · with indentation := r.layout.indentation + extra }))) step places
      out) :
    Closes r (indented extra body r) step places out :=
  ⟨reads_indented h.reads, h.label, h.ends⟩

theorem closes_region {mark : Mark}
    (h : Closes (r.onBuffer (·.openRegion)) (body (r.onBuffer (·.openRegion))) step places out) :
    Closes r (region mark body r) step places out := by
  have hreads : Reads RangeRule.tight r (region mark body r) out :=
    reads_region (fun _ _ _ h => h) h.reads
  rw [region_eq] at hreads ⊢
  refine ⟨hreads, fun hr => ?_, fun hr hbefore p hp hclosed => ?_⟩
  · exact (h.label (hr.of_eq rfl rfl)).alike (.endRegion _ mark)
  · have hends := h.ends (hr.of_eq rfl rfl) hbefore p hp hclosed
    rwa [← (Buffer.Alike.endRegion _ mark).text] at hends

theorem closes_preformatted
    (h : ∀ r', r'.layout.indentation = r.layout.indentation → r'.layout.width = r.layout.width →
      r'.layout.inhibitImages = r.layout.inhibitImages → r'.reader = r.reader →
      Closes r' (body r') step places out) :
    Closes r (preformatted body r) step places out := by
  refine closes_inParagraph ?_
  generalize hq : r.onBuffer (·.ensureParagraph) = q
  have hregion : Closes (q.onLayout ({ · with fold := .verbatim }))
      ((q.onLayout ({ · with fold := .verbatim })).region (.face .monospace) body) step places
      out := by
    subst hq
    exact closes_region (h _ rfl rfl rfl rfl)
  have hlayout := congrArg (fun l : Layout => { l with fold := q.layout.fold }) hregion.reads.layout
  exact ⟨⟨hregion.reads.run, hlayout, hregion.reads.visited⟩, hregion.label, hregion.ends⟩

theorem closes_ruler (r : Renderer) :
    let dashes : Text := List.replicate (max 1 (r.layout.width - r.layout.indentation)) '-'
    Closes r (ruler r) (· && dashes.blank) (fun _ => []) (dashes, r.reader) := by
  intro dashes
  refine .of_reads (reads_ruler (fun _ _ _ h => h) r) fun hr => ?_
  rw [ruler_eq, Nat.max_comm]
  have hblank : r.buffer.Flow []
      (r.buffer.ensureNewline.push (spaces r.layout.indentation)) :=
    r.buffer.flow_ensureNewline.nil_trans (.push_blank _ (visible_spaces _))
  have hdashes := hr.flow (hblank.nil_trans (.push _ dashes))
  rw [isEmpty_visible] at hdashes
  exact (hdashes.alike (.annotate ..)).blank (Buffer.flow_newline _)

theorem closes_image (s : Scene) (e : Element) (hr : r.layout.inhibitImages = false) :
    Closes r (image s e r) (· && (imageText s e).blank) (fun _ => [])
      (imageText s e, r.reader) := by
  refine .of_reads (reads_image (fun _ _ _ h => h) s e hr) fun hlabel => ?_
  have himage := image_eq s e r
  cases hsource : fetchableSource? s e with
  | none =>
    have htext : imageText s e = altText e := by simp [imageText, hsource]
    rw [hsource] at himage
    rw [himage, htext]
    exact (closes_insertText s (altText e) r).label hlabel
  | some source =>
    have htext : imageText s e = placeholder (altText e) := by simp [imageText, hsource]
    simp only [hsource, hr, Bool.false_eq_true, if_false] at himage
    have hopen : (r.page.onBuffer (·.openRegion)).buffer.Labelled _ := hlabel.of_eq rfl rfl
    have hflow := hopen.flow (Page.flow_insert s.options.rules (r.page.onBuffer (·.openRegion))
      (placeholder (altText e)))
    rw [isEmpty_visible] at hflow
    generalize Page.insert _ _ _ = q at himage hflow
    have hclosed := hflow.of_eq q.buffer.text_closeRegion q.buffer.labelEnd_closeRegion
    rw [himage, htext]
    unfold requestImage
    split
    · exact hclosed
    · exact hclosed.alike (.annotate ..)

theorem closes_list {numbered : Bool} {e : Element} {t : Text} {a : Reader}
    (h : Closes ((r.onBuffer (separateList (r.layout.list != .none))).onLayout
        ({ · with list := firstLabel numbered e }))
      (body ((r.onBuffer (separateList (r.layout.list != .none))).onLayout
        ({ · with list := firstLabel numbered e }))) step places (t, a)) :
    Closes r (list numbered e body r) step places (t, { a with label := r.layout.list }) := by
  have hbody : Closes (r.onBuffer (separateList (r.layout.list != .none)))
      ((body ((r.onBuffer (separateList (r.layout.list != .none))).onLayout
        ({ · with list := firstLabel numbered e }))).onLayout ({ · with list := r.layout.list }))
      step places (t, { a with label := r.layout.list }) :=
    ⟨⟨h.reads.run, congrArg (fun l : Layout => { l with list := r.layout.list }) h.reads.layout,
      h.reads.visited⟩, h.label, h.ends⟩
  exact .before (flow_separateList _ _) (hbody.after (flow_separateList _ _))

theorem closes_labelled (r : Renderer) :
    Closes r (labelled r) (fun _ => true) (fun _ => []) (labelText r.layout.list, r.reader) :=
  .of_reads (reads_labelled r) fun _ => .pushLabel _ _

theorem closes_item {t : Text} {a : Reader}
    (h : ∀ r', r'.layout.indentation = r.layout.indentation + (labelText r.layout.list).width →
      r'.layout.width = r.layout.width → r'.layout.inhibitImages = r.layout.inhibitImages →
      r'.reader = r.reader → Closes r' (body r') step places (t, a)) :
    Closes r (item body r) (fun _ => step true)
      (fun before => places (before ++ labelText r.layout.list))
      (labelText r.layout.list ++ t, { a with label := nextLabel a.label }) := by
  have hlabel := closes_labelled r
  have hbody : Closes (labelled r)
      (indented (labelText r.layout.list).width body (labelled r)) step places (t, a) := by
    refine closes_indented (h _ ?_ hlabel.reads.width hlabel.reads.inhibitImages
      hlabel.reads.reader_eq)
    exact congrArg (· + _) hlabel.reads.indentation
  have hitem := (hlabel.trans hbody).after (Buffer.flow_ensureNewline _)
  have hlayout :=
    congrArg (fun l : Layout => { l with list := nextLabel l.list }) hitem.reads.layout
  exact ⟨⟨hitem.reads.run, hlayout, hitem.reads.visited⟩, hitem.label, hitem.ends⟩

theorem closes_inColors {s : Scene} {e : Element}
    (h : ∀ r', r'.layout = r.layout → r'.visited = r.visited →
      Closes r' (body r') step places out) :
    Closes r (inColors s e body r) step places out := by
  have hreads := reads_inColors (s := s) (e := e) (fun _ _ _ h => h)
    fun r' hlayout hvisited => (h r' hlayout hvisited).reads
  by_cases hframe : e.frame.1.isEmpty = true
  · rw [inColors_eq_of_isEmpty hframe] at hreads ⊢
    have hbody := h (r.warn e.frame.2) rfl rfl
    exact ⟨hreads, hbody.label, hbody.ends⟩
  · rw [inColors_eq hframe] at hreads ⊢
    have hbody := h ({ r.warn e.frame.2 with styles := e.frame.1 :: r.styles }.onBuffer
      (·.openRegion)) rfl rfl
    refine ⟨hreads, fun hr => ?_, fun hr hbefore p hp hclosed => ?_⟩
    · exact (hbody.label (hr.of_eq rfl rfl)).alike (.endColors _ _)
    · have hends := hbody.ends (hr.of_eq rfl rfl) hbefore p hp hclosed
      rwa [← (Buffer.Alike.endColors _ _).text] at hends

end Rules

/-! ### Freshness behind a block -/

theorem fresh_separateList (nested : Bool) (b : Buffer) : (separateList nested b).Fresh := by
  unfold separateList
  split
  · exact b.fresh_ensureNewline
  · exact b.fresh_ensureParagraph

theorem fresh_rule (s : Scene) (visit : NodeId → Renderer → Renderer) (id : NodeId) {e : Element}
    (he : e.tag.isBlock = true) (r : Renderer) : (rule s visit id e r).buffer.Fresh := by
  unfold Tag.isBlock at he
  unfold rule
  cases hrole : e.tag.role with
  | paragraph => exact Buffer.fresh_ensureParagraph _
  | block => exact Buffer.fresh_ensureNewline _
  | ruler => exact .inl (Buffer.currentLine_newline _)
  | heading => exact Buffer.fresh_ensureParagraph _
  | list numbered => exact fresh_separateList _ _
  | item => exact Buffer.fresh_ensureNewline _
  | quote => exact Buffer.fresh_ensureParagraph _
  | definition => exact Buffer.fresh_ensureNewline _
  | preformatted => exact Buffer.fresh_ensureParagraph _
  | _ => simp [hrole] at he

theorem fresh_inColors {s : Scene} {e : Element} {body : Renderer → Renderer}
    (h : ∀ r, (body r).buffer.Fresh) (r : Renderer) : (inColors s e body r).buffer.Fresh := by
  by_cases hframe : e.frame.1.isEmpty = true
  · rw [inColors_eq_of_isEmpty hframe]
    exact h _
  · rw [inColors_eq hframe]
    exact (h _).alike (.endColors _ _)

/-! ### The descent -/

section Descent
variable {s : Scene} {visit : NodeId → Renderer → Renderer}
  {write : Nat → NodeId → Reader → Written × Reader}

/-- The renderer has written this after `r`, and lines end behind the blocks in it. -/
abbrev ClosesWritten (r r' : Renderer) (out : Written × Reader) : Prop :=
  Closes r r' (fun bare => out.1.bareAfter bare) (fun before => out.1.places before)
    (Written.reading out)

theorem account_closes : Account ClosesWritten where
  reads h := h.reads
  nil {r r'} hpage hvisited _ :=
    have hbuffer : r'.buffer = r.buffer := congrArg Page.buffer hpage
    .of_reads (.of_page_eq hpage hvisited) fun hr => hbuffer ▸ hr
  append h₁ h₂ := h₁.trans h₂
  entered _ _ _ h := ⟨⟨h.reads.run, h.reads.layout, h.reads.visited⟩, h.label, h.ends⟩

theorem closes_rule (h : Accounts ClosesWritten s visit write) (id : NodeId) (e : Element)
    (he : e.tag ≠ .table) (r : Renderer) (hr : Plain s r) :
    let out := Written.element s write r.layout.indentation id e r.reader
    Closes r (rule s visit id e r) (fun bare => (Written.inside id e out.1).bareAfter bare)
      (fun before => out.1.places before) (Written.reading out) := by
  have hbelow (r : Renderer) (hr : Plain s r) : ClosesWritten r (children s visit id r) _ :=
    account_closes.inOrder h (s.tree.children id) r hr
  unfold rule Written.element Written.bareAfter
  cases hrole : e.tag.role with
  | inline => exact hbelow r hr
  | hidden => exact .refl r
  | head => exact account_closes.inOrder h _ r hr
  | paragraph => exact closes_inParagraph (hbelow _ hr)
  | block => exact closes_inBlock (hbelow _ hr)
  | lineBreak => exact closes_lineBreak r
  | ruler =>
    -- the width in force is that of the scene: only cells are narrower
    have := closes_ruler r
    rwa [hr.1] at this
  | heading => exact closes_inParagraph (closes_region (hbelow _ hr))
  | link =>
    dsimp only
    unfold link
    split
    · exact closes_region (hbelow _ hr)
    · exact hbelow r hr
  | image => exact closes_image s e hr.2
  | media label =>
    dsimp only
    unfold media
    cases e.filledAttr? "src" with
    | none => exact hbelow r hr
    | some source =>
      exact closes_region (closes_insertText s label.toList (r.onBuffer (·.openRegion)))
  | list numbered => exact closes_list (hbelow _ hr)
  | item => exact closes_item fun _ => account_closes.below h id hr _
  | quote => exact closes_inParagraph (closes_indented (hbelow _ hr))
  | definition => exact closes_inBlock (closes_indented (hbelow _ hr))
  | preformatted => exact closes_preformatted fun _ => account_closes.below h id hr 0
  | table => exact absurd hrole (by revert he; cases e.tag <;> decide)
  | face f => exact closes_region (hbelow _ hr)

/-- Behind a block that is closed a line ends. -/
theorem Closes.inside {r r' : Renderer} {w : Written} {a : Reader} {id : NodeId} {e : Element}
    (h : Closes r r' (fun bare => (Written.inside id e w).bareAfter bare)
      (fun before => w.places before) (w.plain, a))
    (hfresh : e.tag.isBlock = true → r'.buffer.Fresh) :
    ClosesWritten r r' (.inside id e w, a) where
  reads := h.reads
  label := h.label
  ends {bare before} hr hbefore p hp hclosed := by
    rcases List.mem_append.1 hp with hp | hp
    · exact h.ends hr hbefore p hp hclosed
    · obtain rfl := List.mem_singleton.1 hp
      have hlabel := h.label hr
      have hbare : (Written.inside id e w).bareAfter bare = false := by
        have hshows : (Written.inside id e w).plain.blank = false := hclosed.shows
        exact (Written.bareAfter_of_not_blank hshows bare).trans hclosed.notBare
      rw [hbare] at hlabel
      have hvisible : r'.buffer.text.visible = visible (before ++ w.plain) := by
        rw [h.reads.run.visible, hbefore, visible_append]
      have hne : w.plain.visible ≠ [] := by
        rw [Ne, ← List.isEmpty_iff, isEmpty_visible, show w.plain.blank = false from hclosed.shows]
        exact Bool.false_ne_true
      have hends := Buffer.lineEnds_of_currentLine (hlabel.currentLine (hfresh hclosed.block))
        (by rw [hvisible, visible_append]; simp [hne])
      rwa [hvisible] at hends

/-- Descending from a node writes it, and lines end behind the blocks in it. -/
theorem closes_node (hs : s.tree.TableFree) (levels : Nat) :
    Accounts ClosesWritten s (node s levels) (Written.node s levels) := by
  refine account_closes.node hs (closes_insertText s) (fun {visit _} h id e he r hr => ?_) levels
  refine Closes.inside (closes_inColors fun r' hlayout hvisited => ?_)
    fun he => fresh_inColors (fresh_rule s visit id he) r
  have hreader : r'.reader = r.reader := by rw [reader, reader, hlayout, hvisited]
  have := closes_rule h id e he r' (by rwa [Plain, hlayout])
  rwa [hlayout, hreader] at this

end Descent

/-- What is finished ends its lines where they ended before, as far as something follows. -/
theorem lineEnds_finish {r : Renderer} {n : Nat} (h : r.buffer.text.LineEnds n)
    (hn : n < r.buffer.text.visible.length) : r.finish.text.LineEnds n := by
  obtain ⟨u, htext, -⟩ := dropEndWhile_append isBlank r.buffer.text
  have hcut : r.buffer.finish.1.LineEnds n :=
    LineEnds.of_append (htext ▸ h) (by rwa [Buffer.visible_finish])
  rcases text_finish_cases r with hfinish | hfinish
  · rwa [hfinish]
  · rw [hfinish]
    exact hcut.append_right _

end Renderer

open Renderer

/-- The result shows what is written, and two siblings that are blocks share no line of it, unless
the first of them ends with the label of an item that shows nothing more. -/
theorem not_sameLine_of_siblings (s : Scene) (hs : s.tree.TableFree) (ht : s.tree.SingleParent)
    (id : NodeId) (cache : CellCache) {parent : NodeId} {levels : Nat}
    (hlevels : s.tree.fitsIn levels parent = true) {p q : Place}
    (hp : p ∈ (Written.node s Tree.maxDepth 0 id {}).1.places [])
    (hq : q ∈ (Written.node s Tree.maxDepth 0 id {}).1.places [])
    (hpc : s.tree.IsParent parent p.id) (hqc : s.tree.IsParent parent q.id) (hne : p.id ≠ q.id)
    (hpb : p.element.tag.isBlock = true) (hqb : q.element.tag.isBlock = true)
    (hpq : p.Precedes q → p.bare = false) (hqp : q.Precedes p → q.bare = false) :
    let out := (renderWith s id cache).rendered.text
    out.visible = (Written.node s Tree.maxDepth 0 id {}).1.plain.visible ∧
      ∀ i j, p.Writes i → q.Writes j → ¬ out.SameLine i j := by
  have h := closes_node hs Tree.maxDepth id _ (plain_start s cache.clear)
  have hwithin := Written.within_node s Tree.maxDepth 0 id {}
  refine ⟨visible_of_reads h.reads, fun i j hi hj => ?_⟩
  -- a line ends behind the first of two places, which shows a character
  have hends {p q : Place} (hp : p ∈ (Written.node s Tree.maxDepth 0 id {}).1.places [])
      (hq : q ∈ (Written.node s Tree.maxDepth 0 id {}).1.places [])
      (hpb : p.element.tag.isBlock = true) (hbare : p.bare = false) (hprec : p.Precedes q)
      {i j : Nat} (hi : p.Writes i) (hj : q.Writes j) :
      (renderWith s id cache).rendered.text.LineEnds p.upTo.visible.length ∧
        p.upTo.visible.length ≤ j := by
    have hle : p.upTo.visible.length ≤ j := (length_visible_mono hprec).trans hj.1
    have hshows : p.inside.plain.blank = false := by
      rw [← isEmpty_visible, Bool.eq_false_iff]
      intro hempty
      have hlt := Nat.lt_of_le_of_lt hi.1 hi.2
      rw [Place.upTo, visible_append, List.isEmpty_iff.1 hempty, List.append_nil] at hlt
      exact Nat.lt_irrefl _ hlt
    have htotal : j < (node s Tree.maxDepth id (start s cache.clear)).buffer.text.visible.length := by
      have hall := length_visible_mono (Written.prefix_of_mem_places hq).2
      rw [h.reads.run.visible]
      exact Nat.lt_of_lt_of_le hj.2 hall
    exact ⟨lineEnds_finish (h.ends .empty rfl p hp ⟨hpb, hshows, hbare⟩) (by omega), hle⟩
  rcases Written.precedes_of_siblings ht hlevels hwithin hp hq hpc hqc hne with hprec | hprec
  · obtain ⟨hline, hle⟩ := hends hp hq hpb (hpq hprec) hprec hi hj
    exact hline.not_sameLine hi.2 hle
  · obtain ⟨hline, hle⟩ := hends hq hp hqb (hqp hprec) hprec hj hi
    rintro ⟨l, m, r, htext, hm, hall⟩
    exact hline.not_sameLine hj.2 hle ⟨l, m, r, htext, hm, fun k hk => hall k (by simp_all [or_comm])⟩

/-- A list of items, each with a text in it or with nothing. -/
def listOf (items : List Text) : Tree :=
  let item (t : Text) : Item := .element "li".toList [] (if t.isEmpty then [] else [.text t])
  (Loaded.ofItems [.element "ul".toList [] (items.map item)]).tree

/-- The place of an item with a text in it or with nothing. -/
def itemPlace (id : NodeId) (before t : Text) : Place where
  id := id
  element := .ofName "li".toList []
  before := before
  inside := .append (.text "* ".toList) (if t.isEmpty then .nil else .append (.text t) .nil)

/-- The writing of a list of two items shows both, and the places are theirs. -/
theorem mem_places_listOf :
    (itemPlace 2 [] ['a'] ∈ (Written.node { tree := listOf [['a'], ['b']] } Tree.maxDepth 0
        Tree.root {}).1.places [] ∧
      itemPlace 4 "* a".toList ['b'] ∈ (Written.node { tree := listOf [['a'], ['b']] }
        Tree.maxDepth 0 Tree.root {}).1.places []) ∧
    itemPlace 2 [] [] ∈ (Written.node { tree := listOf [[], ['x']] } Tree.maxDepth 0
        Tree.root {}).1.places [] ∧
      itemPlace 3 "* ".toList ['x'] ∈ (Written.node { tree := listOf [[], ['x']] }
        Tree.maxDepth 0 Tree.root {}).1.places [] :=
  ⟨⟨.head _, .tail _ (.head _)⟩, .head _, .tail _ (.head _)⟩

theorem not_sameLine_of_siblings_listOf :
    (itemPlace 2 [] ['a']).Writes 1 ∧ (itemPlace 4 "* a".toList ['b']).Writes 2 ∧
      ¬ (renderWith { tree := listOf [['a'], ['b']] } Tree.root {}).rendered.text.SameLine 1 2 := by
  have hp : (itemPlace 2 [] ['a']).Writes 1 := by unfold Place.Writes; decide
  have hq : (itemPlace 4 "* a".toList ['b']).Writes 2 := by unfold Place.Writes; decide
  have hlevels : (listOf [['a'], ['b']]).fitsIn 3 1 = true := by decide
  refine ⟨hp, hq, (not_sameLine_of_siblings { tree := listOf [['a'], ['b']] } (by decide)
    (Loaded.singleParent_ofItems _) Tree.root {} hlevels mem_places_listOf.1.1
    mem_places_listOf.1.2 ?_ ?_ (by decide) rfl rfl (fun _ => rfl) fun _ => rfl).2 1 2 hp hq⟩
  · exact .head _
  · exact .tail _ (.head _)

/-- The label of an item that shows nothing leaves its line to the next item. -/
theorem sameLine_of_emptyItem :
    let tree := listOf [[], ['x']]
    let p := itemPlace 2 [] []
    let q := itemPlace 3 "* ".toList ['x']
    let w := (Written.node { tree } Tree.maxDepth 0 Tree.root {}).1
    (tree.TableFree ∧ tree.SingleParent ∧ tree.fitsIn Tree.maxDepth Tree.root = true) ∧
      (p ∈ w.places [] ∧ q ∈ w.places []) ∧ (tree.IsParent 1 p.id ∧ tree.IsParent 1 q.id) ∧
      (p.element.tag = .li ∧ q.element.tag = .li) ∧ p.Writes 0 ∧ q.Writes 1 ∧ q.Writes 2 ∧
      (renderWith { tree } Tree.root {}).rendered.text = "* * x\n".toList ∧
      (renderWith { tree } Tree.root {}).rendered.text.SameLine 0 2 := by
  intro tree p q w
  have htext : (renderWith { tree } Tree.root {}).rendered.text = "* * x\n".toList := by
    decide +kernel
  refine ⟨⟨by decide, Loaded.singleParent_ofItems _, by decide⟩, mem_places_listOf.2,
    ⟨.head _, .tail _ (.head _)⟩, ⟨rfl, rfl⟩, ?_, ?_, ?_, htext, ?_⟩
  · unfold Place.Writes; decide
  · unfold Place.Writes; decide
  · unfold Place.Writes; decide
  · rw [htext]
    exact ⟨[], "* * x".toList, ['\n'], rfl, by decide, by decide⟩

end MarkupText
