import MarkupText.Proofs.Flow.Depth
import MarkupText.Proofs.Render.Edits

/-!
# Descents in step

Two descents are in step (`Renderer.InStep`) if they have written the same page with the same colors
in force and the same requests; of the rest, which no rule looks at, it matters only that it stays
in some relation. Every rule keeps two descents in step if what it shows of its content does.
-/

namespace MarkupText.Renderer

/-- What a descent has written, and with which colors. -/
def bare (r : Renderer) : Renderer :=
  { page := r.page.atDepth 0, styles := r.styles, images := r.images }

/-- What a descent carries besides: how many tables are around, the nodes on the way and those
entered, and the cells kept. -/
structure Aside where
  depth : Nat
  path : List NodeId
  visited : List NodeId
  cache : CellCache

def aside (r : Renderer) : Aside := ⟨r.layout.tableDepth, r.path, r.visited, r.cache⟩

/-- Two descents that have written the same, with the rest in a relation. -/
structure InStep (P : Aside → Aside → Prop) (r₁ r₂ : Renderer) : Prop where
  bare : r₁.bare = r₂.bare
  aside : P r₁.aside r₂.aside

/-- Two steps that keep descents in step. -/
def Keeps (P : Aside → Aside → Prop) (f₁ f₂ : Renderer → Renderer) : Prop :=
  ∀ ⦃r₁ r₂⦄, InStep P r₁ r₂ → InStep P (f₁ r₁) (f₂ r₂)

/-- Two steps that give the same and keep descents in step. -/
def Yields {α : Type} (P : Aside → Aside → Prop) (f₁ f₂ : Renderer → α × Renderer) : Prop :=
  ∀ ⦃r₁ r₂⦄, InStep P r₁ r₂ → (f₁ r₁).1 = (f₂ r₂).1 ∧ InStep P (f₁ r₁).2 (f₂ r₂).2

/-- A step that looks at what was written only, and changes nothing else. -/
structure Overt (f : Renderer → Renderer) : Prop where
  bare : ∀ r, (f r).bare = (f r.bare).bare
  aside : ∀ r, (f r).aside = r.aside

variable {P : Aside → Aside → Prop} {f g f₁ f₂ g₁ g₂ body₁ body₂ : Renderer → Renderer}
  {r₁ r₂ : Renderer}

namespace InStep

theorem styles (h : InStep P r₁ r₂) : r₁.styles = r₂.styles :=
  have h := congrArg Renderer.styles h.bare; h

theorem buffer (h : InStep P r₁ r₂) : r₁.buffer = r₂.buffer :=
  have h := congrArg Renderer.buffer h.bare; h

theorem images (h : InStep P r₁ r₂) : r₁.images = r₂.images :=
  have h := congrArg Renderer.images h.bare; h

theorem layout {α : Type} (h : InStep P r₁ r₂) (read : Layout → α)
    (hread : ∀ l, read { l with tableDepth := 0 } = read l) : read r₁.layout = read r₂.layout := by
  have h := congrArg (fun r : Renderer => read r.layout) h.bare
  exact (hread _).symm.trans (h.trans (hread _))

theorem overt (h : InStep P r₁ r₂) (hf : Overt f) : InStep P (f r₁) (f r₂) where
  bare := by rw [hf.bare, h.bare, ← hf.bare]
  aside := by
    rw [hf.aside, hf.aside]
    exact h.aside

end InStep

namespace Overt

theorem comp (hf : Overt f) (hg : Overt g) : Overt (fun r => g (f r)) where
  bare := fun r => by rw [hg.bare, hf.bare, ← hg.bare]
  aside := fun r => by rw [hg.aside, hf.aside]

theorem onBuffer (f : Buffer → Buffer) : Overt (·.onBuffer f) := ⟨fun _ => rfl, fun _ => rfl⟩

theorem onLayout {f : Layout → Layout}
    (hf : ∀ l depth, f { l with tableDepth := depth } = { f l with tableDepth := depth }) :
    Overt (·.onLayout f) where
  bare := fun r => (congrArg (fun l : Layout =>
    { page := ⟨r.buffer, { l with tableDepth := 0 }⟩, styles := r.styles
      images := r.images : Renderer }) (hf r.layout 0)).symm
  aside := fun r =>
    have h := congrArg Layout.tableDepth (hf r.layout r.layout.tableDepth)
    congrArg (fun depth => Aside.mk depth r.path r.visited r.cache) h

theorem warn (ws : List Warning) : Overt (·.warn ws) := ⟨fun _ => rfl, fun _ => rfl⟩

theorem insertText (s : Scene) (t : Text) : Overt (insertText s t) where
  bare := fun r => by
    have h := Page.insert_atDepth s.options.rules r.page 0 t
    unfold Renderer.insertText Renderer.onPage Renderer.bare
    dsimp only
    rw [h]
    rfl
  aside := fun r => by
    have h : (r.page.insert s.options.rules t).layout.tableDepth = r.page.layout.tableDepth := by
      rw [Page.layout_insert]
      split <;> rfl
    exact congrArg (fun depth => Aside.mk depth r.path r.visited r.cache) h

/-- A step may depend on what was written. -/
theorem dependent {α : Type} {f : α → Renderer → Renderer} (read : Renderer → α)
    (hread : ∀ r, read r.bare = read r) (hf : ∀ a, Overt (f a)) :
    Overt (fun r => f (read r) r) where
  bare := fun r => by rw [(hf _).bare, hread]
  aside := fun r => (hf _).aside r

theorem indent : Overt (·.onPage (·.indent)) where
  bare := fun r => by
    have h := Page.indent_atDepth r.page 0
    unfold Renderer.onPage Renderer.bare
    dsimp only
    rw [h]
    rfl
  aside := fun r => by
    have h : r.page.indent.layout.tableDepth = r.page.layout.tableDepth := by
      unfold Page.indent
      split <;> rfl
    exact congrArg (fun depth => Aside.mk depth r.path r.visited r.cache) h

theorem labelled : Overt labelled :=
  dependent (fun r => labelText r.layout.list) (fun _ => rfl) fun t =>
    (((onBuffer (·.ensureNewline)).comp indent).comp (onBuffer (·.pushLabel t))).comp
      (onLayout (f := ({ · with kind := .text })) fun _ _ => rfl)

theorem lineBreak : Overt lineBreak := (onBuffer _).comp (onLayout fun _ _ => rfl)

theorem ruler : Overt ruler := by
  have hput (size : Nat × Nat) : Overt fun r => (r.onBuffer (·.putRuler size.1
      (max (size.2 - size.1) 1))).onLayout ({ · with kind := .text }) :=
    (onBuffer _).comp (onLayout fun _ _ => rfl)
  have heq : Renderer.ruler = fun r => (r.onBuffer (·.putRuler r.layout.indentation
      (max (r.layout.width - r.layout.indentation) 1))).onLayout ({ · with kind := .text }) :=
    funext ruler_eq
  rw [heq]
  exact dependent (fun r => (r.layout.indentation, r.layout.width)) (fun _ => rfl) hput

theorem requestImage (s : Scene) (e : Element) (source : Text) (start : Nat) :
    Overt (requestImage s e source start) where
  bare := fun r => by
    have hbuffer : r.bare.buffer = r.buffer := rfl
    unfold Renderer.requestImage
    rw [hbuffer]
    cases r.buffer.visibleRange start r.buffer.size <;> rfl
  aside := fun r => by
    unfold Renderer.requestImage
    cases r.buffer.visibleRange start r.buffer.size <;> rfl

theorem image (s : Scene) (e : Element) : Overt (image s e) where
  bare := fun r => by
    have hinsert := Page.insert_atDepth s.options.rules (r.page.onBuffer (·.openRegion)) 0
      (placeholder (altText e))
    have hlayout : r.bare.layout.inhibitImages = r.layout.inhibitImages := rfl
    rw [image_eq, image_eq, hlayout]
    cases fetchableSource? s e with
    | none => exact (insertText s (altText e)).bare r
    | some source =>
      cases r.layout.inhibitImages with
      | true => rfl
      | false =>
        have hopen : r.bare.page.onBuffer (·.openRegion) =
          (r.page.onBuffer (·.openRegion)).atDepth 0 := rfl
        simp only [hopen, hinsert]
        generalize Page.insert _ _ _ = q
        exact (requestImage s e source _).bare _
  aside := fun r => by
    obtain ⟨page, images, heq, -, hlayout⟩ := image_spec (fun _ _ _ h => h) s e r
    rw [heq]
    have h := congrArg (fun l : Layout => Aside.mk l.tableDepth r.path r.visited r.cache) hlayout
    exact h

end Overt

/-! ### Rules around content -/

namespace Keeps

theorem overt (hf : Overt f) : Keeps P f f := fun _ _ h => h.overt hf

theorem comp (hf : Keeps P f₁ f₂) (hg : Keeps P g₁ g₂) :
    Keeps P (fun r => g₁ (f₁ r)) (fun r => g₂ (f₂ r)) :=
  fun _ _ h => hg (hf h)

theorem foldl {visit₁ visit₂ : NodeId → Renderer → Renderer} {as bs : List NodeId}
    (h : List.Forall₂ (fun a b => Keeps P (visit₁ a) (visit₂ b)) as bs) :
    Keeps P (fun r => as.foldl (fun r id => visit₁ id r) r)
      (fun r => bs.foldl (fun r id => visit₂ id r) r) := by
  induction h with
  | nil => exact fun _ _ hr => hr
  | cons hab _ ih => exact hab.comp ih

theorem inParagraph (h : Keeps P body₁ body₂) : Keeps P (inParagraph body₁) (inParagraph body₂) :=
  ((overt (.onBuffer (·.ensureParagraph))).comp h).comp (overt (.onBuffer (·.ensureParagraph)))

theorem inBlock (h : Keeps P body₁ body₂) : Keeps P (inBlock body₁) (inBlock body₂) :=
  ((overt (.onBuffer (·.ensureNewline))).comp h).comp (overt (.onBuffer (·.ensureNewline)))

theorem region (mark : Mark) (h : Keeps P body₁ body₂) :
    Keeps P (region mark body₁) (region mark body₂) := by
  intro r₁ r₂ hr
  rw [region_eq, region_eq]
  exact (h (hr.overt (.onBuffer _))).overt (.onBuffer _)

theorem indented (extra : Nat) (h : Keeps P body₁ body₂) :
    Keeps P (indented extra body₁) (indented extra body₂) := by
  intro r₁ r₂ hr
  have hsaved := hr.layout (·.indentation) fun _ => rfl
  unfold Renderer.indented
  dsimp only
  rw [hsaved]
  exact (h (hr.overt (.onLayout fun _ _ => rfl))).overt (.onLayout fun _ _ => rfl)

theorem link (e : Element) (h : Keeps P body₁ body₂) : Keeps P (link e body₁) (link e body₂) := by
  unfold Renderer.link
  cases e.filledAttr? "href" with
  | none => exact h
  | some href => exact region _ h

theorem media (s : Scene) (label : String) (e : Element) (h : Keeps P body₁ body₂) :
    Keeps P (media s label e body₁) (media s label e body₂) := by
  unfold Renderer.media
  cases e.filledAttr? "src" with
  | none => exact h
  | some source => exact region _ (overt (.insertText s _))

theorem list (numbered : Bool) (e : Element) (h : Keeps P body₁ body₂) :
    Keeps P (list numbered e body₁) (list numbered e body₂) := by
  intro r₁ r₂ hr
  have hsaved := hr.layout (·.list) fun _ => rfl
  unfold Renderer.list
  dsimp only
  rw [hsaved]
  refine InStep.overt ?_ (.onBuffer _)
  refine InStep.overt (h ?_) (.onLayout fun _ _ => rfl)
  exact (hr.overt (.onBuffer _)).overt (.onLayout fun _ _ => rfl)

theorem item (h : Keeps P body₁ body₂) : Keeps P (item body₁) (item body₂) := by
  intro r₁ r₂ hr
  have hlabel := hr.layout (·.list) fun _ => rfl
  rw [item_eq, item_eq, hlabel]
  refine InStep.overt ?_ (.onLayout fun _ _ => rfl)
  exact (indented _ h (hr.overt .labelled)).overt (.onBuffer _)

theorem preformatted (h : Keeps P body₁ body₂) :
    Keeps P (preformatted body₁) (preformatted body₂) := by
  refine inParagraph fun r₁ r₂ hr => ?_
  have hsaved := hr.layout (·.fold) fun _ => rfl
  rw [hsaved]
  exact (region _ h (hr.overt (.onLayout fun _ _ => rfl))).overt (.onLayout fun _ _ => rfl)

theorem inColors (s : Scene) (e : Element) (h : Keeps P body₁ body₂) :
    Keeps P (inColors s e body₁) (inColors s e body₂) := by
  intro r₁ r₂ hr
  by_cases hframe : e.frame.1.isEmpty = true
  · rw [inColors_eq_of_isEmpty hframe, inColors_eq_of_isEmpty hframe]
    exact h (hr.overt (.warn _))
  · rw [inColors_eq hframe, inColors_eq hframe]
    have hpush : Overt fun r => { r.warn e.frame.2 with styles := e.frame.1 :: r.styles }.onBuffer
      (·.openRegion) := ⟨fun _ => rfl, fun _ => rfl⟩
    have hpop : Overt fun r => { r with styles := r.styles.tail }.onBuffer
      (·.endColors (visibleColors s r.styles)) := ⟨fun _ => rfl, fun _ => rfl⟩
    exact (h (hr.overt hpush)).overt hpop

end Keeps
end MarkupText.Renderer
