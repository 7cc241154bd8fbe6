import MarkupText.Render.Renderer
import Mathlib.Data.List.Basic
import Mathlib.Data.List.Induction
import Mathlib.Data.List.Nodup

/-!
# What the cascade decides

Where several declarations compete, the last important one prevails and, if none is important, the
last of all (`Prevails`). So it is for the parts of one style text (`Style.mem_read_iff`) and again
for the frames of nested elements, taken from the outermost in (`StyleStack.lookup_eq_some_iff`);
within one element the style text hides the color given by an attribute, important or not
(`Layer.Declares`). Frames that come and go in pairs leave no trace (`StyleStack.after_balanced`).
`lookup_cascade` puts all of this together.
-/

namespace MarkupText

/-! ### Prevailing -/

/-- Of what the entries of a list declare, `d` prevails: it is the last that is important or, where
nothing important is declared, the last of all. -/
def Prevails {α β : Type} (declares : α → β → Prop) (important : β → Prop) (entries : List α)
    (d : β) : Prop :=
  ∃ before a after, entries = before ++ a :: after ∧ declares a d ∧
    (important d ∧ (∀ b ∈ after, ∀ d', declares b d' → ¬ important d') ∨
      (∀ b ∈ entries, ∀ d', declares b d' → ¬ important d') ∧
        ∀ b ∈ after, ∀ d', ¬ declares b d')

namespace Prevails
variable {α β γ : Type} {declares : α → β → Prop} {important : β → Prop} {entries : List α} {a : α}
  {d : β}

theorem not_nil : ¬ Prevails declares important [] d := by
  rintro ⟨before, a, after, heq, -⟩
  simp at heq

theorem exists_mem (h : Prevails declares important entries d) : ∃ a ∈ entries, declares a d := by
  obtain ⟨before, a, after, rfl, ha, -⟩ := h
  exact ⟨a, by simp, ha⟩

theorem map_iff (g : γ → α) (cs : List γ) :
    Prevails declares important (cs.map g) d ↔
      Prevails (fun c => declares (g c)) important cs d := by
  constructor
  · rintro ⟨before, a, after, heq, ha, hlast⟩
    obtain ⟨before, rest, rfl, rfl, hrest⟩ := List.map_eq_append_iff.1 heq
    obtain ⟨c, after, rfl, rfl, rfl⟩ := List.map_eq_cons_iff.1 hrest
    refine ⟨before, c, after, rfl, ha, ?_⟩
    simpa only [List.forall_mem_map] using hlast
  · rintro ⟨before, c, after, rfl, hc, hlast⟩
    refine ⟨before.map g, g c, after.map g, by simp, hc, ?_⟩
    simpa only [List.forall_mem_map] using hlast

/-- One entry more: what it declares prevails unless something else alone is important. -/
theorem concat_iff (hone : ∀ d d', declares a d → declares a d' → d' = d) :
    Prevails declares important (entries ++ [a]) d ↔
      declares a d ∧ (important d ∨ ∀ b ∈ entries, ∀ d', declares b d' → ¬ important d') ∨
        Prevails declares important entries d ∧
          ∀ d', declares a d' → important d ∧ ¬ important d' := by
  constructor
  · rintro ⟨before, b, after, heq, hb, hlast⟩
    rcases List.eq_nil_or_concat' after with rfl | ⟨after, c, rfl⟩
    · obtain ⟨rfl, hcons⟩ := List.append_inj' heq rfl
      obtain rfl : a = b := (List.cons.inj hcons).1
      refine .inl ⟨hb, hlast.imp And.left fun h c hc => h.1 c (List.mem_append_left _ hc)⟩
    · have heq' : entries ++ [a] = (before ++ b :: after) ++ [c] := by simpa using heq
      obtain ⟨rfl, hcons⟩ := List.append_inj' heq' rfl
      obtain rfl : a = c := (List.cons.inj hcons).1
      right
      rcases hlast with ⟨hd, hafter⟩ | ⟨hall, hafter⟩
      · exact ⟨⟨before, b, after, rfl, hb, .inl ⟨hd, fun c hc =>
          hafter c (List.mem_append_left _ hc)⟩⟩, fun d' hd' => ⟨hd, hafter a (by simp) d' hd'⟩⟩
      · exact ⟨⟨before, b, after, rfl, hb, .inr ⟨fun c hc => hall c (List.mem_append_left _ hc),
          fun c hc => hafter c (List.mem_append_left _ hc)⟩⟩,
          fun d' hd' => absurd hd' (hafter a (by simp) d')⟩
  · rintro (⟨ha, hlast⟩ | ⟨⟨before, b, after, rfl, hb, hlast⟩, ha⟩)
    · refine ⟨entries, a, [], rfl, ha, ?_⟩
      by_cases hd : important d
      · exact .inl ⟨hd, fun c hc => by cases hc⟩
      · refine .inr ⟨fun c hc d' hd' => ?_, fun c hc => by cases hc⟩
        rcases List.mem_append.1 hc with hc | hc
        · exact hlast.resolve_left hd c hc d' hd'
        · rw [List.mem_singleton.1 hc] at hd'
          rwa [hone d d' ha hd']
    · refine ⟨before, b, after ++ [a], by simp, hb, ?_⟩
      have hnone (hd : ¬ important d) (d' : β) : ¬ declares a d' := fun hd' => hd (ha d' hd').1
      rcases hlast with ⟨hd, hafter⟩ | ⟨hall, hafter⟩
      · refine .inl ⟨hd, fun c hc d' hd' => ?_⟩
        rcases List.mem_append.1 hc with hc | hc
        · exact hafter c hc d' hd'
        · exact (ha d' (List.mem_singleton.1 hc ▸ hd')).2
      · have hd : ¬ important d := hall b (by simp) d hb
        refine .inr ⟨fun c hc d' hd' => ?_, fun c hc d' hd' => ?_⟩
        · have hc' : c ∈ (before ++ b :: after) ++ [a] := by simpa using hc
          rcases List.mem_append.1 hc' with hc | hc
          · exact hall c hc d' hd'
          · exact absurd (List.mem_singleton.1 hc ▸ hd') (hnone hd d')
        · rcases List.mem_append.1 hc with hc | hc
          · exact hafter c hc d' hd'
          · exact hnone hd d' (List.mem_singleton.1 hc ▸ hd')

variable (hone : ∀ a d d', declares a d → declares a d' → d' = d)
include hone

/-- If anything important is declared, something important prevails. -/
theorem forall_not_important_iff : (∀ d, Prevails declares important entries d → ¬ important d) ↔
    ∀ a ∈ entries, ∀ d, declares a d → ¬ important d := by
  induction entries using List.reverseRecOn with
  | nil => exact ⟨fun _ a ha => absurd ha List.not_mem_nil, fun _ d hd => absurd hd not_nil⟩
  | append_singleton entries a ih =>
    constructor
    · intro h
      have ha (d : β) (hd : declares a d) : ¬ important d := fun hi =>
        h d ((concat_iff (hone a)).2 (.inl ⟨hd, .inl hi⟩)) hi
      have hentries := ih.1 fun d hd hi => h d ((concat_iff (hone a)).2
        (.inr ⟨hd, fun d' hd' => ⟨hi, ha d' hd'⟩⟩)) hi
      intro b hb
      rcases List.mem_append.1 hb with hb | hb
      · exact hentries b hb
      · rw [List.mem_singleton.1 hb]
        exact ha
    · intro h d hd
      obtain ⟨b, hb, hbd⟩ := hd.exists_mem
      exact h b hb d hbd

/-- If anything is declared, something prevails. -/
theorem exists_iff : (∃ d, Prevails declares important entries d) ↔
    ∃ a ∈ entries, ∃ d, declares a d := by
  constructor
  · rintro ⟨d, hd⟩
    obtain ⟨a, ha, had⟩ := hd.exists_mem
    exact ⟨a, ha, d, had⟩
  · induction entries using List.reverseRecOn with
    | nil => rintro ⟨a, ha, -⟩; cases ha
    | append_singleton entries a ih =>
      rintro ⟨b, hb, hbd⟩
      by_cases ha : ∃ d, declares a d
      · obtain ⟨d, hd⟩ := ha
        by_cases hkeep : important d ∨ ∀ b ∈ entries, ∀ d', declares b d' → ¬ important d'
        · exact ⟨d, (concat_iff (hone a)).2 (.inl ⟨hd, hkeep⟩)⟩
        · obtain ⟨hd', hentries⟩ := not_or.1 hkeep
          rw [← forall_not_important_iff hone] at hentries
          push Not at hentries
          obtain ⟨d', hprev, hi⟩ := hentries
          refine ⟨d', (concat_iff (hone a)).2 (.inr ⟨hprev, fun e he => ⟨hi, ?_⟩⟩)⟩
          rwa [hone a d e hd he]
      · have hb' : b ∈ entries := (List.mem_append.1 hb).resolve_right fun hmem =>
          ha (List.mem_singleton.1 hmem ▸ hbd)
        obtain ⟨d, hd⟩ := ih ⟨b, hb', hbd⟩
        exact ⟨d, (concat_iff (hone a)).2 (.inr ⟨hd, fun d' hd' => absurd ⟨d', hd'⟩ ha⟩)⟩

end Prevails

/-! ### One style text -/

namespace Style

/-- What one part of a style text declares for a property. -/
def PartDeclares (p : ColorProperty) (part : Text) (d : Declaration) : Prop :=
  readPart part = .declared d ∧ d.property = p

/-- The declarations with those of a further part. -/
def gather (ds : List Declaration) (part : Text) : List Declaration :=
  match readPart part with
  | .declared d => put d ds
  | _ => ds

theorem read_fst (t : Text) : (read t).1 = (t.splitOn ';').foldl gather [] := by
  refine List.foldl_hom Prod.fst (fun dw part => ?_) |>.symm
  unfold gather
  cases readPart part <;> rfl

theorem map_property_put (d : Declaration) (ds : List Declaration) :
    (put d ds).map (·.property) = if d.property ∈ ds.map (·.property) then ds.map (·.property)
      else ds.map (·.property) ++ [d.property] := by
  induction ds with
  | nil => rfl
  | cons e ds ih =>
    by_cases he : e.property = d.property
    · by_cases hkeep : (e.important && !d.important) = true <;> simp [put, he, hkeep]
    · have hd : d.property ≠ e.property := fun h => he h.symm
      simp only [put, he, if_false, List.map_cons, ih, List.mem_cons, hd, false_or]
      split <;> rfl

theorem nodup_put (d : Declaration) {ds : List Declaration} (h : (ds.map (·.property)).Nodup) :
    ((put d ds).map (·.property)).Nodup := by
  rw [map_property_put]
  split
  · exact h
  · exact List.concat_eq_append ▸ List.Nodup.concat ‹_› h

/-- A further declaration gives way to an important one only if it is not important itself, and takes
the place of any other. -/
theorem mem_put_iff {d e : Declaration} {ds : List Declaration}
    (h : (ds.map (·.property)).Nodup) : e ∈ put d ds ↔
      e = d ∧ (d.important ∨ ∀ e' ∈ ds, e'.property = d.property → ¬ e'.important) ∨
        e ∈ ds ∧ (e.property = d.property → e.important ∧ ¬ d.important) := by
  induction ds with
  | nil => simp [put]
  | cons c ds ih =>
    obtain ⟨hc, hds⟩ := List.nodup_cons.1 h
    by_cases hcd : c.property = d.property
    · have hne (e' : Declaration) (he' : e' ∈ ds) : e'.property ≠ d.property := fun heq =>
        hc (List.mem_map.2 ⟨e', he', heq.trans hcd.symm⟩)
      simp only [put, hcd, if_true, List.mem_cons, forall_eq_or_imp]
      by_cases hkeep : c.important ∧ ¬ d.important
      · simp only [hkeep, Bool.not_eq_true', Bool.and_eq_true]
        grind
      · grind
    · simp only [put, hcd, if_false, List.mem_cons, ih hds, forall_eq_or_imp]
      grind

theorem nodup_foldl_gather (parts : List Text) :
    ((parts.foldl gather []).map (·.property)).Nodup := by
  induction parts using List.reverseRecOn with
  | nil => exact List.nodup_nil
  | append_singleton parts part ih =>
    rw [List.foldl_concat, gather]
    split
    · exact nodup_put _ ih
    · exact ih

theorem PartDeclares.unique {p : ColorProperty} (part : Text) (d d' : Declaration)
    (h : PartDeclares p part d) (h' : PartDeclares p part d') : d' = d :=
  (Part.declared.inj (h.1.symm.trans h'.1)).symm

theorem mem_foldl_gather_iff (p : ColorProperty) (parts : List Text) (e : Declaration) :
    e ∈ parts.foldl gather [] ∧ e.property = p ↔
      Prevails (PartDeclares p) (fun d => d.important = true) parts e := by
  induction parts using List.reverseRecOn generalizing e with
  | nil => exact ⟨fun h => absurd h.1 List.not_mem_nil, fun h => absurd h Prevails.not_nil⟩
  | append_singleton parts part ih =>
    rw [List.foldl_concat, Prevails.concat_iff (PartDeclares.unique part),
      ← Prevails.forall_not_important_iff PartDeclares.unique, ← ih]
    simp only [← ih]
    have hnodup := nodup_foldl_gather parts
    generalize parts.foldl gather [] = ds at *
    unfold gather PartDeclares
    cases readPart part with
    | declared d =>
      simp only [mem_put_iff hnodup, Part.declared.injEq]
      grind
    | _ => simp

/-- A style text declares a property at most once, with the last important of its declarations of the
property or, if none is important, with the last. -/
theorem mem_read_iff (t : Text) (p : ColorProperty) (d : Declaration) :
    d ∈ (read t).1 ∧ d.property = p ↔
      Prevails (PartDeclares p) (fun d => d.important = true) (t.splitOn ';') d := by
  rw [read_fst]
  exact mem_foldl_gather_iff p _ d

theorem nodup_read (t : Text) : ((read t).1.map (·.property)).Nodup := by
  rw [read_fst]
  exact nodup_foldl_gather _

end Style

/-! ### One element -/

namespace Frame

theorem get_set (f : Frame) (p q : ColorProperty) (d : Declared) :
    (f.set q d).get p = if q = p then some d else f.get p := by
  cases p <;> cases q <;> rfl

theorem get_apply_iff (f : Frame) (p : ColorProperty) (d : Declared) {ds : List Declaration}
    (h : (ds.map (·.property)).Nodup) : (f.apply ds).get p = some d ↔
      (∃ e ∈ ds, e.property = p ∧ d = ⟨e.value, e.important⟩) ∨
        (∀ e ∈ ds, e.property ≠ p) ∧ f.get p = some d := by
  induction ds generalizing f with
  | nil => simp [apply]
  | cons e ds ih =>
    obtain ⟨he, hds⟩ := List.nodup_cons.1 h
    have ih := ih (f.set e.property ⟨e.value, e.important⟩) hds
    rw [get_set] at ih
    rw [apply, List.foldl_cons, ← apply, ih]
    by_cases hp : e.property = p
    · have hne (e' : Declaration) (he' : e' ∈ ds) : e'.property ≠ p := fun heq =>
        he (List.mem_map.2 ⟨e', he', heq.trans hp.symm⟩)
      grind
    · grind

end Frame

/-- What one element brings to the cascade: its style text and the colors its attributes give. -/
structure Layer where
  style : Text
  hint : ColorProperty → Option Color

namespace Layer

/-- The frame of an element. -/
def frame (l : Layer) : Frame :=
  Frame.apply
    { foreground := (l.hint .foreground).map (⟨·, false⟩)
      background := (l.hint .background).map (⟨·, false⟩) }
    (Style.read l.style).1

/-- What an element declares for a property: what prevails in its style text or, where that declares
nothing, the color its attributes give. -/
def Declares (p : ColorProperty) (l : Layer) (d : Declared) : Prop :=
  let parts := l.style.splitOn ';'
  (∃ e, Prevails (Style.PartDeclares p) (fun d => d.important = true) parts e ∧
    d = ⟨e.value, e.important⟩) ∨
  (∀ part ∈ parts, ∀ e, ¬ Style.PartDeclares p part e) ∧ ∃ c, l.hint p = some c ∧ d = ⟨c, false⟩

theorem get_frame_iff (l : Layer) (p : ColorProperty) (d : Declared) :
    l.frame.get p = some d ↔ l.Declares p d := by
  have hhint : ({ foreground := (l.hint .foreground).map (⟨·, false⟩)
                  background := (l.hint .background).map (⟨·, false⟩) } : Frame).get p =
      (l.hint p).map (⟨·, false⟩) := by
    cases p <;> rfl
  have hnone : (∀ e ∈ (Style.read l.style).1, e.property ≠ p) ↔
      ∀ part ∈ l.style.splitOn ';', ∀ e, ¬ Style.PartDeclares p part e := by
    have h : (∃ e, Prevails (Style.PartDeclares p) (fun d => d.important = true)
        (l.style.splitOn ';') e) ↔
          ∃ part ∈ l.style.splitOn ';', ∃ e, Style.PartDeclares p part e :=
      Prevails.exists_iff Style.PartDeclares.unique
    rw [← not_iff_not] at h
    simpa only [← Style.mem_read_iff, not_exists, not_and] using h
  rw [frame, Frame.get_apply_iff _ _ _ (Style.nodup_read l.style), hhint, hnone, Declares]
  simp only [← Style.mem_read_iff, Option.map_eq_some_iff, and_assoc, eq_comm (b := d)]

/-- The layer of an element of a document. -/
def ofElement (e : Element) : Layer where
  style := (e.filledAttr? "style").getD []
  hint
    | .foreground => (colorAttributes e.tag).1.bind fun a => (attributeColor e a).1
    | .background => (colorAttributes e.tag).2.bind fun a => (attributeColor e a).1

theorem frame_ofElement (e : Element) : (ofElement e).frame = e.frame.1 := by
  unfold frame ofElement Element.frame
  rcases colorAttributes e.tag with ⟨fg, bg⟩
  cases fg <;> cases bg <;> cases e.filledAttr? "style" <;> rfl

end Layer

/-! ### Nested elements -/

namespace StyleStack

/-- What is looked up among declarations, the innermost first. -/
theorem find_or_head_cons_eq_some_iff (e d : Declared) (ds : List Declared) :
    ((e :: ds).find? (·.important) <|> (e :: ds).head?) = some d ↔
      e = d ∧ (d.important ∨
        ∀ d', (ds.find? (·.important) <|> ds.head?) = some d' → ¬ d'.important) ∨
      (ds.find? (·.important) <|> ds.head?) = some d ∧ d.important ∧ ¬ e.important := by
  cases hfind : ds.find? (·.important) with
  | some d' =>
    have hd' : d'.important = true := List.find?_some hfind
    by_cases he : e.important = true
    · rw [List.find?_cons_of_pos he]
      grind
    · rw [List.find?_cons_of_neg he, hfind]
      grind
  | none =>
    have hds (d' : Declared) (h : ds.head? = some d') : ¬ d'.important :=
      List.find?_eq_none.1 hfind d' (List.mem_of_head? h)
    by_cases he : e.important = true
    · rw [List.find?_cons_of_pos he]
      grind
    · rw [List.find?_cons_of_neg he, hfind]
      grind

theorem find_or_head_eq_some_iff (s : StyleStack) (p : ColorProperty) (d : Declared) :
    ((s.declarations p).find? (·.important) <|> (s.declarations p).head?) = some d ↔
      Prevails (fun f d => f.get p = some d) (fun d => d.important = true) s.reverse d := by
  have hone (f : Frame) (d d' : Declared) (h : f.get p = some d) (h' : f.get p = some d') :
      d' = d := Option.some.inj (h'.symm.trans h)
  induction s generalizing d with
  | nil => exact ⟨fun h => absurd h (by simp [declarations]), fun h => absurd h Prevails.not_nil⟩
  | cons f s ih =>
    rw [List.reverse_cons, Prevails.concat_iff (hone f), ← Prevails.forall_not_important_iff hone]
    simp only [← ih]
    cases hf : f.get p with
    | none => simp [declarations, hf]
    | some e =>
      have hds : declarations (f :: s) p = e :: declarations s p := by simp [declarations, hf]
      rw [hds, find_or_head_cons_eq_some_iff]
      simp only [Option.some.injEq, forall_eq']

theorem lookup_eq_some_iff (s : StyleStack) (p : ColorProperty) (c : Color) :
    s.lookup p = some c ↔
      ∃ d, Prevails (fun f d => f.get p = some d) (fun d => d.important = true) s.reverse d ∧
        d.color = c := by
  simp only [lookup, Option.map_eq_some_iff, find_or_head_eq_some_iff]

/-- Entering an element, or leaving the innermost one. -/
inductive Step where
  | push (f : Frame)
  | pop

def Step.run (s : StyleStack) : Step → StyleStack
  | .push f => f :: s
  | .pop => s.tail

def Step.isPush : Step → Bool
  | .push _ => true
  | .pop => false

/-- The stack after some steps. -/
def after (s : StyleStack) (steps : List Step) : StyleStack := steps.foldl Step.run s

/-- No more is left than was entered, at any time, and all of that in the end. -/
structure Balanced (steps : List Step) : Prop where
  le_of_prefix (early : List Step) (h : early <+: steps) :
    early.countP (!·.isPush) ≤ early.countP (·.isPush)
  eq : steps.countP (!·.isPush) = steps.countP (·.isPush)

/-- While no more is left than was entered, the frames from before stay at the bottom. -/
theorem after_eq_append (s : StyleStack) {steps : List Step}
    (h : ∀ early, early <+: steps → early.countP (!·.isPush) ≤ early.countP (·.isPush)) :
    ∃ fs : List Frame, fs.length + steps.countP (!·.isPush) = steps.countP (·.isPush) ∧
      s.after steps = fs ++ s := by
  induction steps using List.reverseRecOn with
  | nil => exact ⟨[], rfl, rfl⟩
  | append_singleton steps step ih =>
    obtain ⟨fs, hlength, hafter⟩ := ih fun early hearly =>
      h early (hearly.trans (List.prefix_append _ _))
    have hend := h _ (List.prefix_refl _)
    simp only [List.countP_append, List.countP_singleton, after, List.foldl_concat] at hend ⊢
    rw [after] at hafter
    rw [hafter]
    cases step with
    | push f => exact ⟨f :: fs, by simp [Step.isPush] at *; omega, rfl⟩
    | pop =>
      cases fs with
      | nil => simp [Step.isPush] at *; omega
      | cons f fs => exact ⟨fs, by simp [Step.isPush] at *; omega, rfl⟩

theorem after_balanced (s : StyleStack) {steps : List Step} (h : Balanced steps) :
    s.after steps = s := by
  obtain ⟨fs, hlength, hafter⟩ := s.after_eq_append h.le_of_prefix
  have hfs : fs = [] := List.length_eq_zero_iff.1 (by have := h.eq; omega)
  rw [hafter, hfs, List.nil_append]

/-- The stack within nested elements, the innermost last. -/
def within (layers : List Layer) : StyleStack := after [] (layers.map fun l => .push l.frame)

theorem after_pushes (fs : List Frame) : after [] (fs.map .push) = fs.reverse := by
  induction fs using List.reverseRecOn with
  | nil => rfl
  | append_singleton fs f ih =>
    rw [after] at *
    simp [ih, Step.run]

theorem within_eq (layers : List Layer) : within layers = (layers.map Layer.frame).reverse := by
  rw [within, ← after_pushes, List.map_map]
  rfl

theorem lookup_within_eq_some_iff (layers : List Layer) (p : ColorProperty) (c : Color) :
    (within layers).lookup p = some c ↔
      ∃ d, Prevails (Layer.Declares p) (fun d => d.important = true) layers d ∧ d.color = c := by
  rw [lookup_eq_some_iff, within_eq, List.reverse_reverse]
  simp only [Prevails.map_iff, Layer.get_frame_iff]

/-- An important color of an outer element outranks what an inner one declares. -/
example : (within [⟨"color: #f00 !important; color: #0f0".toList, fun _ => none⟩,
    ⟨"color: #00f".toList, fun _ => none⟩]).lookup .foreground = some ⟨255, 0, 0, 255⟩ := by
  decide +kernel

theorem lookup_within_eq_none_iff (layers : List Layer) (p : ColorProperty) :
    (within layers).lookup p = none ↔ ∀ l ∈ layers, ∀ d, ¬ l.Declares p d := by
  have hone (l : Layer) (d d' : Declared) (h : l.Declares p d) (h' : l.Declares p d') : d' = d :=
    Option.some.inj (((l.get_frame_iff p d').2 h').symm.trans ((l.get_frame_iff p d).2 h))
  have h : (∃ d, Prevails (Layer.Declares p) (fun d => d.important = true) layers d) ↔
      ∃ l ∈ layers, ∃ d, l.Declares p d := Prevails.exists_iff hone
  rw [← not_iff_not] at h
  rw [Option.eq_none_iff_forall_ne_some]
  simpa [lookup_within_eq_some_iff] using h

/-- The stack within nested elements of a document, the innermost last. An element without colors
brings no frame. -/
def inside (es : List Element) : StyleStack :=
  after [] ((es.filter fun e => ! e.frame.1.isEmpty).map fun e => .push e.frame.1)

/-- Of an element without colors, the layer declares nothing. -/
theorem lookup_inside (es : List Element) (p : ColorProperty) :
    (inside es).lookup p = (within (es.map .ofElement)).lookup p := by
  have hinside : inside es = ((es.filter fun e => ! e.frame.1.isEmpty).map (·.frame.1)).reverse := by
    rw [inside, ← after_pushes, List.map_map]
    rfl
  have hempty (f : Frame) (h : f.isEmpty = true) : f.get p = none := by
    simp only [Frame.isEmpty, Bool.and_eq_true, Option.isNone_iff_eq_none] at h
    cases p
    · exact h.1
    · exact h.2
  have hget (e : Element) : (if (! e.frame.1.isEmpty) = true then e.frame.1.get p else none) =
      (Layer.ofElement e).frame.get p := by
    rw [Layer.frame_ofElement]
    split
    · rfl
    · rename_i h
      exact (hempty _ (by simpa using h)).symm
  have hdeclarations : (inside es).declarations p =
      (within (es.map .ofElement)).declarations p := by
    rw [hinside, within_eq, declarations, declarations, List.filterMap_reverse,
      List.filterMap_reverse, List.filterMap_map, List.filterMap_map, List.filterMap_map,
      List.filterMap_filter]
    exact congrArg List.reverse (List.filterMap_congr fun e _ => hget e)
  rw [lookup, lookup, hdeclarations]

/-- A style text declares a property at most once, with the last parseable declaration that is
important or, without one, the last parseable declaration. Within nested elements a property takes
the color of the innermost element that declares it as important or, without one, of the innermost
that declares it, if any does; the elements of a document are such layers. What is entered and left
again leaves no trace. -/
theorem lookup_cascade (p : ColorProperty) :
    (∀ t, ((Style.read t).1.map (·.property)).Nodup ∧
      ∀ d, d ∈ (Style.read t).1 ∧ d.property = p ↔
        Prevails (Style.PartDeclares p) (fun d => d.important = true)
          (t.splitOn ';') d) ∧
    (∀ layers : List Layer,
      (∀ c, (within layers).lookup p = some c ↔
        ∃ d, Prevails (Layer.Declares p) (fun d => d.important = true) layers d ∧ d.color = c) ∧
      ((within layers).lookup p = none ↔ ∀ l ∈ layers, ∀ d, ¬ l.Declares p d)) ∧
    (∀ es : List Element, (inside es).lookup p = (within (es.map .ofElement)).lookup p) ∧
    ∀ (s : StyleStack) (f : Frame) (steps : List Step), Balanced steps →
      (s.after (.push f :: steps)).lookup p = (s.after [.push f]).lookup p ∧
      (s.after (.push f :: steps ++ [.pop])).lookup p = s.lookup p := by
  refine ⟨fun t => ⟨Style.nodup_read t, Style.mem_read_iff t p⟩, fun layers =>
    ⟨lookup_within_eq_some_iff layers p, lookup_within_eq_none_iff layers p⟩,
    fun es => lookup_inside es p, fun s f steps h => ?_⟩
  have hpush : s.after (.push f :: steps) = f :: s := after_balanced (f :: s) h
  constructor
  · rw [hpush]
    rfl
  · have hpop : s.after (.push f :: steps ++ [.pop]) = (s.after (.push f :: steps)).tail :=
      List.foldl_concat ..
    rw [hpop, hpush, List.tail_cons]

theorem lookup_after_push_push_pop :
    Balanced [.push { foreground := some ⟨⟨0, 128, 0, 255⟩, true⟩ }, .pop] ∧
      (after [{ foreground := some ⟨⟨255, 0, 0, 255⟩, false⟩ }]
        [.push { foreground := some ⟨⟨0, 0, 255, 255⟩, false⟩ },
          .push { foreground := some ⟨⟨0, 128, 0, 255⟩, true⟩ }, .pop]).lookup .foreground =
        some ⟨0, 0, 255, 255⟩ := by
  have h : Balanced [.push { foreground := some ⟨⟨0, 128, 0, 255⟩, true⟩ }, .pop] := by
    refine ⟨fun early h => ?_, rfl⟩
    simp only [List.prefix_cons_iff, List.prefix_nil] at h
    obtain rfl | ⟨_, rfl, rfl | ⟨_, rfl, rfl⟩⟩ := h <;> decide
  exact ⟨h, ((lookup_cascade .foreground).2.2.2 _ _ _ h).1.trans rfl⟩

end StyleStack
end MarkupText
