import MarkupText.Proofs.Table.Reuse

/-!
# Renders with cells that are reused

Reusing cells does not show in a render of a tree, and no cell is rendered twice under one key
(`renderWith_reuseCells`). The proof goes down both trees in step: every visit keeps the pace
(`Renderer.visitsKeep`), by induction on the levels left, with one case for each rule.
-/

namespace MarkupText
namespace Renderer

variable {s : Scene} {p : Pace s} {levels₁ levels₂ : Nat} {a b : NodeId}

section Descent
variable (ht : s.tree.SingleParent) (hs : s.tree.Sound) (ih : VisitsKeep s levels₁)
  (hreuse : s.reuseCells = true)
include ht hs ih

theorem keeps_titles
    (h : List.Forall₂ (p.Pairs levels₁ levels₂) (s.tree.children a) (s.tree.children b)) :
    Keeps p.Holds (titles s (node s levels₁) a) (titles s.fresh (node s.fresh levels₂) b) := by
  refine keeps_visits ih (List.rel_filter (fun c d hcd => ?_) h)
  dsimp only
  rw [(p.descending levels₁ levels₂ ht hs).tag hcd]
  rfl

include hreuse

/-- The rule of an element keeps the pace of twins whose children may be entered. -/
theorem keeps_rule (hw : 0 < p.weight) (hab : p.twins.rel a b)
    (h : List.Forall₂ (p.Pairs levels₁ levels₂) (s.tree.children a) (s.tree.children b))
    (e : Element) :
    Keeps p.Holds (rule s (node s levels₁) a e) (rule s.fresh (node s.fresh levels₂) b e) := by
  have hbody : Keeps p.Holds (children s (node s levels₁) a)
      (children s.fresh (node s.fresh levels₂) b) := keeps_visits ih h
  unfold rule
  cases e.tag.role with
  | inline => exact hbody
  | hidden => exact fun _ _ hr => hr
  | head => exact keeps_titles ht hs ih h
  | paragraph => exact hbody.inParagraph
  | block => exact hbody.inBlock
  | lineBreak => exact .overt .lineBreak
  | ruler => exact .overt .ruler
  | heading => exact (hbody.region _).inParagraph
  | link => exact hbody.link e
  | image => exact .overt (.image s e)
  | media label => exact hbody.media s label e
  | list numbered => exact hbody.list numbered e
  | item => exact hbody.item
  | quote => exact (hbody.indented _).inParagraph
  | definition => exact (hbody.indented _).inBlock
  | preformatted => exact hbody.preformatted
  | table => exact keeps_table ht hs ih hreuse hw hab h
  | face f => exact hbody.region _

theorem keeps_content (hw : 0 < p.weight) (hab : p.twins.rel a b)
    (h : List.Forall₂ (p.Pairs levels₁ levels₂) (s.tree.children a) (s.tree.children b))
    {c d : Content} (hcd : c.Alike d) :
    Keeps p.Holds (content s (node s levels₁) a c)
      (content s.fresh (node s.fresh levels₂) b d) := by
  rcases hcd with rfl | ⟨u, v, rfl, rfl⟩
  · cases c with
    | document => exact keeps_visits ih h
    | text t => exact .overt (.insertText s t)
    | comment t => exact fun _ _ hr => hr
    | element e => exact (keeps_rule ht hs ih hreuse hw hab h e).inColors s e
  · exact fun _ _ hr => hr

end Descent

/-- Visits of twins keep the pace. -/
theorem visitsKeep (ht : s.tree.SingleParent) (hs : s.tree.Sound) (hreuse : s.reuseCells = true)
    (levels : Nat) : VisitsKeep s levels := by
  induction levels with
  | zero => intro p levels₂ a b _ ha; cases ha.fits
  | succ levels ih =>
    intro p levels₂ a b hab ha hb hw r₁ r₂ hr
    obtain ⟨levels₂, rfl⟩ : ∃ n, levels₂ = n + 1 := by
      cases levels₂ with
      | zero => cases hb.fits
      | succ n => exact ⟨n, rfl⟩
    unfold node
    rcases Tree.get?_cases hs (p.twins.item hab) with ⟨hna, hnb⟩ | ⟨na, nb, hna, hnb, hcontent⟩
    · rw [hna, show s.fresh.tree = s.tree from rfl, hnb]
      exact hr
    · rw [hna, show s.fresh.tree = s.tree from rfl, hnb]
      dsimp only
      have hvisited : a ∈ r₁.visited ↔ b ∈ r₂.visited := hr.aside.visited hab
      by_cases hmem : a ∈ r₁.visited
      · rw [if_pos hmem, if_pos (hvisited.1 hmem)]
        exact hr.overt (.warn _)
      · rw [if_neg hmem, if_neg fun h => hmem (hvisited.2 h)]
        -- missing cells weigh nothing, so the node has to weigh something
        have hlight : 0 < (s.tree.signature a).length := by
          rw [Tree.signature_eq ht ha.fits_maxDepth hna]
          exact Nat.succ_pos _
        have hin : InStep (p.enter a b r₁.cache).Holds
            { r₁ with visited := a :: r₁.visited, path := a :: r₁.path }
            { r₂ with visited := b :: r₂.visited, path := b :: r₂.path } :=
          ⟨hr.bare, hr.aside.enter hab⟩
        have hout := keeps_content (p := p.enter a b r₁.cache) ht hs ih hreuse hlight hab
          (Pace.pairs_enter ht r₁.cache hab ha hb) hcontent hin
        exact ⟨hout.bare, hr.aside.leave hout.aside hw⟩

theorem InStep.finish {P : Aside → Aside → Prop} {r₁ r₂ : Renderer} (h : InStep P r₁ r₂) :
    r₁.finish = r₂.finish := by
  unfold Renderer.finish
  rw [h.buffer, h.images]

end Renderer

open Renderer

/-- Reusing cells does not show in the render of a tree, whatever was kept before, and no cell is
rendered twice: each that was not found is kept under a key of its own. -/
theorem renderWith_reuseCells (s : Scene) (id : NodeId) (cache cache' : CellCache)
    (hbuilt : s.tree.Built) (hsingle : s.tree.SingleParent)
    (hfits : s.tree.fitsIn Tree.maxDepth id = true) :
    (renderWith { s with reuseCells := true } id cache).rendered =
        (renderWith { s with reuseCells := false } id cache').rendered ∧
      (renderWith { s with reuseCells := true } id cache).cache.misses =
        (renderWith { s with reuseCells := true } id cache).cache.size ∧
      (renderWith { s with reuseCells := true } id cache).cache.keys.Nodup := by
  let s' : Scene := { s with reuseCells := true }
  let p : Pace s' :=
    { twins := .same s.tree, depth₁ := 0, depth₂ := 0, path₁ := [], path₂ := [], cache := {}
      weight := (s.tree.signature id).length, depth_iff := .rfl, same := fun _ => rfl }
  have hopen : s'.tree.Open Tree.maxDepth [] id := ⟨hfits, Nat.le_refl _, fun x hx => by cases hx⟩
  have hstart : InStep p.Holds (start s' cache.clear) (start s'.fresh cache'.clear) :=
    { bare := rfl
      aside :=
        { depth₁ := rfl, depth₂ := rfl, path₁ := rfl, path₂ := rfl
          visited := fun hxy => by rw [show _ = _ from hxy]; rfl
          sound := ⟨List.nodup_nil, fun e he => by cases he⟩
          grown := .refl _ _ } }
  have hstep := visitsKeep (s := s') hsingle hbuilt.sound rfl Tree.maxDepth p Tree.maxDepth id id
    rfl hopen hopen (Nat.le_refl _) hstart
  exact ⟨hstep.finish, hstep.aside.grown.balance.trans (Nat.zero_add _), hstep.aside.sound.nodup⟩

/-- A table with two cells that are alike. -/
def twinCells : Tree :=
  let cell : Item := .element "td".toList [] [.text ['a']]
  (Loaded.ofItems [.element "table".toList [] [.element "tr".toList [] [cell, cell]]]).tree

theorem renderWith_reuseCells_twinCells :
    (renderWith { tree := twinCells } Tree.root {}).rendered =
        (renderWith { tree := twinCells, reuseCells := false } Tree.root {}).rendered ∧
      (renderWith { tree := twinCells } Tree.root {}).cache.misses =
        (renderWith { tree := twinCells } Tree.root {}).cache.size ∧
      (renderWith { tree := twinCells } Tree.root {}).cache.keys.Nodup :=
  renderWith_reuseCells { tree := twinCells } Tree.root {} {} (Loaded.built_ofItems _)
    (Loaded.singleParent_ofItems _) (by decide)

end MarkupText
