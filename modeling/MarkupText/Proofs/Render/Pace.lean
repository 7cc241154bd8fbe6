import MarkupText.Proofs.Render.InStep
import MarkupText.Proofs.Table.Cache
import MarkupText.Proofs.Table.GridTwins
import MarkupText.Proofs.Tree.Twins
import MarkupText.Render.Descent

/-!
# Descents at one pace

A descent that reuses cells is compared with one that renders each cell afresh (`Scene.fresh`), in
another place of the tree perhaps. `Renderer.Pace` says how the two go together, `Pace.Holds` what
this makes of their states: twins are entered by both or by neither, and the cells kept so far stand
for what a fresh render gives (`Renderer.Stands`). `Pace.Pairs` are the twins that may be entered
next.
-/

namespace MarkupText

/-- The scene in which every cell is rendered afresh. -/
def Scene.fresh (s : Scene) : Scene := { s with reuseCells := false }

namespace Tree
variable {t : Tree} {levels : Nat} {path : List NodeId} {a c : NodeId}

/-- The node may be entered: no node on the way is at or below it, and the levels left suffice. -/
structure Open (t : Tree) (levels : Nat) (path : List NodeId) (id : NodeId) : Prop where
  fits : t.fitsIn levels id = true
  le_maxDepth : levels ≤ maxDepth
  clear : ∀ x ∈ path, ¬ t.Below id x

namespace Open

theorem fits_maxDepth (h : t.Open levels path a) : t.fitsIn maxDepth a = true :=
  fitsIn_mono h.fits h.le_maxDepth

theorem child (h : t.Open levels path a) (hc : t.IsParent a c) : t.Open levels path c :=
  ⟨fitsIn_child h.fits hc, h.le_maxDepth, fun x hx hbelow => h.clear x hx (.head hc hbelow)⟩

theorem enter (h : t.Open (levels + 1) path a) (hc : t.IsParent a c) :
    t.Open levels (a :: path) c := by
  refine ⟨fitsIn_succ.1 h.fits c hc, Nat.le_of_succ_le h.le_maxDepth, fun x hx hbelow => ?_⟩
  rcases List.mem_cons.1 hx with rfl | hx
  · exact not_below_child h.fits hc hbelow
  · exact h.clear x hx (.head hc hbelow)

end Open
end Tree

/-- The number of items of the signature of the cell; none for a missing one. -/
def CellKey.weight (k : CellKey) : Nat := (k.content.map List.length).getD 0

namespace Renderer

/-- A fresh render gives this cell wherever a cell has this key. -/
def Stands (s : Scene) (key : CellKey) (cell : Cell) : Prop :=
  ∀ levels c width fill r, (∀ id, c = some id → s.tree.Open levels r.path id) →
    cellKey s c width fill r = key →
    (freshCell s.fresh (node s.fresh levels) c width fill r).1 = cell

/-- How two descents go together: which nodes are twins, how many tables are around each and where
it is, and for the first, which cells were kept at the start and how large others may be. -/
structure Pace (s : Scene) where
  twins : s.tree.Twinning
  depth₁ : Nat
  depth₂ : Nat
  path₁ : List NodeId
  path₂ : List NodeId
  cache : CellCache
  weight : Nat
  depth_iff : depth₁ = 0 ↔ depth₂ = 0
  /-- Outside tables the two are in the same place. -/
  same : depth₁ = 0 → twins = .same s.tree

namespace Pace
variable {s : Scene} {p : Pace s} {levels₁ levels₂ : Nat} {a b x : NodeId}

/-- The states of two descents at this pace. -/
structure Holds (p : Pace s) (e₁ e₂ : Aside) : Prop where
  depth₁ : e₁.depth = p.depth₁
  depth₂ : e₂.depth = p.depth₂
  path₁ : e₁.path = p.path₁
  path₂ : e₂.path = p.path₂
  visited : ∀ {x y}, p.twins.rel x y → (x ∈ e₁.visited ↔ y ∈ e₂.visited)
  sound : e₁.cache.Sound (Stands s)
  grown : Cache.Grown (fun k => k.weight < p.weight) p.cache e₁.cache

/-- Twins that both descents may enter next, below the node that sets the weight. -/
structure Pairs (p : Pace s) (levels₁ levels₂ : Nat) (a b : NodeId) : Prop where
  twins : p.twins.rel a b
  open₁ : s.tree.Open levels₁ p.path₁ a
  open₂ : s.tree.Open levels₂ p.path₂ b
  light : (s.tree.signature a).length < p.weight

theorem Pairs.signature_eq (h : p.Pairs levels₁ levels₂ a b) (ht : s.tree.SingleParent) :
    s.tree.signature a = s.tree.signature b :=
  p.twins.signature_eq ht h.open₁.fits_maxDepth h.open₂.fits_maxDepth h.twins

/-- Children of twins are twins, with smaller signatures. -/
theorem forall₂_children (ht : s.tree.SingleParent) (hab : p.twins.rel a b)
    (ha : s.tree.fitsIn Tree.maxDepth a = true) :
    List.Forall₂ (fun c d => p.twins.rel c d ∧ s.tree.IsParent a c ∧ s.tree.IsParent b d ∧
      (s.tree.signature c).length < (s.tree.signature a).length)
      (s.tree.children a) (s.tree.children b) := by
  have hchildren := p.twins.children hab
  refine List.forall₂_iff_zip.2 ⟨hchildren.length_eq, fun {c d} hcd => ?_⟩
  obtain ⟨hc, hd⟩ := List.of_mem_zip hcd
  exact ⟨List.forall₂_zip hchildren hcd, hc, hd, Tree.length_signature_lt ht ha hc⟩

theorem descending (p : Pace s) (levels₁ levels₂ : Nat) (ht : s.tree.SingleParent)
    (hs : s.tree.Sound) : s.tree.Descending (p.Pairs levels₁ levels₂) where
  children := fun h =>
    (forall₂_children ht h.twins h.open₁.fits_maxDepth).imp fun _ _ ⟨hcd, hc, hd, hlt⟩ =>
      ⟨hcd, h.open₁.child hc, h.open₂.child hd, hlt.trans h.light⟩
  element := fun h => Tree.element?_eq hs (p.twins.item h.twins)

theorem Pairs.below (ht : s.tree.SingleParent) (hsame : p.twins = .same s.tree)
    (h : p.Pairs levels₁ levels₂ a a) (hx : s.tree.Below a x) : p.Pairs levels₁ levels₂ x x := by
  induction hx with
  | refl => exact h
  | @tail c d _ hd ih =>
    refine ⟨by rw [hsame]; rfl, ih.open₁.child hd, ih.open₂.child hd, ?_⟩
    exact (Tree.length_signature_lt ht ih.open₁.fits_maxDepth hd).trans ih.light

/-! ### Entering a node -/

/-- The pace below two nodes that are entered, with the cells kept so far. -/
def enter (p : Pace s) (a b : NodeId) (cache : CellCache) : Pace s :=
  { p with
    path₁ := a :: p.path₁
    path₂ := b :: p.path₂
    cache
    weight := (s.tree.signature a).length }

theorem pairs_enter (ht : s.tree.SingleParent) (cache : CellCache) (hab : p.twins.rel a b)
    (ha : s.tree.Open (levels₁ + 1) p.path₁ a) (hb : s.tree.Open (levels₂ + 1) p.path₂ b) :
    List.Forall₂ ((p.enter a b cache).Pairs levels₁ levels₂) (s.tree.children a)
      (s.tree.children b) :=
  (forall₂_children ht hab ha.fits_maxDepth).imp fun _ _ ⟨hcd, hc, hd, hlt⟩ =>
    ⟨hcd, ha.enter hc, hb.enter hd, hlt⟩

variable {e₁ e₂ e₁' e₂' : Aside}

theorem Holds.enter (h : p.Holds e₁ e₂) (hab : p.twins.rel a b) :
    (p.enter a b e₁.cache).Holds { e₁ with path := a :: e₁.path, visited := a :: e₁.visited }
      { e₂ with path := b :: e₂.path, visited := b :: e₂.visited } where
  depth₁ := h.depth₁
  depth₂ := h.depth₂
  path₁ := congrArg (a :: ·) h.path₁
  path₂ := congrArg (b :: ·) h.path₂
  visited := fun {x y} hxy => by
    have hiff : x = a ↔ y = b :=
      ⟨fun hx => p.twins.right (hx ▸ hxy) hab, fun hy => p.twins.left (hy ▸ hxy) hab⟩
    rw [List.mem_cons, List.mem_cons, hiff, h.visited hxy]
  sound := h.sound
  grown := .refl _ _

theorem Holds.leave (h : p.Holds e₁ e₂) (h' : (p.enter a b e₁.cache).Holds e₁' e₂')
    (hw : (s.tree.signature a).length ≤ p.weight) :
    p.Holds { e₁' with path := e₁'.path.tail } { e₂' with path := e₂'.path.tail } where
  depth₁ := h'.depth₁
  depth₂ := h'.depth₂
  path₁ := congrArg List.tail h'.path₁
  path₂ := congrArg List.tail h'.path₂
  visited := h'.visited
  sound := h'.sound
  grown := h.grown.trans (h'.grown.mono fun _ hk => Nat.lt_of_lt_of_le hk hw)

end Pace
end Renderer
end MarkupText
