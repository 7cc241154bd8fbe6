import MarkupText.Proofs.Tree.Attributes
import MarkupText.Proofs.Tree.Grammar
import MarkupText.Proofs.Tree.Placement
import Mathlib.Data.List.Nodup

/-!
# Trees that are loaded

`Tree.IsTreeOf` says that an arena is the tree of some nodes of JSON: the document has them as
children (`Tree.ShowsAll`), and the arena has their number of nodes besides the document, numbered
in document order and each linked once, from a node with a smaller number. A value of JSON loads if
and only if it is a node or an array of nodes, and then into their tree (`Tree.loads_roots`).
-/

namespace MarkupText

/-- A text is a value in JSON. -/
def Json.Spells (t : Text) (v : Json.Value) : Prop :=
  ∃ c, Json.read t = .ok (v, c) ∧ Json.finish c = .ok ()

namespace Tree
variable {t : Tree}

mutual

/-- The nodes at and below `id` are a node of JSON and those below it. -/
def Shows (t : Tree) : NodeId → Item → Prop
  | id, .text s => ∃ n, t.get? id = some n ∧ n.content = .text s ∧ n.children = []
  | id, .comment s => ∃ n, t.get? id = some n ∧ n.content = .comment s ∧ n.children = []
  | id, .element name attributes children =>
    ∃ n e, t.get? id = some n ∧ n.content = .element e ∧ e.name = Text.toLower name ∧
      e.tag = Tag.ofName name ∧ e.attributes.Reads attributes ∧ ShowsAll t n.children children

/-- The nodes at and below some siblings are nodes of JSON and those below them. -/
def ShowsAll (t : Tree) : List NodeId → List Item → Prop
  | ids, [] => ids = []
  | ids, i :: is => ∃ id rest, ids = id :: rest ∧ Shows t id i ∧ ShowsAll t rest is

end

/-- An arena is the tree of some nodes of JSON. -/
structure IsTreeOf (t : Tree) (items : List Item) : Prop where
  document : ∃ n, t.get? root = some n ∧ n.content = .document ∧ n.parent = none ∧
    t.ShowsAll n.children items
  size : t.size = 1 + Item.countAll items
  /-- Indices follow document order. -/
  ordered : t.descendants root = List.range' 1 (Item.countAll items)
  /-- The document is no child. -/
  top : ∀ p, ¬ t.IsParent p root
  /-- Any other node has one parent, with a smaller index, and one place among its children. -/
  linked : ∀ id, 0 < id → id < t.size → ∃ p < id, t.parent? id = some p ∧
    (t.children p).count id = 1 ∧ ∀ q, t.IsParent q id → q = p

mutual

theorem Placed.shows (t : Tree) (p base : Nat) : ∀ i : Item, t.Placed p base i → t.Shows base i
  | .text _, h => ⟨_, h, rfl, rfl⟩
  | .comment _, h => ⟨_, h, rfl, rfl⟩
  | .element name attributes children, h =>
    ⟨_, _, h.1, rfl, rfl, rfl, Item.reads_readAttributes name attributes,
      PlacedAll.shows t base (base + 1) children h.2⟩

theorem PlacedAll.shows (t : Tree) (p base : Nat) : ∀ is : List Item,
    t.PlacedAll p base is → t.ShowsAll (Item.childIds base is) is
  | [], _ => rfl
  | i :: is, h => ⟨_, _, rfl, Placed.shows t p base i h.1, PlacedAll.shows t p _ is h.2⟩

end

/-! ### The walk -/

theorem walk_range' (t : Tree) (base : Nat) {n : Nat} (hn : 0 < n) (stack : List NodeId) :
    t.walk (List.range' base n) (base :: stack) =
      base :: t.walk (List.range' (base + 1) (n - 1)) (t.children base ++ stack) := by
  obtain ⟨n, rfl⟩ : ∃ m, n = m + 1 := ⟨n - 1, by omega⟩
  rw [walk, List.range'_succ, if_pos List.mem_cons_self, List.erase_cons_head,
    Nat.add_sub_cancel]

mutual

theorem Placed.walk_eq (t : Tree) (p base : Nat) : ∀ i : Item, t.Placed p base i →
    ∀ n stack, i.count ≤ n → t.walk (List.range' base n) (base :: stack) =
      List.range' base i.count ++ t.walk (List.range' (base + i.count) (n - i.count)) stack
  | .text s, h, n, stack, hn => by
    rw [walk_range' t base (by exact hn), children_of_get? h]
    rfl
  | .comment s, h, n, stack, hn => by
    rw [walk_range' t base (by exact hn), children_of_get? h]
    rfl
  | .element name attributes children, h, n, stack, hn => by
    rw [Item.count] at hn ⊢
    rw [walk_range' t base (by omega), children_of_get? h.1,
      PlacedAll.walk_eq t base (base + 1) children h.2 (n - 1) stack (by omega),
      Nat.add_comm 1, List.range'_succ, List.cons_append, Nat.sub_sub, Nat.add_assoc,
      Nat.add_comm 1]

theorem PlacedAll.walk_eq (t : Tree) (p base : Nat) : ∀ is : List Item, t.PlacedAll p base is →
    ∀ n stack, Item.countAll is ≤ n →
      t.walk (List.range' base n) (Item.childIds base is ++ stack) =
        List.range' base (Item.countAll is) ++
          t.walk (List.range' (base + Item.countAll is) (n - Item.countAll is)) stack
  | [], _, n, stack, _ => rfl
  | i :: is, h, n, stack, hn => by
    rw [Item.countAll] at hn ⊢
    rw [Item.childIds, List.cons_append, Placed.walk_eq t p base i h.1 n _ (by omega),
      PlacedAll.walk_eq t p (base + i.count) is h.2 (n - i.count) stack (by omega),
      ← List.append_assoc, List.range'_append_1, Nat.sub_sub, Nat.add_assoc]

end

/-! ### Links -/

mutual

/-- A node that is placed stands among the children of the node that it has as its parent, except
for the first, whose parent is given. -/
theorem Placed.linked (t : Tree) (p base : Nat) (hp : p < base) : ∀ i : Item, t.Placed p base i →
    ∀ id : Nat, base ≤ id → id < base + i.count → ∃ q : Nat, q < id ∧ t.parent? id = some q ∧
      (id = base ∧ q = p ∨ t.IsParent q id)
  | .text s, h, id, hle, hlt => by
    obtain rfl : id = base := Nat.le_antisymm (Nat.le_of_lt_succ hlt) hle
    exact ⟨p, hp, by simp [parent?, show t.get? id = _ from h], .inl ⟨rfl, rfl⟩⟩
  | .comment s, h, id, hle, hlt => by
    obtain rfl : id = base := Nat.le_antisymm (Nat.le_of_lt_succ hlt) hle
    exact ⟨p, hp, by simp [parent?, show t.get? id = _ from h], .inl ⟨rfl, rfl⟩⟩
  | .element name attributes children, h, id, hle, hlt => by
    rw [Item.count] at hlt
    rcases Nat.eq_or_lt_of_le hle with rfl | hlt'
    · exact ⟨p, hp, by simp [parent?, h.1], .inl ⟨rfl, rfl⟩⟩
    · obtain ⟨q, hq, hparent, hchild⟩ := PlacedAll.linked t base (base + 1) (Nat.lt_succ_self _)
        children h.2 id hlt' (by omega)
      refine ⟨q, hq, hparent, .inr ?_⟩
      rcases hchild with ⟨hmem, rfl⟩ | hchild
      · rw [IsParent, children_of_get? h.1]
        exact hmem
      · exact hchild

theorem PlacedAll.linked (t : Tree) (p base : Nat) (hp : p < base) : ∀ is : List Item,
    t.PlacedAll p base is → ∀ id : Nat, base ≤ id → id < base + Item.countAll is →
      ∃ q : Nat, q < id ∧ t.parent? id = some q ∧
        (id ∈ Item.childIds base is ∧ q = p ∨ t.IsParent q id)
  | [], _, id, hle, hlt => absurd hlt (Nat.not_lt.2 hle)
  | i :: is, h, id, hle, hlt => by
    rw [Item.countAll] at hlt
    rcases Nat.lt_or_ge id (base + i.count) with hfirst | hrest
    · obtain ⟨q, hq, hparent, hchild⟩ := Placed.linked t p base hp i h.1 id hle hfirst
      exact ⟨q, hq, hparent, hchild.imp_left fun ⟨hid, hqp⟩ => ⟨hid ▸ List.mem_cons_self, hqp⟩⟩
    · obtain ⟨q, hq, hparent, hchild⟩ := PlacedAll.linked t p (base + i.count) (by omega) is h.2
        id hrest (by omega)
      exact ⟨q, hq, hparent, hchild.imp_left fun ⟨hid, hqp⟩ => ⟨List.mem_cons_of_mem _ hid, hqp⟩⟩

end

/-- A node among whose children another stands is the parent that the other has. -/
def KnowsParents (t : Tree) : Prop := ∀ p c, t.IsParent p c → t.parent? c = some p

theorem KnowsParents.add (h : t.KnowsParents) (hs : t.Sound) (parent : NodeId)
    (content : Content) : (t.add parent content).2.KnowsParents := by
  intro p c hpc
  have hnew : ¬ t.IsParent p t.size := fun hp => Nat.lt_irrefl _ (hs.child_lt hp)
  change c ∈ ((t.alloc content).2.append parent t.size).children p at hpc
  change (((t.alloc content).2.append parent t.size).get? c).bind (·.parent) = some p
  rw [children_append, children_alloc] at hpc
  rw [get?_append, get?_alloc]
  by_cases hc : c = t.size
  · subst hc
    split at hpc
    · rename_i hlink
      obtain ⟨hparent, hsize, rfl⟩ := hlink
      rw [if_pos ⟨hparent, hsize⟩]
      simp
    · exact absurd hpc hnew
  · have hold : t.IsParent p c := by
      split at hpc
      · exact (List.mem_append.1 hpc).resolve_right fun h => hc (List.mem_singleton.1 h)
      · exact hpc
    obtain ⟨n, hn, hparent⟩ := Option.bind_eq_some_iff.1 (h p c hold)
    split <;> simp [Ne.symm hc, hn, hparent]

end Tree

namespace Loaded

theorem isTreeOf_ofItems (items : List Item) : (ofItems items).tree.IsTreeOf items := by
  obtain ⟨hgrows, hsize, hplaced⟩ := insertedAll_ofItems items
  have hroot : (ofItems items).tree.get? Tree.root =
      some { content := .document, children := Item.childIds 1 items } := hgrows.get?_self
  have hsize : (ofItems items).tree.size = 1 + Item.countAll items := hsize
  have hplaced : (ofItems items).tree.PlacedAll Tree.root 1 items := hplaced
  have hknows : (ofItems items).tree.KnowsParents := by
    have hempty : ({} : Tree).KnowsParents := by
      intro p c hp
      cases p <;> cases hp
    exact (insertAll_induct (P := fun t => t.Built ∧ t.KnowsParents)
      (fun _ parent content hc h => ⟨h.1.add parent hc, h.2.add h.1.sound parent content⟩) _ _
      ⟨.empty, hempty⟩ items).2
  refine ⟨⟨_, hroot, rfl, rfl, hplaced.shows⟩, hsize, ?_, ?_, ?_⟩
  · have hwalk := hplaced.walk_eq _ _ _ _ (Item.countAll items) [] (Nat.le_refl _)
    rw [List.append_nil, Nat.sub_self, Tree.walk, List.append_nil] at hwalk
    rw [Tree.descendants, Tree.children_of_get? hroot, hsize, Nat.add_comm,
      List.range_eq_range', List.range'_succ, Tree.root, List.erase_cons_head, hwalk]
  · intro p hp
    have hparent := hknows p _ hp
    simp [Tree.parent?, hroot] at hparent
  · intro id hpos hlt
    obtain ⟨p, hp, hparent, hchild⟩ :=
      hplaced.linked _ _ _ Nat.one_pos _ id hpos (hsize ▸ hlt)
    have hmem : (ofItems items).tree.IsParent p id := by
      rcases hchild with ⟨hmem, rfl⟩ | hchild
      · change id ∈ (ofItems items).tree.children Tree.root
        rw [Tree.children_of_get? hroot]
        exact hmem
      · exact hchild
    have honce := (singleParent_ofItems items).once p
    exact ⟨p, hp, hparent, List.nodup_iff_count_eq_one.1 honce id hmem,
      fun q hq => Option.some.inj ((hknows q id hq).symm.trans hparent)⟩

end Loaded

namespace Tree
variable {t : Text} {v : Json.Value}

theorem ofJsonText_eq_ok_iff (h : Json.Spells t v) (l : Loaded) :
    ofJsonText t = .ok l ↔ ∃ items, Item.AreRoots v items ∧ l = .ofItems items := by
  obtain ⟨c, hread, hfinish⟩ := h
  simp only [ofJsonText, hread, hfinish, ← Item.rootsOfJson?_eq_some_iff]
  cases Item.rootsOfJson? v with
  | none => simp
  | some items => simp [eq_comm]

/-- A value of JSON loads if and only if it is a node or an array of nodes, and then into the tree
of these nodes. -/
theorem loads_roots (h : Json.Spells t v) :
    ((∃ l, ofJsonText t = .ok l) ↔ ∃ items, Item.AreRoots v items) ∧
      ∀ l items, ofJsonText t = .ok l → Item.AreRoots v items → l.tree.IsTreeOf items := by
  constructor
  · simp only [ofJsonText_eq_ok_iff h]
    constructor
    · rintro ⟨_, items, hroots, -⟩
      exact ⟨items, hroots⟩
    · rintro ⟨items, hroots⟩
      exact ⟨_, items, hroots, rfl⟩
  · intro l items hl hroots
    obtain ⟨items', hroots', rfl⟩ := (ofJsonText_eq_ok_iff h l).1 hl
    rw [← Item.rootsOfJson?_eq_some_iff] at hroots hroots'
    obtain rfl := Option.some.inj (hroots.symm.trans hroots')
    exact Loaded.isTreeOf_ofItems items

/-- An element, and an object that is none for a value deep in its children. -/
def leafOfBadChild : Text :=
  "[\x7b\"tag\":\"P\",\"attrs\":\x7b\"ID\":null\x7d\x7d,".toList ++
    "\x7b\"tag\":\"b\",\"children\":[\x7b\"tag\":\"i\",\"children\":[1]\x7d],".toList ++
    "\"text\":\"c\"\x7d]".toList

theorem loads_roots_leafOfBadChild :
    ∃ l, ofJsonText leafOfBadChild = .ok l ∧
      l.tree.IsTreeOf [.element ['P'] [("ID".toList, .null)] [], .text ['c']] := by
  have hspells : Json.Spells leafOfBadChild (.array [
      .object [("tag".toList, .string ['P']), ("attrs".toList, .object [("ID".toList, .null)])],
      .object [("tag".toList, .string ['b']),
        ("children".toList, .array [.object [("tag".toList, .string ['i']),
          ("children".toList, .array [.number (.natural 1)])]]),
        ("text".toList, .string ['c'])]]) := ⟨_, rfl, rfl⟩
  obtain ⟨hloads, htree⟩ := loads_roots hspells
  obtain ⟨l, hl⟩ := hloads.2 ⟨_, (Item.rootsOfJson?_eq_some_iff _ _).1 rfl⟩
  exact ⟨l, hl, htree l _ hl ((Item.rootsOfJson?_eq_some_iff _ _).1 rfl)⟩

end Tree
end MarkupText
