import MarkupText.Proofs.Tree.Built

/-!
# Where nodes are put

A node that is inserted takes the next indices of the arena, itself first and what is below it
behind, so siblings start where the node before them ends (`Item.childIds`). `Tree.Placed` says what
the arena holds there. Nothing else in the arena changes but the children of the parent
(`Tree.Grows`), and the nodes of a list are placed from index 1 on (`Loaded.insertedAll_ofItems`).
-/

namespace MarkupText

mutual

/-- How many nodes a node and all below it are. -/
def Item.count : Item → Nat
  | .text _ => 1
  | .comment _ => 1
  | .element _ _ children => 1 + Item.countAll children

/-- How many nodes some nodes and all below them are. -/
def Item.countAll : List Item → Nat
  | [] => 0
  | i :: is => i.count + Item.countAll is

end

/-- The indices of siblings whose nodes take the indices from `base` on. -/
def Item.childIds (base : NodeId) : List Item → List NodeId
  | [] => []
  | i :: is => base :: Item.childIds (base + i.count) is

namespace Tree
variable {t t' t'' : Tree} {p : Nat} {ids ids' : List NodeId}

mutual

/-- A node below `p` and all below it take the indices from `base` on. -/
def Placed (t : Tree) (p base : NodeId) : Item → Prop
  | .text s => t.get? base = some { content := .text s, parent := some p }
  | .comment s => t.get? base = some { content := .comment s, parent := some p }
  | .element name attributes children =>
    t.get? base = some {
      content := .element (.ofName name (Item.readAttributes name attributes).1)
      parent := some p
      children := Item.childIds (base + 1) children } ∧
    PlacedAll t base (base + 1) children

/-- Siblings below `p` and all below them take the indices from `base` on. -/
def PlacedAll (t : Tree) (p base : NodeId) : List Item → Prop
  | [] => True
  | i :: is => Placed t p base i ∧ PlacedAll t p (base + i.count) is

end

mutual

/-- Where nodes are placed depends on their own indices only. -/
theorem Placed.congr (t t' : Tree) (p base : Nat) : ∀ i : Item,
    (∀ id : Nat, base ≤ id → id < base + i.count → t'.get? id = t.get? id) →
    t.Placed p base i → t'.Placed p base i
  | .text s, h, hplaced => (h base (Nat.le_refl _) (Nat.lt_succ_self _)).trans hplaced
  | .comment s, h, hplaced => (h base (Nat.le_refl _) (Nat.lt_succ_self _)).trans hplaced
  | .element name attributes children, h, hplaced => by
    rw [Item.count] at h
    refine ⟨(h base (Nat.le_refl _) (by omega)).trans hplaced.1,
      PlacedAll.congr t t' base (base + 1) children (fun id hle hlt => ?_) hplaced.2⟩
    exact h id (by omega) (by omega)

theorem PlacedAll.congr (t t' : Tree) (p base : Nat) : ∀ is : List Item,
    (∀ id : Nat, base ≤ id → id < base + Item.countAll is → t'.get? id = t.get? id) →
    t.PlacedAll p base is → t'.PlacedAll p base is
  | [], _, _ => trivial
  | i :: is, h, hplaced => by
    rw [Item.countAll] at h
    exact ⟨Placed.congr t t' p base i (fun id hle hlt => h id hle (by omega)) hplaced.1,
      PlacedAll.congr t t' p (base + i.count) is
        (fun id hle hlt => h id (by omega) (by omega)) hplaced.2⟩

end

/-! ### Growing -/

/-- Of the nodes of an arena only `p` changes, which gets further children. -/
structure Grows (t t' : Tree) (p : NodeId) (ids : List NodeId) : Prop where
  size_le : t.size ≤ t'.size
  get?_of_ne : ∀ id < t.size, id ≠ p → t'.get? id = t.get? id
  get?_self : t'.get? p = (t.get? p).map fun n => { n with children := n.children ++ ids }

theorem Grows.refl (t : Tree) (p : NodeId) : t.Grows t p [] where
  size_le := Nat.le_refl _
  get?_of_ne := fun _ _ _ => rfl
  get?_self := by simp

theorem Grows.trans (h : t.Grows t' p ids) (h' : t'.Grows t'' p ids') :
    t.Grows t'' p (ids ++ ids') where
  size_le := Nat.le_trans h.size_le h'.size_le
  get?_of_ne := fun id hlt hne =>
    (h'.get?_of_ne id (Nat.lt_of_lt_of_le hlt h.size_le) hne).trans (h.get?_of_ne id hlt hne)
  get?_self := by
    rw [h'.get?_self, h.get?_self, Option.map_map]
    simp [Function.comp_def]

/-- What grows at a new node does not change the nodes that were there. -/
theorem Grows.extend (h : t.Grows t' p ids) (h' : t'.Grows t'' t.size ids') (hp : p < t.size) :
    t.Grows t'' p ids where
  size_le := Nat.le_trans h.size_le h'.size_le
  get?_of_ne := fun id hlt hne =>
    (h'.get?_of_ne id (Nat.lt_of_lt_of_le hlt h.size_le) (Nat.ne_of_lt hlt)).trans
      (h.get?_of_ne id hlt hne)
  get?_self :=
    (h'.get?_of_ne p (Nat.lt_of_lt_of_le hp h.size_le) (Nat.ne_of_lt hp)).trans h.get?_self

theorem get?_add (hp : p < t.size) (content : Content) (id : Nat) :
    (t.add p content).2.get? id =
      if id = t.size then some { content, parent := some p }
      else if id = p then (t.get? p).map fun n => { n with children := n.children ++ [t.size] }
      else t.get? id := by
  have hlt : p < (t.alloc content).2.size ∧ t.size < (t.alloc content).2.size := by
    rw [size_alloc]
    exact ⟨Nat.lt_succ_of_lt hp, Nat.lt_succ_self _⟩
  change ((t.alloc content).2.append p t.size).get? id = _
  rw [get?_append, if_pos hlt, get?_alloc]
  by_cases hnew : id = t.size
  · simp [hnew, Nat.ne_of_lt hp]
  · by_cases hid : id = p
    · subst hid
      simp [hnew, Ne.symm hnew]
    · simp [hnew, hid, Ne.symm hid, Ne.symm hnew]

theorem grows_add (hp : p < t.size) (content : Content) :
    t.Grows (t.add p content).2 p [t.size] where
  size_le := by simp
  get?_of_ne := fun id hlt hne => by
    rw [get?_add hp, if_neg (Nat.ne_of_lt hlt), if_neg hne]
  get?_self := by
    rw [get?_add hp, if_neg (Nat.ne_of_lt hp), if_pos rfl]

/-! ### Insertion -/

/-- How an arena grows when a node and all below it are added to `p`. -/
structure Inserted (t t' : Tree) (p : NodeId) (i : Item) : Prop where
  grows : t.Grows t' p [t.size]
  size : t'.size = t.size + i.count
  placed : t'.Placed p t.size i

/-- How an arena grows when nodes and all below them are added to `p`. -/
structure InsertedAll (t t' : Tree) (p : NodeId) (is : List Item) : Prop where
  grows : t.Grows t' p (Item.childIds t.size is)
  size : t'.size = t.size + Item.countAll is
  placed : t'.PlacedAll p t.size is

theorem inserted_text (hp : p < t.size) (s : Text) :
    t.Inserted (t.add p (.text s)).2 p (.text s) where
  grows := grows_add hp _
  size := size_add ..
  placed := (get?_add hp _ _).trans (if_pos rfl)

theorem inserted_comment (hp : p < t.size) (s : Text) :
    t.Inserted (t.add p (.comment s)).2 p (.comment s) where
  grows := grows_add hp _
  size := size_add ..
  placed := (get?_add hp _ _).trans (if_pos rfl)

theorem Inserted.element {name : Text} {attributes : List (Text × Json.Value)}
    {children : List Item} (hp : p < t.size)
    (h : InsertedAll (t.add p (.element (.ofName name (Item.readAttributes name attributes).1))).2
      t' t.size children) : t.Inserted t' p (.element name attributes children) where
  grows := (grows_add hp _).extend h.grows hp
  size := by
    rw [h.size, size_add, Item.count, Nat.add_assoc]
  placed := by
    have hsize := h.grows.get?_self
    have hplaced := h.placed
    rw [get?_add hp, if_pos rfl] at hsize
    rw [size_add] at hsize hplaced
    exact ⟨hsize, hplaced⟩

theorem insertedAll_nil (t : Tree) (p : NodeId) : t.InsertedAll t p [] where
  grows := .refl t p
  size := rfl
  placed := trivial

theorem Inserted.cons {i : Item} {is : List Item} (hp : p < t.size) (h : t.Inserted t' p i)
    (h' : t'.InsertedAll t'' p is) : t.InsertedAll t'' p (i :: is) where
  grows := by
    have hgrows := h.grows.trans h'.grows
    rw [h.size] at hgrows
    exact hgrows
  size := by
    rw [h'.size, h.size, Item.countAll, Nat.add_assoc]
  placed := by
    have hplaced := h'.placed
    rw [h.size] at hplaced
    -- what comes later changes no node of `i`, since the parent stands before them
    refine ⟨Placed.congr t' t'' p t.size i (fun id hle hlt => ?_) h.placed, hplaced⟩
    exact h'.grows.get?_of_ne id (h.size ▸ hlt) (by omega)

end Tree

namespace Loaded

/-- An element is added before its children, which are then added to it. -/
def addElement (p : NodeId) (l : Loaded) (name : Text) (attributes : List (Text × Json.Value)) :
    Loaded where
  tree := (l.tree.add p (.element (.ofName name (Item.readAttributes name attributes).1))).2
  warnings := l.warnings ++ (Item.readAttributes name attributes).2

theorem insert_element (p : NodeId) (l : Loaded) (name : Text)
    (attributes : List (Text × Json.Value)) (children : List Item) :
    insert p l (.element name attributes children) =
      insertAll l.tree.size (addElement p l name attributes) children := rfl

mutual

theorem inserted (p : Nat) (l : Loaded) (hp : p < l.tree.size) :
    ∀ i : Item, l.tree.Inserted (insert p l i).tree p i
  | .text s => Tree.inserted_text hp s
  | .comment s => Tree.inserted_comment hp s
  | .element name attributes children => by
    have hnew : l.tree.size < (addElement p l name attributes).tree.size :=
      Nat.lt_of_lt_of_eq (Nat.lt_succ_self _) (Tree.size_add ..).symm
    have hchildren := insertedAll l.tree.size (addElement p l name attributes) hnew children
    rw [insert_element]
    exact .element hp hchildren

theorem insertedAll (p : Nat) (l : Loaded) (hp : p < l.tree.size) :
    ∀ is : List Item, l.tree.InsertedAll (insertAll p l is).tree p is
  | [] => Tree.insertedAll_nil _ _
  | i :: is =>
    have h := inserted p l hp i
    h.cons hp (insertedAll p _ (Nat.lt_of_lt_of_le hp h.grows.size_le) is)

end

theorem insertedAll_ofItems (items : List Item) :
    ({} : Tree).InsertedAll (ofItems items).tree Tree.root items :=
  insertedAll Tree.root {} Nat.one_pos items

end Loaded
end MarkupText
