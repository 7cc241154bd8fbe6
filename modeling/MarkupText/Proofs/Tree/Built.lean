import MarkupText.Proofs.Tree.Below
import MarkupText.Tree.Interchange

/-!
# Trees as they are built

`Tree.Assembled` holds of the arenas that the operations on trees make, whatever nodes are added and
linked: their links lead to nodes (`Assembled.closed`). Where elements are made from their names
(`Tree.Built`), they have the tag of their name as well (`Built.sound`). A tree that is read from a
list of nodes has single parents (`Loaded.singleParent_ofItems`).
-/

namespace MarkupText

@[simp] theorem Text.toLower_toLower (t : Text) : (Text.toLower t).toLower = t.toLower := by
  have hchar (c : Char) : c.toLower.toLower = c.toLower := by
    unfold Char.toLower
    grind
  simp [Text.toLower, hchar]

/-- An element has the tag of its name. -/
def Content.Named : Content → Prop
  | .element e => e.tag = Tag.ofName e.name
  | _ => True

theorem Element.named_ofName (name : Text) (attributes : Attributes) :
    (Content.element (.ofName name attributes)).Named := by
  change Tag.ofName name = Tag.ofName (Text.toLower name)
  unfold Tag.ofName Text.sameLetters
  rw [Text.toLower_toLower]

namespace Tree
variable {t : Tree} {p c q : NodeId} {content : Content}

/-- The trees that are made by adding nodes and linking them. -/
inductive Built : Tree → Prop
  | empty : Built {}
  | alloc {t : Tree} (content : Content) : Built t → content.Named → Built (t.alloc content).2
  | append {t : Tree} (parent child : NodeId) : Built t → Built (t.append parent child)

/-- The trees that are made by adding nodes of any content and linking them. -/
inductive Assembled : Tree → Prop
  | empty : Assembled {}
  | alloc {t : Tree} (content : Content) : Assembled t → Assembled (t.alloc content).2
  | append {t : Tree} (parent child : NodeId) : Assembled t → Assembled (t.append parent child)

theorem Built.add (h : t.Built) (parent : NodeId) (hc : content.Named) :
    (t.add parent content).2.Built :=
  .append _ _ (.alloc _ h hc)

/-! ### The operations -/

theorem get?_alloc (t : Tree) (content : Content) (id : NodeId) :
    (t.alloc content).2.get? id = if id = t.size then some { content } else t.get? id :=
  Array.getElem?_push

theorem children_alloc (t : Tree) (content : Content) (p : NodeId) :
    (t.alloc content).2.children p = t.children p := by
  unfold children
  rw [get?_alloc]
  split
  · rename_i h
    have hnone : t.get? t.size = none := Array.getElem?_eq_none (Nat.le_refl _)
    rw [h, hnone]
    rfl
  · rfl

theorem get?_append (t : Tree) (p c q : NodeId) : (t.append p c).get? q =
    if p < t.size ∧ c < t.size then
      (t.get? q).map fun n =>
        { n with
          children := if p = q then n.children ++ [c] else n.children
          parent := if c = q then some p else n.parent }
    else t.get? q := by
  unfold append
  split
  · unfold get?
    rw [Array.getElem?_modify, Array.getElem?_modify]
    cases t.nodes[q]? with
    | none => split <;> split <;> rfl
    | some n => split <;> split <;> rfl
  · rfl

theorem children_of_get? {id : NodeId} {node : Node} (h : t.get? id = some node) :
    t.children id = node.children := by
  simp [children, h]

theorem children_append (t : Tree) (p c q : NodeId) : (t.append p c).children q =
    if p < t.size ∧ c < t.size ∧ p = q then t.children q ++ [c] else t.children q := by
  unfold children
  rw [get?_append]
  by_cases hsize : p < t.size ∧ c < t.size
  · rw [if_pos hsize]
    cases hq : t.get? q with
    | none =>
      have hne : p ≠ q := by
        rintro rfl
        exact absurd (Array.getElem?_eq_none_iff.1 hq) (Nat.not_le.2 hsize.1)
      simp [hne]
    | some n =>
      by_cases hpq : p = q
      · subst hpq
        simp [hsize]
      · simp [hpq]
  · rw [if_neg hsize, if_neg fun h => hsize ⟨h.1, h.2.1⟩]

/-! ### What building keeps -/

/-- Links lead to nodes. -/
def Closed (t : Tree) : Prop := ∀ {p c}, t.IsParent p c → c < t.size

theorem closed_empty : ({} : Tree).Closed := by
  intro p c hpc
  cases p with
  | zero => cases hpc
  | succ p => cases hpc

theorem Closed.alloc (h : t.Closed) (content : Content) : (t.alloc content).2.Closed := by
  intro p c hpc
  rw [IsParent, children_alloc] at hpc
  rw [size_alloc]
  exact Nat.lt_succ_of_lt (h hpc)

theorem Closed.append (h : t.Closed) (p c : NodeId) : (t.append p c).Closed := by
  intro q d hqd
  rw [IsParent, children_append] at hqd
  rw [size_append]
  split at hqd
  · rename_i hlt
    rcases List.mem_append.1 hqd with hqd | hqd
    · exact h hqd
    · rw [List.mem_singleton.1 hqd]
      exact hlt.2.1
  · exact h hqd

theorem Assembled.closed (h : t.Assembled) : t.Closed := by
  induction h with
  | empty => exact closed_empty
  | alloc content _ ih => exact ih.alloc content
  | append p c _ ih => exact ih.append p c

/-- Links lead to nodes, and elements have the tag of their name. -/
structure Sound (t : Tree) : Prop where
  child_lt : ∀ {p c}, t.IsParent p c → c < t.size
  named : ∀ {id n}, t.get? id = some n → n.content.Named

theorem Sound.alloc (h : t.Sound) (hc : content.Named) : (t.alloc content).2.Sound where
  child_lt := Closed.alloc h.child_lt content
  named := fun {id n} hn => by
    rw [get?_alloc] at hn
    split at hn
    · obtain rfl := Option.some.inj hn
      exact hc
    · exact h.named hn

theorem Sound.append (h : t.Sound) (p c : NodeId) : (t.append p c).Sound where
  child_lt := Closed.append h.child_lt p c
  named := fun {id n} hn => by
    rw [get?_append] at hn
    split at hn
    · obtain ⟨m, hget, rfl⟩ := Option.map_eq_some_iff.1 hn
      exact h.named (n := m) hget
    · exact h.named hn

theorem Built.sound (h : t.Built) : t.Sound := by
  induction h with
  | empty =>
    refine ⟨closed_empty, fun {id n} hn => ?_⟩
    cases id with
    | zero => obtain rfl := Option.some.inj hn; trivial
    | succ id => cases hn
  | alloc content _ hc ih => exact ih.alloc hc
  | append p c _ ih => exact ih.append p c

/-- A new node may be linked anywhere. -/
theorem SingleParent.add (h : t.SingleParent) (hs : t.Sound) (parent : NodeId)
    (content : Content) : (t.add parent content).2.SingleParent := by
  -- nothing is linked to the new node yet
  have hnew (p : NodeId) : t.size ∉ t.children p := fun hp =>
    Nat.lt_irrefl _ (hs.child_lt hp)
  have hchildren (q : NodeId) : (t.add parent content).2.children q =
      if parent < t.size + 1 ∧ parent = q then t.children q ++ [t.size] else t.children q := by
    have h := children_append (t.alloc content).2 parent t.size q
    rw [size_alloc, children_alloc] at h
    simp only [Nat.lt_succ_self, true_and] at h
    exact h
  refine ⟨fun {p q c} hp hq => ?_, fun p => ?_⟩
  · rw [IsParent, hchildren] at hp hq
    split at hp <;> split at hq
    · rename_i hparent hparent'
      exact hparent.2.symm.trans hparent'.2
    · rcases List.mem_append.1 hp with hp | hp
      · exact h.parent hp hq
      · exact absurd (List.mem_singleton.1 hp ▸ hq) (hnew q)
    · rcases List.mem_append.1 hq with hq | hq
      · exact h.parent hp hq
      · exact absurd (List.mem_singleton.1 hq ▸ hp) (hnew p)
    · exact h.parent hp hq
  · rw [hchildren]
    split
    · exact List.nodup_append.2 ⟨h.once p, by simp, fun a ha b hb hab =>
        hnew p (List.mem_singleton.1 hb ▸ hab ▸ ha)⟩
    · exact h.once p

end Tree

/-! ### Trees that are read -/

namespace Loaded
variable {P : Tree → Prop}

mutual

/-- What adding a node keeps, adding a node and all below it keeps. -/
theorem insert_induct
    (hadd : ∀ t parent content, content.Named → P t → P (Tree.add t parent content).2)
    (parent : NodeId) (l : Loaded) (hl : P l.tree) : ∀ i : Item, P (insert parent l i).tree
  | .text t => hadd l.tree parent (.text t) trivial hl
  | .comment t => hadd l.tree parent (.comment t) trivial hl
  | .element name _ children =>
    insertAll_induct hadd _ _ (hadd l.tree parent _ (Element.named_ofName name _) hl) children

theorem insertAll_induct
    (hadd : ∀ t parent content, content.Named → P t → P (Tree.add t parent content).2)
    (parent : NodeId) (l : Loaded) (hl : P l.tree) :
    ∀ is : List Item, P (insertAll parent l is).tree
  | [] => hl
  | i :: is => insertAll_induct hadd parent _ (insert_induct hadd parent l hl i) is

end

theorem built_ofItems (items : List Item) : (ofItems items).tree.Built :=
  insertAll_induct (fun _ parent _ hc h => h.add parent hc) _ _ .empty items

theorem singleParent_ofItems (items : List Item) : (ofItems items).tree.SingleParent := by
  have hempty : ({} : Tree).SingleParent := by
    refine ⟨fun {p q c} hp => ?_, fun p => ?_⟩
    · cases p <;> cases hp
    · cases p <;> exact List.nodup_nil
  exact (insertAll_induct (P := fun t => t.Built ∧ t.SingleParent)
    (fun _ parent content hc h => ⟨h.1.add parent hc, h.2.add h.1.sound parent content⟩) _ _
    ⟨.empty, hempty⟩ items).2

end Loaded
end MarkupText
