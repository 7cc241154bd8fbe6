import MarkupText.Tree.Walk
import Mathlib.Logic.Relation

/-!
# Nodes below a node

`Tree.Below a x` says that `x` is at or below `a`. The links of an arena need not make a tree. Where
no node is a child of two (`OneParent`) and the levels at and below a node end (`fitsIn`), no node
is below its own children (`not_below_child`) and none is below two siblings (`sibling_eq`). A child
can still have several places among the children of one node, which `SingleParent` excludes.
-/

namespace MarkupText.Tree
variable {t : Tree} {p a b c x : NodeId} {n m : Nat}

/-- `c` is a child of `p`. -/
def IsParent (t : Tree) (p c : NodeId) : Prop := c ∈ t.children p

/-- `x` is at or below `a`. -/
def Below (t : Tree) : NodeId → NodeId → Prop := Relation.ReflTransGen t.IsParent

/-- No node has two parents. -/
def OneParent (t : Tree) : Prop := ∀ ⦃p q c⦄, t.IsParent p c → t.IsParent q c → p = q

/-- No node has two parents, or two places among the children of one. -/
structure SingleParent (t : Tree) : Prop where
  parent : ∀ {p q c}, t.IsParent p c → t.IsParent q c → p = q
  once : ∀ p, (t.children p).Nodup

/-- The nodes at and below a node take up at most `levels` levels. -/
def fitsIn (t : Tree) : (levels : Nat) → NodeId → Bool
  | 0, _ => false
  | levels + 1, id => (t.children id).all (t.fitsIn levels)

theorem Below.head_cases (h : t.Below a x) : x = a ∨ ∃ c, t.IsParent a c ∧ t.Below c x := by
  rcases Relation.ReflTransGen.cases_head h with rfl | h
  · exact .inl rfl
  · exact .inr h

theorem below_of_mem_walk {fresh stack : List NodeId} (h : x ∈ t.walk fresh stack) :
    ∃ a ∈ stack, t.Below a x := by
  fun_induction walk t fresh stack with
  | case1 => cases h
  | case2 fresh id stack hid ih =>
    rcases List.mem_cons.1 h with rfl | h
    · exact ⟨x, List.mem_cons_self, .refl⟩
    · obtain ⟨a, ha, hx⟩ := ih h
      rcases List.mem_append.1 ha with ha | ha
      · exact ⟨id, List.mem_cons_self, Relation.ReflTransGen.head ha hx⟩
      · exact ⟨a, List.mem_cons_of_mem _ ha, hx⟩
  | case3 fresh id stack hid ih =>
    obtain ⟨a, ha, hx⟩ := ih h
    exact ⟨a, List.mem_cons_of_mem _ ha, hx⟩

theorem below_of_mem_descendants (h : x ∈ t.descendants a) : t.Below a x := by
  obtain ⟨c, hc, hx⟩ := below_of_mem_walk h
  exact Relation.ReflTransGen.head hc hx

/-! ### Levels -/

theorem fitsIn_succ : t.fitsIn (n + 1) a = true ↔ ∀ c, t.IsParent a c → t.fitsIn n c = true :=
  List.all_eq_true

theorem fitsIn_mono (h : t.fitsIn n a = true) (hle : n ≤ m) : t.fitsIn m a = true := by
  induction n generalizing m a with
  | zero => cases h
  | succ n ih =>
    obtain ⟨m, rfl⟩ : ∃ k, m = k + 1 := ⟨m - 1, by omega⟩
    exact fitsIn_succ.2 fun c hc => ih (fitsIn_succ.1 h c hc) (by omega)

theorem fitsIn_child (h : t.fitsIn n a = true) (hc : t.IsParent a c) : t.fitsIn n c = true := by
  cases n with
  | zero => cases h
  | succ n => exact fitsIn_mono (fitsIn_succ.1 h c hc) n.le_succ

theorem fitsIn_below (h : t.fitsIn n a = true) (hx : t.Below a x) : t.fitsIn n x = true := by
  induction hx with
  | refl => exact h
  | tail _ hc ih => exact fitsIn_child ih hc

/-- Induction from the children to their parent, where the levels end. -/
@[elab_as_elim]
theorem fitsIn_induct {motive : ∀ a, t.fitsIn n a = true → Prop}
    (parent : ∀ a h, (∀ c (hc : t.IsParent a c), motive c (fitsIn_child h hc)) → motive a h)
    (a : NodeId) (h : t.fitsIn n a = true) : motive a h := by
  suffices hlevels : ∀ m a, t.fitsIn m a = true → ∀ h, motive a h from hlevels n a h h
  intro m
  induction m with
  | zero =>
    intro a hm
    cases hm
  | succ m ih =>
    intro a hm h
    exact parent a h fun c hc => ih c (fitsIn_succ.1 hm c hc) (fitsIn_child h hc)

/-- Where the levels end, no node is below itself: a cycle would go on through every level. -/
theorem not_below_child (h : t.fitsIn n a = true) (hc : t.IsParent a c) : ¬ t.Below c a := by
  induction a, h using fitsIn_induct generalizing c with
  | parent a h ih =>
    intro hca
    rcases hca.head_cases with rfl | ⟨d, hd, hda⟩
    · exact ih a hc hc .refl
    · exact ih c hc hd (hda.tail hc)

/-! ### Single parents -/

theorem SingleParent.oneParent (ht : t.SingleParent) : t.OneParent := fun _ _ _ => ht.parent

/-- Two nodes that have a node below both lie on one way down. -/
theorem OneParent.below_total (ht : t.OneParent) (ha : t.Below a x) (hb : t.Below b x) :
    t.Below a b ∨ t.Below b a := by
  have hunique : Relator.RightUnique (Function.swap t.IsParent) := fun _ _ _ hp hq => ht hp hq
  rcases Relation.ReflTransGen.total_of_right_unique hunique (Relation.reflTransGen_swap.2 ha)
    (Relation.reflTransGen_swap.2 hb) with h | h
  · exact .inr (Relation.reflTransGen_swap.1 h)
  · exact .inl (Relation.reflTransGen_swap.1 h)

theorem OneParent.eq_of_below_sibling (ht : t.OneParent) (h : t.fitsIn n p = true)
    (ha : t.IsParent p a) (hb : t.IsParent p b) (hab : t.Below a b) : b = a := by
  rcases Relation.ReflTransGen.cases_tail hab with hba | ⟨q, haq, hq⟩
  · exact hba
  · obtain rfl := ht hb hq
    exact absurd haq (not_below_child h ha)

theorem OneParent.sibling_eq (ht : t.OneParent) (h : t.fitsIn n p = true)
    (ha : t.IsParent p a) (hb : t.IsParent p b) (hax : t.Below a x) (hbx : t.Below b x) :
    a = b := by
  rcases ht.below_total hax hbx with hab | hba
  · exact (ht.eq_of_below_sibling h ha hb hab).symm
  · exact ht.eq_of_below_sibling h hb ha hba

end MarkupText.Tree
