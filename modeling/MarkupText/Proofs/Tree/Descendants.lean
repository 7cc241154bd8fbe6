import MarkupText.Proofs.Tree.Below

/-!
# What a walk lists

A walk lists every node to which fresh nodes lead from its stack (`mem_walk`), so the descendants of
a node are the other nodes to which links lead from it, whatever cycles there are
(`mem_descendants`). Where the levels end, these are the nodes below its children
(`mem_descendants_iff`).
-/

namespace MarkupText.Tree
variable {t : Tree} {fresh stack : List NodeId} {n : Nat} {a c id x : NodeId}

/-- Fresh nodes lead down from `a` to `x`. -/
def Leads (t : Tree) (fresh : List NodeId) : NodeId → NodeId → Prop :=
  Relation.ReflTransGen fun p c => t.IsParent p c ∧ c ∈ fresh

/-- A way down avoids a node, or goes on from one of its children when it was there last. -/
theorem Leads.avoid (h : t.Leads fresh a x) (id : NodeId) :
    x = id ∨ a ≠ id ∧ t.Leads (fresh.erase id) a x ∨
      ∃ c ∈ fresh.erase id, t.IsParent id c ∧ t.Leads (fresh.erase id) c x := by
  induction h with
  | refl =>
    by_cases ha : a = id
    · exact .inl ha
    · exact .inr (.inl ⟨ha, .refl⟩)
  | @tail y x _ hyx ih =>
    obtain ⟨hparent, hfresh⟩ := hyx
    by_cases hx : x = id
    · exact .inl hx
    · have hstill : x ∈ fresh.erase id := (List.mem_erase_of_ne hx).2 hfresh
      rcases ih with rfl | ⟨ha, hy⟩ | ⟨c, hc, hid, hy⟩
      · exact .inr (.inr ⟨x, hstill, hparent, .refl⟩)
      · exact .inr (.inl ⟨ha, hy.tail ⟨hparent, hstill⟩⟩)
      · exact .inr (.inr ⟨c, hc, hid, hy.tail ⟨hparent, hstill⟩⟩)

theorem mem_walk (ha : a ∈ stack) (hfresh : a ∈ fresh) (h : t.Leads fresh a x) :
    x ∈ t.walk fresh stack := by
  fun_induction walk t fresh stack generalizing a with
  | case1 => cases ha
  | case2 fresh id stack hid ih =>
    rcases h.avoid id with rfl | ⟨hne, hx⟩ | ⟨c, hc, hparent, hx⟩
    · exact List.mem_cons_self
    · have hrest : a ∈ stack := (List.mem_cons.1 ha).resolve_left hne
      exact List.mem_cons_of_mem _ (ih (List.mem_append_right _ hrest)
        ((List.mem_erase_of_ne hne).2 hfresh) hx)
    · exact List.mem_cons_of_mem _ (ih (List.mem_append_left _ hparent) hc hx)
  | case3 fresh id stack hid ih =>
    rcases List.mem_cons.1 ha with rfl | ha
    · exact absurd hfresh hid
    · exact ih ha hfresh h

theorem lt_size_of_get? {node : Node} (h : t.get? x = some node) : x < t.size :=
  (Array.getElem?_eq_some_iff.1 h).1

theorem lt_size_of_isParent (h : t.IsParent x c) : x < t.size := by
  unfold IsParent children at h
  cases hget : t.get? x with
  | none => simp [hget] at h
  | some node => exact lt_size_of_get? hget

theorem mem_fresh_of_mem_walk (h : x ∈ t.walk fresh stack) : x ∈ fresh := by
  fun_induction walk t fresh stack with
  | case1 => cases h
  | case2 fresh id stack hid ih =>
    rcases List.mem_cons.1 h with rfl | h
    · exact hid
    · exact List.mem_of_mem_erase (ih h)
  | case3 fresh id stack hid ih => exact ih h

/-- A way down from a node can be cut where it is at the node for the last time. -/
theorem exists_leads_of_transGen (h : Relation.TransGen t.IsParent a x) (hne : x ≠ a)
    (hx : x < t.size) :
    ∃ c, t.IsParent a c ∧ c ∈ (List.range t.size).erase a ∧
      t.Leads ((List.range t.size).erase a) c x := by
  have hfresh {y : NodeId} (hy : y < t.size) (hya : y ≠ a) : y ∈ (List.range t.size).erase a :=
    (List.mem_erase_of_ne hya).2 (List.mem_range.2 hy)
  induction h with
  | single hax => exact ⟨_, hax, hfresh hx hne, .refl⟩
  | @tail y x _ hyx ih =>
    by_cases hya : y = a
    · exact ⟨x, hya ▸ hyx, hfresh hx hne, .refl⟩
    · obtain ⟨c, hac, hc, hcy⟩ := ih hya (lt_size_of_isParent hyx)
      exact ⟨c, hac, hc, hcy.tail ⟨hyx, hfresh hx hne⟩⟩

/-- The descendants of a node are the other nodes to which links lead from it. -/
theorem mem_descendants (hx : x < t.size) :
    x ∈ t.descendants a ↔ x ≠ a ∧ Relation.TransGen t.IsParent a x := by
  constructor
  · intro h
    obtain ⟨c, hac, hcx⟩ := below_of_mem_walk h
    refine ⟨?_, Relation.TransGen.head' hac hcx⟩
    rintro rfl
    exact (List.nodup_range.mem_erase_iff.1 (mem_fresh_of_mem_walk h)).1 rfl
  · rintro ⟨hne, h⟩
    obtain ⟨c, hac, hc, hcx⟩ := exists_leads_of_transGen h hne hx
    exact mem_walk hac hc hcx

/-- Where the levels end, the descendants of a node are the nodes below its children. -/
theorem mem_descendants_iff (hlevels : t.fitsIn n a = true) (hx : x < t.size) :
    x ∈ t.descendants a ↔ ∃ c, t.IsParent a c ∧ t.Below c x := by
  rw [mem_descendants hx, Relation.TransGen.head'_iff]
  refine and_iff_right_of_imp ?_
  rintro ⟨c, hc, hcx⟩ rfl
  exact not_below_child hlevels hc hcx

end MarkupText.Tree
