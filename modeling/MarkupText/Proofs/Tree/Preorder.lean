import MarkupText.Proofs.Tree.Built
import MarkupText.Proofs.Tree.Descendants

/-!
# The order of a walk

A listing of descendants (`Tree.Cursor`) keeps the nodes that wait and the nodes that were met, and
marks a node when its turn comes. It ends on every arena and lists what the recursion lists that
marks a node when it enters it (`Tree.Preorder`): `Tree.listing_descendants`. Both go along with
`Tree.walk`, whose fresh nodes are those that were not met (`Tree.Unmet`).
-/

namespace MarkupText.Tree
variable {t : Tree} {id x : NodeId} {fresh fresh' met met' ids out stack : List NodeId}

/-! ### Two ways to list -/

/-- Where a listing stands: the nodes that wait, the next one first, and those that were met. -/
structure Cursor where
  waiting : List NodeId
  met : List NodeId
deriving DecidableEq

/-- The listing of the nodes below `id` before its first node. -/
def cursor (t : Tree) (id : NodeId) : Cursor := ⟨t.children id, [id]⟩

/-- The next node of a listing. Waiting nodes that were met are passed over, and the children of the
node wait in front of all others. -/
def Cursor.next? (t : Tree) (s : Cursor) : Option (NodeId × Cursor) :=
  match s.waiting.dropWhile (· ∈ s.met) with
  | [] => none
  | id :: rest => some (id, ⟨t.children id ++ rest, id :: s.met⟩)

/-- The listing goes on with the nodes `out` and then ends. -/
inductive Yields (t : Tree) : Cursor → List NodeId → Prop
  | done {s : Cursor} (h : s.next? t = none) : Yields t s []
  | next {s s' : Cursor} {id : NodeId} {out : List NodeId} (h : s.next? t = some (id, s'))
      (hout : Yields t s' out) : Yields t s (id :: out)

/-- The recursion that visits the nodes `ids` in turn when the nodes `met` were met: it enters each
node once, lists it and visits its children. It lists `out` and has met `met'` in the end. -/
inductive Preorder (t : Tree) : (met ids out met' : List NodeId) → Prop
  | nil (met : List NodeId) : Preorder t met [] [] met
  | again {id : NodeId} {met ids out met' : List NodeId} (h : id ∈ met)
      (hids : Preorder t met ids out met') : Preorder t met (id :: ids) out met'
  | enter {id : NodeId} {met ids below met' out met'' : List NodeId} (h : id ∉ met)
      (hbelow : Preorder t (id :: met) (t.children id) below met')
      (hids : Preorder t met' ids out met'') :
      Preorder t met (id :: ids) (id :: below ++ out) met''

/-! ### Fresh nodes -/

/-- The nodes `fresh` are those that were not met. -/
structure Unmet (t : Tree) (fresh met : List NodeId) : Prop where
  nodup : fresh.Nodup
  mem_iff : ∀ x, x ∈ fresh ↔ x < t.size ∧ x ∉ met

namespace Unmet

theorem start (t : Tree) (id : NodeId) : Unmet t ((List.range t.size).erase id) [id] where
  nodup := List.nodup_range.erase id
  mem_iff x := by
    rw [List.nodup_range.mem_erase_iff, List.mem_range, List.mem_singleton]
    exact and_comm

theorem meet (h : Unmet t fresh met) (id : NodeId) : Unmet t (fresh.erase id) (id :: met) where
  nodup := h.nodup.erase id
  mem_iff x := by
    rw [h.nodup.mem_erase_iff, h.mem_iff, List.mem_cons, not_or]
    exact and_left_comm

theorem mem_fresh (h : Unmet t fresh met) (hid : id < t.size) (hmet : id ∉ met) : id ∈ fresh :=
  (h.mem_iff id).2 ⟨hid, hmet⟩

theorem notMem_fresh (h : Unmet t fresh met) (hmet : id ∈ met) : id ∉ fresh := fun hid =>
  ((h.mem_iff id).1 hid).2 hmet

end Unmet

theorem children_lt (ht : t.Closed) (id : NodeId) : ∀ c ∈ t.children id, c < t.size :=
  fun _ hc => ht hc

/-! ### The listing -/

theorem next?_of_notMem (h : id ∉ met) :
    Cursor.next? t ⟨id :: stack, met⟩ = some (id, ⟨t.children id ++ stack, id :: met⟩) := by
  simp [Cursor.next?, h]

theorem next?_of_mem (h : id ∈ met) :
    Cursor.next? t ⟨id :: stack, met⟩ = Cursor.next? t ⟨stack, met⟩ := by
  simp [Cursor.next?, h]

theorem Yields.congr {s s' : Cursor} (h : t.Yields s' out) (heq : s.next? t = s'.next? t) :
    t.Yields s out := by
  cases h with
  | done hs => exact .done (heq.trans hs)
  | next hs hout => exact .next (heq.trans hs) hout

theorem Yields.unique {s : Cursor} {u : List NodeId} (h : t.Yields s out) (h' : t.Yields s u) :
    u = out := by
  induction h generalizing u with
  | done hs =>
    cases h' with
    | done => rfl
    | next hs' => cases hs.symm.trans hs'
  | next hs _ ih =>
    cases h' with
    | done hs' => cases hs.symm.trans hs'
    | next hs' hu =>
      obtain ⟨rfl, rfl⟩ := Prod.mk.inj (Option.some.inj (hs.symm.trans hs'))
      rw [ih hu]

/-- A listing ends, and lists what the walk lists. -/
theorem yields_walk (ht : t.Closed) (h : Unmet t fresh met) (hstack : ∀ x ∈ stack, x < t.size) :
    t.Yields ⟨stack, met⟩ (t.walk fresh stack) := by
  fun_induction walk t fresh stack generalizing met with
  | case1 => exact .done rfl
  | case2 fresh id stack hid ih =>
    have hmet := ((h.mem_iff id).1 hid).2
    refine .next (next?_of_notMem hmet) (ih (h.meet id) fun x hx => ?_)
    rcases List.mem_append.1 hx with hx | hx
    · exact children_lt ht id x hx
    · exact hstack x (List.mem_cons_of_mem _ hx)
  | case3 fresh id stack hid ih =>
    have hmet : id ∈ met := Decidable.byContradiction fun hmet =>
      hid (h.mem_fresh (hstack id List.mem_cons_self) hmet)
    exact (ih h fun x hx => hstack x (List.mem_cons_of_mem _ hx)).congr (next?_of_mem hmet)

/-! ### The recursion -/

/-- A walk lists some nodes and what is below them before it goes on with the rest of its stack. -/
theorem Preorder.walk_append (ht : t.Closed) (h : t.Preorder met ids out met')
    (hfresh : Unmet t fresh met) (hids : ∀ x ∈ ids, x < t.size) :
    ∃ fresh', Unmet t fresh' met' ∧
      ∀ rest, t.walk fresh (ids ++ rest) = out ++ t.walk fresh' rest := by
  induction h generalizing fresh with
  | nil => exact ⟨fresh, hfresh, fun _ => rfl⟩
  | again hmet _ ih =>
    obtain ⟨fresh', hfresh', hwalk⟩ := ih hfresh fun x hx => hids x (List.mem_cons_of_mem _ hx)
    refine ⟨fresh', hfresh', fun rest => ?_⟩
    rw [List.cons_append, walk, if_neg (hfresh.notMem_fresh hmet), hwalk]
  | @enter id _ ids _ _ _ _ hmet _ _ ihbelow ihids =>
    have hid := hfresh.mem_fresh (hids id List.mem_cons_self) hmet
    obtain ⟨fresh₁, hfresh₁, hbelow⟩ := ihbelow (hfresh.meet id) (children_lt ht id)
    obtain ⟨fresh₂, hfresh₂, hrest⟩ := ihids hfresh₁ fun x hx => hids x (List.mem_cons_of_mem _ hx)
    refine ⟨fresh₂, hfresh₂, fun rest => ?_⟩
    rw [List.cons_append, walk, if_pos hid, hbelow, hrest]
    simp

/-- The recursion ends: each node that it enters was fresh. -/
theorem exists_preorder (ht : t.Closed) (n : Nat) (hfresh : Unmet t fresh met)
    (hn : fresh.length ≤ n) (hids : ∀ x ∈ ids, x < t.size) :
    ∃ out met' fresh', t.Preorder met ids out met' ∧ Unmet t fresh' met' ∧
      fresh'.length ≤ fresh.length := by
  induction n using Nat.strongRecOn generalizing fresh met ids with | ind n ih =>
  induction ids generalizing fresh met with
  | nil => exact ⟨[], met, fresh, .nil met, hfresh, Nat.le_refl _⟩
  | cons id ids ihids =>
    have hrest : ∀ x ∈ ids, x < t.size := fun x hx => hids x (List.mem_cons_of_mem _ hx)
    by_cases hmet : id ∈ met
    · obtain ⟨out, met', fresh', hout, hfresh'⟩ := ihids hfresh hn hrest
      exact ⟨out, met', fresh', .again hmet hout, hfresh'⟩
    · have hid := hfresh.mem_fresh (hids id List.mem_cons_self) hmet
      have hpos := List.length_pos_of_mem hid
      have hless := List.length_erase_of_mem hid
      obtain ⟨below, met₁, fresh₁, hbelow, hfresh₁, hle₁⟩ :=
        ih (n - 1) (by omega) (hfresh.meet id) (by omega) (children_lt ht id)
      obtain ⟨out, met₂, fresh₂, hout, hfresh₂, hle₂⟩ := ihids hfresh₁ (by omega) hrest
      exact ⟨_, met₂, fresh₂, .enter hmet hbelow hout, hfresh₂, by omega⟩

/-- The recursion lists what the walk lists, and nothing else. -/
theorem exists_preorder_iff (ht : t.Closed) (hfresh : Unmet t fresh met)
    (hids : ∀ x ∈ ids, x < t.size) :
    (∃ met', t.Preorder met ids out met') ↔ out = t.walk fresh ids := by
  have hlisted {u met'} (h : t.Preorder met ids u met') : u = t.walk fresh ids := by
    obtain ⟨fresh', -, hwalk⟩ := h.walk_append ht hfresh hids
    simpa [walk] using (hwalk []).symm
  constructor
  · rintro ⟨met', h⟩
    exact hlisted h
  · rintro rfl
    obtain ⟨u, met', -, h, -⟩ := exists_preorder ht _ hfresh (Nat.le_refl _) hids
    exact ⟨met', hlisted h ▸ h⟩

/-- From a node the recursion lists the node and goes on with its children. -/
theorem exists_preorder_root :
    (∃ met, t.Preorder [] [id] out met) ↔
      ∃ below, out = id :: below ∧ ∃ met, t.Preorder [id] (t.children id) below met := by
  constructor
  · rintro ⟨met, h⟩
    cases h with
    | again hmet => cases hmet
    | enter _ hbelow hids =>
      cases hids
      exact ⟨_, List.append_nil _, _, hbelow⟩
  · rintro ⟨below, rfl, met, hbelow⟩
    refine ⟨met, ?_⟩
    have h := Preorder.enter List.not_mem_nil hbelow (.nil met)
    rwa [List.append_nil] at h

/-! ### Descendants -/

theorem nodup_walk (hfresh : fresh.Nodup) : (t.walk fresh stack).Nodup := by
  fun_induction walk t fresh stack with
  | case1 => exact List.nodup_nil
  | case2 fresh id stack hid ih =>
    refine List.nodup_cons.2 ⟨fun h => ?_, ih (hfresh.erase id)⟩
    exact (hfresh.mem_erase_iff.1 (mem_fresh_of_mem_walk h)).1 rfl
  | case3 fresh id stack hid ih => exact ih hfresh

/-- What the descendants `out` of a node are. -/
structure Listing (t : Tree) (id : NodeId) (out : List NodeId) : Prop where
  /-- The listing ends after these nodes. -/
  ends : ∀ u, t.Yields (t.cursor id) u ↔ u = out
  once : out.Nodup
  reached : ∀ x, x ∈ out ↔ x ≠ id ∧ Relation.TransGen t.IsParent id x
  /-- They come in the order of the recursion. -/
  order : ∀ u, (∃ met, t.Preorder [id] (t.children id) u met) ↔ u = out
  whole : ∀ u, (∃ met, t.Preorder [] [id] u met) ↔ u = id :: out
  /-- The text of a node is that of the leaves in this order. -/
  text : t.textContent id = (id :: out).flatMap fun n => (t.text? n).getD []

theorem lt_size_of_reached (ht : t.Closed) (h : Relation.TransGen t.IsParent id x) :
    x < t.size := by
  cases h with
  | single h => exact ht h
  | tail _ h => exact ht h

/-- Whatever cycles and shared or repeated children an arena has, the listing of the nodes below a
node ends, and it lists each node that is reached from there once, in the order of the recursion. -/
theorem listing_descendants (ht : t.Assembled) (id : NodeId) : t.Listing id (t.descendants id) := by
  have hclosed : t.Closed := ht.closed
  have hchildren := children_lt hclosed id
  have hyields : t.Yields (t.cursor id) (t.descendants id) :=
    yields_walk hclosed (.start t id) hchildren
  have horder (u : List NodeId) :
      (∃ met, t.Preorder [id] (t.children id) u met) ↔ u = t.descendants id :=
    exists_preorder_iff hclosed (.start t id) hchildren
  exact
    { ends := fun u => ⟨hyields.unique, fun h => h ▸ hyields⟩
      once := nodup_walk (List.nodup_range.erase id)
      reached := fun x => by
        by_cases hx : x < t.size
        · exact mem_descendants hx
        · refine ⟨fun h => absurd ?_ hx, fun h => absurd (lt_size_of_reached hclosed h.2) hx⟩
          exact List.mem_range.1 (List.mem_of_mem_erase (mem_fresh_of_mem_walk h))
      order := horder
      whole := fun u => by
        rw [exists_preorder_root]
        simp only [horder, exists_eq_right]
      text := rfl }

/-- Text nodes below the document and below each other, one of them twice below the other. -/
def looped : Tree :=
  let t := ((({} : Tree).alloc (.text ['a'])).2.alloc (.text ['b'])).2
  ((((t.append 0 1).append 1 2).append 1 2).append 2 1).append 2 0

theorem listing_descendants_looped :
    looped.Assembled ∧ looped.descendants 1 = [2, 0] ∧ looped.textContent 1 = ['a', 'b'] ∧
      looped.Listing 1 [2, 0] := by
  have hbuilt : looped.Assembled := by
    unfold looped
    iterate 5 apply Assembled.append
    exact .alloc _ (.alloc _ .empty)
  have hwalk : looped.descendants 1 = [2, 0] := by
    have hsize : looped.size = 3 := rfl
    have h₀ : looped.children 0 = [1] := rfl
    have h₁ : looped.children 1 = [2, 2] := rfl
    have h₂ : looped.children 2 = [1, 0] := rfl
    rw [descendants, hsize, h₁, show (List.range 3).erase 1 = [0, 2] by decide]
    simp [walk, h₀, h₂]
  have h := listing_descendants hbuilt 1
  rw [hwalk] at h
  exact ⟨hbuilt, hwalk, h.text, h⟩

end MarkupText.Tree
