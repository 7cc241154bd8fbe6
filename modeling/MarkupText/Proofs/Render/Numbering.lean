import MarkupText.Proofs.Render.Deferral
import MarkupText.Proofs.Render.Places
import MarkupText.Proofs.Render.WordGaps
import Mathlib.Data.Set.Insert
import Mathlib.Logic.Function.Iterate

/-!
# Numbers of list items

There is one counter, which lists set and put back and which items count up behind their content.
Where every item of an item stands in a list of its own (`Tree.ItemsInLists`), the numbers do not
get mixed up: the items of a numbered list are numbered in document order (`numbered_renderWith`).
A `Tally` says of the writing of some siblings how it counts on the label from before, with which
items, and that each numbered list in it counts its own; `tally_node` shows it by induction on the
levels. A node has one parent here, but can have several places among its children: the first of them
counts, for the others the node is `Spent`.
-/

namespace MarkupText

namespace Tree
variable {t : Tree} {a c p x y : NodeId}

/-- The node is a list. -/
def IsList (t : Tree) (x : NodeId) : Prop := t.tag? x = some .ul ∨ t.tag? x = some .ol

/-- The node `x` is below `a` with no list in between. -/
inductive Directly (t : Tree) (a : NodeId) : NodeId → Prop
  | child {x : NodeId} (h : t.IsParent a x) : Directly t a x
  | through {p x : NodeId} (hp : Directly t a p) (hlist : ¬ t.IsList p) (h : t.IsParent p x) :
      Directly t a x

/-- No item is in another one without a list in between. -/
def ItemsInLists (t : Tree) : Prop :=
  ∀ a x, t.tag? a = some .li → t.tag? x = some .li → ¬ t.Directly a x

/-- In document order `x` comes before `y`: they are at or below two siblings, the first place of the
one in front of that of the other. -/
def Before (t : Tree) (x y : NodeId) : Prop :=
  ∃ p a b, t.IsParent p b ∧ (t.children p).idxOf a < (t.children p).idxOf b ∧
    t.Below a x ∧ t.Below b y

theorem Directly.exists_child (h : t.Directly a x) : ∃ c, t.IsParent a c ∧ t.Below c x := by
  induction h with
  | @child x h => exact ⟨x, h, .refl⟩
  | through _ _ h ih =>
    obtain ⟨c, hc, hcp⟩ := ih
    exact ⟨c, hc, hcp.tail h⟩

theorem Directly.toBelow (h : t.Directly a x) : t.Below a x := by
  obtain ⟨c, hc, hcx⟩ := h.exists_child
  exact .head hc hcx

/-- A child comes before those whose first place is behind its own. -/
theorem before_of_split {done rest : List NodeId} (h : t.children p = done ++ a :: rest)
    (ha : a ∉ done) (hc : c ∈ rest) (hnew : c ∉ done ++ [a]) (hx : t.Below a x)
    (hy : t.Below c y) : t.Before x y := by
  refine ⟨p, a, c, ?_, ?_, hx, hy⟩
  · rw [IsParent, h]
    exact List.mem_append_right _ (List.mem_cons_of_mem a hc)
  · obtain ⟨hdone, hne⟩ := not_or.1 (mt List.mem_append.2 hnew)
    rw [h, List.idxOf_append_of_notMem ha, List.idxOf_append_of_notMem hdone,
      List.idxOf_cons_self, List.idxOf_cons_ne _ (Ne.symm (List.ne_of_not_mem_cons hne))]
    omega

theorem content_of_element? {e : Element} (h : t.element? x = some e) :
    (t.get? x).map Node.content = some (.element e) := by
  unfold element? at h
  split at h
  · rename_i hcontent
    rw [hcontent, Option.some.inj h]
  · cases h

theorem tag?_of_element? {e : Element} (h : t.element? x = some e) : t.tag? x = some e.tag := by
  rw [tag?, h, Option.map_some]

end Tree

namespace Renderer
variable {s : Scene} {a b c o p x : NodeId} {e : Element} {n : Nat}

/-! ### Labels -/

/-- The number of the first item of a list. -/
def firstNumber (e : Element) : Nat :=
  ((e.attr? "start").bind fun v => readNat? numberBound v.trim).getD 1

theorem lt_of_readNat? {bound : Nat} {t : Text} (h : readNat? bound t = some n) : n < bound := by
  unfold readNat? at h
  generalize (if t.head? = some '+' then t.drop 1 else t) = digits at h
  dsimp only at h
  split_ifs at h with _ hlt
  rwa [← Option.some.inj h]

theorem firstNumber_lt (e : Element) : firstNumber e < numberBound := by
  unfold firstNumber
  cases hread : (e.attr? "start").bind fun v => readNat? numberBound v.trim with
  | none => decide
  | some n =>
    obtain ⟨v, -, hv⟩ := Option.bind_eq_some_iff.1 hread
    exact lt_of_readNat? hv

/-- The labels of a numbered list count up to the largest number. -/
theorem iterate_nextLabel (h : n < numberBound) (k : Nat) :
    nextLabel^[k] (.number n) = .number (min (n + k) (numberBound - 1)) := by
  induction k with
  | zero =>
    have hn : min (n + 0) (numberBound - 1) = n := by omega
    rw [hn]
    rfl
  | succ k ih =>
    rw [Function.iterate_succ_apply', ih, nextLabel]
    congr 1
    omega

theorem visible_natText (n : Nat) : Text.visible (natText n) = natText n := by
  obtain ⟨u, hu, -, hsolid⟩ := labelText_eq (.number n)
  obtain rfl : natText n = u := List.append_cancel_right hu
  exact Text.visible_eq_self fun c hc => (hsolid c hc).2

theorem role_eq_item {t : Tag} : t.role = .item ↔ t = .li := by
  cases t <;> decide

theorem role_eq_list {t : Tag} {numbered : Bool} :
    t.role = .list numbered ↔ t = if numbered then .ol else .ul := by
  cases numbered <;> cases t <;> decide

/-! ### Ways past no list -/

theorem setOf_shows_element (he : s.tree.element? p = some e) :
    {c | Shows s p c} = {c | c ∈ shownBy s p e} :=
  Set.ext fun _ => shows_iff (Tree.content_of_element? he)

/-- The node `x` is `a` or shown below it, in no list that is `a` or below it. -/
def InNoList (s : Scene) : NodeId → NodeId → Prop :=
  Relation.ReflTransGen fun p x => Shows s p x ∧ ¬ s.tree.IsList p

theorem inNoList_iff : InNoList s a x ↔
    x = a ∨ ¬ s.tree.IsList a ∧ ∃ c, Shows s a c ∧ InNoList s c x := by
  constructor
  · intro h
    rcases Relation.ReflTransGen.cases_head h with rfl | ⟨c, ⟨hc, hlist⟩, hcx⟩
    · exact .inl rfl
    · exact .inr ⟨hlist, c, hc, hcx⟩
  · rintro (rfl | ⟨hlist, c, hc, hcx⟩)
    · exact .refl
    · exact .head ⟨hc, hlist⟩ hcx

theorem InNoList.below (h : InNoList s a x) : s.tree.Below a x :=
  Relation.reflTransGen_closed (fun _ _ h => below_of_shows h.1) a x h

theorem InNoList.shows (h : InNoList s a x) : Relation.ReflTransGen (Shows s) a x :=
  Relation.ReflTransGen.mono (fun _ _ h => h.1) a x h

section Tables
variable (hs : s.tree.TableFree)
include hs

theorem role_ne_table (he : s.tree.element? x = some e) : e.tag.role ≠ .table := fun hrole =>
  hs x (by rw [Tree.tag?_of_element? he, role_eq_table.1 hrole])

/-- Without tables, nodes show children of their own. -/
theorem isParent_of_shows (h : Shows s p x) : s.tree.IsParent p x := by
  obtain ⟨content, hcontent, hx⟩ := h
  cases content with
  | document => exact hx
  | text t => cases hx
  | comment t => cases hx
  | element e =>
    have he : s.tree.element? p = some e := by rw [Tree.element?, hcontent]
    exact (shownBy_sublist (role_ne_table hs he) p).subset hx

theorem directly_of_inNoList (hc : Shows s o c) (h : InNoList s c x) : s.tree.Directly o x := by
  induction h with
  | refl => exact .child (isParent_of_shows hs hc)
  | tail _ hstep ih => exact ih.through hstep.2 (isParent_of_shows hs hstep.1)

variable (ht : s.tree.OneParent)
include ht

/-- The way to what is shown leads through every node above it. -/
theorem shows_through (hao : s.tree.Below a o) (hox : s.tree.Below o x)
    (hlevels : s.tree.fitsIn n a = true) (h : Relation.ReflTransGen (Shows s) a x) :
    Relation.ReflTransGen (Shows s) a o ∧ Relation.ReflTransGen (Shows s) o x := by
  induction h with
  | refl =>
    rcases hao.head_cases with rfl | ⟨c, hc, hco⟩
    · exact ⟨.refl, .refl⟩
    · exact absurd (hco.trans hox) (Tree.not_below_child hlevels hc)
  | @tail q x haq hqx ih =>
    rcases Relation.ReflTransGen.cases_tail hox with rfl | ⟨q', hoq, hq'⟩
    · exact ⟨haq.tail hqx, .refl⟩
    · obtain rfl := ht (isParent_of_shows hs hqx) hq'
      obtain ⟨ho, hoq⟩ := ih hoq
      exact ⟨ho, hoq.tail hqx⟩

/-- What is shown below a node with no list in between is shown in no list below its children. -/
theorem exists_inNoList (hlevels : s.tree.fitsIn n o = true) (hx : s.tree.Directly o x)
    (h : Relation.ReflTransGen (Shows s) o x) : ∃ c, Shows s o c ∧ InNoList s c x := by
  induction hx with
  | @child x hx =>
    rcases Relation.ReflTransGen.cases_tail h with rfl | ⟨q, hoq, hqx⟩
    · exact absurd .refl (Tree.not_below_child hlevels hx)
    · obtain rfl := ht (isParent_of_shows hs hqx) hx
      exact ⟨x, hqx, .refl⟩
  | @through p x hp hlist hpx ih =>
    rcases Relation.ReflTransGen.cases_tail h with rfl | ⟨q, hoq, hqx⟩
    · obtain ⟨c, hc, hcp⟩ := hp.exists_child
      exact absurd (hcp.tail hpx) (Tree.not_below_child hlevels hc)
    · obtain rfl := ht (isParent_of_shows hs hqx) hpx
      obtain ⟨c, hc, hcp⟩ := ih hoq
      exact ⟨c, hc, hcp.tail ⟨hqx, hlist⟩⟩

end Tables
end Renderer

open Renderer

/-! ### Items of a writing -/

namespace Written
variable {s : Scene} {v w : Written} {before : Text} {q : Place} {id o p x : NodeId} {e : Element}
  {l l' l'' : ListLabel} {ps qs : List Place} {S S' : Set NodeId} {r a b : Reader}

/-- The items that are in no list and in no other item. -/
def items (before : Text) : Written → List Place
  | nil | text _ => []
  | append v w => v.items before ++ w.items (before ++ v.plain)
  | inside id e w =>
    match e.tag with
    | .ul | .ol => []
    | .li => [⟨id, e, before, w⟩]
    | _ => w.items before

theorem places_of_mem_items (hq : q ∈ w.items before) : q ∈ w.places before := by
  induction w generalizing before with
  | nil => cases hq
  | text t => cases hq
  | append v w ihv ihw => exact List.mem_append.2 ((List.mem_append.1 hq).imp ihv ihw)
  | inside id e w ih =>
    rw [items] at hq
    split at hq
    · cases hq
    · cases hq
    · exact List.mem_append_right _ hq
    · exact List.mem_append_left _ (ih hq)

theorem places_trans {p : Place} (hp : p ∈ w.places before) (hq : q ∈ p.inside.places p.before) :
    q ∈ w.places before := by
  induction w generalizing before with
  | nil => cases hp
  | text t => cases hp
  | append v w ihv ihw => exact List.mem_append.2 ((List.mem_append.1 hp).imp ihv ihw)
  | inside id e w ih =>
    rcases List.mem_append.1 hp with hp | hp
    · exact List.mem_append_left _ (ih hp)
    · rw [List.mem_singleton.1 hp] at hq
      exact List.mem_append_left _ hq

/-- The items begin with the labels from `l` on, and `l'` is the next label. -/
inductive Labels : ListLabel → List Place → ListLabel → Prop
  | nil (l : ListLabel) : Labels l [] l
  | cons {l l' : ListLabel} {q : Place} {qs : List Place} {content : Written}
      (hq : q.inside = append (text (labelText l)) content) (hqs : Labels (nextLabel l) qs l') :
      Labels l (q :: qs) l'

theorem Labels.append (h : Labels l ps l') (h' : Labels l' qs l'') : Labels l (ps ++ qs) l'' := by
  induction h with
  | nil => exact h'
  | cons hq _ ih => exact .cons hq (ih h')

theorem Labels.getElem (h : Labels l ps l') (k : Nat) (hk : k < ps.length) :
    ∃ content, ps[k].inside = .append (text (labelText (nextLabel^[k] l))) content := by
  induction h generalizing k with
  | nil => cases hk
  | @cons l l' q qs content hq _ ih =>
    cases k with
    | zero => exact ⟨content, hq⟩
    | succ k =>
      rw [Function.iterate_succ_apply]
      exact ih k (Nat.lt_of_succ_lt_succ hk)

/-- The items are labelled from `l` on to `l'`; they are those that are shown at or below the
nodes `S` in no list, in document order and each once. -/
structure Counts (s : Scene) (S : Set NodeId) (l : ListLabel) (qs : List Place)
    (l' : ListLabel) : Prop where
  labels : Labels l qs l'
  mem_iff : ∀ x, x ∈ qs.map Place.id ↔
    s.tree.tag? x = some .li ∧ ∃ c ∈ S, InNoList s c x
  order : (qs.map Place.id).Pairwise fun x y => s.tree.Before x y ∧ x ≠ y

/-- What the writing `out` of the nodes `S` does to labels. -/
structure Tally (s : Scene) (before : Text) (S : Set NodeId) (r : Reader)
    (out : Written × Reader) : Prop where
  visited : ∀ x ∈ out.2.visited, x ∈ r.visited ∨ ∃ c ∈ S, s.tree.Below c x
  counts : Counts s S r.label (out.1.items before) out.2.label
  /-- Each numbered list that is shown counts its own items, from its first label on. -/
  lists : ∀ c ∈ S, ∀ o e, Relation.ReflTransGen (Shows s) c o → s.tree.element? o = some e →
    e.tag = .ol → ∃ p ∈ out.1.places before, p.id = o ∧ ∃ l',
      Counts s {c | Shows s o c} (firstLabel true e) (p.inside.items p.before) l'

namespace Tally

theorem nil (s : Scene) (before : Text) (r : Reader) : Tally s before ∅ r (nil, r) where
  visited _ hx := .inl hx
  counts := ⟨.nil _, fun x => by simp [items], .nil⟩
  lists c hc := absurd hc (Set.notMem_empty c)

theorem text (s : Scene) (before t : Text) (r : Reader) : Tally s before ∅ r (text t, r) where
  visited _ hx := .inl hx
  counts := ⟨.nil _, fun x => by simp [items], .nil⟩
  lists c hc := absurd hc (Set.notMem_empty c)

theorem append (h : Tally s before S r (v, a)) (h' : Tally s (before ++ v.plain) S' a (w, b))
    (horder : ∀ c ∈ S, ∀ d ∈ S', ∀ x y, s.tree.Below c x → s.tree.Below d y →
      s.tree.Before x y ∧ x ≠ y) :
    Tally s before (S ∪ S') r (append v w, b) where
  visited x hx := by
    rcases h'.visited x hx with hx | ⟨c, hc, hcx⟩
    · refine (h.visited x hx).imp_right ?_
      rintro ⟨c, hc, hcx⟩
      exact ⟨c, .inl hc, hcx⟩
    · exact .inr ⟨c, .inr hc, hcx⟩
  counts := by
    refine ⟨h.counts.labels.append h'.counts.labels, fun x => ?_, ?_⟩
    · rw [items, List.map_append, List.mem_append, h.counts.mem_iff, h'.counts.mem_iff,
        ← and_or_left]
      refine and_congr_right fun _ => ?_
      simp only [Set.mem_union, or_and_right, exists_or]
    · rw [items, List.map_append, List.pairwise_append]
      refine ⟨h.counts.order, h'.counts.order, fun x hx y hy => ?_⟩
      obtain ⟨-, c, hc, hcx⟩ := (h.counts.mem_iff x).1 hx
      obtain ⟨-, d, hd, hdy⟩ := (h'.counts.mem_iff y).1 hy
      exact horder c hc d hd x y hcx.below hdy.below
  lists c hc o e hco he htag := by
    rcases hc with hc | hc
    · obtain ⟨p, hp, hcounts⟩ := h.lists c hc o e hco he htag
      exact ⟨p, List.mem_append_left _ hp, hcounts⟩
    · obtain ⟨p, hp, hcounts⟩ := h'.lists c hc o e hco he htag
      exact ⟨p, List.mem_append_right _ hp, hcounts⟩

/-- A node is tallied by what it shows, its own counting and, as a numbered list, its items. -/
theorem enter {out : Written × Reader} {inner : Text}
    (h : Tally s inner {c | Shows s id c} ⟨id :: r.visited, l⟩ (w, b))
    (hvisited : out.2.visited ⊆ b.visited) (hplaces : w.places inner ⊆ out.1.places before)
    (hcounts : Counts s {id} r.label (out.1.items before) out.2.label)
    (hself : ∀ e, s.tree.element? id = some e → e.tag = .ol → ∃ p ∈ out.1.places before,
      p.id = id ∧ ∃ l',
        Counts s {c | Shows s id c} (firstLabel true e) (p.inside.items p.before) l') :
    Tally s before {id} r out where
  visited x hx := by
    rcases h.visited x (hvisited hx) with hx | ⟨c, hc, hcx⟩
    · rcases List.mem_cons.1 hx with rfl | hx
      · exact .inr ⟨x, rfl, .refl⟩
      · exact .inl hx
    · exact .inr ⟨id, rfl, (below_of_shows hc).trans hcx⟩
  counts := hcounts
  lists a ha o e hao he htag := by
    obtain rfl := Set.mem_singleton_iff.1 ha
    rcases Relation.ReflTransGen.cases_head hao with rfl | ⟨c, hc, hco⟩
    · exact hself e he htag
    · obtain ⟨p, hp, hnumbered⟩ := h.lists c hc o e hco he htag
      exact ⟨p, hplaces hp, hnumbered⟩

end Tally

/-! ### The counting of one node -/

/-- A node that is no list and no item counts what it shows. -/
theorem Counts.enter (hlist : ¬ s.tree.IsList id) (hitem : s.tree.tag? id ≠ some .li)
    (h : Counts s {c | Shows s id c} l qs l') : Counts s {id} l qs l' where
  labels := h.labels
  order := h.order
  mem_iff x := by
    rw [h.mem_iff]
    refine and_congr_right fun hx => ?_
    have hne : x ≠ id := fun heq => hitem (heq ▸ hx)
    simp only [Set.mem_singleton_iff, Set.mem_ofPred_eq, exists_eq_left, inNoList_iff (a := id),
      hne, false_or, hlist, not_false_eq_true, true_and]

/-- Nothing in a list is counted outside. -/
theorem Counts.list (hlist : s.tree.IsList id) (l : ListLabel) : Counts s {id} l [] l where
  labels := .nil l
  order := .nil
  mem_iff x := by
    refine ⟨fun hx => absurd hx List.not_mem_nil, ?_⟩
    rintro ⟨htag, c, rfl, hcx⟩
    obtain rfl := (inNoList_iff.1 hcx).resolve_right fun h => h.1 hlist
    rcases hlist with h | h <;> rw [h] at htag <;> cases htag

/-- An item takes the label and counts once, as none is below it in no list. -/
theorem Counts.item (hs : s.tree.TableFree) (hitems : s.tree.ItemsInLists)
    (htag : s.tree.tag? id = some .li) (h : Counts s {c | Shows s id c} l (w.items before) l')
    (q : Place) (hid : q.id = id) (hq : q.inside = .append (.text (labelText l)) w) :
    Counts s {id} l [q] (nextLabel l') := by
  have hnone (x : NodeId) (hx : s.tree.tag? x = some .li) (c : NodeId) (hc : Shows s id c) :
      ¬ InNoList s c x := fun hcx => hitems id x htag hx (directly_of_inNoList hs hc hcx)
  have hempty : w.items before = [] := by
    refine List.eq_nil_iff_forall_not_mem.2 fun q hq => ?_
    obtain ⟨hx, c, hc, hcx⟩ := (h.mem_iff q.id).1 (List.mem_map_of_mem hq)
    exact hnone q.id hx c hc hcx
  have hlabel : l' = l := by
    have hlabels := h.labels
    rw [hempty] at hlabels
    cases hlabels
    rfl
  refine ⟨?_, fun x => ?_, List.pairwise_singleton _ _⟩
  · rw [hlabel]
    exact .cons hq (.nil _)
  · simp only [List.map_cons, List.map_nil, List.mem_singleton, Set.mem_singleton_iff,
      exists_eq_left, hid]
    constructor
    · rintro rfl
      exact ⟨htag, .refl⟩
    · rintro ⟨hx, hidx⟩
      exact (inNoList_iff.1 hidx).resolve_right fun ⟨_, c, hc, hcx⟩ => hnone x hx c hc hcx

/-! ### The walk -/

/-- A visit of the node writes nothing: there is no such node, or it was entered. -/
def Spent (s : Scene) (r : Reader) (c : NodeId) : Prop := s.tree.get? c = none ∨ c ∈ r.visited

theorem node_of_spent (h : Spent s r id) (levels indentation : Nat) :
    node s levels indentation id r = (nil, r) := by
  cases levels with
  | zero => rfl
  | succ levels =>
    unfold node
    cases hget : s.tree.get? id with
    | none => rfl
    | some n =>
      have hid : id ∈ r.visited := h.resolve_left (by simp [hget])
      dsimp only
      rw [if_pos hid]

/-- A node that was visited writes nothing from then on. -/
theorem spent_node {levels : Nat} (h : s.tree.fitsIn levels id = true) (indentation : Nat)
    (r : Reader) : Spent s (node s levels indentation id r).2 id := by
  cases levels with
  | zero => cases h
  | succ levels =>
    unfold node
    cases hget : s.tree.get? id with
    | none => exact .inl hget
    | some n =>
      dsimp only
      split
      · exact .inr ‹_›
      · exact .inr (visited_content s levels indentation id n.content _ List.mem_cons_self)

/-- The nodes of `rest` that are kept and are not among those before. -/
def newlyKept (keep : NodeId → Bool) (done rest : List NodeId) : Set NodeId :=
  {c | c ∈ rest ∧ keep c = true ∧ c ∉ done}

section NewlyKept
variable {keep : NodeId → Bool} {done rest : List NodeId}

theorem newlyKept_nil (keep : NodeId → Bool) (done : List NodeId) : newlyKept keep done [] = ∅ := by
  simp [newlyKept]

theorem newlyKept_cons (hkeep : keep c = true) (hc : c ∉ done) :
    newlyKept keep done (c :: rest) = {c} ∪ newlyKept keep (done ++ [c]) rest := by
  ext d
  by_cases hd : d = c
  · simp [newlyKept, hd, hkeep, hc]
  · simp [newlyKept, hd]

theorem newlyKept_cons_of_not (hc : keep c = true → c ∈ done) :
    newlyKept keep done (c :: rest) = newlyKept keep (done ++ [c]) rest := by
  ext d
  by_cases hd : d = c
  · simpa [newlyKept, hd] using hc
  · simp [newlyKept, hd]

end NewlyKept

/-- Children are tallied one behind the other, as they are below different nodes; a child that comes
a second time is spent. -/
theorem tally_inOrder {levels : Nat} (ht : s.tree.OneParent)
    (hlevels : s.tree.fitsIn (levels + 1) p = true) {indentation : Nat} (keep : NodeId → Bool)
    (hnode : ∀ c, s.tree.fitsIn levels c = true → ∀ r : Reader,
      (∀ x, s.tree.Below c x → x ∉ r.visited) → ∀ before,
        Tally s before {c} r (node s levels indentation c r))
    {done rest : List NodeId} (hsplit : s.tree.children p = done ++ rest)
    (hdone : ∀ c ∈ done, keep c = true → Spent s r c)
    (hfresh : ∀ c ∈ rest, c ∉ done → ∀ x, s.tree.Below c x → x ∉ r.visited) (before : Text) :
    Tally s before (newlyKept keep done rest) r
      (inOrder (node s levels indentation) (rest.filter keep) r) := by
  induction rest generalizing done r before with
  | nil =>
    rw [newlyKept_nil]
    exact .nil s before r
  | cons c rest ih =>
    have hsplit' : s.tree.children p = (done ++ [c]) ++ rest := by rw [hsplit, List.append_cons]
    have hchild {d : NodeId} (hd : d ∈ c :: rest) : s.tree.IsParent p d := by
      rw [Tree.IsParent, hsplit]
      exact List.mem_append_right _ hd
    have hdone' {d : NodeId} {r' : Reader} (hr : r.visited ⊆ r'.visited)
        (hc : keep c = true → Spent s r' c) (hd : d ∈ done ++ [c]) (hkeep : keep d = true) :
        Spent s r' d := by
      rcases List.mem_append.1 hd with hd | hd
      · exact (hdone d hd hkeep).imp_right fun hmem => hr hmem
      · obtain rfl := List.mem_singleton.1 hd
        exact hc hkeep
    have hfresh' {d : NodeId} (hd : d ∈ rest) (hnew : d ∉ done ++ [c]) :
        ∀ x, s.tree.Below d x → x ∉ r.visited :=
      hfresh d (List.mem_cons_of_mem c hd) fun hmem => hnew (List.mem_append_left _ hmem)
    by_cases hkeep : keep c = true
    · rw [List.filter_cons_of_pos hkeep, inOrder]
      by_cases hc : c ∈ done
      · -- the child comes again
        have hspent := hdone c hc hkeep
        have hrest := ih hsplit' (fun d => hdone' (List.Subset.refl _) fun _ => hspent)
          (fun d => hfresh') (before ++ Written.nil.plain)
        rw [node_of_spent hspent, newlyKept_cons_of_not fun _ => hc,
          ← Set.empty_union (newlyKept keep (done ++ [c]) rest)]
        exact (Tally.nil s before r).append hrest fun c hc => absurd hc (Set.notMem_empty c)
      · have hlevels' := Tree.fitsIn_succ.1 hlevels c (hchild List.mem_cons_self)
        have hfirst := hnode c hlevels' r (hfresh c List.mem_cons_self hc) before
        have hapart {d x : NodeId} (hd : d ∈ rest) (hnew : d ∉ done ++ [c])
            (hcx : s.tree.Below c x) : ¬ s.tree.Below d x := fun hdx => by
          obtain rfl := ht.sibling_eq hlevels (hchild List.mem_cons_self)
            (hchild (List.mem_cons_of_mem c hd)) hcx hdx
          exact hnew (List.mem_append_right _ (List.mem_singleton_self _))
        have hrest := ih (r := (node s levels indentation c r).2) hsplit'
          (fun d => hdone' (entered_node s levels indentation c r).subset
            fun _ => spent_node hlevels' indentation r)
          (fun d hd hnew x hdx hx => by
            rcases hfirst.visited x hx with hx | ⟨c, rfl, hcx⟩
            · exact hfresh' hd hnew x hdx hx
            · exact hapart hd hnew hcx hdx)
          (before ++ (node s levels indentation c r).1.plain)
        rw [newlyKept_cons hkeep hc]
        refine hfirst.append hrest ?_
        rintro c rfl d ⟨hd, -, hnew⟩ x y hcx hdy
        refine ⟨Tree.before_of_split hsplit hc hd hnew hcx hdy, ?_⟩
        rintro rfl
        exact hapart hd hnew hcx hdy
    · rw [List.filter_cons_of_neg hkeep, newlyKept_cons_of_not fun h => absurd h hkeep]
      exact ih hsplit' (fun d => hdone' (List.Subset.refl _) fun h => absurd h hkeep)
        (fun d => hfresh') before

section Element
variable {write : Nat → NodeId → Reader → Written × Reader} (he : s.tree.element? id = some e)
  (hbody : ∀ indentation label before, Tally s before {c | Shows s id c} ⟨id :: r.visited, label⟩
    (inOrder (write indentation) (shownBy s id e) ⟨id :: r.visited, label⟩))
include he hbody

/-- What an element writes that is no table, list or item is what it shows, or a text. -/
theorem tally_shown (htable : e.tag.role ≠ .table) (hlist : ∀ numbered, e.tag.role ≠ .list numbered)
    (hitem : e.tag.role ≠ .item) (indentation : Nat) (before : Text) :
    Tally s before {c | Shows s id c} ⟨id :: r.visited, r.label⟩
      (element s write indentation id e ⟨id :: r.visited, r.label⟩) := by
  have hbody (indentation : Nat) := hbody indentation r.label before
  rw [setOf_shows_element he] at hbody ⊢
  have hnil : {c | c ∈ ([] : List NodeId)} = ∅ := by simp
  unfold element
  unfold shownBy at hbody ⊢
  generalize e.tag.role = role at htable hlist hitem hbody ⊢
  cases role with
  | hidden | lineBreak => exact hnil ▸ .nil s before _
  | ruler | image => exact hnil ▸ .text s before _ _
  | media label =>
    dsimp only at hbody ⊢
    split
    · exact hnil ▸ .text s before _ _
    · rename_i hsource
      simp only [hsource] at hbody
      exact hbody indentation
  | table => exact absurd rfl htable
  | list numbered => exact absurd rfl (hlist numbered)
  | item => exact absurd rfl hitem
  | _ => exact hbody _

theorem tally_list {numbered : Bool} (hrole : e.tag.role = .list numbered) (indentation : Nat)
    (before : Text) : Tally s before {id} r (content s write indentation id (.element e)
      ⟨id :: r.visited, r.label⟩) := by
  have hshown : shownBy s id e = s.tree.children id := by
    unfold shownBy
    rw [hrole]
  have hbody := hbody indentation (firstLabel numbered e) before
  have hout : content s write indentation id (.element e) ⟨id :: r.visited, r.label⟩ =
      let out := inOrder (write indentation) (shownBy s id e) ⟨id :: r.visited,
        firstLabel numbered e⟩
      (inside id e out.1, { out.2 with label := r.label }) := by
    rw [hshown]
    simp only [content, element, hrole]
  have htag := role_eq_list.1 hrole
  rw [hout]
  refine .enter hbody (List.Subset.refl _) (List.subset_append_left _ _) ?_ fun e' he' hol => ?_
  · have hnone (w : Written) : (inside id e w).items before = [] := by
      unfold items
      rw [htag]
      cases numbered <;> rfl
    rw [hnone]
    refine .list ?_ _
    rw [Tree.IsList, Tree.tag?_of_element? he, htag]
    cases numbered <;> decide
  · obtain rfl := Option.some.inj (he.symm.trans he')
    obtain rfl : numbered = true := by
      rw [hol] at htag
      cases numbered
      · cases htag
      · rfl
    exact ⟨_, List.mem_append_right _ (List.mem_singleton_self _), rfl, _, hbody.counts⟩

theorem tally_item (hs : s.tree.TableFree) (hitems : s.tree.ItemsInLists)
    (hrole : e.tag.role = .item) (indentation : Nat) (before : Text) :
    Tally s before {id} r (content s write indentation id (.element e)
      ⟨id :: r.visited, r.label⟩) := by
  have hshown : shownBy s id e = s.tree.children id := by
    unfold shownBy
    rw [hrole]
  let label := labelText r.label
  have hbody := hbody (indentation + label.width) r.label (before ++ label)
  have hout : content s write indentation id (.element e) ⟨id :: r.visited, r.label⟩ =
      let out := inOrder (write (indentation + label.width)) (shownBy s id e)
        ⟨id :: r.visited, r.label⟩
      (inside id e (append (text label) out.1), { out.2 with label := nextLabel out.2.label }) := by
    rw [hshown]
    simp only [content, element, hrole]
    rfl
  have htag := role_eq_item.1 hrole
  rw [hout]
  refine .enter hbody (List.Subset.refl _) (List.subset_append_left _ _) ?_ fun e' he' hol => ?_
  · have hone (w : Written) : (inside id e w).items before = [⟨id, e, before, w⟩] := by
      unfold items
      rw [htag]
    rw [hone]
    exact .item hs hitems (by rw [Tree.tag?_of_element? he, htag]) hbody.counts _ rfl rfl
  · obtain rfl := Option.some.inj (he.symm.trans he')
    rw [htag] at hol
    cases hol

theorem tally_element (hs : s.tree.TableFree) (hitems : s.tree.ItemsInLists) (indentation : Nat)
    (before : Text) : Tally s before {id} r (content s write indentation id (.element e)
      ⟨id :: r.visited, r.label⟩) := by
  by_cases hlist : ∃ numbered, e.tag.role = .list numbered
  · obtain ⟨numbered, hrole⟩ := hlist
    exact tally_list he hbody hrole indentation before
  by_cases hitem : e.tag.role = .item
  · exact tally_item he hbody hs hitems hitem indentation before
  · have hnot (tag : Tag) (h : tag = .ul ∨ tag = .ol ∨ tag = .li) : e.tag ≠ tag := by
      rintro rfl
      rcases h with h | h | h
      · exact hlist ⟨false, role_eq_list.2 h⟩
      · exact hlist ⟨true, role_eq_list.2 h⟩
      · exact hitem (role_eq_item.2 h)
    have hshown := tally_shown he hbody (role_ne_table hs he) (fun n h => hlist ⟨n, h⟩) hitem
      indentation before
    refine .enter hshown (List.Subset.refl _) (List.subset_append_left _ _) ?_ fun e' he' hol => ?_
    · have hsame (w : Written) : (inside id e w).items before = w.items before := by
        conv_lhs => unfold items
        split
        · exact absurd ‹_› (hnot _ (by simp))
        · exact absurd ‹_› (hnot _ (by simp))
        · exact absurd ‹_› (hnot _ (by simp))
        · rfl
      change Counts s {id} r.label ((inside id e _).items before) _
      rw [hsame]
      refine .enter ?_ ?_ hshown.counts
      · rw [Tree.IsList, Tree.tag?_of_element? he, Option.some.injEq, Option.some.injEq]
        exact not_or.2 ⟨hnot _ (by simp), hnot _ (by simp)⟩
      · rw [Tree.tag?_of_element? he, ne_eq, Option.some.injEq]
        exact hnot _ (by simp)
    · obtain rfl := Option.some.inj (he.symm.trans he')
      exact absurd hol (hnot _ (by simp))

end Element

/-- A node that is no element counts what it shows. -/
theorem Tally.other (he : s.tree.element? id = none) (hS : {c | Shows s id c} = S)
    (h : Tally s before S ⟨id :: r.visited, r.label⟩ (w, b)) (hvisited : a.visited ⊆ b.visited)
    (hlabel : a.label = b.label) : Tally s before {id} r (w, a) := by
  subst hS
  have htag : s.tree.tag? id = none := by rw [Tree.tag?, he, Option.map_none]
  refine .enter h hvisited (List.Subset.refl _) ?_ fun e he' => ?_
  · have hcounts := h.counts.enter (by simp [Tree.IsList, htag]) (by simp [htag])
    rwa [← hlabel] at hcounts
  · rw [he] at he'
    cases he'

/-- The subtree at a node below which nothing was entered. -/
theorem tally_node (hs : s.tree.TableFree) (ht : s.tree.OneParent) (hitems : s.tree.ItemsInLists)
    (levels indentation : Nat) (id : NodeId) (hlevels : s.tree.fitsIn levels id = true) (r : Reader)
    (hfresh : ∀ x, s.tree.Below id x → x ∉ r.visited) (before : Text) :
    Tally s before {id} r (node s levels indentation id r) := by
  induction levels generalizing indentation id r before with
  | zero => cases hlevels
  | succ levels ih =>
    have hbody (indentation : Nat) {ids : List NodeId}
        (hids : ∃ keep : NodeId → Bool, ids = (s.tree.children id).filter keep) (label : ListLabel)
        (before : Text) : Tally s before {c | c ∈ ids} ⟨id :: r.visited, label⟩
          (inOrder (node s levels indentation) ids ⟨id :: r.visited, label⟩) := by
      obtain ⟨keep, rfl⟩ := hids
      have hset : {c | c ∈ (s.tree.children id).filter keep} =
          newlyKept keep [] (s.tree.children id) := by
        simp [newlyKept]
      rw [hset]
      refine tally_inOrder ht hlevels keep (fun c hc r hfresh before => ?_) rfl
        (fun c hc => absurd hc List.not_mem_nil) (fun c hc _ x hcx hx => ?_) before
      · exact ih indentation c hc r hfresh before
      · rcases List.mem_cons.1 hx with rfl | hx
        · exact Tree.not_below_child hlevels hc hcx
        · exact hfresh x (.head hc hcx) hx
    unfold node
    cases hget : s.tree.get? id with
    | none =>
      exact .other (by simp [Tree.element?, hget]) (by simp [Shows, hget]) (.nil s before _)
        (List.subset_cons_self ..) rfl
    | some n =>
      have hshows : {c | Shows s id c} = {c | c ∈ shown s id n.content} :=
        Set.ext fun _ => shows_iff (by rw [hget]; rfl)
      dsimp only
      rw [if_neg (hfresh id .refl)]
      cases hn : n.content with
      | document =>
        rw [hn] at hshows
        exact .other (by simp [Tree.element?, hget, hn]) hshows
          (hbody indentation ⟨fun _ => true, by simp [shown]⟩ r.label before)
          (List.Subset.refl _) rfl
      | text t =>
        refine .other (by simp [Tree.element?, hget, hn]) ?_ (.text s before t _)
          (List.Subset.refl _) rfl
        simp [hshows, hn, shown]
      | comment t =>
        refine .other (by simp [Tree.element?, hget, hn]) ?_ (.nil s before _)
          (List.Subset.refl _) rfl
        simp [hshows, hn, shown]
      | element e =>
        have he : s.tree.element? id = some e := by simp [Tree.element?, hget, hn]
        refine tally_element he (fun indentation label before => ?_) hs hitems indentation before
        rw [setOf_shows_element he]
        exact hbody indentation (exists_shownBy_eq_filter (role_ne_table hs he) id) label before

end Written

/-- The items of a numbered list that are rendered, those in lists of their own left out, get its
first number and the numbers after it in document order, up to the largest. Each number stands in
front of what its item writes, with nothing visible in between. -/
theorem numbered_renderWith (s : Scene) (hs : s.tree.TableFree) (ht : s.tree.OneParent)
    (hitems : s.tree.ItemsInLists) (id : NodeId) (hlevels : s.tree.fitsIn Tree.maxDepth id = true)
    (cache : CellCache) {o : NodeId} {e : Element} (ho : s.tree.Below id o)
    (he : s.tree.element? o = some e) (htag : e.tag = .ol) :
    let w := (Written.node s Tree.maxDepth 0 id {}).1
    let out := (renderWith s id cache).rendered.text
    let number (k : Nat) := natText (min (firstNumber e + k) (numberBound - 1))
    ∃ items : List NodeId,
      (∀ x, x ∈ items ↔ s.tree.tag? x = some .li ∧ s.tree.Directly o x ∧
        Relation.ReflTransGen (Shows s) id x) ∧
      items.Nodup ∧ items.Pairwise s.tree.Before ∧
      ∀ (k : Nat) (hk : k < items.length), ∃ p ∈ w.places [], p.id = items[k] ∧
        ∃ content rest, p.inside = .append (.text (number k ++ [' '])) content ∧
          out.visible = p.before.visible ++ number k ++ content.plain.visible ++ rest := by
  intro w out number
  have hthrough {x : NodeId} (hx : s.tree.Directly o x)
      (hshown : Relation.ReflTransGen (Shows s) id x) :=
    shows_through hs ht ho hx.toBelow hlevels hshown
  by_cases hrendered : Relation.ReflTransGen (Shows s) id o
  · have htally := Written.tally_node hs ht hitems Tree.maxDepth 0 id hlevels {}
      (fun _ _ hx => by cases hx) []
    obtain ⟨p, hp, -, l', hcounts⟩ := htally.lists id rfl o e hrendered he htag
    refine ⟨(p.inside.items p.before).map Place.id, fun x => ?_, hcounts.order.imp And.right,
      hcounts.order.imp And.left, fun k hk => ?_⟩
    · rw [hcounts.mem_iff]
      refine and_congr_right fun _ => ⟨?_, ?_⟩
      · rintro ⟨c, hc, hcx⟩
        exact ⟨directly_of_inNoList hs hc hcx, hrendered.trans (.head hc hcx.shows)⟩
      · rintro ⟨hx, hshown⟩
        exact exists_inNoList hs ht (Tree.fitsIn_below hlevels ho) hx (hthrough hx hshown).2
    · rw [List.length_map] at hk
      obtain ⟨content, hcontent⟩ := hcounts.labels.getElem k hk
      have hlabel : nextLabel^[k] (firstLabel true e) =
          .number (min (firstNumber e + k) (numberBound - 1)) :=
        iterate_nextLabel (firstNumber_lt e) k
      rw [hlabel] at hcontent
      have hq := Written.places_trans hp (Written.places_of_mem_items (List.getElem_mem hk))
      obtain ⟨rest, hrest⟩ := (Written.prefix_of_mem_places hq).2
      have hout : out.visible = w.plain.visible := by
        rw [show out.visible = _ from visible_renderWith s hs id cache, ← Written.reading_node]
        rfl
      refine ⟨_, hq, (List.getElem_map ..).symm, content, Text.visible rest, hcontent, ?_⟩
      rw [hout, ← List.nil_append w.plain, ← hrest, Place.upTo, hcontent]
      have hspace : Text.visible [' '] = [] := rfl
      simp only [Written.plain, Text.visible_append, visible_natText, hspace, List.nil_append,
        List.append_assoc, labelText, number]
  · refine ⟨[], fun x => ⟨fun hx => absurd hx List.not_mem_nil, ?_⟩, .nil, .nil,
      fun k hk => by cases hk⟩
    rintro ⟨-, hx, hshown⟩
    exact absurd (hthrough hx hshown).1 hrendered

/-- A list from 9 on, with a list in its first item and its second item inside a division. -/
def nestedNumbers : Tree :=
  let item (children : List Item) : Item := .element "li".toList [] children
  let inner : Item := .element "ol".toList [] [item [.text ['b']]]
  let division : Item := .element "div".toList [] [item [.text ['c']]]
  (Loaded.ofItems [.element "ol".toList [("start".toList, .string ['9'])]
    [item [.text ['a'], inner], division]]).tree

theorem itemsInLists_nestedNumbers : nestedNumbers.ItemsInLists := by
  intro a x ha hx hax
  -- an item of this tree holds texts and lists, and no node is below a text
  have hheld : ∀ a < nestedNumbers.size, nestedNumbers.tag? a = some .li →
      ∀ c ∈ nestedNumbers.children a, nestedNumbers.tag? c ≠ some .li ∧
        (nestedNumbers.IsList c ∨ nestedNumbers.children c = []) := by
    unfold Tree.IsList
    decide
  have hsize : a < nestedNumbers.size := by
    have hget := isSome_get?_of_tag? (s := { tree := nestedNumbers }) ha
    obtain ⟨n, hn⟩ := Option.isSome_iff_exists.1 hget
    exact Tree.lt_size_of_get? hn
  have hchild {y : NodeId} (hay : nestedNumbers.Directly a y) : nestedNumbers.IsParent a y := by
    induction hay with
    | child h => exact h
    | @through p y _ hlist h ih =>
      have hp := (hheld a hsize ha p ih).2.resolve_left hlist
      unfold Tree.IsParent at h
      rw [hp] at h
      cases h
  exact (hheld a hsize ha x (hchild hax)).1 hx

/-- The second number follows the first, past the list in between. -/
theorem numbered_renderWith_nestedNumbers :
    let s : Scene := { tree := nestedNumbers }
    let w := (Written.node s Tree.maxDepth 0 Tree.root {}).1
    (s.tree.TableFree ∧ s.tree.OneParent ∧ s.tree.ItemsInLists ∧
      s.tree.fitsIn Tree.maxDepth Tree.root = true) ∧ s.tree.Below Tree.root 1 ∧
    ∃ items : List NodeId, (2 ∈ items ∧ 8 ∈ items) ∧ items.Nodup ∧
      items.Pairwise s.tree.Before ∧
      ∀ (k : Nat) (hk : k < items.length), ∃ p ∈ w.places [], p.id = items[k] ∧
        ∃ content rest, p.inside =
            .append (.text (natText (min (9 + k) (numberBound - 1)) ++ [' '])) content ∧
          (renderWith s Tree.root {}).rendered.text.visible = p.before.visible ++
            natText (min (9 + k) (numberBound - 1)) ++ content.plain.visible ++ rest := by
  intro s w
  have hs : s.tree.TableFree := by decide
  have ht : s.tree.OneParent := (Loaded.singleParent_ofItems _).oneParent
  have hsix : s.tree.fitsIn 6 Tree.root = true := by decide
  have hlevels : s.tree.fitsIn Tree.maxDepth Tree.root = true := Tree.fitsIn_mono hsix (by decide)
  have ho : s.tree.Below Tree.root 1 := .single (.head _)
  obtain ⟨items, hmem, hnumbered⟩ := numbered_renderWith s hs ht itemsInLists_nestedNumbers
    Tree.root hlevels {} ho (e := .ofName "ol".toList [("start".toList, ['9'])]) rfl rfl
  have hlist : Shows s 0 1 := ⟨_, rfl, .head _⟩
  have hfirst : Shows s 1 2 := ⟨_, rfl, .head _⟩
  have hdivision : Shows s 1 7 := ⟨_, rfl, .tail _ (.head _)⟩
  have hsecond : Shows s 7 8 := ⟨_, rfl, .head _⟩
  refine ⟨⟨hs, ht, itemsInLists_nestedNumbers, hlevels⟩, ho, items, ⟨(hmem 2).2 ?_, (hmem 8).2 ?_⟩,
    hnumbered⟩
  · exact ⟨rfl, .child (.head _), (Relation.ReflTransGen.single hlist).tail hfirst⟩
  · refine ⟨rfl, .through (.child (.tail _ (.head _))) ?_ (.head _),
      ((Relation.ReflTransGen.single hlist).tail hdivision).tail hsecond⟩
    unfold Tree.IsList
    decide

example : (renderWith { tree := nestedNumbers } Tree.root {}).rendered.text =
    "9 a\n  1 b\n10 c\n".toList := by
  decide +kernel

end MarkupText
