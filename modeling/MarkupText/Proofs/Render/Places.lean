import MarkupText.Proofs.Render.Written
import MarkupText.Proofs.Tree.Below

/-!
# Where the elements of a writing stand

A `Place` is an element of a writing with the text before it. Two places lie one in the other or one
behind the other (`Written.places_cases`), and one that lies in another is below it in the tree
(`Written.Within.below`); so siblings lie one behind the other (`Written.precedes_of_siblings`).
`Written.bareAfter` tells whether the visible character written last is one of an item's label.
-/

namespace MarkupText

open Text

/-- Whether an element starts on a line of its own and ends its last line. -/
def Tag.isBlock (t : Tag) : Bool :=
  match t.role with
  | .paragraph | .block | .heading | .ruler | .list _ | .item | .quote | .definition
  | .preformatted => true
  | _ => false

/-- An element, with the text written before it was entered and what is written inside. -/
structure Place where
  id : NodeId
  element : Element
  before : Text
  inside : Written

namespace Written

/-- The elements, in the order in which they are left. -/
def places (before : Text) : Written → List Place
  | nil | text _ => []
  | append v w => v.places before ++ w.places (before ++ v.plain)
  | inside id e w => w.places before ++ [⟨id, e, before, w⟩]

/-- Whether the visible character written last is one of an item's label; `bare` tells that of what
was written before. -/
def bareAfter (bare : Bool) : Written → Bool
  | nil => bare
  | text t => bare && t.blank
  | append v w => w.bareAfter (v.bareAfter bare)
  | inside _ e w =>
    match e.tag.role, w with
    | .item, append _ w => w.bareAfter true
    | _, w => w.bareAfter bare

end Written

namespace Place

/-- What is written up to the end of the element. -/
def upTo (p : Place) : Text := p.before ++ p.inside.plain

/-- Whether what the element writes ends with the label of an item that shows nothing more. -/
def bare (p : Place) : Bool := (Written.inside p.id p.element p.inside).bareAfter false

/-- The element writes the visible character `i`, counted from 0. -/
def Writes (p : Place) (i : Nat) : Prop :=
  p.before.visible.length ≤ i ∧ i < p.upTo.visible.length

/-- One element ends before the other begins. -/
def Precedes (p q : Place) : Prop := p.upTo <+: q.before

end Place

namespace Written
variable {v w : Written} {before : Text} {p q : Place} {tree : Tree} {a b : NodeId}

theorem prefix_of_mem_places (hp : p ∈ w.places before) :
    before <+: p.before ∧ p.upTo <+: before ++ w.plain := by
  induction w generalizing before with
  | nil => cases hp
  | text t => cases hp
  | append v w ihv ihw =>
    rw [plain, ← List.append_assoc]
    rcases List.mem_append.1 hp with hp | hp
    · exact ⟨(ihv hp).1, (ihv hp).2.trans (List.prefix_append _ _)⟩
    · exact ⟨(List.prefix_append _ _).trans (ihw hp).1, (ihw hp).2⟩
  | inside id e w ih =>
    rcases List.mem_append.1 hp with hp | hp
    · exact ih hp
    · rw [List.mem_singleton.1 hp]
      exact ⟨List.prefix_refl _, List.prefix_refl _⟩

/-- Two places are one in the other or one behind the other. -/
theorem places_cases (hp : p ∈ w.places before) (hq : q ∈ w.places before) :
    p = q ∨ p ∈ q.inside.places q.before ∨ q ∈ p.inside.places p.before ∨
      p.Precedes q ∨ q.Precedes p := by
  induction w generalizing before with
  | nil => cases hp
  | text t => cases hp
  | append v w ihv ihw =>
    rcases List.mem_append.1 hp with hp | hp <;> rcases List.mem_append.1 hq with hq | hq
    · exact ihv hp hq
    · exact .inr (.inr (.inr (.inl
        ((prefix_of_mem_places hp).2.trans (prefix_of_mem_places hq).1))))
    · exact .inr (.inr (.inr (.inr
        ((prefix_of_mem_places hq).2.trans (prefix_of_mem_places hp).1))))
    · exact ihw hp hq
  | inside id e w ih =>
    rcases List.mem_append.1 hp with hp | hp <;> rcases List.mem_append.1 hq with hq | hq
    · exact ih hp hq
    · rw [List.mem_singleton.1 hq]
      exact .inr (.inl hp)
    · rw [List.mem_singleton.1 hp]
      exact .inr (.inr (.inl hq))
    · exact .inl ((List.mem_singleton.1 hp).trans (List.mem_singleton.1 hq).symm)

/-! ### In the tree -/

/-- Every element stands below the elements around it, and below `a`. -/
def Within (t : Tree) (a : NodeId) : Written → Prop
  | nil | text _ => True
  | append v w => v.Within t a ∧ w.Within t a
  | inside id _ w => t.Below a id ∧ w.Within t id

theorem Within.mono (hab : tree.Below a b) (h : w.Within tree b) : w.Within tree a := by
  induction w with
  | nil => trivial
  | text t => trivial
  | append v w ihv ihw => exact ⟨ihv h.1, ihw h.2⟩
  | inside id e w ih => exact ⟨hab.trans h.1, h.2⟩

theorem Within.below (h : w.Within tree a) (hp : p ∈ w.places before) :
    tree.Below a p.id ∧ p.inside.Within tree p.id := by
  induction w generalizing a before with
  | nil => cases hp
  | text t => cases hp
  | append v w ihv ihw =>
    rcases List.mem_append.1 hp with hp | hp
    · exact ihv h.1 hp
    · exact ihw h.2 hp
  | inside id e w ih =>
    rcases List.mem_append.1 hp with hp | hp
    · obtain ⟨hbelow, hinside⟩ := ih h.2 hp
      exact ⟨h.1.trans hbelow, hinside⟩
    · rw [List.mem_singleton.1 hp]
      exact h

theorem within_inOrder {write : NodeId → Reader → Written × Reader}
    (h : ∀ id r, (write id r).1.Within tree id) {ids : List NodeId}
    (hids : ∀ id ∈ ids, tree.IsParent a id) (r : Reader) :
    (inOrder write ids r).1.Within tree a := by
  induction ids generalizing r with
  | nil => trivial
  | cons id ids ih =>
    exact ⟨(h id r).mono (.single (hids id List.mem_cons_self)),
      ih (fun c hc => hids c (List.mem_cons_of_mem _ hc)) _⟩

theorem within_element {s : Scene} {write : Nat → NodeId → Reader → Written × Reader}
    (h : ∀ i id r, (write i id r).1.Within s.tree id) (indentation : Nat) (id : NodeId)
    (e : Element) (r : Reader) : (element s write indentation id e r).1.Within s.tree id := by
  have hbelow (indentation : Nat) (r : Reader) :
      (inOrder (write indentation) (s.tree.children id) r).1.Within s.tree id :=
    within_inOrder (h indentation) (fun _ hc => hc) r
  unfold element
  cases e.tag.role
  case hidden => trivial
  case lineBreak => trivial
  case head => exact within_inOrder (h indentation) (fun _ hc => List.mem_of_mem_filter hc) r
  case ruler => trivial
  case image => trivial
  case media label =>
    dsimp only
    split
    · trivial
    · exact hbelow indentation r
  case list numbered => exact hbelow indentation _
  case item => exact ⟨trivial, hbelow _ r⟩
  all_goals exact hbelow _ r

theorem within_node (s : Scene) (levels indentation : Nat) (id : NodeId) (r : Reader) :
    (node s levels indentation id r).1.Within s.tree id := by
  induction levels generalizing indentation id r with
  | zero => trivial
  | succ levels ih =>
    unfold node
    cases s.tree.get? id with
    | none => trivial
    | some n =>
      dsimp only
      split
      · trivial
      · cases n.content with
        | document => exact within_inOrder (ih indentation) (fun _ hc => hc) _
        | text t => trivial
        | comment t => trivial
        | element e => exact ⟨.refl, within_element ih indentation id e _⟩

/-- Of two siblings of a tree one is left before the other is entered. -/
theorem precedes_of_siblings {parent : NodeId} {levels : Nat} (ht : tree.SingleParent)
    (hlevels : tree.fitsIn levels parent = true) (h : w.Within tree a)
    (hp : p ∈ w.places before) (hq : q ∈ w.places before) (hpc : tree.IsParent parent p.id)
    (hqc : tree.IsParent parent q.id) (hne : p.id ≠ q.id) : p.Precedes q ∨ q.Precedes p := by
  have hapart {p q : Place} (hpc : tree.IsParent parent p.id) (hqc : tree.IsParent parent q.id)
      (hne : p.id ≠ q.id) (hq : q ∈ w.places before) : p ∉ q.inside.places q.before := fun hin =>
    hne (ht.oneParent.eq_of_below_sibling hlevels hqc hpc ((h.below hq).2.below hin).1)
  rcases places_cases hp hq with rfl | hin | hin | hprec
  · exact absurd rfl hne
  · exact absurd hin (hapart hpc hqc hne hq)
  · exact absurd hin (hapart hqc hpc hne.symm hp)
  · exact hprec

/-! ### Bare labels -/

/-- What shows something decides itself whether it ends with a label. -/
theorem bareAfter_of_not_blank (h : w.plain.blank = false) (bare : Bool) :
    w.bareAfter bare = w.bareAfter false := by
  induction w generalizing bare with
  | nil => cases h
  | text t =>
    rw [bareAfter, bareAfter, show t.blank = false from h, Bool.and_false, Bool.and_false]
  | append v w ihv ihw =>
    rw [bareAfter, bareAfter]
    cases hw : w.plain.blank with
    | false => rw [ihw hw, ihw hw (v.bareAfter false)]
    | true =>
      have hv : v.plain.blank = false := by
        rw [plain, Text.blank, List.all_append, ← Text.blank, ← Text.blank, hw, Bool.and_true] at h
        exact h
      rw [ihv hv]
  | inside id e w ih =>
    unfold bareAfter
    split
    · rfl
    · exact ih h bare

end Written
end MarkupText
