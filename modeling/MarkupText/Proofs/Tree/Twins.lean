import MarkupText.Proofs.Tree.Outline

/-!
# Twins

A `Tree.Twinning` relates nodes one to one, so that related nodes look alike and have related
children. Every node is its own twin (`Twinning.same`), and two nodes with equal signatures have
twins below them in the same places (`Twinning.ofSignature`). Twins have equal signatures
(`Twinning.signature_eq`).
-/

namespace MarkupText

/-- Contents that are rendered alike: comments may differ. -/
def Content.Alike (c d : Content) : Prop := c = d ∨ ∃ u v, c = .comment u ∧ d = .comment v

theorem Content.alike_of_signatureItem {c d : Content} (hc : c.Named) (hd : d.Named)
    (h : c.signatureItem = d.signatureItem) : c.Alike d := by
  cases c with
  | document => cases d <;> cases h; exact .inl rfl
  | text t => cases d <;> cases h; exact .inl rfl
  | comment u => cases d <;> cases h; exact .inr ⟨_, _, rfl, rfl⟩
  | element e =>
    cases d with
    | element f =>
      obtain ⟨hname, hattributes⟩ := SignatureItem.element.inj h
      have htag : e.tag = f.tag := by rw [hc, hd, hname]
      cases e
      cases f
      simp only at hname htag hattributes
      rw [hname, htag, hattributes]
      exact .inl rfl
    | document => cases h
    | text t => cases h
    | comment u => cases h

namespace Tree
variable {t : Tree} {a b x y y' : NodeId}

theorem get?_cases (hs : t.Sound) (h : t.item? a = t.item? b) :
    (t.get? a = none ∧ t.get? b = none) ∨
      ∃ na nb, t.get? a = some na ∧ t.get? b = some nb ∧ na.content.Alike nb.content := by
  unfold item? at h
  cases hna : t.get? a with
  | none =>
    rw [hna] at h
    exact .inl ⟨rfl, Option.map_eq_none_iff.1 h.symm⟩
  | some na =>
    rw [hna] at h
    obtain ⟨nb, hnb, hitem⟩ := Option.map_eq_some_iff.1 h.symm
    exact .inr ⟨na, nb, rfl, hnb,
      Content.alike_of_signatureItem (hs.named hna) (hs.named hnb) hitem.symm⟩

theorem element?_eq (hs : t.Sound) (h : t.item? a = t.item? b) : t.element? a = t.element? b := by
  unfold element?
  rcases get?_cases hs h with ⟨ha, hb⟩ | ⟨na, nb, ha, hb, heq | ⟨u, v, hu, hv⟩⟩
  · rw [ha, hb]
  · rw [ha, hb, Option.map_some, Option.map_some, heq]
  · rw [ha, hb, Option.map_some, Option.map_some, hu, hv]

/-- A one-to-one relation between nodes that look alike and whose children are related in order. -/
structure Twinning (t : Tree) where
  rel : NodeId → NodeId → Prop
  right : ∀ {a b b'}, rel a b → rel a b' → b = b'
  left : ∀ {a a' b}, rel a b → rel a' b → a = a'
  item : ∀ {a b}, rel a b → t.item? a = t.item? b
  children : ∀ {a b}, rel a b → List.Forall₂ rel (t.children a) (t.children b)

/-- Nodes in the same place below two nodes. -/
inductive Twins (t : Tree) (a b : NodeId) : NodeId → NodeId → Prop
  | start : Twins t a b a b
  | child {x y c d : NodeId} (i : Nat) : Twins t a b x y → (t.children x)[i]? = some c →
      (t.children y)[i]? = some d → Twins t a b c d

namespace Twins

theorem symm (h : t.Twins a b x y) : t.Twins b a y x := by
  induction h with
  | start => exact .start
  | child i _ hc hd ih => exact .child i ih hd hc

theorem below_left (h : t.Twins a b x y) : t.Below a x := by
  induction h with
  | start => exact .refl
  | child i _ hc _ ih => exact ih.tail (List.mem_of_getElem? hc)

/-- Where the levels below `a` end, a node has one place below `a`. -/
theorem unique (ht : t.SingleParent) (ha : t.fitsIn maxDepth a = true) (h : t.Twins a b x y)
    (h' : t.Twins a b x y') : y = y' := by
  have hstart {p i} (hp : t.Below a p) : (t.children p)[i]? ≠ some a := fun hpa =>
    not_below_child (fitsIn_below ha hp) (List.mem_of_getElem? hpa) hp
  induction h generalizing y' with
  | start =>
    cases h' with
    | start => rfl
    | child i h' hc _ => exact absurd hc (hstart h'.below_left)
  | @child p q c d i h hc hd ih =>
    cases h' with
    | start => exact absurd hc (hstart h.below_left)
    | @child p' q' _ _ j h' hc' hd' =>
      -- both places of `c` are the same: under one parent, and at one position there
      obtain rfl := ht.parent (List.mem_of_getElem? hc) (List.mem_of_getElem? hc')
      obtain rfl := ih h'
      obtain ⟨hi, -⟩ := List.getElem?_eq_some_iff.1 hc
      obtain rfl := (List.getElem?_inj hi (ht.once p)).1 (hc.trans hc'.symm)
      exact Option.some.inj (hd.symm.trans hd')

theorem signature_eq (ht : t.SingleParent) (hs : t.Sound) (ha : t.fitsIn maxDepth a = true)
    (hb : t.fitsIn maxDepth b = true) (hab : t.signature a = t.signature b)
    (h : t.Twins a b x y) : t.signature x = t.signature y := by
  induction h with
  | start => exact hab
  | child i h hc hd ih =>
    have hchildren := (signature_inj ht hs (fitsIn_below ha h.below_left)
      (fitsIn_below hb h.symm.below_left) ih).2
    obtain ⟨hi, rfl⟩ := List.getElem?_eq_some_iff.1 hc
    obtain ⟨hj, rfl⟩ := List.getElem?_eq_some_iff.1 hd
    exact hchildren.get hi hj

theorem item_eq_and_signatures (ht : t.SingleParent) (hs : t.Sound)
    (ha : t.fitsIn maxDepth a = true) (hb : t.fitsIn maxDepth b = true)
    (hab : t.signature a = t.signature b) (h : t.Twins a b x y) :
    t.item? x = t.item? y ∧
      List.Forall₂ (fun c d => t.signature c = t.signature d) (t.children x) (t.children y) :=
  signature_inj ht hs (fitsIn_below ha h.below_left) (fitsIn_below hb h.symm.below_left)
    (h.signature_eq ht hs ha hb hab)

end Twins

namespace Twinning

/-- Every node is its own twin. -/
def same (t : Tree) : Twinning t where
  rel := Eq
  right := fun h h' => h.symm.trans h'
  left := fun h h' => h.trans h'.symm
  item := fun h => congrArg t.item? h
  children := fun h => by
    rw [h, List.forall₂_eq_eq_eq]

/-- The nodes below two nodes with equal signatures are twins. -/
def ofSignature (ht : t.SingleParent) (hs : t.Sound) (ha : t.fitsIn maxDepth a = true)
    (hb : t.fitsIn maxDepth b = true) (hab : t.signature a = t.signature b) : Twinning t where
  rel := t.Twins a b
  right := fun h h' => h.unique ht ha h'
  left := fun h h' => h.symm.unique ht hb h'.symm
  item := fun h => (h.item_eq_and_signatures ht hs ha hb hab).1
  children := fun h => by
    have hlen := (h.item_eq_and_signatures ht hs ha hb hab).2.length_eq
    refine List.forall₂_iff_get.2 ⟨hlen, fun i hi hj => ?_⟩
    exact .child i h (List.getElem?_eq_getElem hi) (List.getElem?_eq_getElem hj)

variable {w : Twinning t}

theorem signature_eq (ht : t.SingleParent) (ha : t.fitsIn maxDepth a = true)
    (hb : t.fitsIn maxDepth b = true) (h : w.rel a b) : t.signature a = t.signature b := by
  induction a, ha using fitsIn_induct generalizing b with
  | parent a ha ih =>
    obtain ⟨hlen, hzip⟩ := List.forall₂_iff_zip.1 (w.children h)
    refine signature_congr ht ha hb (w.item h) (List.forall₂_iff_zip.2 ⟨hlen, fun {c d} hcd => ?_⟩)
    obtain ⟨hc, hd⟩ := List.of_mem_zip hcd
    exact ih c hc (fitsIn_child hb hd) (hzip hcd)

end Twinning
end Tree
end MarkupText
