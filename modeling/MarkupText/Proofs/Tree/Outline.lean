import MarkupText.Proofs.Tree.Built
import MarkupText.Tree.Signature
import Mathlib.Data.List.Forall2

/-!
# Signatures of trees

Where no node is met twice, the signature of a node is made of those of its children
(`Tree.signature_eq`), so a child has a shorter one (`Tree.length_signature_lt`). It tells where it
ends, and so equal signatures come from equal items and from children that have equal signatures one
by one (`Tree.signature_inj`), and the other way round (`Tree.signature_congr`).
-/

namespace MarkupText

theorem flatMap_eq_of_forall₂ {α β γ : Type} {f : α → List γ} {g : β → List γ} {as : List α}
    {bs : List β} (h : List.Forall₂ (fun a b => f a = g b) as bs) :
    as.flatMap f = bs.flatMap g := by
  induction h with
  | nil => rfl
  | cons hab _ ih => rw [List.flatMap_cons, List.flatMap_cons, hab, ih]

/-- Texts cut by two functions that tell where they end are cut alike. -/
theorem forall₂_of_flatMap_append {α β γ : Type} {R : α → β → Prop} {f : α → List γ}
    {g : β → List γ} {as : List α} {bs : List β} {r r' : List γ} (hlen : as.length = bs.length)
    (hinj : ∀ a ∈ as, ∀ b ∈ bs, ∀ r r', f a ++ r = g b ++ r' → R a b ∧ r = r')
    (h : as.flatMap f ++ r = bs.flatMap g ++ r') : List.Forall₂ R as bs ∧ r = r' := by
  induction as generalizing bs with
  | nil =>
    obtain rfl := List.length_eq_zero_iff.1 hlen.symm
    exact ⟨.nil, h⟩
  | cons a as ih =>
    cases bs with
    | nil => cases hlen
    | cons b bs =>
      simp only [List.flatMap_cons, List.append_assoc] at h
      obtain ⟨hab, h⟩ := hinj a List.mem_cons_self b List.mem_cons_self _ _ h
      obtain ⟨has, hr⟩ := ih (Nat.succ.inj hlen)
        (fun a ha b hb => hinj a (List.mem_cons_of_mem _ ha) b (List.mem_cons_of_mem _ hb)) h
      exact ⟨.cons hab has, hr⟩

namespace Tree
variable {t : Tree} {a b c id : NodeId} {n m : Nat} {node : Node}

/-- The signature of a subtree in which no node occurs again. -/
def outline (t : Tree) : (levels : Nat) → NodeId → Signature
  | 0, _ => []
  | levels + 1, id =>
    match t.get? id with
    | none => []
    | some node =>
      node.content.signatureItem :: .arity node.children.length ::
        node.children.flatMap (t.outline levels)

theorem outline_succ (h : t.fitsIn n id = true) : t.outline (n + 1) id = t.outline n id := by
  induction n generalizing id with
  | zero => cases h
  | succ n ih =>
    rw [outline, outline]
    cases hget : t.get? id with
    | none => rfl
    | some node =>
      have hchildren : ∀ c ∈ node.children, t.outline (n + 1) c = t.outline n c := fun c hc =>
        ih (fitsIn_succ.1 h c (by rwa [IsParent, children_of_get? hget]))
      simp only [List.flatMap_congr hchildren]

theorem outline_of_le (h : t.fitsIn n id = true) (hle : n ≤ m) :
    t.outline m id = t.outline n id := by
  induction hle with
  | refl => rfl
  | step hle ih => rw [outline_succ (fitsIn_mono h hle), ih]

/-! ### No node is met again -/

/-- The signatures of some children, none of which was seen, follow one another. -/
theorem signatureFrom_children (ht : t.SingleParent) (hfit : t.fitsIn (n + 1) id = true)
    (ih : ∀ c seen, t.fitsIn n c = true → (∀ x, t.Below c x → x ∉ seen) →
      (t.signatureFrom n seen c).1 = t.outline n c ∧
        ∀ x ∈ (t.signatureFrom n seen c).2, x ∈ seen ∨ t.Below c x)
    (cs : List NodeId) (hcs : ∀ c ∈ cs, t.IsParent id c) (hnodup : cs.Nodup) (items : Signature)
    (seen : List NodeId) (hseen : ∀ c ∈ cs, ∀ x, t.Below c x → x ∉ seen) :
    let out := cs.foldl (fun (items, seen) child =>
      let (more, seen) := t.signatureFrom n seen child
      (items ++ more, seen)) (items, seen)
    out.1 = items ++ cs.flatMap (t.outline n) ∧
      ∀ x ∈ out.2, x ∈ seen ∨ ∃ c ∈ cs, t.Below c x := by
  induction cs generalizing items seen with
  | nil => exact ⟨(List.append_nil _).symm, fun x hx => .inl hx⟩
  | cons c cs ihcs =>
    have hc := hcs c List.mem_cons_self
    obtain ⟨hmore, hmet⟩ := ih c seen (fitsIn_succ.1 hfit c hc) (hseen c List.mem_cons_self)
    -- what is met below `c` is not below another child
    obtain ⟨hout, hmet'⟩ := ihcs (fun d hd => hcs d (List.mem_cons_of_mem _ hd)) hnodup.of_cons
      (items ++ (t.signatureFrom n seen c).1) (t.signatureFrom n seen c).2 fun d hd x hx hmem => by
        rcases hmet x hmem with h | h
        · exact hseen d (List.mem_cons_of_mem _ hd) x hx h
        · obtain rfl := ht.oneParent.sibling_eq hfit hc (hcs d (List.mem_cons_of_mem _ hd)) h hx
          exact (List.nodup_cons.1 hnodup).1 hd
    refine ⟨?_, fun x hx => ?_⟩
    · rw [List.foldl_cons, List.flatMap_cons, ← hmore, ← List.append_assoc]
      exact hout
    · rcases hmet' x hx with h | ⟨d, hd, h⟩
      · rcases hmet x h with h | h
        · exact .inl h
        · exact .inr ⟨c, List.mem_cons_self, h⟩
      · exact .inr ⟨d, List.mem_cons_of_mem _ hd, h⟩

theorem signatureFrom_eq_outline (ht : t.SingleParent) (hfit : t.fitsIn n id = true)
    (seen : List NodeId) (hseen : ∀ x, t.Below id x → x ∉ seen) :
    (t.signatureFrom n seen id).1 = t.outline n id ∧
      ∀ x ∈ (t.signatureFrom n seen id).2, x ∈ seen ∨ t.Below id x := by
  induction n generalizing id seen with
  | zero => cases hfit
  | succ n ih =>
    rw [signatureFrom, outline]
    cases hget : t.get? id with
    | none => exact ⟨rfl, fun x hx => .inl hx⟩
    | some node =>
      have hchildren := children_of_get? hget
      have hparent : ∀ c ∈ node.children, t.IsParent id c := fun c hc => by
        rwa [IsParent, hchildren]
      obtain ⟨hout, hmet⟩ := signatureFrom_children ht hfit (fun c seen hc hs => ih hc seen hs)
        node.children hparent (hchildren ▸ ht.once id) [] (id :: seen) fun c hc x hx hmem => by
          rcases List.mem_cons.1 hmem with rfl | hmem
          · exact not_below_child hfit (hparent c hc) hx
          · exact hseen x (.head (hparent c hc) hx) hmem
      simp only [hseen id .refl, if_false]
      refine ⟨by rw [hout]; rfl, fun x hx => ?_⟩
      rcases hmet x hx with h | ⟨c, hc, h⟩
      · rcases List.mem_cons.1 h with rfl | h
        · exact .inr .refl
        · exact .inl h
      · exact .inr (.head (hparent c hc) h)

/-! ### The signature of a node -/

theorem signature_of_get?_eq_none (h : t.get? id = none) : t.signature id = [] := by
  simp [signature, signatureFrom, h]

theorem signature_eq_outline (ht : t.SingleParent) (h : t.fitsIn n id = true)
    (hn : n ≤ maxDepth + 1) : t.signature id = t.outline n id := by
  rw [signature, (signatureFrom_eq_outline ht (fitsIn_mono h hn) [] fun _ _ => List.not_mem_nil).1,
    outline_of_le h hn]

/-- The signature of a node is its item, the number of its children, and their signatures. -/
theorem signature_eq (ht : t.SingleParent) (h : t.fitsIn maxDepth id = true)
    (hget : t.get? id = some node) : t.signature id =
      node.content.signatureItem :: .arity node.children.length ::
        node.children.flatMap t.signature := by
  have hchildren : ∀ c ∈ node.children, t.outline maxDepth c = t.signature c := fun c hc =>
    (signature_eq_outline ht (fitsIn_child h (by rwa [IsParent, children_of_get? hget]))
      (Nat.le_succ _)).symm
  rw [signature_eq_outline ht (fitsIn_mono h (Nat.le_succ _)) (Nat.le_refl _), outline, hget]
  simp only [List.flatMap_congr hchildren]

theorem length_signature_lt (ht : t.SingleParent) (h : t.fitsIn maxDepth a = true)
    (hc : t.IsParent a c) : (t.signature c).length < (t.signature a).length := by
  cases hget : t.get? a with
  | none => simp [IsParent, children, hget] at hc
  | some node =>
    obtain ⟨l, r, hsplit⟩ := List.append_of_mem (children_of_get? hget ▸ hc : c ∈ node.children)
    rw [signature_eq ht h hget, hsplit]
    simp only [List.flatMap_append, List.flatMap_cons, List.length_cons, List.length_append]
    omega

/-- A signature tells where it ends. -/
theorem signature_append_inj (ht : t.SingleParent) (hs : t.Sound)
    (ha : t.fitsIn maxDepth a = true) (hb : t.fitsIn maxDepth b = true) (hna : a < t.size)
    (hnb : b < t.size) (r r' : Signature) (h : t.signature a ++ r = t.signature b ++ r') :
    t.signature a = t.signature b ∧ r = r' := by
  induction a, ha using fitsIn_induct generalizing b r r' with
  | parent a ha ih =>
    have hga : t.get? a = some t.nodes[a] := Array.getElem?_eq_getElem hna
    have hgb : t.get? b = some t.nodes[b] := Array.getElem?_eq_getElem hnb
    have hr : r = r' := by
      rw [signature_eq ht ha hga, signature_eq ht hb hgb] at h
      simp only [List.cons_append, List.cons.injEq, SignatureItem.arity.injEq] at h
      refine (forall₂_of_flatMap_append (R := fun c d => t.signature c = t.signature d) h.2.1
        (fun c hc d hd r r' hcd => ?_) h.2.2).2
      have hc : t.IsParent a c := by rwa [IsParent, children_of_get? hga]
      have hd : t.IsParent b d := by rwa [IsParent, children_of_get? hgb]
      exact ih c hc (fitsIn_child hb hd) (hs.child_lt hc) (hs.child_lt hd) r r' hcd
    exact ⟨List.append_cancel_right (hr ▸ h), hr⟩

/-- What a node contributes to signatures, if it is there. -/
def item? (t : Tree) (id : NodeId) : Option SignatureItem :=
  (t.get? id).map (·.content.signatureItem)

/-- Nodes that contribute the same item and whose children have equal signatures have equal ones. -/
theorem signature_congr (ht : t.SingleParent) (ha : t.fitsIn maxDepth a = true)
    (hb : t.fitsIn maxDepth b = true) (hitem : t.item? a = t.item? b)
    (hchildren : List.Forall₂ (fun c d => t.signature c = t.signature d)
      (t.children a) (t.children b)) : t.signature a = t.signature b := by
  unfold item? at hitem
  cases hna : t.get? a with
  | none =>
    rw [hna] at hitem
    rw [signature_of_get?_eq_none hna,
      signature_of_get?_eq_none (Option.map_eq_none_iff.1 hitem.symm)]
  | some na =>
    rw [hna] at hitem
    obtain ⟨nb, hnb, hitem⟩ := Option.map_eq_some_iff.1 hitem.symm
    rw [children_of_get? hna, children_of_get? hnb] at hchildren
    rw [signature_eq ht ha hna, signature_eq ht hb hnb, hitem, hchildren.length_eq,
      flatMap_eq_of_forall₂ hchildren]

/-- Nodes with equal signatures contribute the same item, and have children with equal signatures.
-/
theorem signature_inj (ht : t.SingleParent) (hs : t.Sound) (ha : t.fitsIn maxDepth a = true)
    (hb : t.fitsIn maxDepth b = true) (h : t.signature a = t.signature b) :
    t.item? a = t.item? b ∧
      List.Forall₂ (fun c d => t.signature c = t.signature d) (t.children a) (t.children b) := by
  unfold item? children
  cases hna : t.get? a with
  | none =>
    cases hnb : t.get? b with
    | none => exact ⟨rfl, .nil⟩
    | some nb =>
      rw [signature_of_get?_eq_none hna, signature_eq ht hb hnb] at h
      cases h
  | some na =>
    rw [signature_eq ht ha hna] at h
    cases hnb : t.get? b with
    | none =>
      rw [signature_of_get?_eq_none hnb] at h
      cases h
    | some nb =>
      rw [signature_eq ht hb hnb] at h
      obtain ⟨hitem, harity, hchildren⟩ : _ ∧ _ ∧ _ := by simpa only [List.cons.injEq] using h
      have hflat :
          na.children.flatMap t.signature ++ [] = nb.children.flatMap t.signature ++ [] := by
        rw [hchildren]
      refine ⟨congrArg some hitem, (forall₂_of_flatMap_append (SignatureItem.arity.inj harity)
        (fun c hc d hd r r' hcd => ?_) hflat).1⟩
      have hc : t.IsParent a c := by rwa [IsParent, children_of_get? hna]
      have hd : t.IsParent b d := by rwa [IsParent, children_of_get? hnb]
      exact signature_append_inj ht hs (fitsIn_child ha hc) (fitsIn_child hb hd)
        (hs.child_lt hc) (hs.child_lt hd) r r' hcd

end Tree
end MarkupText
