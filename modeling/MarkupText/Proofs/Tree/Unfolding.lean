import MarkupText.Proofs.Tree.Encoding

/-!
# Signatures tell structures apart

The unfolding of a node (`Tree.unfolding`) is the tree that its subtree looks like from above, on
first visits: a node that is met again leaves a mark, whatever is below it, and nodes too far down
are left out. A signature writes the unfolding down in order, without brackets
(`Tree.signature_eq_serial`), and what it writes for a node tells how many children follow. So
unfoldings are read back from signatures, and from the bytes of signatures
(`Tree.signature_eq_iff_unfolding_eq`).
-/

namespace MarkupText

/-- What a node is. Elements have their names in lower case, comments are all alike. -/
inductive Kind where
  | document
  | element (name : Text) (attributes : Attributes)
  | text (t : Text)
  | comment
deriving DecidableEq

/-- A subtree as it is visited from its top. -/
inductive Unfolding where
  /-- A node that was met before. -/
  | again
  /-- A node with the number of its children and, unless they are too far down, with these. -/
  | node (kind : Kind) (arity : Nat) (below : List Unfolding)

def Content.kind : Content → Kind
  | .document => .document
  | .element e => .element e.name e.attributes
  | .text t => .text t
  | .comment _ => .comment

namespace Tree

/-- The unfolding of the node `id` down to `levels` levels, and the nodes met, to which `met`
belong. -/
def unfoldFrom (t : Tree) : (levels : Nat) → (met : List NodeId) → NodeId →
    Option Unfolding × List NodeId
  | 0, met, _ => (none, met)
  | levels + 1, met, id =>
    match t.get? id with
    | none => (none, met)
    | some node =>
      if id ∈ met then (some .again, met)
      else
        let (below, met) := node.children.foldl (fun (below, met) child =>
          let (u, met) := unfoldFrom t levels met child
          (below ++ u.toList, met)) ([], id :: met)
        (some (.node node.content.kind node.children.length below), met)

/-- The unfolding of a node, if it is there. -/
def unfolding (t : Tree) (id : NodeId) : Option Unfolding := (t.unfoldFrom (maxDepth + 1) [] id).1

end Tree

/-! ### Writing unfoldings down -/

/-- What is written for a node before its children. -/
inductive Head where
  | again
  | first (kind : Kind) (arity : Nat)

namespace Unfolding
variable {α β : Type}

mutual
/-- An unfolding written down in order, each node by `code`. -/
def serial (code : Head → List α) : Unfolding → List α
  | .again => code .again
  | .node kind arity below => code (.first kind arity) ++ serials code below

def serials (code : Head → List α) : List Unfolding → List α
  | [] => []
  | u :: us => serial code u ++ serials code us
end

theorem serials_eq_flatMap (code : Head → List α) (us : List Unfolding) :
    serials code us = us.flatMap (serial code) := by
  induction us with
  | nil => rfl
  | cons u us ih => rw [serials, ih, List.flatMap_cons]

mutual
theorem flatMap_serial (code : Head → List α) (f : α → List β) :
    ∀ u : Unfolding, (u.serial code).flatMap f = u.serial fun h => (code h).flatMap f
  | .again => rfl
  | .node kind arity below => by
    rw [serial, serial, List.flatMap_append, flatMap_serials code f below]

theorem flatMap_serials (code : Head → List α) (f : α → List β) : ∀ us : List Unfolding,
    (serials code us).flatMap f = serials (fun h => (code h).flatMap f) us
  | [] => rfl
  | u :: us => by
    rw [serials, serials, List.flatMap_append, flatMap_serial code f u, flatMap_serials code f us]
end

/-- An unfolding down to `levels` levels: all children are there, or none of them on the last
level. -/
inductive Fits (ok : Head → Prop) : (levels : Nat) → Unfolding → Prop
  | again {levels : Nat} (h : ok .again) : Fits ok (levels + 1) .again
  | node {levels : Nat} {kind : Kind} {arity : Nat} {below : List Unfolding}
      (h : ok (.first kind arity)) (hlen : below.length = if levels = 0 then 0 else arity)
      (hbelow : ∀ u ∈ below, Fits ok levels u) : Fits ok (levels + 1) (.node kind arity below)

variable {ok : Head → Prop} {code : Head → List α} {levels : Nat} {u u' : Option Unfolding}

/-- What is written for a node and its level tell how many children follow. -/
theorem delimited_serial (hcode : Delimited ok code) (levels : Nat) :
    Delimited (Fits ok levels) (serial code) := by
  induction levels with
  | zero => exact ⟨fun hu => nomatch hu⟩
  | succ levels ih =>
    constructor
    intro u u' r r' hu hu' h
    cases hu with
    | again hok =>
      cases hu' with
      | again => exact ⟨rfl, List.append_cancel_left h⟩
      | node hok' =>
        rw [serial, serial, List.append_assoc] at h
        cases (hcode.inj hok hok' h).1
    | node hok hlen hbelow =>
      rw [serial, serials_eq_flatMap, List.append_assoc] at h
      cases hu' with
      | again hok' => cases (hcode.inj hok hok' h).1
      | node hok' hlen' hbelow' =>
        rw [serial, serials_eq_flatMap, List.append_assoc] at h
        obtain ⟨hhead, hrest⟩ := hcode.inj hok hok' h
        cases hhead
        -- both are on one level and of one arity, so as many unfoldings follow
        obtain ⟨rfl, hr⟩ := ih.flatMap (hlen.trans hlen'.symm) hbelow hbelow' hrest
        exact ⟨rfl, hr⟩

theorem serial_ne_nil (hne : ∀ h, code h ≠ []) : ∀ u : Unfolding, u.serial code ≠ []
  | .again => hne _
  | .node .. => List.append_ne_nil_of_left_ne_nil (hne _) _

/-- Unfoldings that may be missing are read back from what is written. -/
theorem toList_flatMap_serial_inj (hcode : Delimited ok code) (hne : ∀ h, code h ≠ [])
    (hu : ∀ x ∈ u, x.Fits ok levels) (hu' : ∀ x ∈ u', x.Fits ok levels) :
    u.toList.flatMap (serial code) = u'.toList.flatMap (serial code) ↔ u = u' := by
  refine ⟨fun h => ?_, fun h => h ▸ rfl⟩
  cases u with
  | none =>
    cases u' with
    | none => rfl
    | some x' => exact absurd (by simpa using h.symm) (serial_ne_nil hne x')
  | some x =>
    cases u' with
    | none => exact absurd (by simpa using h) (serial_ne_nil hne x)
    | some x' =>
      rw [((delimited_serial hcode levels).inj (hu x rfl) (hu' x' rfl) h).1]

end Unfolding

/-- The unfoldings of `n` nodes in the place of children, which are left out below the last
level. -/
structure Row (ok : Head → Prop) (levels n : Nat) (us : List Unfolding) : Prop where
  length : us.length = if levels = 0 then 0 else n
  fits : ∀ u ∈ us, Unfolding.Fits ok levels u

namespace Row
variable {ok : Head → Prop} {levels m n : Nat} {us vs : List Unfolding} {u : Unfolding}

theorem nil : Row ok levels 0 [] := ⟨by simp, nofun⟩

theorem singleton (h : u.Fits ok (levels + 1)) : Row ok (levels + 1) 1 [u] :=
  ⟨rfl, fun _ hx => List.mem_singleton.1 hx ▸ h⟩

theorem append (hus : Row ok levels m us) (hvs : Row ok levels n vs) :
    Row ok levels (m + n) (us ++ vs) where
  length := by
    rw [List.length_append, hus.length, hvs.length]
    split <;> rfl
  fits u hu := (List.mem_append.1 hu).elim (hus.fits u) (hvs.fits u)

end Row

/-! ### Heads as items and as bytes -/

namespace Kind

def item : Kind → SignatureItem
  | .document => .document
  | .element name attributes => .element name attributes
  | .text t => .text t
  | .comment => .comment

/-- The number of attributes. -/
def width : Kind → Nat
  | .element _ attributes => attributes.length
  | _ => 0

theorem item_kind (c : Content) : c.kind.item = c.signatureItem := by cases c <;> rfl

theorem item_inj {k k' : Kind} (h : k.item = k'.item) : k = k' := by
  cases k <;> cases k' <;> simp_all [item]

/-- The first byte tells what a node is. -/
theorem delimited_bytes :
    Delimited (fun k : Kind => FitsWord k.width) fun k => k.item.bytes where
  inj {k k' r r'} hk hk' h := by
    cases k <;> cases k' <;>
      simp only [item, SignatureItem.bytes, List.cons_append, List.cons.injEq] at h <;>
      try exact absurd h.1 (by decide)
    case document.document | comment.comment => exact ⟨rfl, h.2⟩
    case text.text t t' =>
      obtain ⟨rfl, hr⟩ := delimited_textBytes.inj trivial trivial h.2
      exact ⟨rfl, hr⟩
    case element.element name as name' as' =>
      rw [List.append_assoc, List.append_assoc] at h
      obtain ⟨rfl, hrest⟩ := delimited_textBytes.inj trivial trivial h.2
      obtain ⟨rfl, hr⟩ := delimited_attributes.inj hk hk' hrest
      exact ⟨rfl, hr⟩

end Kind

namespace Head

def items : Head → Signature
  | .again => [.again]
  | .first kind arity => [kind.item, .arity arity]

theorem items_ne_nil : ∀ h : Head, h.items ≠ []
  | .again | .first .. => List.cons_ne_nil _ _

theorem delimited_items : Delimited (fun _ => True) items where
  inj {a b r r'} _ _ h := by
    cases a <;> cases b
    case again.again => exact ⟨rfl, List.append_cancel_left h⟩
    case first.first k n k' n' =>
      simp only [items, List.cons_append, List.nil_append, List.cons.injEq,
        SignatureItem.arity.injEq] at h
      obtain ⟨hkind, rfl, hr⟩ := h
      exact ⟨by rw [Kind.item_inj hkind], hr⟩
    case again.first k n | first.again k n => cases k <;> simp [items, Kind.item] at h

/-- The numbers in a head fit into words. -/
def FitsWords : Head → Prop
  | .again => True
  | .first kind arity => FitsWord kind.width ∧ FitsWord arity

instance : ∀ h : Head, Decidable h.FitsWords
  | .again => inferInstanceAs (Decidable True)
  | .first _ _ => inferInstanceAs (Decidable (_ ∧ _))

def bytes (h : Head) : List UInt8 := h.items.flatMap SignatureItem.bytes

theorem bytes_first (kind : Kind) (arity : Nat) :
    (first kind arity).bytes = kind.item.bytes ++ wordBytes arity := by
  simp [bytes, items, SignatureItem.bytes]

theorem bytes_ne_nil : ∀ h : Head, h.bytes ≠ []
  | .again => List.cons_ne_nil _ _
  | .first kind _ => by cases kind <;> exact List.cons_ne_nil _ _

theorem delimited_bytes : Delimited FitsWords bytes where
  inj {a b r r'} ha hb h := by
    cases a <;> cases b
    case again.again => exact ⟨rfl, List.append_cancel_left h⟩
    case first.first k n k' n' =>
      rw [bytes_first, bytes_first, List.append_assoc, List.append_assoc] at h
      obtain ⟨rfl, hrest⟩ := Kind.delimited_bytes.inj ha.1 hb.1 h
      obtain ⟨rfl, hr⟩ := delimited_wordBytes.inj ha.2 hb.2 hrest
      exact ⟨rfl, hr⟩
    case again.first k n | first.again k n =>
      cases k <;> simp [bytes, items, Kind.item, SignatureItem.bytes] at h

end Head

/-! ### Unfoldings of trees -/

namespace Tree
variable {t u : Tree} {ok : Head → Prop} {levels : Nat} {id : NodeId}

open Unfolding

/-- What the children of a node add is written down in turn. -/
theorem foldl_signatureFrom (ih : ∀ met id, t.signatureFrom levels met id =
      ((t.unfoldFrom levels met id).1.toList.flatMap (serial Head.items),
        (t.unfoldFrom levels met id).2))
    (cs : List NodeId) (below : List Unfolding) (met : List NodeId) :
    cs.foldl (fun (items, met) child =>
      let (more, met) := t.signatureFrom levels met child
      (items ++ more, met)) (serials Head.items below, met) =
    let out := cs.foldl (fun (below, met) child =>
      let (u, met) := t.unfoldFrom levels met child
      (below ++ u.toList, met)) (below, met)
    (serials Head.items out.1, out.2) := by
  induction cs generalizing below met with
  | nil => rfl
  | cons c cs ihcs =>
    have hbelow : serials Head.items below ++ (t.signatureFrom levels met c).1 =
        serials Head.items (below ++ (t.unfoldFrom levels met c).1.toList) := by
      simp only [ih, serials_eq_flatMap, List.flatMap_append]
    have hmet : (t.signatureFrom levels met c).2 = (t.unfoldFrom levels met c).2 := by rw [ih]
    simp only [List.foldl_cons, hbelow, hmet]
    exact ihcs _ _

/-- A signature is the unfolding written down, and meets the same nodes. -/
theorem signatureFrom_eq_serial (t : Tree) (levels : Nat) (met : List NodeId) (id : NodeId) :
    t.signatureFrom levels met id =
      ((t.unfoldFrom levels met id).1.toList.flatMap (serial Head.items),
        (t.unfoldFrom levels met id).2) := by
  induction levels generalizing met id with
  | zero => rfl
  | succ levels ih =>
    rw [signatureFrom, unfoldFrom]
    cases t.get? id with
    | none => rfl
    | some node =>
      by_cases hmet : id ∈ met
      · simp only [hmet, if_true]
        rfl
      · have hfold := foldl_signatureFrom ih node.children [] (id :: met)
        rw [serials] at hfold
        simp only [hmet, if_false, hfold, Option.toList_some, List.flatMap_singleton, serial,
          Head.items, Kind.item_kind, List.cons_append, List.nil_append]

theorem signature_eq_serial (t : Tree) (id : NodeId) :
    t.signature id = (t.unfolding id).toList.flatMap (serial Head.items) := by
  rw [signature, signatureFrom_eq_serial, unfolding]

theorem bytes_signature_eq_serial (t : Tree) (id : NodeId) :
    (t.signature id).bytes = (t.unfolding id).toList.flatMap (serial Head.bytes) := by
  rw [signature_eq_serial, Signature.bytes, List.flatMap_assoc]
  simp only [flatMap_serial]
  rfl

/-- All numbers of children and attributes fit into words. -/
def FitsWords (t : Tree) : Prop :=
  ∀ node ∈ t.nodes.toList, (Head.first node.content.kind node.children.length).FitsWords

instance (t : Tree) : Decidable t.FitsWords := List.decidableBAll _ _

/-- The unfoldings of some children. -/
theorem row_foldl_unfoldFrom
    (ih : ∀ met c, c < t.size → Row ok levels 1 (t.unfoldFrom levels met c).1.toList)
    (cs : List NodeId) (hcs : ∀ c ∈ cs, c < t.size) {n : Nat} (below : List Unfolding)
    (met : List NodeId) (hbelow : Row ok levels n below) :
    Row ok levels (n + cs.length) (cs.foldl (fun (below, met) child =>
      let (u, met) := t.unfoldFrom levels met child
      (below ++ u.toList, met)) (below, met)).1 := by
  induction cs generalizing n below met with
  | nil => exact hbelow
  | cons c cs ihcs =>
    have hc := ih met c (hcs c List.mem_cons_self)
    have hrow := ihcs (fun d hd => hcs d (List.mem_cons_of_mem _ hd)) _
      (t.unfoldFrom levels met c).2 (hbelow.append hc)
    rwa [Nat.add_assoc, Nat.add_comm 1] at hrow

/-- Where links lead to nodes, no child is left out above the last level. -/
theorem row_unfoldFrom (ht : t.Closed) (hagain : ok .again)
    (hfirst : ∀ node ∈ t.nodes.toList, ok (.first node.content.kind node.children.length))
    (levels : Nat) (met : List NodeId) (id : NodeId) (hid : id < t.size) :
    Row ok levels 1 (t.unfoldFrom levels met id).1.toList := by
  induction levels generalizing met id with
  | zero => exact ⟨rfl, nofun⟩
  | succ levels ih =>
    have hget : t.get? id = some t.nodes[id] := Array.getElem?_eq_getElem hid
    rw [unfoldFrom, hget]
    by_cases hmet : id ∈ met
    · simp only [hmet, if_true]
      exact .singleton (.again hagain)
    · have hrow := row_foldl_unfoldFrom ih t.nodes[id].children (fun c hc => ht (p := id) (by
        rwa [IsParent, children_of_get? hget])) [] (id :: met) .nil
      simp only [hmet, if_false]
      rw [Nat.zero_add] at hrow
      exact .singleton (.node (hfirst _ (Array.getElem_mem_toList hid)) hrow.length hrow.fits)

theorem unfolding_fits (ht : t.Closed) (hagain : ok .again)
    (hfirst : ∀ node ∈ t.nodes.toList, ok (.first node.content.kind node.children.length))
    (id : NodeId) : ∀ x ∈ t.unfolding id, x.Fits ok (maxDepth + 1) := by
  intro x hx
  by_cases hid : id < t.size
  · exact (row_unfoldFrom ht hagain hfirst _ _ _ hid).fits x (Option.mem_toList.2 hx)
  · have hget : t.get? id = none := Array.getElem?_eq_none (Nat.le_of_not_lt hid)
    rw [unfolding, unfoldFrom, hget] at hx
    cases hx

/-- Nodes have the same signature, and the same bytes are hashed for them, exactly if they have the
same unfolding. Bytes tell this for trees whose numbers fit into words. -/
theorem signature_eq_iff_unfolding_eq (ht : t.Assembled) (hu : u.Assembled) (a b : NodeId) :
    (t.signature a = u.signature b ↔ t.unfolding a = u.unfolding b) ∧
      (t.FitsWords → u.FitsWords →
        ((t.signature a).bytes = (u.signature b).bytes ↔ t.unfolding a = u.unfolding b)) := by
  refine ⟨?_, fun htw huw => ?_⟩
  · rw [signature_eq_serial, signature_eq_serial]
    exact toList_flatMap_serial_inj Head.delimited_items Head.items_ne_nil
      (unfolding_fits ht.closed trivial (fun _ _ => trivial) a)
      (unfolding_fits hu.closed trivial (fun _ _ => trivial) b)
  · rw [bytes_signature_eq_serial, bytes_signature_eq_serial]
    exact toList_flatMap_serial_inj Head.delimited_bytes Head.bytes_ne_nil
      (unfolding_fits ht.closed trivial htw a) (unfolding_fits hu.closed trivial huw b)

/-- A tree with another cell, which is its own second child and holds one text twice. -/
def withKnot (t : Tree) (name note : Text) : Tree :=
  let cell := t.size
  let t := (t.alloc (.element (.ofName name [(['w'], ['3'])]))).2
  let t := ((t.alloc (.text ['x'])).2.alloc (.comment note)).2
  let t := ((t.append root cell).append cell (cell + 1)).append cell cell
  (t.append cell (cell + 2)).append cell (cell + 1)

theorem Assembled.withKnot (ht : t.Assembled) (name note : Text) :
    (t.withKnot name note).Assembled := by
  unfold Tree.withKnot
  iterate 5 apply Assembled.append
  exact .alloc _ (.alloc _ (.alloc _ ht))

def knot : Tree := withKnot {} ['T', 'D'] ['a']

/-- The same cell behind a further node, with its name in lower case and another comment. -/
def twinKnot : Tree := withKnot (Tree.alloc {} .document).2 ['t', 'd'] []

theorem signature_eq_iff_unfolding_eq_knot :
    knot.Assembled ∧ twinKnot.Assembled ∧ knot.FitsWords ∧ twinKnot.FitsWords ∧
      knot.signature 1 = twinKnot.signature 2 ∧ knot.unfolding 1 = twinKnot.unfolding 2 ∧
      (knot.signature 1).bytes = (twinKnot.signature 2).bytes := by
  have ht : knot.Assembled := Assembled.empty.withKnot _ _
  have hu : twinKnot.Assembled := (Assembled.alloc _ .empty).withKnot _ _
  have htw : knot.FitsWords := by decide +kernel
  have huw : twinKnot.FitsWords := by decide +kernel
  have hsignature : knot.signature 1 = twinKnot.signature 2 := by decide +kernel
  have h := signature_eq_iff_unfolding_eq ht hu 1 2
  have hunfolding : knot.unfolding 1 = twinKnot.unfolding 2 := h.1.1 hsignature
  exact ⟨ht, hu, htw, huw, hsignature, hunfolding, (h.2 htw huw).2 hunfolding⟩

end Tree
end MarkupText
