import MarkupText.Proofs.Render.Reading

/-!
# What a tree writes, and where

`Written.node` walks a tree like `Reader.node` and keeps, besides the texts (`reading_node`), the
elements around each of them. So it says of every face and link which text its element is over
(`Written.passages`), and of every character in which elements it stands (`Written.origins`).

An `Account` relates the renderers before and after a stretch of the tree to what was written there.
A relation that texts and elements keep holds of every descent (`Account.node`).
-/

namespace MarkupText

open Text

/-- How a rule marks the content of its element. -/
def Element.regionMark? (e : Element) : Option Mark :=
  match e.tag with
  | .b | .strong | .th | .title | .h1 | .h2 | .h3 | .h4 | .h5 | .h6 => some (.face .bold)
  | .i | .em | .cite | .var => some (.face .italic)
  | .u | .ins => some (.face .underline)
  | .s | .strike | .del => some (.face .strikethrough)
  | .code | .tt | .kbd | .samp | .pre => some (.face .monospace)
  | .a => (e.filledAttr? "href").map fun href => .link href.trim
  | .audio | .video => (e.filledAttr? "src").map fun src => .link src.trim
  | _ => none

/-- The text of a tree, with the elements around its parts. -/
inductive Written where
  | nil
  | text (t : Text)
  | append (v w : Written)
  | inside (id : NodeId) (e : Element) (w : Written)

/-- A face or link, with the text written before its element was entered and the text inside. -/
structure Passage where
  id : NodeId
  mark : Mark
  before : Text
  inside : Text

namespace Written

def plain : Written → Text
  | nil => []
  | text t => t
  | append v w => v.plain ++ w.plain
  | inside _ _ w => w.plain

/-- The faces and links, in the order in which their elements are left. -/
def passages (before : Text) : Written → List Passage
  | nil | text _ => []
  | append v w => v.passages before ++ w.passages (before ++ v.plain)
  | inside id e w =>
    w.passages before ++ (e.regionMark?.map fun mark => ⟨id, mark, before, w.plain⟩).toList

/-- The characters with the elements that they stand in, innermost first. -/
def origins : Written → List (Char × List Element)
  | nil => []
  | text t => t.map (·, [])
  | append v w => v.origins ++ w.origins
  | inside _ e w => w.origins.map fun (c, path) => (c, path ++ [e])

/-- The elements, in the order in which they are left. -/
def elements : Written → List (NodeId × Element)
  | nil | text _ => []
  | append v w => v.elements ++ w.elements
  | inside id e w => w.elements ++ [(id, e)]

variable {v w : Written} {before t : Text}

theorem map_origins (w : Written) : w.origins.map (·.1) = w.plain := by
  induction w with
  | nil => rfl
  | text t => exact (List.map_map ..).trans (List.map_id t)
  | append v w ihv ihw => rw [origins, plain, List.map_append, ihv, ihw]
  | inside id e w ih => rw [origins, plain, ← ih, List.map_map]; rfl

theorem map_passages (w : Written) (before : Text) :
    (w.passages before).map (fun p => (p.id, p.mark)) =
      w.elements.filterMap fun (id, e) => e.regionMark?.map (id, ·) := by
  induction w generalizing before with
  | nil => rfl
  | text t => rfl
  | append v w ihv ihw =>
    rw [passages, elements, List.map_append, List.filterMap_append, ihv, ihw]
  | inside id e w ih =>
    rw [passages, elements, List.map_append, List.filterMap_append, ih]
    cases hmark : e.regionMark? <;> simp [hmark]

theorem prefix_of_mem_passages {p : Passage} (hp : p ∈ w.passages before) :
    p.before ++ p.inside <+: before ++ w.plain := by
  induction w generalizing before with
  | nil => cases hp
  | text t => cases hp
  | append v w ihv ihw =>
    rw [plain, ← List.append_assoc]
    rcases List.mem_append.1 hp with hp | hp
    · exact (ihv hp).trans (List.prefix_append _ _)
    · exact ihw hp
  | inside id e w ih =>
    rcases List.mem_append.1 hp with hp | hp
    · exact ih hp
    · obtain ⟨mark, -, rfl⟩ := Option.map_eq_some_iff.1 (Option.mem_toList.1 hp)
      exact List.prefix_refl _

/-! ### The walk -/

def inOrder (write : NodeId → Reader → Written × Reader) : List NodeId → Reader → Written × Reader
  | [], a => (nil, a)
  | id :: ids, a =>
    let (v, a) := write id a
    let (w, a) := inOrder write ids a
    (append v w, a)

/-- Writes an element whose children are written by `write`, given their indentation. -/
def element (s : Scene) (write : Nat → NodeId → Reader → Written × Reader) (indentation : Nat)
    (id : NodeId) (e : Element) (a : Reader) : Written × Reader :=
  let below (indentation : Nat) : Reader → Written × Reader :=
    inOrder (write indentation) (s.tree.children id)
  match e.tag.role with
  | .hidden | .lineBreak => (nil, a)
  | .head => inOrder (write indentation)
      ((s.tree.children id).filter fun child => s.tree.tag? child = some .title) a
  | .ruler =>
    (text (List.replicate (max 1 (s.options.resolveWidth s.surface - indentation)) '-'), a)
  | .image => (text (Renderer.imageText s e), a)
  | .media label =>
    if (e.filledAttr? "src").isSome then (text label.toList, a) else below indentation a
  | .list numbered =>
    let (w, b) := below indentation { a with label := Renderer.firstLabel numbered e }
    (w, { b with label := a.label })
  | .item =>
    let label := Renderer.labelText a.label
    let (w, a) := below (indentation + label.width) a
    (append (text label) w, { a with label := Renderer.nextLabel a.label })
  | .quote | .definition => below (indentation + Renderer.blockIndent) a
  | _ => below indentation a

def content (s : Scene) (write : Nat → NodeId → Reader → Written × Reader) (indentation : Nat)
    (id : NodeId) : Content → Reader → Written × Reader
  | .document => inOrder (write indentation) (s.tree.children id)
  | .text t => fun a => (text t, a)
  | .comment _ => fun a => (nil, a)
  | .element e => fun a =>
    let (w, a) := element s write indentation id e a
    (inside id e w, a)

/-- Writes the subtree at a node, down to `levels` levels; no node is entered twice. -/
def node (s : Scene) : (levels indentation : Nat) → NodeId → Reader → Written × Reader
  | 0, _, _, a => (nil, a)
  | levels + 1, indentation, id, a =>
    match s.tree.get? id with
    | none => (nil, a)
    | some n =>
      if id ∈ a.visited then (nil, a)
      else content s (node s levels) indentation id n.content
        { a with visited := id :: a.visited }

/-- What a writing reads as. -/
def reading (out : Written × Reader) : Text × Reader := (out.1.plain, out.2)

theorem reading_inOrder {write : NodeId → Reader → Written × Reader}
    {read : NodeId → Reader → Text × Reader} (h : ∀ id a, reading (write id a) = read id a)
    (ids : List NodeId) (a : Reader) :
    reading (inOrder write ids a) = Reader.inOrder read ids a := by
  induction ids generalizing a with
  | nil => rfl
  | cons id ids ih =>
    simp only [Reader.inOrder, ← h, ← ih]
    rfl

theorem reading_element {s : Scene} {write : Nat → NodeId → Reader → Written × Reader}
    {read : Nat → NodeId → Reader → Text × Reader}
    (h : ∀ i id a, reading (write i id a) = read i id a) (indentation : Nat) (id : NodeId)
    (e : Element) (a : Reader) : reading (element s write indentation id e a) =
      Reader.element s (.br :: Reader.unread) read indentation id e a := by
  have hbelow (indentation : Nat) (a : Reader) :=
    reading_inOrder (h indentation) (s.tree.children id) a
  rw [Renderer.element_eq]
  unfold element
  cases e.tag.role
  case head => exact reading_inOrder (h indentation) _ a
  case image => exact congrArg (·, a) (Renderer.imageText_eq s e)
  case media label =>
    dsimp only
    split
    · rfl
    · exact hbelow indentation a
  case list numbered => simp only [← hbelow]; rfl
  case item => simp only [← hbelow]; rfl
  case hidden => rfl
  case lineBreak => rfl
  case ruler => rfl
  all_goals exact hbelow _ a

/-- What is written reads as the tree does. -/
theorem reading_node (s : Scene) (levels indentation : Nat) (id : NodeId) (a : Reader) :
    reading (node s levels indentation id a) =
      Reader.node s (.br :: Reader.unread) levels indentation id a := by
  induction levels generalizing indentation id a with
  | zero => rfl
  | succ levels ih =>
    unfold node Reader.node
    cases s.tree.get? id with
    | none => rfl
    | some n =>
      dsimp only
      split
      · rfl
      · cases n.content with
        | document => exact reading_inOrder (ih indentation) _ _
        | text t => rfl
        | comment t => rfl
        | element e => exact reading_element ih indentation id e _

/-! ### No element twice -/

/-- The elements written are those of the tree; each of them is new, and written once. -/
structure Entered (t : Tree) (a : Reader) (out : Written × Reader) : Prop where
  subset : a.visited ⊆ out.2.visited
  nodup : (out.1.elements.map (·.1)).Nodup
  elements : ∀ x ∈ out.1.elements,
    t.element? x.1 = some x.2 ∧ x.1 ∉ a.visited ∧ x.1 ∈ out.2.visited

namespace Entered
variable {tree : Tree} {a b c : Reader}

theorem nil (tree : Tree) (a : Reader) : Entered tree a (nil, a) :=
  ⟨fun _ h => h, List.nodup_nil, fun _ h => by cases h⟩

theorem text (tree : Tree) (t : Text) (a : Reader) : Entered tree a (text t, a) :=
  ⟨fun _ h => h, List.nodup_nil, fun _ h => by cases h⟩

theorem append (h₁ : Entered tree a (v, b)) (h₂ : Entered tree b (w, c)) :
    Entered tree a (append v w, c) where
  subset _ hi := h₂.subset (h₁.subset hi)
  nodup := by
    rw [Written.elements, List.map_append]
    refine List.nodup_append.2 ⟨h₁.nodup, h₂.nodup, fun i hi j hj hij => ?_⟩
    obtain ⟨x, hx, rfl⟩ := List.mem_map.1 hi
    obtain ⟨y, hy, rfl⟩ := List.mem_map.1 hj
    exact (h₂.elements y hy).2.1 (hij ▸ (h₁.elements x hx).2.2)
  elements x hx := by
    rcases List.mem_append.1 hx with hx | hx
    · obtain ⟨he, hnew, hin⟩ := h₁.elements x hx
      exact ⟨he, hnew, h₂.subset hin⟩
    · obtain ⟨he, hnew, hin⟩ := h₂.elements x hx
      exact ⟨he, fun h => hnew (h₁.subset h), hin⟩

theorem of_cons {id : NodeId} {out : Written × Reader}
    (h : Entered tree { a with visited := id :: a.visited } out) : Entered tree a out where
  subset _ hi := h.subset (List.mem_cons_of_mem id hi)
  nodup := h.nodup
  elements x hx := by
    obtain ⟨he, hnew, hin⟩ := h.elements x hx
    exact ⟨he, fun hmem => hnew (List.mem_cons_of_mem id hmem), hin⟩

theorem inside {id : NodeId} {e : Element} (hid : id ∉ a.visited) (he : tree.element? id = some e)
    (h : Entered tree { a with visited := id :: a.visited } (w, b)) :
    Entered tree a (inside id e w, b) where
  subset := h.of_cons.subset
  nodup := by
    rw [Written.elements, List.map_append]
    refine List.nodup_append.2 ⟨h.nodup, List.pairwise_singleton _ id, fun i hi j hj hij => ?_⟩
    obtain ⟨x, hx, rfl⟩ := List.mem_map.1 hi
    rw [List.mem_singleton.1 hj] at hij
    exact (h.elements x hx).2.1 (hij ▸ List.mem_cons_self)
  elements x hx := by
    rcases List.mem_append.1 hx with hx | hx
    · exact h.of_cons.elements x hx
    · rw [List.mem_singleton.1 hx]
      exact ⟨he, hid, h.subset List.mem_cons_self⟩

end Entered

theorem entered_inOrder {tree : Tree} {write : NodeId → Reader → Written × Reader}
    (h : ∀ id a, Entered tree a (write id a)) (ids : List NodeId) (a : Reader) :
    Entered tree a (inOrder write ids a) := by
  induction ids generalizing a with
  | nil => exact .nil tree a
  | cons id ids ih => exact (h id a).append (ih _)

theorem entered_element {s : Scene} {write : Nat → NodeId → Reader → Written × Reader}
    (h : ∀ i id a, Entered s.tree a (write i id a)) (indentation : Nat) (id : NodeId) (e : Element)
    (a : Reader) : Entered s.tree a (element s write indentation id e a) := by
  have hbelow (indentation : Nat) (a : Reader) :=
    entered_inOrder (h indentation) (s.tree.children id) a
  unfold element
  cases e.tag.role
  case hidden => exact .nil s.tree a
  case lineBreak => exact .nil s.tree a
  case head => exact entered_inOrder (h indentation) _ a
  case ruler => exact .text s.tree _ a
  case image => exact .text s.tree _ a
  case media label =>
    dsimp only
    split
    · exact .text s.tree _ a
    · exact hbelow indentation a
  case list numbered =>
    have := hbelow indentation { a with label := Renderer.firstLabel numbered e }
    exact ⟨this.subset, this.nodup, this.elements⟩
  case item =>
    have := (Entered.text s.tree (Renderer.labelText a.label) a).append
      (hbelow (indentation + (Renderer.labelText a.label).width) a)
    exact ⟨this.subset, this.nodup, this.elements⟩
  all_goals exact hbelow _ a

theorem entered_node (s : Scene) (levels indentation : Nat) (id : NodeId) (a : Reader) :
    Entered s.tree a (node s levels indentation id a) := by
  induction levels generalizing indentation id a with
  | zero => exact .nil s.tree a
  | succ levels ih =>
    unfold node
    cases hget : s.tree.get? id with
    | none => exact .nil s.tree a
    | some n =>
      dsimp only
      split
      · exact .nil s.tree a
      rename_i hid
      cases hcontent : n.content with
      | document => exact (entered_inOrder (ih indentation) _ _).of_cons
      | text t => exact (Entered.text s.tree t _).of_cons
      | comment t => exact (Entered.nil s.tree _).of_cons
      | element e =>
        have he : s.tree.element? id = some e := by simp [Tree.element?, hget, hcontent]
        exact (entered_element ih indentation id e _).inside hid he

/-- What was entered stays entered. -/
theorem visited_content (s : Scene) (levels indentation : Nat) (id : NodeId) (c : Content)
    (a : Reader) : a.visited ⊆ (content s (node s levels) indentation id c a).2.visited := by
  have hnode := entered_node s levels
  cases c with
  | document => exact (entered_inOrder (hnode indentation) _ a).subset
  | text t => exact List.Subset.refl _
  | comment t => exact List.Subset.refl _
  | element e => exact (entered_element hnode indentation id e a).subset

end Written

/-! ### Descents -/

namespace Renderer

/-- A relation between two renderers and what was written from the one to the other that holds where
nothing is written and of one stretch after another, whatever nodes are entered. -/
structure Account (J : Renderer → Renderer → Written × Reader → Prop) : Prop where
  reads : ∀ {r r' out}, J r r' out → Reads RangeRule.tight r r' (Written.reading out)
  nil : ∀ {r r'}, r'.page = r.page → r'.visited = r.visited → r'.styles = r.styles →
    J r r' (.nil, r.reader)
  append : ∀ {r r' r'' v w a b}, J r r' (v, a) → J r' r'' (w, b) → J r r'' (.append v w, b)
  entered : ∀ {r r' out} visited path path', J { r with visited, path } r' out →
    J r { r' with path := path' } out

/-- Every visit of a node gives an account of what `write` writes of it. -/
def Accounts (J : Renderer → Renderer → Written × Reader → Prop) (s : Scene)
    (visit : NodeId → Renderer → Renderer) (write : Nat → NodeId → Reader → Written × Reader) :
    Prop :=
  ∀ id r, Plain s r → J r (visit id r) (write r.layout.indentation id r.reader)

namespace Account
variable {J : Renderer → Renderer → Written × Reader → Prop} {s : Scene}
  {visit : NodeId → Renderer → Renderer} {write : Nat → NodeId → Reader → Written × Reader}
  (hJ : Account J)
include hJ

theorem inOrder (h : Accounts J s visit write) (ids : List NodeId) (r : Renderer)
    (hr : Plain s r) : J r (ids.foldl (fun r id => visit id r) r)
      (Written.inOrder (write r.layout.indentation) ids r.reader) := by
  induction ids generalizing r with
  | nil => exact hJ.nil rfl rfl rfl
  | cons id ids ih =>
    have hid := h id r hr
    have hids := ih _ (hr.of_reads (hJ.reads hid))
    rw [(hJ.reads hid).reader_eq, (hJ.reads hid).indentation] at hids
    exact hJ.append hid hids

/-- The children of a node may be visited further in, and after edits of the buffer. -/
theorem below (h : Accounts J s visit write) (id : NodeId) {r r' : Renderer} (hr : Plain s r)
    (extra : Nat) (hindent : r'.layout.indentation = r.layout.indentation + extra)
    (hwidth : r'.layout.width = r.layout.width)
    (hinhibit : r'.layout.inhibitImages = r.layout.inhibitImages) (hreader : r'.reader = r.reader) :
    J r' (children s visit id r')
      (Written.inOrder (write (r.layout.indentation + extra)) (s.tree.children id) r.reader) := by
  have := hJ.inOrder h (s.tree.children id) r' ⟨hwidth.trans hr.1, hinhibit.trans hr.2⟩
  rwa [hindent, hreader] at this

/-- A descent gives an account of what it writes if texts and elements do. -/
theorem node (hs : s.tree.TableFree)
    (htext : ∀ t r, J r (r.insertText s t) (.text t, r.reader))
    (helement : ∀ {visit write}, Accounts J s visit write → ∀ id e, e.tag ≠ .table → ∀ r, Plain s r →
      J r (content s visit id (.element e) r)
        (Written.content s write r.layout.indentation id (.element e) r.reader)) (levels : Nat) :
    Accounts J s (node s levels) (Written.node s levels) := by
  induction levels with
  | zero => exact fun id r _ => hJ.nil rfl rfl rfl
  | succ levels ih =>
    intro id r hr
    unfold Renderer.node Written.node
    cases hget : s.tree.get? id with
    | none => exact hJ.nil rfl rfl rfl
    | some n =>
      by_cases hmem : id ∈ r.visited
      · simp only [reader, hmem, if_true]
        exact hJ.nil rfl rfl rfl
      · simp only [reader, hmem, if_false]
        let q : Renderer := { r with visited := id :: r.visited, path := id :: r.path }
        have hcontent : J q (content s (Renderer.node s levels) id n.content q)
            (Written.content s (Written.node s levels) q.layout.indentation id n.content
              q.reader) := by
          cases hc : n.content with
          | document => exact hJ.inOrder ih _ q hr
          | text t => exact htext t q
          | comment t => exact hJ.nil rfl rfl rfl
          | element e =>
            refine helement ih id e (fun htable => hs id ?_) q hr
            simp [Tree.tag?, Tree.element?, hget, hc, htable]
        exact hJ.entered _ _ _ hcontent

end Account
end Renderer
end MarkupText
