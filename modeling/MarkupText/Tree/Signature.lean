import MarkupText.Tree.Basic

/-!
# Signatures

The signature of a subtree lists what makes its structure: kinds, names, attributes, texts and
child counts in document order. A node met again within the subtree leaves only a mark, and nodes
more than `Tree.maxDepth` levels down are left out. Comments count, their contents do not.
-/

namespace MarkupText

/-- One item of a signature. -/
inductive SignatureItem where
  | document
  | element (name : Text) (attributes : Attributes)
  | text (t : Text)
  | comment
  /-- A node that was met before. -/
  | again
  /-- The number of children of the node before it. -/
  | arity (n : Nat)
deriving DecidableEq

abbrev Signature := List SignatureItem

/-- What the content of a node contributes. -/
def Content.signatureItem : Content → SignatureItem
  | .document => .document
  | .element e => .element e.name e.attributes
  | .text t => .text t
  | .comment _ => .comment

namespace Tree

/-- The signature of the subtree at `id` down to `levels` levels, and the nodes met, to which `seen`
belong. -/
def signatureFrom (t : Tree) : (levels : Nat) → (seen : List NodeId) → NodeId →
    Signature × List NodeId
  | 0, seen, _ => ([], seen)
  | levels + 1, seen, id =>
    match t.get? id with
    | none => ([], seen)
    | some node =>
      if id ∈ seen then ([.again], seen)
      else
        let (items, seen) := node.children.foldl (fun (items, seen) child =>
          let (more, seen) := signatureFrom t levels seen child
          (items ++ more, seen)) ([], id :: seen)
        (node.content.signatureItem :: .arity node.children.length :: items, seen)

/-- The signature of the subtree at `id`. -/
def signature (t : Tree) (id : NodeId) : Signature := (t.signatureFrom (maxDepth + 1) [] id).1

end Tree
end MarkupText
