import MarkupText.Tree.Basic

/-!
# Descendants

`Tree.descendants` lists the nodes below a node in document order, each once, whatever cycles and
shared children there are: a node that was listed is struck off the nodes still `fresh`, so the walk
ends.
-/

namespace MarkupText.Tree

/-- The fresh nodes reached from a stack of nodes, in document order. -/
def walk (t : Tree) (fresh : List NodeId) (stack : List NodeId) : List NodeId :=
  match stack with
  | [] => []
  | id :: stack =>
    if id ∈ fresh then id :: walk t (fresh.erase id) (t.children id ++ stack)
    else walk t fresh stack
termination_by (fresh.length, stack.length)
decreasing_by
  · rename_i h
    have := List.length_erase_of_mem h
    have := List.length_pos_of_mem h
    exact Prod.Lex.left _ _ (by omega)
  · exact Prod.Lex.right _ (by simp)

/-- The nodes below `id`, other than `id` itself. -/
def descendants (t : Tree) (id : NodeId) : List NodeId :=
  t.walk ((List.range t.size).erase id) (t.children id)

/-- The text of all leaves at or below a node. -/
def textContent (t : Tree) (id : NodeId) : Text :=
  (id :: t.descendants id).flatMap fun n => (t.text? n).getD []

end MarkupText.Tree
