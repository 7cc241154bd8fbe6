import MarkupText.Proofs.Flow.Neat
import MarkupText.Proofs.Render.Context
import MarkupText.Proofs.Render.Standing
import MarkupText.Proofs.Render.WordGaps

/-!
# Neat pages

Without line breaks, preformatted text and tables, each rule ends lines only behind something to see
and asks for at most one blank line, so a page that was neat stays neat (`Renderer.neat_node`) and
the rendered text is in normal form (`tidy_renderWith`).
-/

namespace MarkupText

/-- No element of the tree has one of the tags. -/
def Tree.Lacks (t : Tree) (tags : List Tag) : Prop := ∀ id, ∀ tag ∈ t.tag? id, tag ∉ tags

instance (t : Tree) (tags : List Tag) : Decidable (t.Lacks tags) :=
  decidable_of_iff (∀ id < t.size, ∀ tag ∈ t.tag? id, tag ∉ tags) <| by
    refine ⟨fun h id tag htag => ?_, fun h id _ => h id⟩
    by_cases hid : id < t.size
    · exact h id hid tag htag
    · have hget : t.get? id = none := Array.getElem?_eq_none (Nat.le_of_not_lt hid)
      simp [Tree.tag?, Tree.element?, hget] at htag

/-- The tags of elements that keep blanks or end lines whatever stands on them. -/
def Tag.untidy : List Tag := [.br, .pre, .table]

namespace Renderer
open Text
variable {s : Scene} {e : Element} {c : Content} {r q : Renderer} {id : NodeId}
  {visit : NodeId → Renderer → Renderer}

/-- What was written is neat, and what comes is wrapped. -/
structure Neat (r : Renderer) : Prop where
  fold : r.layout.fold = .wrap
  text : r.buffer.text.Neat

namespace Neat

theorem of_text (h : Neat r) (hfold : q.layout.fold = r.layout.fold)
    (htext : q.buffer.text = r.buffer.text) : Neat q :=
  ⟨hfold.trans h.fold, htext ▸ h.text⟩

theorem ensureNewline (h : Neat r) : Neat (r.onBuffer (·.ensureNewline)) :=
  ⟨h.fold, Buffer.neat_ensureNewline h.text⟩

theorem ensureParagraph (h : Neat r) : Neat (r.onBuffer (·.ensureParagraph)) :=
  ⟨h.fold, Buffer.neat_ensureParagraph h.text⟩

theorem separateList (nested : Bool) (h : Neat r) : Neat (r.onBuffer (separateList nested)) := by
  cases nested
  · exact h.ensureParagraph
  · exact h.ensureNewline

theorem endRegion (mark : Mark) (h : Neat r) : Neat (r.onBuffer (·.endRegion mark)) :=
  h.of_text rfl (Buffer.text_endRegion ..)

theorem insertText (t : Text) (h : Neat r) : Neat (insertText s t r) where
  fold := (Restoring.insertText s t r).fold.trans h.fold
  text := Page.neat_insert _ t h.fold h.text

theorem image (e : Element) (h : Neat r) : Neat (image s e r) := by
  refine ⟨(Restoring.image s e r).fold.trans h.fold, ?_⟩
  rw [image_eq]
  cases fetchableSource? s e with
  | none => exact (h.insertText _).text
  | some source =>
    dsimp only
    split
    · exact h.text
    · have hinsert : ((r.page.onBuffer (·.openRegion)).insert s.options.rules
          (placeholder (altText e))).buffer.text.Neat := Page.neat_insert _ _ h.fold h.text
      rw [← Buffer.text_closeRegion] at hinsert
      unfold requestImage
      split
      · exact hinsert
      · refine Eq.subst (motive := Text.Neat) (Buffer.text_annotate ..).symm hinsert

theorem media (label : String) (e : Element) (h : Neat r) :
    Neat (media s label e (fun r => r) r) := by
  unfold Renderer.media
  cases e.filledAttr? "src" with
  | none => exact h
  | some source =>
    dsimp only
    rw [region_eq]
    have hopen : Neat (r.onBuffer (·.openRegion)) := h.of_text rfl rfl
    exact (hopen.insertText label.toList).endRegion _

theorem ruler (h : Neat r) : Neat (ruler r) := by
  generalize hn : max (r.layout.width - r.layout.indentation) 1 = n
  have hdashes : InLine (List.replicate n '-') := inLine_of_solid fun c hc => by
    rw [List.eq_of_mem_replicate hc]
    decide
  have htext := (h.ensureNewline.text.append (inLine_spaces r.layout.indentation)).append hdashes
  refine ⟨h.fold, ?_⟩
  rw [ruler_eq, hn]
  refine Buffer.neat_newline ?_ ?_
  · rw [Buffer.text_annotate]
    exact htext
  · rw [Buffer.atLineStart, Buffer.currentLine, Buffer.text_annotate, Buffer.text_push,
      lastRow_append hdashes.newline_notMem, List.all_eq_false]
    exact ⟨'-', List.mem_append_right _ (List.mem_replicate.2 ⟨by omega, rfl⟩), by decide⟩

theorem labelled (h : Neat r) : Neat (labelled r) := by
  have hline := h.ensureNewline
  obtain ⟨k, htext, -⟩ := (r.page.onBuffer (·.ensureNewline)).text_indent
  have hlabel : InLine (labelText r.layout.list) := by
    obtain ⟨u, hu, -, hsolid⟩ := labelText_eq r.layout.list
    rw [hu]
    exact (inLine_of_solid fun c hc => (hsolid c hc).2).append (inLine_spaces 1)
  refine ⟨(Restoring.labelled r).fold.trans h.fold, ?_⟩
  change ((r.page.onBuffer (·.ensureNewline)).indent.buffer.text ++ _).Neat
  rw [htext, List.append_assoc]
  exact hline.text.append ((inLine_spaces k).append hlabel)

theorem openColors (e : Element) (h : Neat r) : Neat (openColors e r) := by
  unfold Renderer.openColors
  split
  · exact h.of_text rfl rfl
  · exact h.of_text rfl rfl

theorem closeColors (e : Element) (h : Neat r) : Neat (closeColors s e r) := by
  unfold Renderer.closeColors
  split
  · exact h
  · exact h.of_text rfl (Buffer.text_endColors ..)

theorem openRule (he : e.tag ∉ Tag.untidy) (h : Neat r) : Neat (openRule s id e r) := by
  unfold Renderer.openRule
  cases hrole : e.tag.role with
  | inline | hidden | head => exact h
  | paragraph => exact h.ensureParagraph
  | block => exact h.ensureNewline
  | ruler => exact h.ruler
  | heading => exact h.ensureParagraph.of_text rfl rfl
  | link =>
    dsimp only
    split
    · exact h.of_text rfl rfl
    · exact h
  | image => exact h.image e
  | media label => exact h.media label e
  | list numbered => exact (h.separateList _).of_text rfl rfl
  | item => exact h.labelled.of_text rfl rfl
  | quote => exact h.ensureParagraph.of_text rfl rfl
  | definition => exact h.ensureNewline.of_text rfl rfl
  | face f => exact h.of_text rfl rfl
  | lineBreak | preformatted | table => exact absurd hrole (by revert he; cases e.tag <;> decide)

theorem closeRule (he : e.tag ∉ Tag.untidy) (l : Layout) (h : Neat r) :
    Neat (closeRule s visit id e l r) := by
  have houtdent : Neat (r.onLayout ({ · with indentation := l.indentation })) := h.of_text rfl rfl
  unfold Renderer.closeRule
  cases hrole : e.tag.role with
  | inline | hidden | head | ruler | image | media => exact h
  | paragraph => exact h.ensureParagraph
  | block => exact h.ensureNewline
  | heading => exact (h.endRegion _).ensureParagraph
  | link =>
    dsimp only
    split
    · exact h.endRegion _
    · exact h
  | list numbered =>
    have hlist : Neat (r.onLayout ({ · with list := l.list })) := h.of_text rfl rfl
    exact hlist.separateList _
  | item => exact houtdent.ensureNewline.of_text rfl rfl
  | quote => exact houtdent.ensureParagraph
  | definition => exact houtdent.ensureNewline
  | face f => exact h.endRegion _
  | lineBreak | preformatted | table => exact absurd hrole (by revert he; cases e.tag <;> decide)

theorem visits (hvisit : ∀ id r, Neat r → Neat (visit id r)) (ids : List NodeId) (h : Neat r) :
    Neat (visits visit ids r) := by
  induction ids generalizing r with
  | nil => exact h
  | cons id ids ih => exact ih (hvisit id r h)

end Neat

theorem neat_node (hs : s.tree.Lacks Tag.untidy) (levels : Nat) (id : NodeId) (r : Renderer)
    (h : Neat r) : Neat (node s levels id r) := by
  induction levels generalizing id r with
  | zero => exact h.of_text rfl rfl
  | succ levels ih =>
    let v : Visit := ⟨levels + 1, id, r⟩
    change Neat (v.result s)
    rcases v.enters_or s with ⟨c, hv⟩ | ⟨log, hlog⟩
    · obtain ⟨path, heq⟩ := Visit.result_eq hv
      have henter : Neat { r with visited := id :: r.visited, path := id :: r.path } :=
        h.of_text rfl rfl
      rw [heq]
      cases c with
      | document => exact (henter.visits ih _).of_text rfl rfl
      | text t => exact (henter.insertText t).of_text rfl rfl
      | comment t => exact henter.of_text rfl rfl
      | element e =>
        have he : e.tag ∉ Tag.untidy := by
          have hcontent : (s.tree.get? id).map Node.content = some (.element e) := hv.content
          exact hs id e.tag (by simp [Tree.tag?, Tree.element?, hcontent])
        have hopened : Neat (v.opened s (.element e)) := (henter.openColors e).openRule he
        have hclosed : Neat (v.closed s (.element e)) :=
          Neat.closeRule he _ (hopened.visits ih _)
        have hended := (hclosed.visits ih (deferred s id (.element e) (v.closed s (.element e))))
        exact (hended.closeColors e).of_text rfl rfl
    · rw [hlog]
      exact h.of_text rfl rfl

end Renderer

open Renderer Text

/-- A render of a tree without line breaks, preformatted text and tables is in normal form. -/
theorem tidy_renderWith (s : Scene) (hs : s.tree.Lacks Tag.untidy) (id : NodeId)
    (cache : CellCache) : (renderWith s id cache).rendered.text.Tidy := by
  have hneat := neat_node hs Tree.maxDepth id (start s cache.clear) ⟨rfl, neat_nil⟩
  generalize hr : node s Tree.maxDepth id (start s cache.clear) = r at hneat
  have hfinish : r.buffer.finish.1.Neat := by
    obtain ⟨u, hu, -⟩ := dropEndWhile_append isBlank r.buffer.text
    exact hneat.text.of_isPrefix ⟨u, hu.symm⟩
  change (node s Tree.maxDepth id (start s cache.clear)).finish.text.Tidy
  rw [hr]
  by_cases hnil : r.buffer.finish.1 = []
  · have htext : r.finish.text = [] := if_pos (List.isEmpty_iff.2 hnil)
    rw [htext]
    exact neat_nil.tidy (.inl rfl)
  · obtain ⟨d, hd⟩ := Option.ne_none_iff_exists'.1 fun h => hnil (List.getLast?_eq_none_iff.1 h)
    rw [text_finish_of_ne_nil hnil]
    exact (hfinish.newline_of_shown hd (shown_of_not_blank (Buffer.not_isBlank_finish hd))).tidy
      (.inr List.getLast?_concat)

/-- A quote in a list item, a ruler and a heading, with blanks between them. -/
def quoteAndRuler : Tree :=
  let quote : Item := .element "blockquote".toList [] [.text " a\t b ".toList]
  let item : Item := .element "li".toList [] [.text "x ".toList, quote]
  (Loaded.ofItems [.text "\n ".toList, .element "ul".toList [] [item], .element "hr".toList [] [],
    .element "h1".toList [] [.text "T".toList]]).tree

theorem tidy_renderWith_quoteAndRuler :
    quoteAndRuler.Lacks Tag.untidy ∧
      let text := (renderWith { tree := quoteAndRuler, options := { width := .fixed 9 } } Tree.root
        {}).rendered.text
      text = "* x\n\n      a b\n\n---------\n\nT\n".toList ∧ text.Tidy := by
  have hs : quoteAndRuler.Lacks Tag.untidy := by decide
  exact ⟨hs, by decide +kernel, tidy_renderWith _ hs Tree.root {}⟩

end MarkupText
