import MarkupText.Flow.Insert

/-!
# The flow sees only the columns

Of the layout the flow reads the width and the indentation: whatever else of it is changed, texts are
wrapped in the same way (`Page.insertWrapped_onLayout`), and text is inserted into a page in the same
way whatever the number of enclosing tables is (`Page.insert_atDepth`).
-/

namespace MarkupText.Page

variable {rules : LineBreak.Rules} {p : Page} {depth : Nat} {f : Layout → Layout}

/-- A change of the layout that keeps its width and its indentation. -/
structure KeepsColumns (f : Layout → Layout) : Prop where
  width : ∀ l, (f l).width = l.width
  indentation : ∀ l, (f l).indentation = l.indentation

theorem indent_onLayout (hf : KeepsColumns f) (p : Page) :
    (p.onLayout f).indent = p.indent.onLayout f := by
  unfold indent
  rw [apply_ite (onLayout f)]
  change (if p.buffer.currentLine.isEmpty then
    (p.onLayout f).onBuffer (·.push (Text.spaces (f p.layout).indentation)) else p.onLayout f) = _
  rw [hf.indentation]
  rfl

theorem space_onLayout (hf : KeepsColumns f) (p : Page) :
    (p.onLayout f).space = p.space.onLayout f := by
  unfold space
  rw [apply_ite (onLayout f)]
  change (if p.buffer.atLineStart || p.buffer.column ≤ (f p.layout).indentation ||
    p.buffer.lastChar == some ' ' then p.onLayout f else (p.onLayout f).onBuffer (·.push [' '])) = _
  rw [hf.indentation]
  rfl

theorem spaceUnwanted_onLayout (hf : KeepsColumns f) (p : Page) (c : Char) :
    (p.onLayout f).spaceUnwanted rules c = p.spaceUnwanted rules c := by
  have hindentation : (p.onLayout f).layout.indentation = p.layout.indentation := hf.indentation _
  unfold spaceUnwanted
  rw [hindentation, buffer_onLayout]

theorem placeWord_onLayout (hf : KeepsColumns f) (p : Page) (spaceBefore : Bool) (word : Text) :
    (p.onLayout f).placeWord rules spaceBefore word =
      (p.placeWord rules spaceBefore word).onLayout f := by
  have hspace : (if spaceBefore then (p.onLayout f).indent.space else (p.onLayout f).indent) =
      (if spaceBefore then p.indent.space else p.indent).onLayout f := by
    rw [indent_onLayout hf, space_onLayout hf, apply_ite (onLayout f)]
  have hfold (q : Page) : (q.onLayout f).onBuffer (fun b =>
        foldLine rules (f q.layout).indentation (f q.layout).width (b.push word)) =
      (q.onBuffer fun b =>
        foldLine rules q.layout.indentation q.layout.width (b.push word)).onLayout f := by
    rw [hf.indentation, hf.width]
    rfl
  unfold placeWord
  dsimp only
  rw [hspace]
  generalize (if spaceBefore then p.indent.space else p.indent) = p
  cases word with
  | nil => exact hfold p
  | cons c word =>
    dsimp only
    rw [spaceUnwanted_onLayout hf]
    split
    · exact hfold (p.onBuffer fun b => b.splice (b.size - 1) 1 [])
    · exact hfold p

theorem placeWords_onLayout (hf : KeepsColumns f) (p : Page) (spaceBefore : Bool)
    (words : List Text) : (p.onLayout f).placeWords rules spaceBefore words =
      (p.placeWords rules spaceBefore words).onLayout f := by
  induction words generalizing p spaceBefore with
  | nil => rfl
  | cons word words ih => rw [placeWords, placeWords, placeWord_onLayout hf, ih]

theorem insertWrapped_onLayout (hf : KeepsColumns f) (p : Page) (t : Text) :
    (p.onLayout f).insertWrapped rules t = (p.insertWrapped rules t).onLayout f := by
  unfold insertWrapped
  dsimp only
  rw [placeWords_onLayout hf, space_onLayout hf, apply_ite (onLayout f)]

theorem pushRow_onLayout (hf : KeepsColumns f) (p : Page) (row : Text) :
    (p.onLayout f).pushRow row = (p.pushRow row).onLayout f := by
  unfold pushRow
  rw [indent_onLayout hf, apply_ite (onLayout f)]
  rfl

theorem insertVerbatim_onLayout (hf : KeepsColumns f) (p : Page) (t : Text) :
    (p.onLayout f).insertVerbatim t = (p.insertVerbatim t).onLayout f := by
  have hrows (rows : List Text) (p : Page) :
      rows.foldl (fun p row => (p.onBuffer (·.push ['\n'])).pushRow row) (p.onLayout f) =
        (rows.foldl (fun p row => (p.onBuffer (·.push ['\n'])).pushRow row) p).onLayout f := by
    induction rows generalizing p with
    | nil => rfl
    | cons row rows ih =>
      rw [List.foldl_cons, List.foldl_cons, ← ih, ← pushRow_onLayout hf]
      rfl
  unfold insertVerbatim
  split
  · rfl
  · rw [pushRow_onLayout hf, hrows]

/-- The page with another number of enclosing tables. -/
def atDepth (depth : Nat) (p : Page) : Page := p.onLayout ({ · with tableDepth := depth })

theorem keepsColumns_tableDepth (depth : Nat) : KeepsColumns ({ · with tableDepth := depth }) :=
  ⟨fun _ => rfl, fun _ => rfl⟩

@[simp] theorem indent_atDepth (p : Page) (depth : Nat) :
    (p.atDepth depth).indent = p.indent.atDepth depth :=
  indent_onLayout (keepsColumns_tableDepth depth) p

theorem insert_atDepth (rules : LineBreak.Rules) (p : Page) (depth : Nat) (t : Text) :
    (p.atDepth depth).insert rules t = (p.insert rules t).atDepth depth := by
  have hline : (if (p.atDepth depth).layout.kind = .image && !t.blank &&
      !(p.atDepth depth).buffer.atLineStart then (p.atDepth depth).onBuffer (·.newline)
      else p.atDepth depth) =
      (if p.layout.kind = .image && !t.blank && !p.buffer.atLineStart then p.onBuffer (·.newline)
        else p).atDepth depth := by
    rw [apply_ite (atDepth depth)]
    rfl
  unfold insert
  split
  · rfl
  · dsimp only
    rw [hline]
    generalize (if p.layout.kind = .image && !t.blank && !p.buffer.atLineStart then
      p.onBuffer (·.newline) else p) = p
    have hfold : (p.atDepth depth).layout.fold = p.layout.fold := rfl
    rw [hfold]
    cases p.layout.fold with
    | verbatim =>
      dsimp only
      rw [atDepth, insertVerbatim_onLayout (keepsColumns_tableDepth depth)]
      rw [apply_ite (atDepth depth)]
      rfl
    | wrap =>
      dsimp only
      rw [atDepth, insertWrapped_onLayout (keepsColumns_tableDepth depth)]
      rw [apply_ite (atDepth depth)]
      rfl

end MarkupText.Page
