import MarkupText.Proofs.Render.Regions

/-!
# Colors come from the innermost element that sets some

`ruling` says which colors rule inside a path of elements: those in force at the innermost one that
declares colors, unless the styles in force there resolve to none. An element lays its colors over
what it wrote after the elements inside it did, and leaves alone what has a color, so each visible
character gets the colors that rule where it was written and no others (`addsColors_tell`). In a
render these are the colors of the spans that cover the character (`colors_renderWith`).
-/

namespace MarkupText

open Text

/-! ### Ruling colors -/

/-- The styles in force inside a path of elements, innermost first, under those around it. -/
def stylesIn (around : StyleStack) (path : List Element) : StyleStack :=
  (path.map (·.frame.1)).filter (! ·.isEmpty) ++ around

/-- The colors of the innermost element of a path that declares some, if any are in force there. -/
def ruling (s : Scene) (around : StyleStack) : List Element → Option ColorPair
  | [] => none
  | e :: path =>
    if ! e.frame.1.isEmpty && ! (stylesIn around (e :: path)).resolve.isEmpty then
      some (Renderer.visibleColors s (stylesIn around (e :: path)))
    else ruling s around path

def colorMarks (colors : Option ColorPair) : List Mark :=
  (colors.map fun c => Mark.colors c.foreground c.background).toList

variable {s : Scene} {around styles : StyleStack} {e : Element} {path : List Element}

theorem stylesIn_append (around : StyleStack) (path outer : List Element) :
    stylesIn around (path ++ outer) = stylesIn (stylesIn around outer) path := by
  rw [stylesIn, stylesIn, stylesIn, List.map_append, List.filter_append, List.append_assoc]

theorem ruling_append (s : Scene) (around : StyleStack) (path outer : List Element) :
    ruling s around (path ++ outer) =
      (ruling s (stylesIn around outer) path).or (ruling s around outer) := by
  induction path with
  | nil => rfl
  | cons e path ih =>
    rw [List.cons_append, ruling, ruling, ← List.cons_append, stylesIn_append]
    split
    · rfl
    · exact ih

theorem stylesIn_of_isEmpty (h : e.frame.1.isEmpty = true) : stylesIn around [e] = around := by
  simp [stylesIn, h]

theorem stylesIn_of_not_isEmpty (h : ¬ e.frame.1.isEmpty = true) :
    stylesIn around [e] = e.frame.1 :: around := by
  simp [stylesIn, h]

theorem isEmpty_visibleColors (s : Scene) (styles : StyleStack) :
    (Renderer.visibleColors s styles).isEmpty = styles.resolve.isEmpty := by
  unfold Renderer.visibleColors
  obtain ⟨fg, bg⟩ := styles.resolve
  cases fg <;> cases bg <;> simp [Contrast.resolveVisible, ColorPair.isEmpty]

/-- The colors that rule in an element: those inside it and, where none are, its own. -/
theorem ruling_concat (s : Scene) (around : StyleStack) (path : List Element) (e : Element) :
    ruling s around (path ++ [e]) =
      if e.frame.1.isEmpty then ruling s around path
      else (ruling s (e.frame.1 :: around) path).or
        (if (Renderer.visibleColors s (e.frame.1 :: around)).isEmpty then none
          else some (Renderer.visibleColors s (e.frame.1 :: around))) := by
  rw [ruling_append, ruling, ruling]
  by_cases hframe : e.frame.1.isEmpty = true
  · rw [stylesIn_of_isEmpty hframe, if_pos hframe, hframe]
    exact Option.or_none
  · rw [stylesIn_of_not_isEmpty hframe, if_neg hframe, isEmpty_visibleColors,
      Bool.eq_false_iff.2 hframe]
    cases StyleStack.resolve (e.frame.1 :: around) |>.isEmpty <;> rfl

/-! ### Telling colors -/

namespace Tale

/-- The characters of the tale have these colors. -/
structure Colored (t : Tale) (colors : List (List Mark)) : Prop where
  length : colors.length = t.text.length
  colors : ∀ k, t.colors k = colors[k]?.getD []

end Tale

namespace Written
variable {step : Tale → Tale} {cs : List (Option ColorPair)} {u : Text}

/-- The step gives the characters that it adds to a tale these colors. -/
def AddsColors (cs : List (Option ColorPair)) (step : Tale → Tale) : Prop :=
  ∀ t colors, t.Colored colors → (step t).Colored (colors ++ cs.map colorMarks)

theorem AddsColors.marked (h : AddsColors cs step) (hstep : Adds u step) (mark? : Option Mark) :
    AddsColors cs (tellMarked mark? step) := by
  intro t colors ht
  cases mark? with
  | none => exact h t colors ht
  | some mark =>
    have hopen := h t.openRegion colors ⟨ht.length, ht.colors⟩
    have hmark := Tale.endRegion_of_regions (hstep.regions t.openRegion) mark
    refine ⟨hopen.length.trans (congrArg List.length ?_), fun k => ?_⟩
    · exact (congrArg Tale.text hmark).symm
    · exact (congrFun (congrArg Tale.colors hmark) k).trans (hopen.colors k)

/-- Coloring what a step added colors the characters that it left without. -/
theorem colored_color {t : Tale} {colors : List (List Mark)}
    (ht : t.Colored (colors ++ cs.map colorMarks)) (c : ColorPair) :
    (t.color colors.length c).Colored
      (colors ++ (cs.map fun c' => c'.or (if c.isEmpty then none else some c)).map colorMarks) := by
  have hlength := ht.length
  simp only [List.length_append, List.length_map] at hlength
  refine ⟨by simpa using hlength, fun k => ?_⟩
  unfold Tale.color
  split
  · rw [ht.colors]
    simp
  · dsimp only
    rw [ht.colors]
    -- only what the step added is looked at
    rcases Nat.lt_or_ge k colors.length with hk | hk
    · rw [if_neg (by omega), List.getElem?_append_left hk, List.getElem?_append_left hk]
    · rw [List.getElem?_append_right hk, List.getElem?_append_right hk]
      simp only [List.getElem?_map]
      rcases Nat.lt_or_ge (k - colors.length) cs.length with hlt | hge
      · rw [List.getElem?_eq_getElem hlt]
        cases cs[k - colors.length] with
        | none =>
          rw [if_pos ⟨hk, by omega, rfl⟩]
          rfl
        | some c' =>
          rw [if_neg fun h => by cases h.2.2]
          rfl
      · rw [List.getElem?_eq_none hge, if_neg (by omega)]
        rfl

theorem AddsColors.colored {step : StyleStack → Tale → Tale}
    (cs : StyleStack → List (Option ColorPair)) (h : ∀ styles, AddsColors (cs styles) (step styles))
    (hstep : ∀ styles, Adds u (step styles))
    (s : Scene) (styles : StyleStack) (e : Element) :
    AddsColors
      (if e.frame.1.isEmpty then cs styles
        else (cs (e.frame.1 :: styles)).map fun c =>
          c.or (if (Renderer.visibleColors s (e.frame.1 :: styles)).isEmpty then none
            else some (Renderer.visibleColors s (e.frame.1 :: styles))))
      (tellColored s styles e step) := by
  intro t colors ht
  unfold tellColored
  split
  · exact h styles t colors ht
  · rw [Tale.endColors_of_regions ((hstep _).regions t.openRegion)]
    have hopen := h (e.frame.1 :: styles) t.openRegion colors ⟨ht.length, ht.colors⟩
    have hclosed := colored_color (t := { step (e.frame.1 :: styles) t.openRegion with
      regions := t.regions }) ⟨hopen.length, hopen.colors⟩
      (Renderer.visibleColors s (e.frame.1 :: styles))
    rwa [ht.length] at hclosed

def visibleOrigins (w : Written) : List (Char × List Element) :=
  w.origins.filter (! isBlank ·.1)

theorem map_visibleOrigins (w : Written) : w.visibleOrigins.map (·.1) = w.plain.visible := by
  rw [← w.map_origins, visible, List.filter_map]
  rfl

/-- The colors that rule each visible character. -/
def rulings (s : Scene) (styles : StyleStack) (w : Written) : List (Option ColorPair) :=
  w.visibleOrigins.map fun x => ruling s styles x.2

theorem addsColors_tell (s : Scene) (w : Written) (styles : StyleStack) :
    AddsColors (w.rulings s styles) (w.tell s styles) := by
  induction w generalizing styles with
  | nil =>
    intro t colors ht
    exact (List.append_nil colors).symm ▸ ht
  | text u =>
    intro t colors ht
    have hrulings : ((text u).rulings s styles).map colorMarks =
        List.replicate u.visible.length [] := by
      rw [rulings, visibleOrigins, origins, List.filter_map, List.map_map, List.map_map,
        ← List.map_const']
      rfl
    rw [hrulings]
    refine ⟨?_, fun k => (ht.colors k).trans ?_⟩
    · rw [List.length_append, List.length_replicate, ht.length]
      exact List.length_append.symm
    · rcases Nat.lt_or_ge k colors.length with hk | hk
      · rw [List.getElem?_append_left hk]
      · rw [List.getElem?_append_right hk, List.getElem?_eq_none hk, List.getElem?_replicate]
        split <;> rfl
  | append v w ihv ihw =>
    intro t colors ht
    have hrulings : (append v w).rulings s styles = v.rulings s styles ++ w.rulings s styles := by
      rw [rulings, visibleOrigins, origins, List.filter_append, List.map_append]
      rfl
    rw [hrulings, List.map_append, ← List.append_assoc]
    exact ihw styles _ _ (ihv styles t colors ht)
  | inside id e w ih =>
    -- the element colors what the elements inside it left without colors
    have hrulings : (inside id e w).rulings s styles =
        if e.frame.1.isEmpty then w.rulings s styles
        else (w.rulings s (e.frame.1 :: styles)).map fun c =>
          c.or (if (Renderer.visibleColors s (e.frame.1 :: styles)).isEmpty then none
            else some (Renderer.visibleColors s (e.frame.1 :: styles))) := by
      rw [rulings, visibleOrigins, origins, List.filter_map, List.map_map]
      by_cases hframe : e.frame.1.isEmpty = true
      · rw [if_pos hframe]
        exact List.map_congr_left fun x _ => (ruling_concat ..).trans (if_pos hframe)
      · rw [if_neg hframe, rulings, List.map_map]
        exact List.map_congr_left fun x _ => (ruling_concat ..).trans (if_neg hframe)
    rw [hrulings]
    exact .colored (fun styles => w.rulings s styles)
      (fun styles => (ih styles).marked (adds_tell s w styles) _)
      (fun styles => (adds_tell s w styles).marked _) s styles e

end Written

/-! ### The result -/

/-- The colors of the spans that cover byte `n`. -/
def Rendered.colorsAt (out : Rendered) (n : Nat) : List Mark :=
  (out.spans.filter fun a => a.mark.isColors && a.covers n).map (·.mark)

/-- Among the styles in force, an important declaration wins over those inside it that are not. -/
theorem StyleStack.lookup_of_important {inner outer : StyleStack} {f : Frame} {p : ColorProperty}
    {d : Declared} (hinner : ∀ g ∈ inner, ∀ d, g.get p = some d → d.important = false)
    (hf : f.get p = some d) (hd : d.important = true) :
    StyleStack.lookup (inner ++ f :: outer) p = some d.color := by
  have hfind : (StyleStack.declarations (inner ++ f :: outer) p).find? (·.important) = some d := by
    rw [StyleStack.declarations, List.filterMap_append, List.find?_append, List.find?_eq_none.2,
      List.filterMap_cons, hf, Option.none_or, List.find?_cons_of_pos hd]
    intro d' hd'
    obtain ⟨g, hg, hget⟩ := List.mem_filterMap.1 hd'
    rw [hinner g hg d' hget]
    exact Bool.false_ne_true
  unfold StyleStack.lookup
  dsimp only
  rw [hfind]
  rfl

open Renderer

/-- The characters of a result have the colors that rule in the elements where they were written. -/
structure Rendered.ColoredBy (out : Rendered) (s : Scene) (w : Written) : Prop where
  /-- What was written is what is shown. -/
  text : visible out.text = visible w.plain
  /-- A visible character is covered by the colors that rule where it was written, and by no other
  colors. -/
  colors : ∀ (l : Text) c r, out.text = l ++ c :: r → isBlank c = false →
    ∃ path, w.visibleOrigins[l.visible.length]? = some (c, path) ∧
      out.colorsAt l.size = colorMarks (ruling s [] path)

/-- Every visible character of a render has the colors of the innermost element around it that sets
some, where important declarations of outer elements win. -/
theorem colors_renderWith (s : Scene) (hs : s.tree.TableFree) (id : NodeId) (cache : CellCache) :
    (renderWith s id cache).rendered.ColoredBy s (Written.node s Tree.maxDepth 0 id {}).1 ∧
      ∀ inner f outer p d, (∀ g ∈ inner, ∀ d, Frame.get g p = some d → d.important = false) →
        Frame.get f p = some d → d.important = true →
          StyleStack.lookup (inner ++ f :: outer) p = some d.color := by
  set out := (renderWith s id cache).rendered
  set w := (Written.node s Tree.maxDepth 0 id {}).1
  refine ⟨?_, fun inner f outer p d => StyleStack.lookup_of_important⟩
  have h := tells_node hs Tree.maxDepth id _ (plain_start s cache.clear)
  have htext : visible out.text = visible w.plain := visible_of_reads h.reads
  refine ⟨htext, fun l c r hsplit hc => ?_⟩
  have hseen : out.text.seen l.size = l.visible.length := by rw [hsplit, seen_size]
  have hat : At out.text l.size c := ⟨l, r, hsplit, rfl⟩
  have hchar : w.plain.visible[l.visible.length]? = some c := by
    have hcons : visible (c :: r) = c :: visible r := List.filter_cons_of_pos (by simp [hc])
    rw [← htext, hsplit, visible_append, hcons, List.getElem?_append_right (Nat.le_refl _),
      Nat.sub_self]
    rfl
  rw [← w.map_visibleOrigins, List.getElem?_map] at hchar
  obtain ⟨⟨c', path⟩, horigin, rfl⟩ := Option.map_eq_some_iff.1 hchar
  refine ⟨path, horigin, ?_⟩
  have hcolored := Written.addsColors_tell s w [] {} [] ⟨rfl, fun k => rfl⟩
  have hcolors : Tale.colorsOf out.text out.spans l.visible.length = _ :=
    (congrFun (told_renderWith hs id cache).2 _).symm.trans (hcolored.colors _)
  rw [← hseen, Buffer.colorsOf_seen hat hc, hseen] at hcolors
  rw [Rendered.colorsAt, hcolors, List.nil_append, List.getElem?_map, Written.rulings,
    List.getElem?_map, horigin]
  rfl

/-- A red letter inside blue text, with a checker that finds all colors readable. -/
def redInBlue : Scene :=
  let color (name : String) : List (Text × Text) := [("color".toList, name.toList)]
  let (outer, t) := ({} : Tree).addElement Tree.root "font".toList (color "blue")
  let (inner, t) := (t.add outer (.text ['a'])).2.addElement outer "font".toList (color "red")
  { tree := (t.add inner (.text ['b'])).2, options := { contrast := Prod.mk } }

theorem colors_renderWith_redInBlue :
    redInBlue.tree.TableFree ∧
      let out := (renderWith redInBlue Tree.root {}).rendered
      visible out.text = ['a', 'b'] ∧ ∀ (l r : Text), out.text = l ++ 'b' :: r →
        out.colorsAt l.size = [.colors (some ⟨255, 0, 0, 255⟩) none] := by
  have hs : redInBlue.tree.TableFree := by decide
  have h := (colors_renderWith redInBlue hs Tree.root {}).1
  refine ⟨hs, h.text.trans (by decide), fun l r hsplit => ?_⟩
  obtain ⟨path, horigin, hcolors⟩ := h.colors l 'b' r hsplit (by decide)
  have hall : (Written.node redInBlue Tree.maxDepth 0 Tree.root {}).1.visibleOrigins.map
      (fun x => (x.1, ruling redInBlue [] x.2)) =
        [('a', some ⟨some ⟨0, 0, 255, 255⟩, none⟩), ('b', some ⟨some ⟨255, 0, 0, 255⟩, none⟩)] := by
    decide
  have hmem : ('b', ruling redInBlue [] path) ∈ _ :=
    hall ▸ List.mem_map.2 ⟨_, List.mem_of_getElem? horigin, rfl⟩
  have hruling : ruling redInBlue [] path = some ⟨some ⟨255, 0, 0, 255⟩, none⟩ := by
    simpa using hmem
  rw [hcolors, hruling]
  rfl

end MarkupText
