import MarkupText.Proofs.Flow.Gaps
import MarkupText.Proofs.Flow.LabelSpaces
import MarkupText.Proofs.Render.Blocks

/-!
# Words stay apart in a tree

A `Spot` tells of a text in a writing how many columns its line may fall short of the indentation:
none, except where the indentation was raised right behind the label of an item. The words of every
ASCII text stand apart as soon as they go beyond these columns, whatever else is written
(`spaced_of_mem_pieces`). Each rule has one lemma, as for the blocks.
-/

namespace MarkupText

open Text

/-- Where a text is written. -/
structure Spot where
  /-- The text before it. -/
  before : Text := []
  /-- The visible character written last is one of an item's label. -/
  bare : Bool := false
  /-- The columns that the indentation was raised right behind a label. -/
  raised : Nat := 0
  /-- The columns that the line may fall short of the indentation. -/
  short : Nat := 0
  verbatim : Bool := false
deriving DecidableEq

namespace Spot

/-- The spot behind something written. ASCII fills the line up; other text may be drawn together with
what stands in front of it, and then only the columns of the label are sure. -/
def past (t : Text) (bare : Bool) (x : Spot) : Spot :=
  { x with
    before := x.before ++ t
    bare
    short := if ∀ c ∈ t, Ascii c then x.short - t.visible.length else x.raised }

/-- The spot where a block starts that has `extra` more columns of indentation: on a line of its own,
unless it stands right behind a label. -/
def opened (extra : Nat) (x : Spot) : Spot :=
  { x with
    raised := if x.bare then x.raised + extra else 0
    short := if x.bare then x.short + extra else 0 }

/-- The spot behind the label of an item. -/
def labelled (label : Text) (x : Spot) : Spot :=
  { x with before := x.before ++ label, bare := true }

/-- The spot where the content of an element starts. -/
def into (e : Element) (x : Spot) : Spot :=
  match e.tag.role with
  | .paragraph | .block | .ruler | .heading | .list _ | .item => x.opened 0
  | .quote | .definition => x.opened Renderer.blockIndent
  | .preformatted => { x.opened 0 with verbatim := true }
  | _ => x

/-- If `t` is ASCII, a gap stands in `out` between any two words of it that follow one another, as
soon as they go beyond the columns that the line falls short. -/
def Spaced (x : Spot) (t out : Text) : Prop :=
  x.verbatim = false → (∀ c ∈ t, Ascii c) → ∀ us w vs, t.words = us ++ w :: vs →
    x.short < us.flatten.length → out.Parted (x.before.visible ++ us.flatten)

theorem Spaced.mono {x : Spot} {t u v : Text} (h : x.Spaced t u)
    (huv : ∀ w, u.Parted w → v.Parted w) : x.Spaced t v := fun hx ht us w vs heq hshort =>
  huv _ (h hx ht us w vs heq hshort)

end Spot

/-- The texts, in order, and where they are written. -/
def Written.pieces (x : Spot) : Written → List (Spot × Text)
  | nil => []
  | text t => [(x, t)]
  | append v w => v.pieces x ++ w.pieces (x.past v.plain (v.bareAfter x.bare))
  | inside _ e w =>
    match e.tag.role, w with
    | .item, append l w => (x.into e, l.plain) :: w.pieces ((x.into e).labelled l.plain)
    | _, w => w.pieces (x.into e)

/-- The line gets to `n` columns, its gaps stay open, and the label in front of it has its space. -/
structure Buffer.Tends (k m n : Nat) (b c : Buffer) : Prop where
  text : Text.Tends k m n b.text c.text
  label : b.SpacedLabel → c.SpacedLabel

namespace Buffer.Tends
variable {k l m n : Nat} {b c d : Buffer}

/-- Where text and label stay as they are, so does all the rest. -/
theorem of_eq (htext : c.text = b.text) (hlabel : c.labelEnd = b.labelEnd) (k n : Nat) :
    Tends k n n b c :=
  ⟨htext ▸ .refl k n b.text, fun hb => hb.of_eq htext hlabel⟩

theorem alike (h : Alike b c) (k n : Nat) : Tends k n n b c := .of_eq h.text h.labelEnd k n

theorem trans (h₁ : Tends k l m b c) (h₂ : Tends k m n c d) : Tends k l n b d :=
  ⟨h₁.text.trans h₂.text, h₂.label ∘ h₁.label⟩

theorem mono (h : Tends k m n b c) (hl : l ≤ n) : Tends k m l b c := ⟨h.text.mono hl, h.label⟩

theorem ensureNewline (k n : Nat) (b : Buffer) : Tends k n n b b.ensureNewline :=
  ⟨tends_ensureNewline k n b, SpacedLabel.ensureNewline⟩

theorem ensureParagraph (k n : Nat) (b : Buffer) : Tends k n n b b.ensureParagraph :=
  ⟨tends_ensureParagraph k n b, SpacedLabel.ensureParagraph⟩

theorem newline (k m n : Nat) (b : Buffer) : Tends k m n b b.newline :=
  ⟨tends_newline k m n b, SpacedLabel.newline⟩

end Buffer.Tends

namespace Text
variable {t : Text}

theorem length_words_le_one (h : ∀ c ∈ t, isBlank c = false) : t.words.length ≤ 1 := by
  rcases List.eq_nil_or_concat' t with rfl | ⟨u, c, rfl⟩
  · exact Nat.zero_le 1
  · rw [words_of_solid (by simp) h]
    exact Nat.le_refl 1

/-- One word has no gaps to keep. -/
theorem spaced_of_length_words (h : t.words.length ≤ 1) (x : Spot) (out : Text) :
    x.Spaced t out := by
  intro hx _ us w vs heq hshort
  rw [heq, List.length_append, List.length_cons] at h
  obtain rfl : us = [] := List.eq_nil_of_length_eq_zero (by omega)
  cases hshort

end Text

namespace Renderer

/-- A label is a word of printable ASCII and a space. -/
theorem labelText_eq (l : ListLabel) : ∃ u, labelText l = u ++ [' '] ∧ u ≠ [] ∧
    ∀ c ∈ u, Printable c ∧ isBlank c = false := by
  have hstar : ∃ u, "* ".toList = u ++ [' '] ∧ u ≠ [] ∧
      ∀ c ∈ u, Printable c ∧ isBlank c = false :=
    ⟨['*'], rfl, by simp, fun c hc => by rw [List.mem_singleton.1 hc]; decide⟩
  cases l with
  | none => exact hstar
  | bullet => exact hstar
  | number n =>
    refine ⟨natText n, rfl, Nat.toDigits_ne_nil, fun c hc => ?_⟩
    have hdigit := Nat.isDigit_of_mem_toDigits (by decide) (by decide) hc
    rw [Char.isDigit, Bool.and_eq_true, decide_eq_true_eq, decide_eq_true_eq] at hdigit
    have hge : 48 ≤ c.toNat := hdigit.1
    have hle : c.toNat ≤ 57 := hdigit.2
    refine ⟨⟨by omega, by omega⟩, ?_⟩
    simp only [isBlank, Bool.or_eq_false_iff, Bool.and_eq_false_iff, decide_eq_false_iff_not,
      beq_eq_false_iff_ne]
    omega

theorem length_words_labelText (l : ListLabel) : (labelText l).words.length ≤ 1 := by
  obtain ⟨u, hu, -, hsolid⟩ := labelText_eq l
  rw [hu, words_append (.inr fun c hc => by cases hc; exact isBlank_space),
    show words [' '] = [] from rfl, List.append_nil]
  exact length_words_le_one fun c hc => (hsolid c hc).2

theorem newline_notMem_labelText (l : ListLabel) : '\n' ∉ labelText l := by
  obtain ⟨u, hu, -, hsolid⟩ := labelText_eq l
  rw [hu]
  intro hmem
  rcases List.mem_append.1 hmem with hmem | hmem
  · cases (hsolid _ hmem).2
  · cases List.mem_singleton.1 hmem

theorem ascii_of_mem_labelText {l : ListLabel} {c : Char} (hc : c ∈ labelText l) : Ascii c := by
  obtain ⟨u, hu, -, hsolid⟩ := labelText_eq l
  rcases List.mem_append.1 (hu ▸ hc) with hc | hc
  · exact ascii_of_printable (hsolid c hc).1
  · rw [List.mem_singleton.1 hc]
    decide

theorem width_labelText (l : ListLabel) : (labelText l).width = (labelText l).length :=
  width_of_ascii (fun _ => ascii_of_mem_labelText) (newline_notMem_labelText l)

/-- The renderer stands at a spot. -/
structure At (r : Renderer) (x : Spot) : Prop where
  label : r.buffer.Labelled x.bare
  spaced : r.buffer.SpacedLabel
  visible : r.buffer.text.visible = x.before.visible
  fold : x.verbatim = false → r.layout.fold = .wrap
  even : r.buffer.text.Even (r.layout.indentation - x.raised) (r.layout.indentation - x.short)

/-- A block starts at the start of a line, unless it stands right behind a label. -/
theorem At.opened {r : Renderer} {x : Spot} {f : Buffer → Buffer} (hx : At r x) (extra : Nat)
    (hflow : r.buffer.Flow [] (f r.buffer))
    (htends : ∀ k n, r.buffer.Tends k n n (f r.buffer)) (hfresh : (f r.buffer).Fresh) :
    At ((r.onBuffer f).onLayout ({ · with indentation := r.layout.indentation + extra }))
      (x.opened extra) := by
  have hlabel : (f r.buffer).Labelled x.bare := hx.label.blank hflow
  have hspaced : (f r.buffer).SpacedLabel := (htends 0 0).label hx.spaced
  have heven := ((htends _ _).text hx.even).1
  refine ⟨hlabel, hspaced, hflow.visible_eq.trans hx.visible, hx.fold, ?_⟩
  change (f r.buffer).text.Even (r.layout.indentation + extra - (x.opened extra).raised)
    (r.layout.indentation + extra - (x.opened extra).short)
  unfold Spot.opened
  cases hbare : x.bare with
  | true =>
    exact heven.mono (by dsimp only; rw [if_pos rfl]; omega) (by dsimp only; rw [if_pos rfl]; omega)
  | false => exact .inl ((hbare ▸ hlabel).currentLine hfresh)

/-- The renderer `r'` has written, after `r`, what was read. The line gets longer by it or ends, gaps
stay open, and the pieces have theirs. -/
structure Parts (r r' : Renderer) (step : Bool → Bool) (pieces : Spot → List (Spot × Text))
    (out : Text × Reader) : Prop where
  closes : Closes r r' step (fun _ => []) out
  tends : ∀ k ≤ r.layout.indentation, ∀ n ≤ r.layout.indentation,
    r.buffer.Tends k n (reached k r.layout.indentation n out.1) r'.buffer
  parts : ∀ {x}, At r x → ∀ p ∈ pieces x, p.1.Spaced p.2 r'.buffer.text

namespace Parts
variable {step step₁ step₂ : Bool → Bool} {pieces pieces₁ pieces₂ : Spot → List (Spot × Text)}
  {r r₁ r₂ r' r'' : Renderer} {out out₁ : Text × Reader} {t u : Text} {a b : Reader} {x : Spot}

/-- Nothing visible is written. -/
theorem silent (hcloses : Closes r r' step (fun _ => []) ([], a))
    (htends : ∀ k n, r.buffer.Tends k n n r'.buffer) :
    Parts r r' step (fun _ => []) ([], a) := by
  exact ⟨hcloses, fun k _ n _ => (htends k n).mono (reached_nil_le ..), fun _ _ hp => by cases hp⟩

theorem refl (r : Renderer) : Parts r r id (fun _ => []) ([], r.reader) :=
  .silent (.refl r) (.of_eq rfl rfl)

/-- The spot behind what is written. -/
theorem spot (h : Parts r r' step pieces (t, a)) (hx : At r x) :
    At r' (x.past t (step x.bare)) := by
  have htends := h.tends _ (Nat.sub_le _ x.raised) _ (Nat.sub_le _ x.short)
  have heven := (htends.text hx.even).1
  refine ⟨h.closes.label hx.label, htends.label hx.spaced, ?_, fun hv => ?_, ?_⟩
  · rw [h.closes.reads.run.visible, hx.visible, Spot.past, visible_append]
  · exact (congrArg (·.fold) h.closes.reads.layout).trans (hx.fold hv)
  · rw [h.closes.reads.indentation]
    refine heven.mono (Nat.le_refl _) ?_
    dsimp only [Spot.past]
    unfold reached
    split
    · omega
    · exact Nat.le_refl _

theorem trans (h₁ : Parts r r' step₁ pieces₁ (t, a)) (h₂ : Parts r' r'' step₂ pieces₂ (u, b)) :
    Parts r r'' (step₂ ∘ step₁) (fun x => pieces₁ x ++ pieces₂ (x.past t (step₁ x.bare)))
      (t ++ u, b) where
  closes := h₁.closes.trans h₂.closes
  tends k hk n hn := by
    have hfirst := h₁.tends k hk n hn
    have hindent := h₁.closes.reads.indentation
    have hrest := h₂.tends k (hindent.symm ▸ hk) (reached k r.layout.indentation n t)
      (hindent.symm ▸ reached_le hk n t)
    rw [hindent] at hrest
    exact (hfirst.trans hrest).mono (reached_append hk n t u)
  parts {x} hx p hp := by
    have hx' := h₁.spot hx
    rcases List.mem_append.1 hp with hp | hp
    · have hgaps := (h₂.tends _ (Nat.sub_le ..) _ (Nat.sub_le ..)).text hx'.even
      exact (h₁.parts hx p hp).mono hgaps.2
    · exact h₂.parts hx' p hp

/-- Edits around what is written leave the line as it is, or end it. -/
theorem around {f : Spot → Spot} (h : Parts r₁ r₂ step₁ pieces out₁)
    (hcloses : Closes r r' step (fun _ => []) out) (hout : out₁.1 = out.1)
    (hle : r.layout.indentation ≤ r₁.layout.indentation)
    (hbefore : ∀ k n, r.buffer.Tends k n n r₁.buffer)
    (hafter : ∀ k n, r₂.buffer.Tends k n n r'.buffer) (hat : ∀ {x}, At r x → At r₁ (f x)) :
    Parts r r' step (fun x => pieces (f x)) out where
  closes := hcloses
  tends k hk n hn := by
    have hbody := h.tends k (hk.trans hle) n (hn.trans hle)
    rw [hout] at hbody
    exact (((hbefore k n).trans hbody).trans (hafter k _)).mono (reached_mono hle k n out.1)
  parts hx p hp := by
    have heven := ((h.tends _ (Nat.sub_le ..) _ (Nat.sub_le ..)).text (hat hx).even).1
    exact (h.parts (hat hx) p hp).mono ((hafter _ _).text heven).2

end Parts

section Rules
variable {step : Bool → Bool} {pieces : Spot → List (Spot × Text)} {r : Renderer} {s : Scene}
  {body : Renderer → Renderer} {out : Text × Reader}

theorem parts_insertText (hrules : s.options.rules.SpareAscii) (t : Text) (r : Renderer) :
    Parts r (r.insertText s t) (· && t.blank) (fun x => [(x, t)]) (t, r.reader) where
  closes := closes_insertText s t r
  tends k hk n _ :=
    ⟨(Page.tends_insert (p := r.page) hk n s.options.rules t).mono (reached_mono (Nat.le_succ _) k n t),
      fun h => Page.spacedLabel_insert s.options.rules h t⟩
  parts {x} hx p hp := by
    obtain rfl := List.mem_singleton.1 hp
    intro hverbatim hascii us w vs heq hshort
    rw [← hx.visible]
    exact Page.parted_insert (Nat.sub_le ..) hrules hascii (hx.fold hverbatim) hx.even
      (Nat.sub_le ..) heq (by change r.layout.indentation < _; dsimp only at hshort; omega)

theorem parts_inParagraph (h : Parts (r.onBuffer (·.ensureParagraph))
    (body (r.onBuffer (·.ensureParagraph))) step pieces out) :
    Parts r (inParagraph body r) step (fun x => pieces (x.opened 0)) out :=
  h.around (closes_inParagraph h.closes) rfl (Nat.le_refl _) (.ensureParagraph · · _)
    (.ensureParagraph · · _) fun hx => hx.opened 0 r.buffer.flow_ensureParagraph
      (.ensureParagraph · · _) (Buffer.fresh_ensureParagraph _)

theorem parts_inBlock (h : Parts (r.onBuffer (·.ensureNewline))
    (body (r.onBuffer (·.ensureNewline))) step pieces out) :
    Parts r (inBlock body r) step (fun x => pieces (x.opened 0)) out :=
  h.around (closes_inBlock h.closes) rfl (Nat.le_refl _) (.ensureNewline · · _)
    (.ensureNewline · · _) fun hx => hx.opened 0 r.buffer.flow_ensureNewline
      (.ensureNewline · · _) (Buffer.fresh_ensureNewline _)

theorem parts_quote {extra : Nat}
    (h : Parts ((r.onBuffer (·.ensureParagraph)).onLayout
        ({ · with indentation := r.layout.indentation + extra }))
      (body ((r.onBuffer (·.ensureParagraph)).onLayout
        ({ · with indentation := r.layout.indentation + extra }))) step pieces out) :
    Parts r (inParagraph (indented extra body) r) step (fun x => pieces (x.opened extra)) out :=
  h.around (closes_inParagraph (closes_indented h.closes)) rfl (Nat.le_add_right ..)
    (.ensureParagraph · · _) (.ensureParagraph · · _) fun hx =>
      hx.opened extra r.buffer.flow_ensureParagraph (.ensureParagraph · · _)
        (Buffer.fresh_ensureParagraph _)

theorem parts_definition {extra : Nat}
    (h : Parts ((r.onBuffer (·.ensureNewline)).onLayout
        ({ · with indentation := r.layout.indentation + extra }))
      (body ((r.onBuffer (·.ensureNewline)).onLayout
        ({ · with indentation := r.layout.indentation + extra }))) step pieces out) :
    Parts r (inBlock (indented extra body) r) step (fun x => pieces (x.opened extra)) out :=
  h.around (closes_inBlock (closes_indented h.closes)) rfl (Nat.le_add_right ..)
    (.ensureNewline · · _) (.ensureNewline · · _) fun hx =>
      hx.opened extra r.buffer.flow_ensureNewline (.ensureNewline · · _)
        (Buffer.fresh_ensureNewline _)

theorem parts_lineBreak (r : Renderer) :
    Parts r (lineBreak r) id (fun _ => []) ([], r.reader) :=
  .silent (closes_lineBreak r) fun k n => .newline k n n r.buffer

theorem parts_region {mark : Mark}
    (h : Parts (r.onBuffer (·.openRegion)) (body (r.onBuffer (·.openRegion))) step pieces out) :
    Parts r (region mark body r) step pieces out := by
  refine h.around (f := id) (closes_region h.closes) rfl (Nat.le_refl _) (.alike (.openRegion _)) ?_
    fun hx => ⟨hx.label.of_eq rfl rfl, hx.spaced.of_eq rfl rfl, hx.visible, hx.fold, hx.even⟩
  rw [region_eq]
  exact .alike (.endRegion _ mark)

theorem parts_preformatted
    (h : ∀ r', r'.layout.indentation = r.layout.indentation → r'.layout.width = r.layout.width →
      r'.layout.inhibitImages = r.layout.inhibitImages → r'.reader = r.reader →
      Parts r' (body r') step pieces out) :
    Parts r (preformatted body r) step (fun x => pieces { x.opened 0 with verbatim := true })
      out := by
  have hbody := h (((r.onBuffer (·.ensureParagraph)).onLayout
    ({ · with fold := .verbatim })).onBuffer (·.openRegion)) rfl rfl rfl rfl
  have hcloses : Closes r (preformatted body r) step (fun _ => []) out :=
    closes_preformatted fun r' h₁ h₂ h₃ h₄ => (h r' h₁ h₂ h₃ h₄).closes
  have hbefore (k n : Nat) : r.buffer.Tends k n n r.buffer.ensureParagraph.openRegion :=
    (Buffer.Tends.ensureParagraph k n r.buffer).trans (.alike (.openRegion _) k n)
  refine hbody.around (f := fun x => { x.opened 0 with verbatim := true }) hcloses rfl
    (Nat.le_refl _) hbefore (fun k n => ?_) fun hx => ?_
  · change Buffer.Tends k n n _ (region (.face .monospace) body _).buffer.ensureParagraph
    rw [region_eq]
    exact (Buffer.Tends.alike (.endRegion _ (.face .monospace)) k n).trans
      (.ensureParagraph k n _)
  · have hopened := hx.opened 0 r.buffer.flow_ensureParagraph (.ensureParagraph · · _)
      (Buffer.fresh_ensureParagraph _)
    exact ⟨hopened.label.of_eq rfl rfl, hopened.spaced.of_eq rfl rfl, hopened.visible,
      fun hv => (Bool.noConfusion hv), hopened.even⟩

theorem parts_ruler (r : Renderer) :
    let dashes : Text := List.replicate (max 1 (r.layout.width - r.layout.indentation)) '-'
    Parts r (ruler r) (· && dashes.blank) (fun x => [(x.opened 0, dashes)]) (dashes, r.reader) := by
  intro dashes
  refine ⟨closes_ruler r, fun k hk n _ => ?_, fun {x} _ p hp => ?_⟩
  · have hline : '\n' ∉ dashes := fun hmem => by cases List.eq_of_mem_replicate hmem
    have hpush : r.buffer.ensureNewline.Tends k n k
        ((r.buffer.ensureNewline.push (spaces r.layout.indentation)).push dashes) :=
      ⟨.indented hk (.inr (Nat.le_refl _)) hline (.inl (Nat.le_refl k)),
        fun h => (h.push _).push _⟩
    rw [ruler_eq, Nat.max_comm]
    exact (((Buffer.Tends.ensureNewline k n r.buffer).trans hpush).trans
      (.alike (.annotate ..) k k)).trans (.newline k k _ _)
  · rw [List.mem_singleton.1 hp]
    exact spaced_of_length_words (length_words_le_one fun c hc => by
      rw [List.eq_of_mem_replicate hc]; rfl) _ _

theorem parts_image (hrules : s.options.rules.SpareAscii) (e : Element)
    (hr : r.layout.inhibitImages = false) :
    Parts r (image s e r) (· && (imageText s e).blank) (fun x => [(x, imageText s e)])
      (imageText s e, r.reader) := by
  -- an image is written as its text is
  obtain ⟨p, hbefore, hlayout, hafter⟩ : ∃ p : Page, r.buffer.Alike p.buffer ∧
      p.layout = r.layout ∧
      (p.insert s.options.rules (imageText s e)).buffer.Alike (image s e r).buffer := by
    have himage := image_eq s e r
    cases hsource : fetchableSource? s e with
    | none =>
      rw [hsource] at himage
      have htext : imageText s e = altText e := by simp [imageText, hsource]
      refine ⟨r.page, ⟨rfl, rfl⟩, rfl, ?_⟩
      rw [himage, htext]
      exact ⟨rfl, rfl⟩
    | some source =>
      have htext : imageText s e = placeholder (altText e) := by simp [imageText, hsource]
      simp only [hsource, hr, Bool.false_eq_true, if_false] at himage
      refine ⟨r.page.onBuffer (·.openRegion), .openRegion _, rfl, ?_⟩
      rw [himage, htext]
      unfold requestImage
      split
      · exact ⟨Buffer.text_closeRegion _, Buffer.labelEnd_closeRegion _⟩
      · exact ⟨(Buffer.text_annotate ..).trans (Buffer.text_closeRegion _),
          (Buffer.labelEnd_annotate ..).trans (Buffer.labelEnd_closeRegion _)⟩
  have hinsert := parts_insertText hrules (imageText s e) { r with page := p }
  refine hinsert.around (f := id) (closes_image s e hr) rfl
    (Nat.le_of_eq (congrArg (·.indentation) hlayout.symm)) (.alike hbefore) (.alike hafter)
    fun hx => ?_
  refine ⟨hx.label.alike hbefore, hx.spaced.of_eq hbefore.text hbefore.labelEnd,
    (congrArg visible hbefore.text).trans hx.visible,
    fun hv => (congrArg (·.fold) hlayout).trans (hx.fold hv), ?_⟩
  change Even (p.layout.indentation - _) (p.layout.indentation - _) p.buffer.text
  rw [hlayout, hbefore.text]
  exact hx.even

theorem tends_separateList (nested : Bool) (k n : Nat) (b : Buffer) :
    b.Tends k n n (separateList nested b) := by
  unfold separateList
  split
  · exact .ensureNewline k n b
  · exact .ensureParagraph k n b

theorem parts_list {numbered : Bool} {e : Element} {t : Text} {a : Reader}
    (h : Parts ((r.onBuffer (separateList (r.layout.list != .none))).onLayout
        ({ · with list := firstLabel numbered e }))
      (body ((r.onBuffer (separateList (r.layout.list != .none))).onLayout
        ({ · with list := firstLabel numbered e }))) step pieces (t, a)) :
    Parts r (list numbered e body r) step (fun x => pieces (x.opened 0))
      (t, { a with label := r.layout.list }) := by
  refine h.around (closes_list h.closes) rfl (Nat.le_refl _) (tends_separateList _ · · _)
    (tends_separateList _ · · _) fun hx => ?_
  have hopened := hx.opened 0 (flow_separateList (r.layout.list != .none) _)
    (tends_separateList _ · · _) (fresh_separateList _ _)
  exact ⟨hopened.label, hopened.spaced, hopened.visible, hopened.fold, hopened.even⟩

/-- A label is written on a line of its own, behind the indentation, or behind another label. -/
theorem text_labelled (r : Renderer) : ∃ j, (labelled r).buffer.text =
    r.buffer.ensureNewline.text ++ spaces j ++ labelText r.layout.list ∧
      (r.buffer.ensureNewline.currentLine ≠ [] ∨ r.layout.indentation ≤ j) := by
  obtain ⟨j, htext, hline⟩ := (r.onBuffer (·.ensureNewline)).page.text_indent
  exact ⟨j, congrArg (· ++ labelText r.layout.list) htext, hline⟩

theorem spacedLabel_labelled (r : Renderer) : (labelled r).buffer.SpacedLabel := by
  obtain ⟨u, hu, hne, hsolid⟩ := labelText_eq r.layout.list
  have h := Buffer.SpacedLabel.pushLabel ((r.onBuffer (·.ensureNewline)).page.indent).buffer
    (fun d hd => (hsolid d (List.mem_of_getLast? hd)).2) hne
  rw [← hu] at h
  exact h

/-- The label makes the line longer, or it stands on a new one behind the indentation. -/
theorem tends_labelled (r : Renderer) (k : Nat) (hk : k ≤ r.layout.indentation) (n : Nat)
    (hn : n ≤ r.layout.indentation) :
    r.buffer.Tends k n (n + (labelText r.layout.list).length) (labelled r).buffer := by
  obtain ⟨j, htext, hline⟩ := text_labelled r
  refine (Buffer.Tends.ensureNewline k n r.buffer).trans ⟨?_, fun _ => spacedLabel_labelled r⟩
  rw [htext]
  exact .indented hk hline (newline_notMem_labelText _)
    (.inr ⟨fun _ => ascii_of_mem_labelText, by omega⟩)

/-- All columns of a label stay. -/
theorem even_labelled {k n : Nat} (hspaced : r.buffer.ensureNewline.SpacedLabel)
    (heven : r.buffer.ensureNewline.text.Even k n) (hk : k ≤ r.layout.indentation)
    (hn : n ≤ r.layout.indentation) :
    (labelled r).buffer.text.Even (k + (labelText r.layout.list).length)
      (n + (labelText r.layout.list).length) := by
  obtain ⟨j, htext, hline⟩ := text_labelled r
  obtain ⟨u, hu, hne, hsolid⟩ := labelText_eq r.layout.list
  have hreaches := heven.indented hk hline
  rw [Nat.min_eq_left hn] at hreaches
  -- in front of the label stands the indentation, or the space of another label
  have hfront : ∀ d ∈ (lastRow r.buffer.ensureNewline.text ++ spaces j).getLast?, d = ' ' := by
    intro d hd
    cases j with
    | succ j =>
      rw [spaces_succ, ← List.append_assoc, List.getLast?_concat] at hd
      exact (Option.some.inj hd).symm
    | zero =>
      rw [show spaces 0 = [] from rfl, List.append_nil] at hd
      rcases r.buffer.fresh_ensureNewline with hnil | hend
      · rw [show lastRow r.buffer.ensureNewline.text = [] from hnil] at hd
        cases hd
      · have hlast := hspaced.getLast? hend
        obtain ⟨t, ht⟩ := List.getLast?_eq_some_iff.1 hlast
        rw [ht, lastRow_append (by decide), List.getLast?_concat] at hd
        exact (Option.some.inj hd).symm
  have hlabel := hreaches.label hfront hne fun c hc => (hsolid c hc).1
  right
  rw [htext, lastRow_append (newline_notMem_labelText _), lastRow_append (newline_notMem_spaces j),
    hu, List.length_append, List.length_singleton]
  exact hlabel

theorem parts_item {t : Text} {a : Reader}
    (h : ∀ r', r'.layout.indentation = r.layout.indentation + (labelText r.layout.list).width →
      r'.layout.width = r.layout.width → r'.layout.inhibitImages = r.layout.inhibitImages →
      r'.reader = r.reader → Parts r' (body r') step pieces (t, a)) :
    Parts r (item body r) (fun _ => step true)
      (fun x => (x.opened 0, labelText r.layout.list) ::
        pieces ((x.opened 0).labelled (labelText r.layout.list)))
      (labelText r.layout.list ++ t, { a with label := nextLabel a.label }) := by
  have hreads := reads_labelled (R := RangeRule.tight) r
  generalize hq : (labelled r).onLayout ({ · with
    indentation := (labelled r).layout.indentation + (labelText r.layout.list).width }) = q
  have hindent : q.layout.indentation =
      r.layout.indentation + (labelText r.layout.list).length := by
    rw [← width_labelText, ← hreads.indentation, ← hq]
    rfl
  have hbody : Parts q (body q) step pieces (t, a) := by
    subst hq
    exact h _ (congrArg (· + _) hreads.indentation) hreads.width hreads.inhibitImages
      hreads.reader_eq
  have hbuffer : q.buffer = (labelled r).buffer := hq ▸ rfl
  have hitem : (item body r).buffer = (body q).buffer.ensureNewline := hq ▸ rfl
  have hat {x : Spot} (hx : At r x) : At q ((x.opened 0).labelled (labelText r.layout.list)) := by
    have hopened := hx.opened 0 r.buffer.flow_ensureNewline
      (.ensureNewline · · _) (Buffer.fresh_ensureNewline _)
    have heven : r.buffer.ensureNewline.text.Even (r.layout.indentation - (x.opened 0).raised)
        (r.layout.indentation - (x.opened 0).short) := hopened.even
    have hlabel := even_labelled hopened.spaced heven (Nat.sub_le ..) (Nat.sub_le ..)
    refine ⟨hq ▸ .pushLabel _ _, hbuffer ▸ spacedLabel_labelled r, ?_, fun hv => ?_, ?_⟩
    · rw [hbuffer, hreads.run.visible, hx.visible]
      exact (visible_append ..).symm
    · rw [← hq]
      exact (congrArg (·.fold) hreads.layout).trans (hx.fold hv)
    · rw [hbuffer, hindent]
      dsimp only [Spot.labelled]
      exact hlabel.mono (by omega) (by omega)
  refine ⟨closes_item fun r' h₁ h₂ h₃ h₄ => (h r' h₁ h₂ h₃ h₄).closes, fun k hk n hn => ?_,
    fun {x} hx p hp => ?_⟩
  · have hlabel := tends_labelled r k hk n hn
    rw [← hbuffer] at hlabel
    have hcontent := hbody.tends k (by omega) (n + (labelText r.layout.list).length) (by omega)
    have hvisible : (labelText r.layout.list).visible.length ≤ (labelText r.layout.list).length :=
      List.length_filter_le ..
    rw [hitem]
    refine ((hlabel.trans hcontent).trans (.ensureNewline k _ _)).mono ?_
    refine (reached_append hk n _ t).trans ?_
    rw [reached_of_ascii fun _ => ascii_of_mem_labelText]
    unfold reached
    split
    · dsimp only
      omega
    · exact Nat.le_refl k
  · rcases List.mem_cons.1 hp with rfl | hp
    · exact spaced_of_length_words (length_words_labelText _) _ _
    · have heven := ((hbody.tends _ (Nat.sub_le ..) _ (Nat.sub_le ..)).text (hat hx).even).1
      rw [hitem]
      exact (hbody.parts (hat hx) p hp).mono (Buffer.tends_ensureNewline _ _ _ heven).2

theorem parts_inColors {e : Element}
    (h : ∀ r', r'.layout = r.layout → r'.visited = r.visited →
      Parts r' (body r') step pieces out) :
    Parts r (inColors s e body r) step pieces out := by
  have hcloses : Closes r (inColors s e body r) step (fun _ => []) out :=
    closes_inColors fun r' h₁ h₂ => (h r' h₁ h₂).closes
  by_cases hframe : e.frame.1.isEmpty = true
  · rw [inColors_eq_of_isEmpty hframe] at hcloses ⊢
    have hbody := h (r.warn e.frame.2) rfl rfl
    exact hbody.around (f := id) hcloses rfl (Nat.le_refl _) (.of_eq rfl rfl)
      (.of_eq rfl rfl) fun hx => ⟨hx.label, hx.spaced, hx.visible, hx.fold, hx.even⟩
  · rw [inColors_eq hframe] at hcloses ⊢
    have hbody := h ({ r.warn e.frame.2 with styles := e.frame.1 :: r.styles }.onBuffer
      (·.openRegion)) rfl rfl
    exact hbody.around (f := id) hcloses rfl (Nat.le_refl _) (.of_eq rfl rfl)
      (.alike (.endColors _ _)) fun hx =>
        ⟨hx.label.of_eq rfl rfl, hx.spaced.of_eq rfl rfl, hx.visible, hx.fold, hx.even⟩

end Rules

/-! ### The descent -/

section Descent
variable {s : Scene} {visit : NodeId → Renderer → Renderer}
  {write : Nat → NodeId → Reader → Written × Reader}

/-- The renderer has written this after `r`, and the texts in it have their gaps. -/
abbrev PartsWritten (r r' : Renderer) (out : Written × Reader) : Prop :=
  Parts r r' (fun bare => out.1.bareAfter bare) (fun x => out.1.pieces x) (Written.reading out)

theorem account_parts : Account PartsWritten where
  reads h := h.closes.reads
  nil {r r'} hpage hvisited hstyles := by
    refine .silent (account_closes.nil hpage hvisited hstyles) (.of_eq ?_ ?_)
    · exact congrArg (·.buffer.text) hpage
    · exact congrArg (·.buffer.labelEnd) hpage
  append h₁ h₂ := h₁.trans h₂
  entered visited path path' h := h.around (f := fun x => x)
    ⟨⟨h.closes.reads.run, h.closes.reads.layout, h.closes.reads.visited⟩, h.closes.label,
      h.closes.ends⟩ rfl (Nat.le_refl _) (.of_eq rfl rfl) (.of_eq rfl rfl) fun hx =>
        ⟨hx.label, hx.spaced, hx.visible, hx.fold, hx.even⟩

theorem parts_rule (hrules : s.options.rules.SpareAscii)
    (h : Accounts PartsWritten s visit write) (id : NodeId) (e : Element) (he : e.tag ≠ .table)
    (r : Renderer) (hr : Plain s r) :
    let out := Written.element s write r.layout.indentation id e r.reader
    PartsWritten r (rule s visit id e r) (.inside id e out.1, out.2) := by
  have hbelow (r : Renderer) (hr : Plain s r) : PartsWritten r (children s visit id r) _ :=
    account_parts.inOrder h (s.tree.children id) r hr
  unfold rule Written.element PartsWritten Written.reading Written.bareAfter Written.pieces Spot.into
  cases hrole : e.tag.role with
  | inline => exact hbelow r hr
  | hidden => exact .refl r
  | head => exact account_parts.inOrder h _ r hr
  | paragraph => exact parts_inParagraph (hbelow _ hr)
  | block => exact parts_inBlock (hbelow _ hr)
  | lineBreak => exact parts_lineBreak r
  | ruler =>
    -- the width in force is that of the scene: only cells are narrower
    have := parts_ruler r
    rwa [hr.1] at this
  | heading => exact parts_inParagraph (parts_region (hbelow _ hr))
  | link =>
    dsimp only
    unfold link
    split
    · exact parts_region (hbelow _ hr)
    · exact hbelow r hr
  | image => exact parts_image hrules e hr.2
  | media label =>
    dsimp only
    unfold media
    cases e.filledAttr? "src" with
    | none => exact hbelow r hr
    | some source =>
      exact parts_region (parts_insertText hrules label.toList (r.onBuffer (·.openRegion)))
  | list numbered => exact parts_list (hbelow _ hr)
  | item => exact parts_item fun _ => account_parts.below h id hr _
  | quote => exact parts_quote (hbelow _ hr)
  | definition => exact parts_definition (hbelow _ hr)
  | preformatted => exact parts_preformatted fun _ => account_parts.below h id hr 0
  | table => exact absurd hrole (by revert he; cases e.tag <;> decide)
  | face f => exact parts_region (hbelow _ hr)

/-- Descending from a node writes it, and the texts in it have their gaps. -/
theorem parts_node (hs : s.tree.TableFree) (hrules : s.options.rules.SpareAscii) (levels : Nat) :
    Accounts PartsWritten s (node s levels) (Written.node s levels) := by
  refine account_parts.node hs (parts_insertText hrules) (fun h id e he r hr => ?_) levels
  refine parts_inColors fun r' hlayout hvisited => ?_
  have hreader : r'.reader = r.reader := by rw [reader, reader, hlayout, hvisited]
  have := parts_rule hrules h id e he r' (by rwa [Plain, hlayout])
  rwa [hlayout, hreader] at this

end Descent
end Renderer

/-- Gaps stay open when what is written is finished. -/
theorem Renderer.parted_finish {r : Renderer} {v : Text} (h : r.buffer.text.Parted v) :
    r.finish.text.Parted v := by
  obtain ⟨u, htext, hblank⟩ := dropEndWhile_append isBlank r.buffer.text
  have hcut : r.buffer.finish.1.Parted v :=
    Parted.of_append_blank (htext ▸ h) (visible_eq_nil_iff.2 hblank)
  rcases text_finish_cases r with hfinish | hfinish
  · rwa [hfinish]
  · rw [hfinish]
    exact hcut.append_right _

open Renderer

/-- The result shows what is written, and the words of every ASCII text in it stand apart, as soon as
they go beyond the columns that a label in front of a quote or a definition leaves short. -/
theorem spaced_of_mem_pieces (s : Scene) (hs : s.tree.TableFree)
    (hrules : s.options.rules.SpareAscii) (id : NodeId) (cache : CellCache) :
    let out := (renderWith s id cache).rendered.text
    out.visible = (Written.node s Tree.maxDepth 0 id {}).1.plain.visible ∧
      ∀ p ∈ (Written.node s Tree.maxDepth 0 id {}).1.pieces {}, p.1.Spaced p.2 out := by
  have h := parts_node hs hrules Tree.maxDepth id _ (plain_start s cache.clear)
  refine ⟨visible_of_reads h.closes.reads, fun p hp => ?_⟩
  have hstart : At (.start s cache.clear) {} := ⟨.empty, .empty, rfl, fun _ => rfl, .inl rfl⟩
  exact (h.parts hstart p hp).mono fun v hv => parted_finish hv

/-- A list with one item, and a quote right behind its label. -/
def quoteInItem (t : Text) : Tree :=
  (Loaded.ofItems [.element "ul".toList [] [.element "li".toList []
    [.element "blockquote".toList [] [.text t]]]]).tree

/-- The spot of the text in the quote. -/
def behindLabel : Spot where
  before := "* ".toList
  bare := true
  raised := 4
  short := 4

/-- Behind five characters in the quote the words stand apart. -/
theorem spaced_of_mem_pieces_quoteInItem :
    let t : Text := "a bcde f".toList
    t.words = [['a'], "bcde".toList] ++ ['f'] :: [] ∧
      (renderWith { tree := quoteInItem t } Tree.root {}).rendered.text.Parted "*abcde".toList := by
  intro t
  have hwords : t.words = [['a'], "bcde".toList] ++ ['f'] :: [] := by decide
  have hspaced : behindLabel.Spaced t
      (renderWith { tree := quoteInItem t } Tree.root {}).rendered.text :=
    (spaced_of_mem_pieces { tree := quoteInItem t } (by decide)
      (LineBreak.spareAscii_kinsokuWith [] []) Tree.root {}).2 (behindLabel, t) (by decide +kernel)
  exact ⟨hwords, hspaced rfl (by decide) _ _ _ hwords (by decide)⟩

/-- In the first columns of the quote they are not kept apart. -/
theorem not_parted_quoteInItem :
    let tree := quoteInItem "a b".toList
    let w := (Written.node { tree } Tree.maxDepth 0 Tree.root {}).1
    let out := (renderWith { tree } Tree.root {}).rendered.text
    tree.TableFree ∧ (∀ c ∈ w.plain, Ascii c) ∧ (behindLabel, "a b".toList) ∈ w.pieces {} ∧
      behindLabel.verbatim = false ∧ words "a b".toList = [['a'], ['b']] ∧ out = "* ab\n".toList ∧
      ¬ out.Parted (behindLabel.before.visible ++ ['a']) := by
  intro tree w out
  have hout : out = "* ab\n".toList := by decide +kernel
  refine ⟨by decide, List.all_iff_forall_prop.1 (by decide +kernel), by decide +kernel, rfl,
    by decide, hout, ?_⟩
  rw [hout]
  decide

end MarkupText
