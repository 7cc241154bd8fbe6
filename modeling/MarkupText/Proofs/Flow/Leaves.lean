import MarkupText.Proofs.Flow.Depth
import MarkupText.Proofs.Flow.Finished
import MarkupText.Proofs.Flow.Refold

/-!
# Texts cut into leaves

Where widths add up, a text that is cut into leaves is folded as if it had come in one piece
(`Page.finish_insertAll_eq`), if no finished line of the whole would be folded when it stands by itself.
A piece of a word is folded before the rest of the word has come. A line that is too wide for the
piece is too wide for the word as well, and both are split at the same cut (`pos_eq_or_beyond`), since
a cut that fits lies in the piece. So folding goes on where it stopped (`Folds.resume`).

The exception is a line that ends at a rejected cut. The piece may end before the legal cut
that stands shortly behind it, and then the line is split at the rejected one.
-/

namespace MarkupText

open Text LineBreak Greedy

section Lines
variable {rules : Rules} {cs t u v l r : Text} {indentation width n : Nat} {ls ls₁ ls' : List Text}
  {t₁ t' line : Text} {cut cut' : Cut}

/-- The line by itself is not folded. -/
def Whole (rules : Rules) (indentation width : Nat) (line : Text) : Prop :=
  line.width ≤ width ∨ findBreak rules line indentation width = none

theorem Folds.above_isPrefix (h : Folds rules indentation width ls t ls' t') : ls <+: ls' := by
  induction h with
  | refl => exact List.prefix_refl _
  | split _ _ _ _ _ ih => exact (List.prefix_append _ _).trans ih

/-- The cuts of a line that goes on. Those in front of `bound` are the cuts of the line, and all that
fit are among these. -/
structure Front (cuts cuts' : List Cut) (width bound : Nat) : Prop where
  mem_iff : ∀ {c}, c ∈ cuts ↔ c ∈ cuts' ∧ c.pos < bound
  lt_of_fits : ∀ {c}, c ∈ cuts' → c.column ≤ width → c.pos < bound

theorem front_usableCuts (rules : Rules) (hcs : Measured cs) (ht : Filled cs t)
    (hwide : width < (spaces indentation ++ t).width) (v : Text) :
    Front (usableCuts rules (spaces indentation ++ t) indentation)
      (usableCuts rules (spaces indentation ++ (t ++ v)) indentation) width
      (indentation + t.length) where
  mem_iff := mem_usableCuts_append rules ht.begins v
  lt_of_fits {c} hc hfits := by
    rw [ht.width_eq hcs] at hwide
    by_contra hge
    have := cols_le_column ht.begins hc (Nat.le_of_not_lt hge)
    omega

namespace Front
variable {cuts cuts' : List Cut} {last : Cut} {bound : Nat}

theorem mem (hfront : Front cuts cuts' width bound) (hc : cut ∈ cuts) : cut ∈ cuts' :=
  (hfront.mem_iff.1 hc).1

theorem mem_of_pos_le (hfront : Front cuts cuts' width bound) (hc : cut ∈ cuts) (hc' : cut' ∈ cuts')
    (hle : cut'.pos ≤ cut.pos) : cut' ∈ cuts :=
  hfront.mem_iff.2 ⟨hc', Nat.lt_of_le_of_lt hle (hfront.mem_iff.1 hc).2⟩

theorem lastFitting_iff (hfront : Front cuts cuts' width bound) :
    LastFitting cuts width cut ↔ LastFitting cuts' width cut where
  mp h := ⟨hfront.mem h.mem, h.fits, h.kind, fun c hc hfits hne =>
    h.last c (hfront.mem_iff.2 ⟨hc, hfront.lt_of_fits hc hfits⟩) hfits hne⟩
  mpr h := ⟨hfront.mem_iff.2 ⟨h.mem, hfront.lt_of_fits h.mem h.fits⟩, h.fits, h.kind,
    fun c hc => h.last c (hfront.mem hc)⟩

/-- The choice near a rejected cut changes only if what comes behind the line brings a legal one. -/
theorem nearRejected (hfront : Front cuts cuts' width bound) (hlast : last ∈ cuts)
    (h : NearRejected cuts last cut) (h' : NearRejected cuts' last cut') :
    cut'.pos = cut.pos ∨ bound ≤ cut'.pos ∧ cut = last := by
  cases h with
  | before mem legal lt near closest =>
    left
    cases h' with
    | before mem' legal' lt' _ closest' =>
      have hle := closest cut' (hfront.mem_of_pos_le hlast mem' (Nat.le_of_lt lt')) legal' lt'
      exact Nat.le_antisymm hle (closest' cut (hfront.mem mem) legal lt)
    | behind _ _ _ _ none_before' =>
      have := none_before' cut (hfront.mem mem) legal lt
      omega
    | alone _ none_near' =>
      have := none_near' cut (hfront.mem mem) legal
      omega
  | behind mem legal lt near none_before closest =>
    left
    cases h' with
    | before mem' legal' lt' near' =>
      have := none_before cut' (hfront.mem_of_pos_le hlast mem' (Nat.le_of_lt lt')) legal' lt'
      omega
    | behind mem' legal' lt' _ _ closest' =>
      have hle := closest' cut (hfront.mem mem) legal lt
      exact Nat.le_antisymm hle (closest cut' (hfront.mem_of_pos_le mem mem' hle) legal' lt')
    | alone _ none_near' =>
      have := none_near' cut (hfront.mem mem) legal
      omega
  | alone heq none_near =>
    cases h' with
    | before mem' legal' lt' near' =>
      have := none_near cut' (hfront.mem_of_pos_le hlast mem' (Nat.le_of_lt lt')) legal'
      omega
    | behind mem' legal' lt' near' =>
      refine .inr ⟨Nat.le_of_not_lt fun hlt => ?_, heq⟩
      have := none_near cut' (hfront.mem_iff.2 ⟨mem', hlt⟩) legal'
      omega
    | alone heq' => exact .inl (by rw [heq, heq'])

end Front

/-- A line that goes on is split where it would be without what follows, unless this is a rejected cut
and what stays on the line is all of it. -/
theorem pos_eq_or_beyond (hcs : Measured cs) (ht : Filled cs t)
    (hwide : width < (spaces indentation ++ t).width)
    (h : Chosen (usableCuts rules (spaces indentation ++ t) indentation) width cut)
    (h' : Chosen (usableCuts rules (spaces indentation ++ (t ++ v)) indentation) width cut') :
    cut'.pos = cut.pos ∨ indentation + t.length ≤ cut'.pos ∧
      LastFitting (usableCuts rules (spaces indentation ++ t) indentation) width cut := by
  have hfront := front_usableCuts rules hcs ht hwide v
  have hsorted := usableCuts_sorted rules (spaces indentation ++ t) indentation
  have hsorted' := usableCuts_sorted rules (spaces indentation ++ (t ++ v)) indentation
  by_cases hfits : ∃ last, LastFitting (usableCuts rules (spaces indentation ++ t) indentation) width last
  · obtain ⟨last, hlast⟩ := hfits
    rcases h.of_lastFitting hsorted hlast with ⟨legal, rfl⟩ | ⟨rejected, hnear⟩
    · rcases h'.of_lastFitting hsorted' (hfront.lastFitting_iff.1 hlast) with ⟨-, rfl⟩ | ⟨rejected, -⟩
      · exact .inl rfl
      · rw [legal] at rejected
        cases rejected
    · rcases h'.of_lastFitting hsorted' (hfront.lastFitting_iff.1 hlast) with ⟨legal, -⟩ | ⟨-, hnear'⟩
      · rw [rejected] at legal
        cases legal
      · refine (hfront.nearRejected hlast.mem hnear hnear').imp_right fun ⟨hle, heq⟩ => ?_
        exact ⟨hle, heq ▸ hlast⟩
  · obtain ⟨mem, legal, first⟩ := h.of_none_fits (not_exists.1 hfits)
    obtain ⟨mem', legal', first'⟩ :=
      h'.of_none_fits fun c hc => hfits ⟨c, hfront.lastFitting_iff.2 hc⟩
    have hle := first' cut (hfront.mem mem) legal
    exact .inl (Nat.le_antisymm hle (first cut' (hfront.mem_of_pos_le mem mem' hle) legal'))

theorem splitLine_append {pos : Nat} (hpos : pos ≤ line.length)
    (hsplit : Page.splitLine line pos = (l, r)) (hr : r ≠ []) (v : Text) :
    Page.splitLine (line ++ v) pos = (l, r ++ v) := by
  obtain ⟨rfl, rfl⟩ := Prod.mk.inj hsplit
  have hempty : (List.dropWhile (· == ' ') (line.drop pos)).isEmpty = false := by simpa using hr
  rw [Page.splitLine, List.take_append_of_le_length hpos, List.drop_append_of_le_length hpos,
    List.dropWhile_append, hempty]
  rfl

/-- All of the text stands in front of a cut that lies behind it. -/
theorem Divides.left_isPrefix (ht : Filled cs t)
    (h : Divides indentation (t ++ v) cut l n r) (hpos : indentation + t.length ≤ cut.pos) :
    t <+: l := by
  have hle := h.pos_le
  have hprefix : t <+: l ++ spaces n := by
    refine List.prefix_of_prefix_length_le (List.prefix_append t v) ⟨r, h.eq.symm⟩ ?_
    simp only [spaces, List.length_append, List.length_replicate]
    omega
  rcases List.prefix_or_prefix_of_prefix hprefix (List.prefix_append l (spaces n)) with h | ⟨z, rfl⟩
  · exact h
  · -- what is left of it would be spaces
    obtain ⟨d, hd, hne⟩ := ht.last
    rcases List.eq_nil_or_concat' z with rfl | ⟨z, c, rfl⟩
    · simp
    · obtain ⟨y, hy⟩ := (List.prefix_append_right_inj l).1 hprefix
      have hmem : c ∈ spaces n := hy ▸ by simp
      rw [← List.append_assoc, List.getLast?_concat] at hd
      exact absurd ((Option.some.inj hd).symm.trans (List.eq_of_mem_replicate hmem)) hne

/-- Folding the whole is folding a part of it, and then what is left with the rest behind it. -/
theorem Folds.resume (hcs : Measured cs) (h : Folds rules indentation width ls t ls₁ t₁)
    (ht : Filled cs t) (htv : Filled cs (t ++ v)) (hstays : Stays rules indentation width t₁)
    (h' : Folds rules indentation width ls (t ++ v) ls' t') (hstays' : Stays rules indentation width t')
    (hwhole : ∀ m ∈ ls', Whole rules indentation width m) :
    Folds rules indentation width ls₁ (t₁ ++ v) ls' t' := by
  induction h with
  | refl => exact h'
  | @split ls ls₁ t t₁ l r n cut wide chosen divides rest ih =>
    obtain ⟨hl, hr, -⟩ := ht.divides hcs chosen.mem divides
    have hmem {c : Cut} (hc : c ∈ usableCuts rules (spaces indentation ++ t) indentation) :=
      ((mem_usableCuts_append rules ht.begins v).1 hc).1
    have hwide : width < (spaces indentation ++ (t ++ v)).width := by
      rw [ht.width_eq hcs] at wide
      rw [htv.width_eq hcs, cols_append]
      omega
    cases h' with
    | refl =>
      obtain ⟨c, hc, husable⟩ := chosen.exists_usable
      exact (hstays'.not_usable hwide (hmem hc) husable).elim
    | @split _ _ _ _ l' r' n' cut' _ chosen' divides' rest' =>
      rcases pos_eq_or_beyond hcs ht wide chosen chosen' with hpos | ⟨hge, hlast⟩
      · have hle : cut.pos ≤ (spaces indentation ++ t).length := by
          have := ((mem_usableCuts_append rules ht.begins v).1 chosen.mem).2
          simp only [spaces, List.length_append, List.length_replicate]
          omega
        have hsplit := splitLine_append hle divides.split hr.ne_nil v
        rw [List.append_assoc, ← hpos, divides'.split] at hsplit
        obtain ⟨hl', rfl⟩ := Prod.mk.inj hsplit
        obtain ⟨-, hrv, -⟩ := htv.divides hcs chosen'.mem divides'
        rw [hl'] at rest'
        exact ih hr hrv hstays rest'
      · -- the line of the whole would be split at the rejected cut once more
        obtain ⟨hl', -, -⟩ := htv.divides hcs chosen'.mem divides'
        obtain ⟨z, rfl⟩ := Divides.left_isPrefix ht divides' hge
        have hstays'' : Stays rules indentation width (t ++ z) :=
          hwhole _ (rest'.above_isPrefix.subset (by simp))
        have hwide' : width < (spaces indentation ++ (t ++ z)).width := by
          rw [ht.width_eq hcs] at wide
          rw [hl'.width_eq hcs, cols_append]
          omega
        exact (hstays''.not_usable hwide' ((mem_usableCuts_append rules ht.begins z).1 hlast.mem).1
          hlast.usable).elim

end Lines

namespace Buffer

/-- Nothing but text was written. -/
def Unmarked (b : Buffer) : Prop := b = { text := b.text }

theorem Flow.unmarked {t : Text} {b c : Buffer} (h : Flow t b c) : b.Unmarked → c.Unmarked := by
  induction h with
  | refl => exact id
  | trans _ _ ih₁ ih₂ => exact ih₂ ∘ ih₁
  | push b t =>
    intro hb
    rw [Unmarked] at hb ⊢
    conv_lhs => rw [hb]
    rfl
  | splice _ _ =>
    intro hb
    rw [Unmarked] at hb ⊢
    conv_lhs => rw [hb]
    conv_rhs => rw [hb]
    rfl

end Buffer

namespace Page
variable {rules : Rules} {cs s t u v w : Text} {p q : Page} {spaceBefore : Bool} {l : Layout}
  {K : List Text → Text → Prop}

theorem eq_of_text (hp : p.buffer.Unmarked) (hq : q.buffer.Unmarked) (hlayout : p.layout = q.layout)
    (htext : p.buffer.text = q.buffer.text) : p = q := by
  obtain ⟨b, l⟩ := p
  obtain ⟨c, m⟩ := q
  obtain rfl : l = m := hlayout
  rw [show b = { text := b.text } from hp, show c = { text := c.text } from hq,
    show b.text = c.text from htext]

/-- No finished line of the text is folded when it stands by itself. -/
def LinesWhole (rules : Rules) (l : Layout) (t : Text) : Prop :=
  ∀ ls : List Text, (∀ m ∈ ls, '\n' ∉ m) → ended ls <+: t →
    ∀ m ∈ ls, Whole rules l.indentation l.width m

theorem LinesWhole.of_continues (h : LinesWhole rules l t) (hst : Continues s t) :
    LinesWhole rules l s := fun ls hls hle => h ls hls (hst _ (ended_eq ls) hle)

theorem foldInvariant_newline (rules : Rules) (cs : Text) (indentation width : Nat) :
    FoldInvariant rules cs indentation width fun ls _ => ∀ m ∈ ls, '\n' ∉ m where
  first _ := by simp
  word _ hk _ _ _ := hk
  split {ls t cut l n r} hk _ hl _ _ _ m hm := by
    rcases List.mem_append.1 hm with hm | hm
    · exact hk m hm
    · rw [List.mem_singleton.1 hm]
      exact hl.newline_notMem _

/-! ### A word in two pieces -/

/-- What folding a word starts from does not depend on how much of the word there is. -/
theorem ShowsLines.exists_folds (hcs : Measured cs) (h : p.ShowsLines rules cs K)
    (hK : FoldInvariant rules cs p.layout.indentation p.layout.width K) (spaceBefore : Bool)
    (hu : Inked cs u) : ∃ ls x, ∀ v, Inked cs (u ++ v) → Filled cs (x ++ u ++ v) ∧
      ∃ ls' t', Folds rules p.layout.indentation p.layout.width ls (x ++ u ++ v) ls' t' ∧
        K ls' t' ∧ Filled cs t' ∧ Stays rules p.layout.indentation p.layout.width t' ∧
        (p.placeWord rules spaceBefore (u ++ v)).buffer.text =
          ended ls' ++ (spaces p.layout.indentation ++ t') := by
  rcases h with hp | ⟨ls, t, gap, hk, ht, hstays, hgap, hp⟩
  · refine ⟨[], [], fun v huv => ⟨huv.filled, ?_⟩⟩
    obtain ⟨ls', t', hfolds, ht', hstays', htext⟩ := folds_placeFirst rules spaceBefore hcs huv hp
    exact ⟨ls', t', hfolds, hK.folds hcs hfolds (hK.first huv) huv.filled, ht', hstays', htext⟩
  · refine ⟨ls, t ++ gapFor rules (spaceBefore || !gap.isEmpty) t u, fun v huv => ?_⟩
    have hgapFor (wanted : Bool) : gapFor rules wanted t (u ++ v) = gapFor rules wanted t u := by
      rw [gapFor, gapFor, List.head?_append_of_ne_nil _ hu.1]
    obtain ⟨ls', t', hfolds, ht', hstays', htext⟩ :=
      folds_placeWord rules spaceBefore hcs ht huv hgap hp
    have hfilled := ht.append (gapFor_cases rules (spaceBefore || !gap.isEmpty) t (u ++ v)) huv.filled
    have hk' := hK.folds hcs hfolds (hK.word _ hk ht hstays huv) hfilled
    rw [hgapFor, ← List.append_assoc] at hfolds hfilled
    exact ⟨hfilled, ls', t', hfolds, hk', ht', hstays', htext⟩

/-- A word that comes in two pieces is placed as a whole. -/
theorem placeWord_append (hcs : Measured cs) (hp : p.buffer.Unmarked)
    (h : p.ShowsLines rules cs fun ls _ => ∀ m ∈ ls, '\n' ∉ m) (hu : Inked cs u) (hv : Inked cs v)
    (hwhole : LinesWhole rules p.layout (p.placeWord rules spaceBefore (u ++ v)).buffer.text) :
    (p.placeWord rules spaceBefore u).placeWord rules false v =
      p.placeWord rules spaceBefore (u ++ v) := by
  obtain ⟨ls, x, hplace⟩ :=
    h.exists_folds hcs (foldInvariant_newline rules cs _ _) spaceBefore hu
  obtain ⟨hxu, ls₁, t₁, hfolds₁, -, ht₁, hstays₁, htext₁⟩ := hplace [] (by rwa [List.append_nil])
  obtain ⟨hxuv, ls', t', hfolds', hls', ht', hstays', htext'⟩ := hplace v (hu.append hv)
  rw [List.append_nil] at hxu hfolds₁ htext₁
  have hlines : ∀ m ∈ ls', Whole rules p.layout.indentation p.layout.width m :=
    hwhole ls' hls' (by rw [htext']; exact List.prefix_append _ _)
  have hresume := hfolds₁.resume hcs hxu hxuv hstays₁ hfolds' hstays' hlines
  have hlayout₁ := layout_placeWord rules p spaceBefore u
  -- the second piece stands behind what folding the first has left
  have hp₁ : (p.placeWord rules spaceBefore u).buffer.text = ended ls₁ ++
      (spaces (p.placeWord rules spaceBefore u).layout.indentation ++ t₁ ++ []) := by
    rw [htext₁, hlayout₁, List.append_nil]
  obtain ⟨ls₂, t₂, hfolds₂, ht₂, hstays₂, htext₂⟩ :=
    folds_placeWord rules false hcs ht₁ hv (.inl rfl) hp₁
  have hgap : gapFor rules (false || !List.isEmpty ([] : Text)) t₁ v = [] := by
    unfold gapFor
    split <;> rfl
  rw [hgap, List.append_nil, hlayout₁] at hfolds₂
  rw [hlayout₁] at hstays₂ htext₂
  have hfilled := ht₁.append (.inl rfl) hv.filled
  rw [List.append_nil] at hfilled
  have hsame := hfolds₂.resume (v := []) hcs hfilled (by rwa [List.append_nil]) hstays₂
    (by rwa [List.append_nil]) hstays' hlines
  rw [List.append_nil] at hsame
  obtain ⟨rfl, rfl⟩ := hsame.eq_of_stays hstays₂
  have hunmarked {q : Page} (hq : q.buffer.Unmarked) (spaceBefore : Bool) (w : Text) :
      (q.placeWord rules spaceBefore w).buffer.Unmarked :=
    (pours_placeWord q spaceBefore w).flow.unmarked hq
  refine eq_of_text (hunmarked (hunmarked hp _ u) _ v) (hunmarked hp _ _) ?_ ?_
  · rw [layout_placeWord, layout_placeWord, layout_placeWord]
  · rw [htext₂, htext']

/-! ### A text in two leaves -/

theorem space_space (p : Page) : p.space.space = p.space := by
  rcases p.space_cases with h | ⟨-, h⟩
  · rw [h, h]
  · rw [h]
    exact space_eq_self (by simp [onBuffer])

theorem space_of_atLineStart (h : p.buffer.atLineStart = true) : p.space = p := by
  simp [space, h]

/-- On an indented line there is no space, and on any other no indentation is written. -/
theorem indent_space (p : Page) : p.space.indent = p.indent.space := by
  by_cases hline : p.buffer.currentLine = []
  · have hindented : p.indent.buffer.atLineStart = true := by
      have hindent : p.indent = p.onBuffer (·.push (spaces p.layout.indentation)) := by
        simp [indent, hline]
      rw [hindent, Buffer.atLineStart, Buffer.currentLine]
      change (lastRow (p.buffer.text ++ spaces p.layout.indentation)).all _ = true
      rw [lastRow_append (newline_notMem_spaces _), show lastRow p.buffer.text = [] from hline]
      simp [spaces]
    rw [space_of_atLineStart hindented, space_of_atLineStart]
    rw [Buffer.atLineStart, hline]
    rfl
  · rw [indent_of_currentLine_ne hline]
    rcases p.space_cases with h | ⟨-, h⟩
    · rw [h, indent_of_currentLine_ne hline]
    · rw [h]
      refine indent_of_currentLine_ne ?_
      change lastRow (p.buffer.text ++ [' ']) ≠ []
      rw [lastRow_append (by decide)]
      simp

/-- A space behind a text is the one in front of the next word. -/
theorem placeWord_space (p : Page) (spaceBefore : Bool) (w : Text) :
    p.space.placeWord rules spaceBefore w = p.placeWord rules true w := by
  have hspaced : (if spaceBefore then p.space.indent.space else p.space.indent) = p.indent.space := by
    rw [indent_space, space_space, ite_self]
  unfold placeWord
  dsimp only
  rw [hspaced]
  rfl

/-- In front of the first word of a page there is no space. -/
theorem placeWord_of_empty (hp : p.buffer.text = []) (spaceBefore : Bool) (w : Text) :
    p.placeWord rules spaceBefore w = p.placeWord rules true w := by
  rw [← placeWord_space p spaceBefore, space_of_empty hp]

/-- Words are placed one after another. -/
theorem placeWords_concat (rules : Rules) (p : Page) (spaceBefore : Bool) (ws : List Text) :
    ∃ between, ∀ w vs, p.placeWords rules spaceBefore (ws ++ w :: vs) =
      ((p.placeWords rules spaceBefore ws).placeWord rules between w).placeWords rules true vs := by
  by_cases hws : ws = []
  · subst hws
    exact ⟨spaceBefore, fun _ _ => rfl⟩
  · exact ⟨true, fun w vs => placeWords_append hws⟩

theorem insertWrapped_eq (rules : Rules) (p : Page) (t : Text) : p.insertWrapped rules t =
    if endsBlank t then (p.placeWords rules (startsBlank t) t.words).space
    else p.placeWords rules (startsBlank t) t.words := rfl

theorem insertWrapped_of_blank (hp : p.buffer.text = []) (hs : s.words = []) :
    p.insertWrapped rules s = p := by
  rw [insertWrapped_eq, hs]
  change (if endsBlank s then p.space else p) = p
  rw [space_of_empty hp, ite_self]

/-- Where two leaves meet within a word, the word is placed in two pieces. -/
theorem placeWords_of_glued (hcs : Measured cs) (hp : p.buffer.text = [])
    (hunmarked : p.buffer.Unmarked) (hst : ∀ c ∈ s ++ t, c ∈ cs) (hglued : Glued s t)
    (hwhole : LinesWhole rules p.layout
      (p.placeWords rules (startsBlank s) (s ++ t).words).buffer.text) :
    (p.insertWrapped rules s).placeWords rules (startsBlank t) t.words =
      p.placeWords rules (startsBlank s) (s ++ t).words := by
  obtain ⟨c, d, hc, hcblank, hd, hdblank⟩ := hglued
  obtain ⟨ws, u, v, vs, hsw, htw, hw⟩ := words_append_of_glued hc hcblank hd hdblank
  have hends : endsBlank s = false := by simp [endsBlank, hc, hcblank]
  have hbegins : startsBlank t = false := by simp [startsBlank, hd, hdblank]
  obtain ⟨between, hplace⟩ := placeWords_concat rules p (startsBlank s) ws
  have hinked {r w : Text} (hr : ∀ c ∈ r, c ∈ s ++ t) (hw : w ∈ r.words) : Inked cs w :=
    inked_of_mem_words (fun c hc => hst c (hr c hc)) hw
  have hu : Inked cs u := hinked (fun _ => List.mem_append_left t) (by rw [hsw]; simp)
  have hv : Inked cs v := hinked (fun _ => List.mem_append_right s) (by rw [htw]; simp)
  have hws : ∀ w ∈ ws, Inked cs w := fun w hw =>
    hinked (fun _ => List.mem_append_left t) (by rw [hsw]; exact List.mem_append_left _ hw)
  have hpours := pours_placeWords rules ws p (startsBlank s)
  have hshows : (p.placeWords rules (startsBlank s) ws).ShowsLines rules cs
      fun ls _ => ∀ m ∈ ls, '\n' ∉ m :=
    ShowsLines.placeWords hcs (foldInvariant_newline ..) (.inl hp) hws
  rw [insertWrapped_eq, hends, if_neg Bool.false_ne_true, hsw, htw, hw, hplace u [], hplace (u ++ v)]
  rw [hw, hplace] at hwhole
  change (((p.placeWords rules (startsBlank s) ws).placeWord rules between u).placeWord rules
    (startsBlank t) v).placeWords rules true vs = _
  rw [hbegins, placeWord_append hcs (hpours.flow.unmarked hunmarked) hshows hu hv]
  rw [hpours.layout]
  exact hwhole.of_continues (continues_placeWords rules vs _ true)

/-- The words of a leaf are placed behind those of the leaf before as they are in the whole text. -/
theorem placeWords_insertWrapped (hcs : Measured cs) (hp : p.buffer.text = [])
    (hunmarked : p.buffer.Unmarked) (hst : ∀ c ∈ s ++ t, c ∈ cs) (ht : t.words ≠ [])
    (hwhole : LinesWhole rules p.layout
      (p.placeWords rules (startsBlank (s ++ t)) (s ++ t).words).buffer.text) :
    (p.insertWrapped rules s).placeWords rules (startsBlank t) t.words =
      p.placeWords rules (startsBlank (s ++ t)) (s ++ t).words := by
  obtain ⟨v, vs, hv⟩ := List.exists_cons_of_ne_nil ht
  by_cases hs : s.words = []
  · -- only blanks came before
    have hblank := List.all_eq_true.1 (words_eq_nil_iff.1 hs)
    rw [insertWrapped_of_blank hp hs, words_append (.inl fun c hc => hblank c (List.mem_of_getLast? hc)),
      hs, List.nil_append]
    rw [hv, placeWords, placeWords, placeWord_of_empty hp, placeWord_of_empty hp (startsBlank (s ++ t))]
  have hsne : s ≠ [] := by
    rintro rfl
    exact hs rfl
  rw [startsBlank_append hsne] at hwhole ⊢
  by_cases hglued : Glued s t
  · exact placeWords_of_glued hcs hp hunmarked hst hglued hwhole
  · have hblank := blank_of_not_glued hglued
    have htne : t ≠ [] := by
      rintro rfl
      exact ht rfl
    rw [words_append hblank, placeWords_append hs, insertWrapped_eq]
    rw [hv, placeWords, placeWords]
    congr 1
    rcases gapAfter_spec hblank htne with ⟨hgap, hbegins⟩ | ⟨hgap, -⟩
    · have hends : endsBlank s = false := by simpa [gapAfter, hs] using hgap
      rw [hends, if_neg Bool.false_ne_true, hbegins.resolve_left hs]
    · have hends : endsBlank s = true := by simpa [gapAfter, hs] using hgap
      rw [hends, if_pos rfl, placeWord_space]

/-- A text that comes in two leaves is inserted as a whole. -/
theorem insertWrapped_append (hcs : Measured cs) (hp : p.buffer.text = [])
    (hunmarked : p.buffer.Unmarked) (hst : ∀ c ∈ s ++ t, c ∈ cs)
    (hwhole : LinesWhole rules p.layout (p.insertWrapped rules (s ++ t)).buffer.text) :
    (p.insertWrapped rules s).insertWrapped rules t = p.insertWrapped rules (s ++ t) := by
  by_cases hne : t = []
  · rw [hne, List.append_nil]
    rfl
  rw [insertWrapped_eq rules p (s ++ t), endsBlank_append s hne] at hwhole ⊢
  rw [insertWrapped_eq]
  by_cases ht : t.words = []
  · -- blanks behind a text
    have hend : endsBlank t = true := by
      obtain ⟨t, c, rfl⟩ := (List.eq_nil_or_concat' t).resolve_left hne
      have := List.all_eq_true.1 (words_eq_nil_iff.1 ht) c (by simp)
      simp [endsBlank, this]
    have hstarts : p.placeWords rules (startsBlank (s ++ t)) s.words =
        p.placeWords rules (startsBlank s) s.words := by
      cases s with
      | nil => rfl
      | cons c s => rfl
    rw [hend, if_pos rfl, if_pos rfl, words_append_of_blank ht, ht, hstarts]
    change (p.insertWrapped rules s).space = _
    rw [insertWrapped_eq]
    split
    · exact space_space _
    · rfl
  · rw [placeWords_insertWrapped hcs hp hunmarked hst ht]
    split at hwhole
    · exact hwhole.of_continues (continues_space _)
    · exact hwhole

/-! ### A text in any number of leaves -/

theorem keepsColumns_kind (kind : FlowKind) : KeepsColumns ({ · with kind := kind }) :=
  ⟨fun _ => rfl, fun _ => rfl⟩

/-- The page after some leaves is the page after their text. -/
theorem insertAll_eq (hl : l.fold = .wrap) (hcs : Measured cs) (leaves : List Text)
    (hs : ∀ c ∈ leaves.flatten, c ∈ cs) (hwhole : LinesWhole rules l
      (({ layout := l } : Page).insertWrapped rules leaves.flatten).buffer.text) :
    ∃ kind, leaves.foldl (·.insert rules) { layout := l } =
      (({ layout := l } : Page).insertWrapped rules leaves.flatten).onLayout
        ({ · with kind := kind }) := by
  induction leaves using List.reverseRecOn with
  | nil => exact ⟨l.kind, rfl⟩
  | append_singleton leaves t ih =>
    rw [List.flatten_append, List.flatten_singleton] at hs hwhole ⊢
    have hs' : ∀ c ∈ leaves.flatten, c ∈ cs := fun c hc => hs c (List.mem_append_left t hc)
    have happend := insertWrapped_append (p := { layout := l }) hcs rfl rfl hs hwhole
    rw [← happend] at hwhole ⊢
    obtain ⟨kind, hleaves⟩ := ih hs' (hwhole.of_continues (continues_insertWrapped rules _ t))
    have hfolded : Folded rules cs (fun ls _ => ∀ m ∈ ls, '\n' ∉ m) l
        (leaves.foldl (·.insert rules) { layout := l }) :=
      Folded.insertAll hl hcs (foldInvariant_newline ..) leaves ⟨.inl rfl, rfl, .inl rfl⟩ hs'
    have hfold : (leaves.foldl (·.insert rules) { layout := l : Page }).layout.fold = .wrap := by
      rw [hfolded.layout]
      exact hl
    rw [List.foldl_append, List.foldl_cons, List.foldl_nil, insert_of_wrap rules hfold hfolded.kind,
      hleaves, insertWrapped_onLayout (keepsColumns_kind kind)]
    split
    · exact ⟨kind, rfl⟩
    · exact ⟨.text, rfl⟩

/-- The text on the page is what finishing leaves of it, and perhaps a space. -/
theorem ShowsLines.text_eq (h : p.ShowsLines rules cs K) :
    ∃ gap, p.buffer.text = p.buffer.finish.1 ++ gap ∧ '\n' ∉ gap := by
  rcases h with hp | ⟨ls, t, gap, -, ht, -, hgap, hp⟩
  · refine ⟨[], ?_, List.not_mem_nil⟩
    change p.buffer.text = dropEndWhile isBlank p.buffer.text ++ []
    rw [hp]
    rfl
  · obtain ⟨d, hd, hblank⟩ := ht.shows_last (ended ls ++ spaces p.layout.indentation)
    rw [← List.append_assoc, ← List.append_assoc] at hp
    refine ⟨gap, by rw [Buffer.finish_eq hp hd hblank hgap, hp], ?_⟩
    rcases hgap with rfl | rfl
    · exact List.not_mem_nil
    · decide

/-- Cutting a text into leaves changes none of its lines, if none of these would be folded when it
stands by itself. -/
theorem finish_insertAll_eq (rules : Rules) (leaves : List Text) (l : Layout) (hl : l.fold = .wrap)
    (h : Measured leaves.flatten) :
    let out := (({ layout := l } : Page).insert rules leaves.flatten).buffer.finish.1
    (∀ line ∈ rows out, line.width ≤ l.width ∨
        findBreak rules line l.indentation l.width = none) →
      (leaves.foldl (·.insert rules) { layout := l : Page }).buffer.finish.1 = out := by
  intro out hlines
  have hshows : (({ layout := l } : Page).insertWrapped rules leaves.flatten).ShowsLines rules
      leaves.flatten fun ls _ => ∀ m ∈ ls, '\n' ∉ m :=
    ShowsLines.insertWrapped h (foldInvariant_newline ..) (.inl rfl) fun _ hc => hc
  have hout : out = (({ layout := l } : Page).insertWrapped rules leaves.flatten).buffer.finish.1 := by
    change (({ layout := l } : Page).insert rules leaves.flatten).buffer.finish.1 = _
    rw [insert_of_wrap rules hl (.inl rfl)]
    split <;> rfl
  obtain ⟨gap, htext, hgap⟩ := hshows.text_eq
  rw [← hout] at htext
  obtain ⟨kind, hleaves⟩ := insertAll_eq hl h leaves (fun _ hc => hc) fun ls hls hle m hm => by
    rw [htext] at hle
    obtain ⟨x, hx⟩ := Finished.prefix_front (ended_eq ls) hle hgap
    refine hlines m ?_
    rw [← hx, rows_ended_append hls]
    exact List.mem_append_left _ hm
  rw [hleaves, hout]
  rfl

/-- The full stop comes with the character in front of it or in a leaf of its own. -/
theorem finish_insertAll_eq_kinsoku :
    let l : Layout := { width := 6 }
    let leaves : List Text := ["日本".toList, "語".toList, "。".toList]
    let out := "日本\n語。".toList
    Measured leaves.flatten ∧
      (({ layout := l } : Page).insert .kinsoku leaves.flatten).buffer.finish.1 = out ∧
      (leaves.foldl (·.insert .kinsoku) { layout := l : Page }).buffer.finish.1 = out := by
  intro l leaves out
  have hcs : Measured leaves.flatten := .of_plain (List.all_iff_forall_prop.1 (by decide +kernel))
  have hout : (({ layout := l } : Page).insert .kinsoku leaves.flatten).buffer.finish.1 = out := by
    decide +kernel
  have hfits : ∀ line ∈ rows out, line.width ≤ l.width := by decide +kernel
  have hcut := finish_insertAll_eq .kinsoku leaves l rfl hcs
  rw [hout] at hcut
  exact ⟨hcs, hout, hcut fun line hline => .inl (hfits line hline)⟩

/-- Where a leaf ends behind a full stop that does not fit, the line is split in front of it. -/
theorem not_finish_insertAll_eq_fullStop :
    let l : Layout := { width := 2 }
    (({ layout := l } : Page).insert .kinsoku "日。本".toList).buffer.finish.1 = "日。\n本".toList ∧
      (["日。".toList, "本".toList].foldl (·.insert .kinsoku)
        { layout := l : Page }).buffer.finish.1 = "日\n。\n本".toList := by
  decide +kernel

end Page
end MarkupText
