import MarkupText.Buffer
import MarkupText.Proofs.Text.Position

/-!
# Runs of buffer edits

`Run R t b c` says that the buffer `c` comes from `b` by steps that append text, replace spaces by
blanks, mark ranges that satisfy `R`, and open and close regions in pairs; `t` holds the visible
characters that were appended. Whatever the program does to a buffer is such a run, so two step
lemmas are all that is proved about single edits: `Run.visible` (nothing visible is lost, doubled or
moved) and `Run.held` (every span keeps to a range that satisfies `R`). `Flow` is a run that neither
marks nor labels anything, which is what inserting a text does.
-/

namespace MarkupText

open Text

/-- What is required of the range `[start, stop)` of a text before it is marked. -/
abbrev RangeRule := Text → Nat → Nat → Prop

namespace RangeRule

/-- Both ends lie between characters. -/
def within : RangeRule := fun t start stop => Boundary t start ∧ Boundary t stop

/-- The range begins and ends with a shown character. -/
def tight : RangeRule := fun t start stop => Lead t start ∧ Trail t stop

/-- A rule that stays true of a range while the text grows, its spaces are replaced and at last the
blanks at its end are cut off. -/
structure Stable (R : RangeRule) : Prop where
  append : ∀ {t start stop} (u : Text), R t start stop → R (t ++ u) start stop
  edit : ∀ {l r : Text} {k start stop} (i : Text), R (l ++ spaces k ++ r) start stop →
    R (l ++ i ++ r) (movedStart l.size k i.size start) (movedStop l.size k i.size stop)
  trim : ∀ {t u start stop}, (∀ c, t.getLast? = some c → isBlank c = false) →
    R (t ++ u) start stop → start < t.size → R t start (min stop t.size)

theorem stable_within : Stable within where
  append u h := ⟨h.1.append_right u, h.2.append_right u⟩
  edit {l r k start stop} i h := by
    have h₁ := h.1.movedStart (i := i)
    have h₂ := h.2.movedStop (i := i)
    rw [size_spaces] at h₁ h₂
    exact ⟨h₁, h₂⟩
  trim {t u start stop} _ h hlt := by
    refine ⟨h.1.of_append (Nat.le_of_lt hlt), ?_⟩
    rcases Nat.le_total stop t.size with hle | hle
    · rw [Nat.min_eq_left hle]
      exact h.2.of_append hle
    · rw [Nat.min_eq_right hle]
      exact .size t

theorem stable_tight : Stable tight where
  append u h := ⟨h.1.append_right u, h.2.append_right u⟩
  edit _ h := ⟨h.1.movedStart, h.2.movedStop⟩
  trim {t u start stop} hlast h hlt := by
    refine ⟨h.1.of_append hlt, ?_⟩
    rcases Nat.le_total stop t.size with hle | hle
    · rw [Nat.min_eq_left hle]
      exact h.2.of_append hle
    · rw [Nat.min_eq_right hle]
      cases hc : t.getLast? with
      | none => rw [List.getLast?_eq_none_iff.1 hc] at hlt; cases hlt
      | some c => exact .of_getLast? hc (shown_of_not_blank (hlast c hc))

theorem within_of_tight {t : Text} {start stop : Nat} (h : tight t start stop) :
    within t start stop :=
  ⟨h.1.boundary, h.2.boundary⟩

end RangeRule

namespace Buffer
variable {R : RangeRule} {b c d : Buffer} {t u l m r i : Text}

/-! ### Single edits -/

theorem splice_eq (h : b.text = l ++ m ++ r) (i : Text) :
    b.splice l.size m.size i =
      { text := l ++ i ++ r
        spans := b.spans.map (·.edit l.size m.size i.size)
        regions := b.regions.map (movedStart l.size m.size i.size)
        labelEnd := b.labelEnd.map (movedStop l.size m.size i.size) } := by
  have hm : min (l.size + m.size) b.size - l.size = m.size := by
    rw [Buffer.size, h]; simp only [size_append]; omega
  simp only [splice, hm, h, splice_append_size]

theorem movedStart_nothing (pos p : Nat) : movedStart pos 0 0 p = p := by
  unfold movedStart
  split
  · rfl
  · exact if_pos (by omega)

theorem movedStop_nothing (pos p : Nat) : movedStop pos 0 0 p = p := by
  unfold movedStop
  split
  · rfl
  · exact if_pos (by omega)

theorem edit_nothing (pos : Nat) : Span.edit pos 0 0 = id := funext fun a => by
  rw [Span.edit, movedStart_nothing, movedStop_nothing]
  rfl

theorem splice_nothing (b : Buffer) : b.splice b.text.size 0 [] = b := by
  have hstart : movedStart b.text.size 0 0 = id := funext (movedStart_nothing _)
  have hstop : movedStop b.text.size 0 0 = id := funext (movedStop_nothing _)
  have h := splice_eq (b := b) (l := b.text) (m := []) (r := []) (by simp) []
  rw [size_nil] at h
  rw [h, hstart, hstop, edit_nothing]
  simp

@[simp] theorem spans_closeRegion (b : Buffer) : b.closeRegion.2.spans = b.spans := by
  unfold closeRegion; split <;> rfl

@[simp] theorem labelEnd_annotate (b : Buffer) (start stop : Nat) (mark : Mark) :
    (b.annotate start stop mark).labelEnd = b.labelEnd := by
  unfold annotate; split <;> rfl

@[simp] theorem labelEnd_closeRegion (b : Buffer) : b.closeRegion.2.labelEnd = b.labelEnd := by
  unfold closeRegion; split <;> rfl

/-! ### Runs -/

/-- `c` comes from `b` by edits that append the visible characters `t` and mark only ranges that
satisfy `R`. -/
inductive Run (R : RangeRule) : Text → Buffer → Buffer → Prop
  | refl (b : Buffer) : Run R [] b b
  | trans {t u : Text} {b c d : Buffer} (h₁ : Run R t b c) (h₂ : Run R u c d) :
      Run R (t ++ u) b d
  | push (b : Buffer) (t : Text) : Run R t.visible b (b.push t)
  | pushLabel (b : Buffer) (t : Text) : Run R t.visible b (b.pushLabel t)
  | splice {b : Buffer} {l r : Text} {k : Nat} (h : b.text = l ++ spaces k ++ r) {i : Text}
      (hi : i.visible = []) : Run R [] b (b.splice l.size k i)
  | annotate {b : Buffer} {start stop : Nat} (h : R b.text start stop) (mark : Mark) :
      Run R [] b (b.annotate start stop mark)
  | region {t : Text} {b c : Buffer} (h : Run R t b.openRegion c) : Run R t b c.closeRegion.2

/-- Every span covers a range that satisfies `R`. -/
def Held (R : RangeRule) (b : Buffer) : Prop := ∀ a ∈ b.spans, R b.text a.start a.stop

theorem Held.closeRegion (h : Held R b) : Held R b.closeRegion.2 := by
  intro a ha
  rw [spans_closeRegion] at ha
  rw [text_closeRegion]
  exact h a ha

namespace Run

theorem cast (h : Run R t b c) (ht : t = u) : Run R u b c := ht ▸ h

theorem trans_nil (h₁ : Run R t b c) (h₂ : Run R [] c d) : Run R t b d :=
  (h₁.trans h₂).cast (List.append_nil t)

theorem nil_trans (h₁ : Run R [] b c) (h₂ : Run R t c d) : Run R t b d := h₁.trans h₂

/-- A run appends its visible characters to those that are there. -/
theorem visible (h : Run R t b c) : c.text.visible = b.text.visible ++ t := by
  induction h with
  | refl b => exact (List.append_nil _).symm
  | trans _ _ ih₁ ih₂ => rw [ih₂, ih₁, List.append_assoc]
  | push b t => exact visible_append ..
  | pushLabel b t => exact visible_append ..
  | @splice b l r k h i hi =>
    have hs := splice_eq h i
    rw [size_spaces] at hs
    rw [hs, h]
    simp [hi]
  | annotate _ mark => simp
  | region _ ih => simpa using ih

theorem held (hok : R.Stable) (h : Run R t b c) (hb : Held R b) : Held R c := by
  induction h with
  | refl b => exact hb
  | trans _ _ ih₁ ih₂ => exact ih₂ (ih₁ hb)
  | push b t => exact fun a ha => hok.append t (hb a ha)
  | pushLabel b t => exact fun a ha => hok.append t (hb a ha)
  | @splice b l r k h i hi =>
    have hs := splice_eq h i
    rw [size_spaces] at hs
    rw [hs]
    intro a ha
    obtain ⟨a₀, ha₀, rfl⟩ := List.mem_map.1 ha
    exact hok.edit i (h ▸ hb a₀ ha₀)
  | annotate h mark =>
    intro a ha
    rw [text_annotate]
    rcases mem_spans_annotate.1 ha with ha | ⟨rfl, -⟩
    · exact hb a ha
    · exact h
  | region _ ih => exact Held.closeRegion (ih hb)

theorem push_blank (b : Buffer) (ht : t.visible = []) : Run R [] b (b.push t) :=
  (Run.push b t).cast ht

end Run

/-! ### Flowing text -/

/-- `c` comes from `b` by appending the visible characters `t` and replacing spaces. -/
inductive Flow : Text → Buffer → Buffer → Prop
  | refl (b : Buffer) : Flow [] b b
  | trans {t u : Text} {b c d : Buffer} (h₁ : Flow t b c) (h₂ : Flow u c d) : Flow (t ++ u) b d
  | push (b : Buffer) (t : Text) : Flow t.visible b (b.push t)
  | splice {b : Buffer} {l r : Text} {k : Nat} (h : b.text = l ++ spaces k ++ r) {i : Text}
      (hi : ∀ c ∈ i, ¬ Shown c) : Flow [] b (b.splice l.size k i)

namespace Flow

theorem cast (h : Flow t b c) (ht : t = u) : Flow u b c := ht ▸ h

theorem trans_nil (h₁ : Flow t b c) (h₂ : Flow [] c d) : Flow t b d :=
  (h₁.trans h₂).cast (List.append_nil t)

theorem nil_trans (h₁ : Flow [] b c) (h₂ : Flow t c d) : Flow t b d := h₁.trans h₂

theorem push_blank (b : Buffer) (ht : t.visible = []) : Flow [] b (b.push t) :=
  (Flow.push b t).cast ht

theorem run (h : Flow t b c) : Run R t b c := by
  induction h with
  | refl b => exact .refl b
  | trans _ _ ih₁ ih₂ => exact ih₁.trans ih₂
  | push b t => exact .push b t
  | splice h hi =>
    refine .splice h (visible_eq_nil_iff.2 fun c hc => ?_)
    by_contra hblank
    exact hi c hc (shown_of_not_blank (Bool.eq_false_iff.2 hblank))

/-- Blanks show nothing. -/
theorem visible_eq (h : Flow [] b c) : c.text.visible = b.text.visible :=
  (h.run (R := RangeRule.within)).visible.trans (List.append_nil _)

end Flow

/-! ### Ends of lines -/

/-- Dropping the spaces at the end is a splice. -/
theorem trimSpaces_eq (b : Buffer) : ∃ k,
    b.text = dropEndWhile (· == ' ') b.text ++ spaces k ∧
      b.trimSpaces = b.splice (dropEndWhile (· == ' ') b.text).size k [] := by
  have hback : dropEndWhile (· == ' ') b.text ++ b.text.rtakeWhile (· == ' ') = b.text :=
    List.rdropWhile_append_rtakeWhile
  have hspaces : b.text.rtakeWhile (· == ' ') =
      spaces (b.text.reverse.takeWhile (· == ' ')).length := by
    rw [eq_spaces (t := b.text.rtakeWhile (· == ' ')) fun c hc =>
      List.mem_rtakeWhile_imp (p := (· == ' ')) hc, List.rtakeWhile, List.length_reverse]
  rw [hspaces] at hback
  refine ⟨_, hback.symm, ?_⟩
  unfold trimSpaces
  set n := (b.text.reverse.takeWhile (· == ' ')).length
  dsimp only
  split
  · rename_i hn
    have hnone : dropEndWhile (· == ' ') b.text = b.text := by simpa [hn, spaces] using hback
    rw [hn, hnone, splice_nothing]
  · have hsize : b.size - n = (dropEndWhile (· == ' ') b.text).size := by
      rw [Buffer.size]
      conv_lhs => rw [← hback]
      simp
    rw [hsize]

theorem text_trimSpaces (b : Buffer) : b.trimSpaces.text = dropEndWhile (· == ' ') b.text := by
  obtain ⟨k, hk, htrim⟩ := b.trimSpaces_eq
  have hsplice := splice_eq (r := []) (by simpa using hk) []
  rw [size_spaces] at hsplice
  rw [htrim, hsplice]
  simp

theorem flow_trimSpaces (b : Buffer) : Flow [] b b.trimSpaces := by
  obtain ⟨k, hk, htrim⟩ := b.trimSpaces_eq
  rw [htrim]
  exact .splice (r := []) (by simpa using hk) fun _ hc => by cases hc

/-- Dropping the spaces at the end leaves the rest of the text. -/
theorem text_trimSpaces_prefix (b : Buffer) : b.trimSpaces.text <+: b.text := by
  obtain ⟨u, hu, -⟩ := dropEndWhile_append (· == ' ') b.text
  rw [text_trimSpaces]
  exact ⟨u, hu.symm⟩

theorem flow_newline (b : Buffer) : Flow [] b b.newline :=
  b.flow_trimSpaces.nil_trans (.push_blank _ (visible_newline []))

theorem flow_ensureNewline (b : Buffer) : Flow [] b b.ensureNewline := by
  unfold ensureNewline
  split
  · exact .refl b
  · split
    · exact b.flow_trimSpaces
    · exact b.flow_newline

/-- A paragraph is requested as a line is, and one newline more is written unless nothing or a blank
line stands in front. -/
theorem ensureParagraph_spec (b : Buffer) :
    b.ensureParagraph = b.ensureNewline ∧ (b.atLabelEnd = true ∨ b.ensureNewline.text = [] ∨
      ['\n', '\n'] <:+ b.ensureNewline.text) ∨
    b.ensureParagraph = b.ensureNewline.push ['\n'] ∧ b.atLabelEnd = false ∧
      b.ensureNewline.text ≠ [] ∧ ¬ ['\n', '\n'] <:+ b.ensureNewline.text := by
  unfold ensureParagraph ensureNewline
  cases b.atLabelEnd with
  | true => exact .inl ⟨rfl, .inl rfl⟩
  | false =>
    simp only [Bool.false_eq_true, if_false]
    generalize (if b.atLineStart = true then b.trimSpaces else b.newline) = c
    split
    · rename_i h
      rw [Bool.or_eq_true, List.isEmpty_iff, List.isSuffixOf_iff_suffix] at h
      exact .inl ⟨rfl, .inr h⟩
    · rename_i h
      rw [Bool.or_eq_true, not_or, List.isEmpty_iff, List.isSuffixOf_iff_suffix] at h
      exact .inr ⟨rfl, trivial, h⟩

theorem flow_ensureParagraph (b : Buffer) : Flow [] b b.ensureParagraph := by
  rcases b.ensureParagraph_spec with ⟨heq, -⟩ | ⟨heq, -⟩
  · rw [heq]
    exact b.flow_ensureNewline
  · rw [heq]
    exact b.flow_ensureNewline.nil_trans (.push_blank _ (visible_newline []))

theorem run_newline (b : Buffer) : Run R [] b b.newline := b.flow_newline.run

theorem run_ensureNewline (b : Buffer) : Run R [] b b.ensureNewline := b.flow_ensureNewline.run

theorem run_ensureParagraph (b : Buffer) : Run R [] b b.ensureParagraph :=
  b.flow_ensureParagraph.run

/-! ### Marked ranges -/

/-- The characters that a visible range leaves out at its ends. -/
def isEdge (c : Char) : Bool := c == ' ' || c == '\n'

theorem shown_of_not_isEdge {c : Char} (h : isEdge c = false) : Shown c := by
  constructor <;> rintro rfl <;> exact absurd h (by decide)

theorem utf8Size_of_isEdge {c : Char} (h : isEdge c = true) : c.utf8Size = 1 := by
  rcases Bool.or_eq_true_iff.1 h with h | h <;> rw [eq_of_beq h] <;> decide

/-- A visible range is a part of the text without the edges at its ends. -/
theorem of_visibleRange {start stop s e : Nat} (h : b.visibleRange start stop = some (s, e)) :
    ∃ l t r, b.text = l ++ t ++ r ∧ start = l.size ∧ stop = l.size + t.size ∧
      (t.takeWhile isEdge).length + (t.reverse.takeWhile isEdge).length < t.size ∧
      s = l.size + (t.takeWhile isEdge).length ∧
      e = l.size + t.size - (t.reverse.takeWhile isEdge).length := by
  obtain ⟨t, ht, hif⟩ := Option.bind_eq_some_iff.1 h
  obtain ⟨l, r, htext, rfl, rfl⟩ := slice?_eq_some ht
  change (if (t.takeWhile isEdge).length + (t.reverse.takeWhile isEdge).length < t.size then
    some (l.size + (t.takeWhile isEdge).length,
      l.size + t.size - (t.reverse.takeWhile isEdge).length) else none) = some (s, e) at hif
  split at hif
  · rename_i hlt
    obtain ⟨rfl, rfl⟩ := Prod.mk.inj (Option.some.inj hif)
    exact ⟨l, t, r, htext, rfl, rfl, hlt, rfl, rfl⟩
  · cases hif

/-- A visible range begins and ends with a shown character. -/
theorem tight_of_visibleRange {start stop s e : Nat} (h : b.visibleRange start stop = some (s, e)) :
    RangeRule.tight b.text s e := by
  obtain ⟨l, t, r, htext, rfl, rfl, hlt, rfl, rfl⟩ := of_visibleRange h
  have hlead := size_eq_length fun c hc =>
    utf8Size_of_isEdge (List.mem_takeWhile_imp (p := isEdge) (l := t) hc)
  have htrail := size_eq_length fun c hc =>
    utf8Size_of_isEdge (List.mem_takeWhile_imp (p := isEdge) (l := t.reverse) hc)
  -- else the two runs at the ends would overlap
  have hsome : ∃ c ∈ t, isEdge c = false := by
    by_contra hall
    have hedge : ∀ c ∈ t, isEdge c = true := fun c hc => by
      by_contra hne
      exact hall ⟨c, hc, Bool.eq_false_iff.2 hne⟩
    rw [List.takeWhile_eq_self_iff.2 hedge, size_eq_length fun c hc =>
      utf8Size_of_isEdge (hedge c hc)] at hlt
    omega
  rw [← hlead, ← htrail, htext]
  exact ⟨.of_takeWhile (fun _ => shown_of_not_isEdge) hsome l r,
    .of_takeWhile (fun _ => shown_of_not_isEdge) hsome l r⟩

/-- A visible range leaves out spaces and newlines only. -/
theorem visibleRange_split {start stop s e : Nat} (h : b.visibleRange start stop = some (s, e)) :
    ∃ l x m y r, b.text = l ++ x ++ m ++ y ++ r ∧ (∀ c ∈ x ++ y, ¬ Shown c) ∧ s < e ∧
      l.size = start ∧ Text.size (l ++ x) = s ∧ Text.size (l ++ x ++ m) = e ∧
        Text.size (l ++ x ++ m ++ y) = stop := by
  obtain ⟨l, t, r, htext, rfl, rfl, hlt, rfl, rfl⟩ := of_visibleRange h
  have hlead (c : Char) (hc : c ∈ t.takeWhile isEdge) : isEdge c = true :=
    List.mem_takeWhile_imp hc
  have htrail (c : Char) (hc : c ∈ t.rtakeWhile isEdge) : isEdge c = true :=
    List.mem_rtakeWhile_imp hc
  have hx := size_eq_length fun c hc => utf8Size_of_isEdge (hlead c hc)
  have hy := size_eq_length fun c hc => utf8Size_of_isEdge (htrail c hc)
  have hlen : (t.rtakeWhile isEdge).length = (t.reverse.takeWhile isEdge).length :=
    List.length_reverse
  have hback : t.rdropWhile isEdge ++ t.rtakeWhile isEdge = t :=
    List.rdropWhile_append_rtakeWhile
  have hsize := congrArg Text.size hback
  rw [size_append] at hsize
  have hfront : t.takeWhile isEdge ++ t.dropWhile isEdge = t := List.takeWhile_append_dropWhile
  obtain ⟨m, hm, -⟩ := append_eq_of_size_le (hback.trans hfront.symm) (by omega)
  have ht' : t = t.takeWhile isEdge ++ m ++ t.rtakeWhile isEdge := by rw [← hm, hback]
  have hsize' := congrArg Text.size ht'
  rw [size_append, size_append] at hsize'
  refine ⟨l, t.takeWhile isEdge, m, t.rtakeWhile isEdge, r, ?_, fun c hc hshown => ?_, by omega, rfl,
    ?_, ?_, ?_⟩
  · rw [htext]
    conv_lhs => rw [ht']
    simp only [List.append_assoc]
  · have hedge : isEdge c = true := (List.mem_append.1 hc).elim (hlead c) (htrail c)
    rcases Bool.or_eq_true_iff.1 hedge with h | h
    · exact hshown.1 (eq_of_beq h)
    · exact hshown.2 (eq_of_beq h)
  all_goals
    simp only [size_append]
    omega

/-- A range with a shown character has a visible range. -/
theorem exists_visibleRange {start stop n : Nat} {d : Char} (hstart : Boundary b.text start)
    (hstop : Boundary b.text stop) (hat : At b.text n d) (hd : Shown d) (hle : start ≤ n)
    (hlt : n < stop) : ∃ s e, b.visibleRange start stop = some (s, e) := by
  obtain ⟨k, r, hk, rfl⟩ := hstop
  rw [hk] at hstart hat
  obtain ⟨l, t, rfl, rfl⟩ := hstart.of_append (by omega)
  have hslice : b.text.slice? l.size (l ++ t : Text).size = some t := by
    rw [hk, size_append]
    exact slice?_append_size ..
  have hmem : At t (n - l.size) d := by
    have hat' := hat.of_append hlt
    rcases hat'.append_cases with h | ⟨q, rfl, h⟩
    · have := h.lt_size
      omega
    · rwa [Nat.add_sub_cancel_left]
  obtain ⟨x, y, rfl, -⟩ := hmem
  have hedge : isEdge d = false := by
    simp [isEdge, hd.1, hd.2]
  have hlead (x y : Text) : ((x ++ d :: y).takeWhile isEdge).length ≤ x.length := by
    induction x with
    | nil => simp [hedge]
    | cons c x ih =>
      rw [List.cons_append, List.takeWhile_cons]
      split
      · exact Nat.succ_le_succ ih
      · exact Nat.zero_le _
  have hfront := hlead x y
  have hback := hlead y.reverse x.reverse
  have hlength (t : Text) : t.length ≤ t.size := by
    induction t with
    | nil => exact Nat.le_refl 0
    | cons c t ih =>
      have := c.utf8Size_pos
      rw [List.length_cons, size_cons]
      omega
  have hsize := hlength (x ++ d :: y)
  have hrev : (x ++ d :: y).reverse = y.reverse ++ d :: x.reverse := by simp
  rw [List.length_append, List.length_cons] at hsize
  rw [List.length_reverse] at hback
  unfold visibleRange
  rw [hslice]
  change ∃ s e, (if ((x ++ d :: y).takeWhile isEdge).length +
    ((x ++ d :: y).reverse.takeWhile isEdge).length < (x ++ d :: y : Text).size then _ else none) =
      some (s, e)
  rw [hrev, if_pos (by omega)]
  exact ⟨_, _, rfl⟩

theorem shown_of_visibleRange {start stop s e n : Nat} {d : Char}
    (h : b.visibleRange start stop = some (s, e)) (hat : At b.text n d) (hd : Shown d)
    (hstart : start ≤ n) (hstop : n < stop) : s ≤ n ∧ n + d.utf8Size ≤ e := by
  obtain ⟨l, x, m, y, r, htext, hedge, -, rfl, rfl, rfl, rfl⟩ := visibleRange_split h
  rw [htext] at hat
  have hall := hat.of_append hstop
  have hfront : n < Text.size (l ++ x ++ m) := by
    by_contra hn
    rcases hall.append_cases with h | ⟨q, -, h⟩
    · have := h.boundary_end.le
      have := d.utf8Size_pos
      omega
    · exact hedge d (List.mem_append_right _ h.mem) hd
  have hfront' := hall.of_append hfront
  refine ⟨?_, hfront'.boundary_end.le⟩
  by_contra hn
  rcases (hfront'.of_append (Nat.lt_of_not_le hn)).append_cases with h | ⟨q, -, h⟩
  · have := h.boundary_end.le
    have := d.utf8Size_pos
    omega
  · exact hedge d (List.mem_append_left _ h.mem) hd

/-! ### The finished text -/

theorem held_empty : Held R {} := fun _ ha => by cases ha

theorem not_isBlank_finish {c : Char} (h : b.finish.1.getLast? = some c) : isBlank c = false :=
  not_of_getLast?_dropEndWhile h

@[simp] theorem visible_finish (b : Buffer) : b.finish.1.visible = b.text.visible :=
  visible_dropEndWhile b.text

/-- Every finished span covers a part of the finished text, by the rule of the buffer. -/
theorem Held.finish (hok : R.Stable) (h : Held R b) {a : Span} (ha : a ∈ b.finish.2) :
    a.start < a.stop ∧ a.stop ≤ b.finish.1.size ∧ R b.finish.1 a.start a.stop := by
  obtain ⟨hcut, hlt⟩ := List.mem_filter.1 ha
  obtain ⟨a₀, ha₀, rfl⟩ := List.mem_map.1 hcut
  have hlt := of_decide_eq_true hlt
  obtain ⟨u, hu, -⟩ := dropEndWhile_append isBlank b.text
  refine ⟨hlt, Nat.min_le_right .., hok.trim (u := u) (fun _ => not_isBlank_finish) ?_ ?_⟩
  · have := h a₀ ha₀
    rwa [hu] at this
  · exact lt_of_lt_of_le hlt (Nat.min_le_right ..)

end Buffer
end MarkupText
