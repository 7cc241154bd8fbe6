import MarkupText.Proofs.LineBreak.Spaces
import MarkupText.Proofs.Text.Visible

/-!
# Which cut is chosen

The usable cuts of a line come in the order of their positions (`usableCuts_sorted`). `Chosen` says
which of them splits the line: the last one that fits and is not `never`, a legal one near it if that
one is rejected, or the first legal one if none fits. `findBreak` gives such a cut
(`chosen_of_findBreak`), and none only for lines without a legal cut
(`not_legal_of_findBreak_eq_none`).
-/

namespace MarkupText.LineBreak

open Text

variable {rules : Rules} {before c : Char} {s t u line : Text} {seen : Bool}
  {pos column indentation width : Nat} {cut : Cut} {cuts : List Cut}

/-! ### Cuts in order -/

/-- The cuts stand in the order of their positions, and then their columns grow as well. -/
def Sorted (cuts : List Cut) : Prop := cuts.Pairwise fun a b => a.pos < b.pos ∧ a.column ≤ b.column

theorem mem_cutsFrom : cut ∈ cutsFrom rules before pos column seen t ↔
    ∃ l a r, t = l ++ a :: r ∧ (seen = true ∨ ∃ c ∈ l, c ≠ ' ') ∧
      cut = ⟨pos + l.length, column + cols l, cutKind rules (l.getLast?.getD before) a⟩ := by
  induction t generalizing before pos column seen with
  | nil => simp [cutsFrom]
  | cons c t ih =>
    have hrest : cut ∈ cutsFrom rules c (pos + 1) (column + charWidth c) (seen || c != ' ') t ↔
        ∃ l a r, c :: t = c :: l ++ a :: r ∧ (seen = true ∨ ∃ d ∈ c :: l, d ≠ ' ') ∧
          cut = ⟨pos + (c :: l).length, column + cols (c :: l),
            cutKind rules ((c :: l).getLast?.getD before) a⟩ := by
      rw [ih]
      refine exists_congr fun l => exists_congr fun a => exists_congr fun r => ?_
      have hlast : (c :: l).getLast?.getD before = l.getLast?.getD c := by
        cases l <;> simp [List.getLast?_cons]
      rw [hlast, List.length_cons, cols_cons, Nat.add_assoc, Nat.add_assoc,
        Nat.add_comm 1 l.length]
      simp [or_assoc]
    have hsplit : (∃ l a r, c :: t = l ++ a :: r ∧ (seen = true ∨ ∃ d ∈ l, d ≠ ' ') ∧
          cut = ⟨pos + l.length, column + cols l, cutKind rules (l.getLast?.getD before) a⟩) ↔
        (seen = true ∧ cut = ⟨pos, column, cutKind rules before c⟩) ∨
          ∃ l a r, c :: t = c :: l ++ a :: r ∧ (seen = true ∨ ∃ d ∈ c :: l, d ≠ ' ') ∧
            cut = ⟨pos + (c :: l).length, column + cols (c :: l),
              cutKind rules ((c :: l).getLast?.getD before) a⟩ := by
      constructor
      · rintro ⟨l, a, r, hl, hseen, rfl⟩
        cases l with
        | nil =>
          obtain ⟨rfl, rfl⟩ := List.cons.inj hl
          exact .inl ⟨by simpa using hseen, rfl⟩
        | cons d l =>
          obtain ⟨rfl, -⟩ := List.cons.inj hl
          exact .inr ⟨l, a, r, hl, hseen, rfl⟩
      · rintro (⟨hseen, rfl⟩ | ⟨l, a, r, hl, hseen, rfl⟩)
        · exact ⟨[], c, t, rfl, .inl hseen, rfl⟩
        · exact ⟨c :: l, a, r, hl, hseen, rfl⟩
    rw [hsplit, ← hrest, cutsFrom]
    cases seen <;> simp

theorem cutsFrom_sorted : Sorted (cutsFrom rules before pos column seen t) := by
  induction t generalizing before pos column seen with
  | nil => exact .nil
  | cons c t ih =>
    rw [cutsFrom]
    split
    · refine List.pairwise_cons.2 ⟨fun cut hcut => ?_, ih⟩
      obtain ⟨l, a, r, -, -, rfl⟩ := mem_cutsFrom.1 hcut
      exact ⟨by dsimp only; omega, by dsimp only; omega⟩
    · exact ih

theorem usableCuts_sorted (rules : Rules) (line : Text) (indentation : Nat) :
    Sorted (usableCuts rules line indentation) := by
  unfold usableCuts
  dsimp only
  split
  · exact .nil
  · exact cutsFrom_sorted

namespace Sorted

/-- Two cuts are one, or they stand in order. -/
theorem trichotomy (h : Sorted cuts) {a b : Cut} (ha : a ∈ cuts) (hb : b ∈ cuts) :
    a = b ∨ (a.pos < b.pos ∧ a.column ≤ b.column) ∨ (b.pos < a.pos ∧ b.column ≤ a.column) := by
  induction cuts with
  | nil => cases ha
  | cons d cuts ih =>
    obtain ⟨hd, hcuts⟩ := List.pairwise_cons.1 h
    rcases List.mem_cons.1 ha with rfl | ha'
    · rcases List.mem_cons.1 hb with rfl | hb'
      · exact .inl rfl
      · exact .inr (.inl (hd b hb'))
    · rcases List.mem_cons.1 hb with rfl | hb'
      · exact .inr (.inr (hd a ha'))
      · exact ih hcuts ha' hb'

theorem column_le (h : Sorted cuts) {a b : Cut} (ha : a ∈ cuts) (hb : b ∈ cuts)
    (hpos : a.pos ≤ b.pos) : a.column ≤ b.column := by
  rcases h.trichotomy ha hb with rfl | hlt | hlt
  · exact Nat.le_refl _
  · exact hlt.2
  · omega

theorem eq_of_pos_eq (h : Sorted cuts) {a b : Cut} (ha : a ∈ cuts) (hb : b ∈ cuts)
    (hpos : a.pos = b.pos) : a = b := by
  rcases h.trichotomy ha hb with heq | hlt | hlt
  · exact heq
  · omega
  · omega

/-- The first cut with a property. -/
theorem find?_spec (h : Sorted cuts) {p : Cut → Bool} (hfind : cuts.find? p = some cut) :
    cut ∈ cuts ∧ p cut = true ∧ ∀ c ∈ cuts, p c = true → cut.pos ≤ c.pos := by
  obtain ⟨hp, as, bs, rfl, has⟩ := List.find?_eq_some_iff_append.1 hfind
  refine ⟨by simp, hp, fun c hc hpc => ?_⟩
  rcases List.mem_append.1 hc with hc | hc
  · have := has c hc
    rw [hpc] at this
    cases this
  · rcases List.mem_cons.1 hc with rfl | hc
    · exact Nat.le_refl _
    · exact Nat.le_of_lt ((List.pairwise_cons.1 (List.pairwise_append.1 h).2.1).1 c hc).1

/-- The last cut with a property. -/
theorem find?_reverse_spec (h : Sorted cuts) {p : Cut → Bool}
    (hfind : cuts.reverse.find? p = some cut) :
    cut ∈ cuts ∧ p cut = true ∧ ∀ c ∈ cuts, p c = true → c.pos ≤ cut.pos := by
  obtain ⟨hp, as, bs, heq, has⟩ := List.find?_eq_some_iff_append.1 hfind
  obtain rfl : cuts = bs.reverse ++ cut :: as.reverse := by
    rw [← List.reverse_reverse cuts, heq]
    simp
  refine ⟨by simp, hp, fun c hc hpc => ?_⟩
  rcases List.mem_append.1 hc with hc | hc
  · exact Nat.le_of_lt ((List.pairwise_append.1 h).2.2 c hc cut List.mem_cons_self).1
  · rcases List.mem_cons.1 hc with rfl | hc
    · exact Nat.le_refl _
    · have := has c (List.mem_reverse.1 hc)
      rw [hpc] at this
      cases this

theorem filter (h : Sorted cuts) (p : Cut → Bool) : Sorted (cuts.filter p) :=
  List.Pairwise.filter p h

end Sorted

/-! ### The cut that is chosen -/

/-- The last cut that fits and is not `never`. -/
structure LastFitting (cuts : List Cut) (width : Nat) (cut : Cut) : Prop where
  mem : cut ∈ cuts
  fits : cut.column ≤ width
  kind : cut.kind ≠ .never
  last : ∀ c ∈ cuts, c.column ≤ width → c.kind ≠ .never → c.pos ≤ cut.pos

/-- The cut splits a line that is wider than `width`. -/
inductive Chosen (cuts : List Cut) (width : Nat) (cut : Cut) : Prop
  | last (h : LastFitting cuts width cut) (legal : cut.kind = .legal)
  /-- A legal one shortly before a rejected one. -/
  | before (last : Cut) (h : LastFitting cuts width last) (rejected : last.kind = .rejected)
      (mem : cut ∈ cuts) (legal : cut.kind = .legal) (lt : cut.pos < last.pos)
      (near : last.pos ≤ cut.pos + scanLimit)
      (closest : ∀ c ∈ cuts, c.kind = .legal → c.pos < last.pos → c.pos ≤ cut.pos)
  /-- A legal one shortly behind a rejected one. -/
  | behind (last : Cut) (h : LastFitting cuts width last) (rejected : last.kind = .rejected)
      (mem : cut ∈ cuts) (legal : cut.kind = .legal) (lt : last.pos < cut.pos)
      (near : cut.pos ≤ last.pos + scanLimit)
      (none_before : ∀ c ∈ cuts, c.kind = .legal → c.pos < last.pos → c.pos + scanLimit < last.pos)
      (closest : ∀ c ∈ cuts, c.kind = .legal → last.pos < c.pos → cut.pos ≤ c.pos)
  /-- A rejected one without a legal one near it. -/
  | rejected (h : LastFitting cuts width cut) (rejected : cut.kind = .rejected)
      (none_near : ∀ c ∈ cuts, c.kind = .legal →
        c.pos + scanLimit < cut.pos ∨ cut.pos + scanLimit < c.pos)
  /-- The first legal one, when none fits. -/
  | beyond (none_fits : ∀ c ∈ cuts, c.column ≤ width → c.kind = .never) (mem : cut ∈ cuts)
      (legal : cut.kind = .legal) (first : ∀ c ∈ cuts, c.kind = .legal → cut.pos ≤ c.pos)

theorem Chosen.mem (h : Chosen cuts width cut) : cut ∈ cuts := by
  cases h with
  | last h legal => exact h.mem
  | before _ _ _ mem => exact mem
  | behind _ _ _ mem => exact mem
  | rejected h => exact h.mem
  | beyond _ mem => exact mem

theorem LastFitting.unique (hcuts : Sorted cuts) (h : LastFitting cuts width cut) {last : Cut}
    (hlast : LastFitting cuts width last) : cut = last :=
  hcuts.eq_of_pos_eq h.mem hlast.mem (Nat.le_antisymm (hlast.last cut h.mem h.fits h.kind)
    (h.last last hlast.mem hlast.fits hlast.kind))

/-- What is chosen near a rejected cut. -/
inductive NearRejected (cuts : List Cut) (last cut : Cut) : Prop
  | before (mem : cut ∈ cuts) (legal : cut.kind = .legal) (lt : cut.pos < last.pos)
      (near : last.pos ≤ cut.pos + scanLimit)
      (closest : ∀ c ∈ cuts, c.kind = .legal → c.pos < last.pos → c.pos ≤ cut.pos)
  | behind (mem : cut ∈ cuts) (legal : cut.kind = .legal) (lt : last.pos < cut.pos)
      (near : cut.pos ≤ last.pos + scanLimit)
      (none_before : ∀ c ∈ cuts, c.kind = .legal → c.pos < last.pos → c.pos + scanLimit < last.pos)
      (closest : ∀ c ∈ cuts, c.kind = .legal → last.pos < c.pos → cut.pos ≤ c.pos)
  | alone (eq : cut = last) (none_near : ∀ c ∈ cuts, c.kind = .legal →
      c.pos + scanLimit < last.pos ∨ last.pos + scanLimit < c.pos)

/-- The choice starts from the last cut that fits. -/
theorem Chosen.of_lastFitting (h : Chosen cuts width cut) (hcuts : Sorted cuts) {last : Cut}
    (hlast : LastFitting cuts width last) : last.kind = .legal ∧ cut = last ∨
      last.kind = .rejected ∧ NearRejected cuts last cut := by
  cases h with
  | last h legal =>
    obtain rfl := h.unique hcuts hlast
    exact .inl ⟨legal, rfl⟩
  | before last' h rejected mem legal lt near closest =>
    obtain rfl := h.unique hcuts hlast
    exact .inr ⟨rejected, .before mem legal lt near closest⟩
  | behind last' h rejected mem legal lt near none_before closest =>
    obtain rfl := h.unique hcuts hlast
    exact .inr ⟨rejected, .behind mem legal lt near none_before closest⟩
  | rejected h rejected none_near =>
    obtain rfl := h.unique hcuts hlast
    exact .inr ⟨rejected, .alone rfl none_near⟩
  | beyond none_fits => exact absurd (none_fits last hlast.mem hlast.fits) hlast.kind

/-- When none fits, the choice is the first legal cut. -/
theorem Chosen.of_none_fits (h : Chosen cuts width cut)
    (hnone : ∀ c, ¬ LastFitting cuts width c) :
    cut ∈ cuts ∧ cut.kind = .legal ∧ ∀ c ∈ cuts, c.kind = .legal → cut.pos ≤ c.pos := by
  cases h with
  | last h => exact absurd h (hnone cut)
  | before last h => exact absurd h (hnone last)
  | behind last h => exact absurd h (hnone last)
  | rejected h => exact absurd h (hnone cut)
  | beyond _ mem legal first => exact ⟨mem, legal, first⟩

theorem lastFitting_of_find? (hcuts : Sorted cuts)
    (h : (cuts.filter (·.column ≤ width)).reverse.find? (·.kind != .never) = some cut) :
    LastFitting cuts width cut := by
  obtain ⟨hmem, hkind, hlast⟩ := (hcuts.filter _).find?_reverse_spec h
  obtain ⟨hcut, hfits⟩ := List.mem_filter.1 hmem
  exact ⟨hcut, of_decide_eq_true hfits, by simpa using hkind, fun c hc hfit hne =>
    hlast c (List.mem_filter.2 ⟨hc, decide_eq_true hfit⟩) (by simpa using hne)⟩

theorem none_fits_of_find?
    (h : (cuts.filter (·.column ≤ width)).reverse.find? (·.kind != .never) = none) :
    ∀ c ∈ cuts, c.column ≤ width → c.kind = .never := by
  intro c hc hfits
  have := List.find?_eq_none.1 h c
    (List.mem_reverse.2 (List.mem_filter.2 ⟨hc, decide_eq_true hfits⟩))
  simpa using this

/-- A line that is not split has no legal cut. -/
theorem not_legal_of_findBreak_eq_none (h : findBreak rules line indentation width = none) :
    ∀ c ∈ usableCuts rules line indentation,
      c.kind ≠ .legal ∧ (c.column ≤ width → c.kind = .never) := by
  unfold findBreak at h
  dsimp only at h
  split at h
  · rename_i hnone
    intro c hc
    have hlegal := List.find?_eq_none.1 (Option.map_eq_none_iff.1 h) c hc
    exact ⟨by simpa using hlegal, none_fits_of_find? hnone c hc⟩
  · split at h <;> cases h

/-- A line is split at the cut that is chosen. -/
theorem chosen_of_findBreak (h : findBreak rules line indentation width = some pos) :
    ∃ cut, cut.pos = pos ∧ Chosen (usableCuts rules line indentation) width cut := by
  have hcuts := usableCuts_sorted rules line indentation
  unfold findBreak at h
  dsimp only at h
  generalize usableCuts rules line indentation = cuts at h hcuts
  split at h
  · rename_i hnone
    obtain ⟨cut, hfind, rfl⟩ := Option.map_eq_some_iff.1 h
    obtain ⟨hmem, hlegal, hfirst⟩ := hcuts.find?_spec hfind
    exact ⟨cut, rfl, .beyond (none_fits_of_find? hnone) hmem (by simpa using hlegal)
      fun c hc hc' => hfirst c hc (by simpa using hc')⟩
  · rename_i last hlast
    have hfit := lastFitting_of_find? hcuts hlast
    split at h
    · rename_i hlegal
      obtain rfl := Option.some.inj h
      exact ⟨last, rfl, .last hfit hlegal⟩
    · rename_i hlegal
      have hrejected : last.kind = .rejected := by
        have := hfit.kind
        cases hkind : last.kind <;> simp_all
      have hlegals := hcuts.filter (·.kind == .legal)
      have hmem {c : Cut} : c ∈ cuts.filter (·.kind == .legal) ↔ c ∈ cuts ∧ c.kind = .legal := by
        simp
      generalize cuts.filter (·.kind == .legal) = legals at h hlegals hmem
      cases hbefore : legals.reverse.find? fun c => c.pos < last.pos && last.pos ≤ c.pos + scanLimit
      with
      | some cut =>
        obtain ⟨hcut, hnear, hclosest⟩ := hlegals.find?_reverse_spec hbefore
        simp only [Bool.and_eq_true, decide_eq_true_eq] at hnear hclosest
        obtain ⟨hcut, hkind⟩ := hmem.1 hcut
        refine ⟨cut, by simpa [hbefore] using h,
          .before last hfit hrejected hcut hkind hnear.1 hnear.2 fun c hc hc' hlt => ?_⟩
        by_contra hgt
        exact hgt (hclosest c (hmem.2 ⟨hc, hc'⟩) ⟨hlt, by omega⟩)
      | none =>
        have hnone : ∀ c ∈ cuts, c.kind = .legal → c.pos < last.pos → c.pos + scanLimit < last.pos := by
          intro c hc hc' hlt
          have := List.find?_eq_none.1 hbefore c (List.mem_reverse.2 (hmem.2 ⟨hc, hc'⟩))
          simp only [Bool.and_eq_true, decide_eq_true_eq, not_and] at this
          exact Nat.lt_of_not_le (this hlt)
        cases hbehind : legals.find? fun c => last.pos < c.pos && c.pos ≤ last.pos + scanLimit with
        | some cut =>
          obtain ⟨hcut, hnear, hclosest⟩ := hlegals.find?_spec hbehind
          simp only [Bool.and_eq_true, decide_eq_true_eq] at hnear hclosest
          obtain ⟨hcut, hkind⟩ := hmem.1 hcut
          refine ⟨cut, by simpa [hbefore, hbehind] using h,
            .behind last hfit hrejected hcut hkind hnear.1 hnear.2 hnone fun c hc hc' hlt => ?_⟩
          by_contra hgt
          exact hgt (hclosest c (hmem.2 ⟨hc, hc'⟩) ⟨hlt, by omega⟩)
        | none =>
          refine ⟨last, by simpa [hbefore, hbehind] using h, .rejected hfit hrejected
            fun c hc hc' => ?_⟩
          have := List.find?_eq_none.1 hbehind c (hmem.2 ⟨hc, hc'⟩)
          simp only [Bool.and_eq_true, decide_eq_true_eq, not_and] at this
          rcases Nat.lt_trichotomy c.pos last.pos with hlt | heq | hlt
          · exact .inl (hnone c hc hc' hlt)
          · rw [hcuts.eq_of_pos_eq hc hfit.mem heq, hrejected] at hc'
            cases hc'
          · exact .inr (Nat.lt_of_not_le (this hlt))

/-! ### Indented lines -/

/-- The text begins with something to see. -/
def Begins (t : Text) : Prop := ∃ c, t.head? = some c ∧ c ≠ ' '

theorem mem_usableCuts (ht : Begins t) :
    cut ∈ usableCuts rules (spaces indentation ++ t) indentation ↔ ∃ l b a r, t = l ++ b :: a :: r ∧
      cut = ⟨indentation + l.length + 1, indentation + cols (l ++ [b]), cutKind rules b a⟩ := by
  obtain ⟨c, hc, hne⟩ := ht
  obtain ⟨t, rfl⟩ := List.head?_eq_some_iff.1 hc
  rw [usableCuts_indented hne, mem_cutsFrom]
  constructor
  · rintro ⟨l, a, r, rfl, -, rfl⟩
    rcases List.eq_nil_or_concat' l with rfl | ⟨l, b, rfl⟩
    · exact ⟨[], c, a, r, rfl, by simp⟩
    · refine ⟨c :: l, b, a, r, by simp, ?_⟩
      simp only [List.length_append, List.length_cons, List.length_nil, List.getLast?_concat,
        Option.getD_some, List.cons_append, cols_cons, Cut.mk.injEq, and_true]
      omega
  · rintro ⟨l, b, a, r, hl, rfl⟩
    cases l with
    | nil =>
      obtain ⟨rfl, rfl⟩ := List.cons.inj hl
      exact ⟨[], a, r, rfl, .inl rfl, by simp⟩
    | cons d l =>
      obtain ⟨rfl, rfl⟩ := List.cons.inj hl
      refine ⟨l ++ [b], a, r, by simp, .inl rfl, ?_⟩
      simp only [List.length_append, List.length_cons, List.length_nil, List.getLast?_concat,
        Option.getD_some, List.cons_append, cols_cons, Cut.mk.injEq, and_true]
      omega

theorem Begins.append (ht : Begins t) (u : Text) : Begins (t ++ u) := by
  obtain ⟨c, hc, hne⟩ := ht
  exact ⟨c, by rw [List.head?_append, hc]; rfl, hne⟩

/-- The cuts of the first part of a line are those of the line that lie in it. -/
theorem mem_usableCuts_append (rules : Rules) (ht : Begins t) (u : Text) :
    cut ∈ usableCuts rules (spaces indentation ++ t) indentation ↔
      cut ∈ usableCuts rules (spaces indentation ++ (t ++ u)) indentation ∧
        cut.pos < indentation + t.length := by
  rw [mem_usableCuts ht, mem_usableCuts (ht.append u)]
  constructor
  · rintro ⟨l, b, a, r, rfl, rfl⟩
    refine ⟨⟨l, b, a, r ++ u, by simp, rfl⟩, ?_⟩
    simp only [List.length_append, List.length_cons]
    omega
  · rintro ⟨⟨l, b, a, r, hl, rfl⟩, hlt⟩
    have hprefix : l ++ [b, a] <+: t := by
      have hall : l ++ [b, a] <+: t ++ u := ⟨r, by rw [hl]; simp⟩
      refine List.prefix_of_prefix_length_le hall (List.prefix_append t u) ?_
      simp only [List.length_append, List.length_cons, List.length_nil]
      dsimp only at hlt
      omega
    obtain ⟨r, rfl⟩ := hprefix
    exact ⟨l, b, a, r, by simp, rfl⟩

/-- The cut divides an indented text: `l` stays and `r` goes to the next line, without the `n` spaces
between them. -/
structure Divides (indentation : Nat) (t : Text) (cut : Cut) (l : Text) (n : Nat) (r : Text) :
    Prop where
  eq : t = l ++ spaces n ++ r
  split : Page.splitLine (spaces indentation ++ t) cut.pos = (spaces indentation ++ l, r)
  begins : Begins l
  last : ∃ d, l.getLast? = some d ∧ d ≠ ' '
  next : ∀ c, r.head? = some c → c ≠ ' '
  le_pos : indentation + l.length ≤ cut.pos
  pos_le : cut.pos ≤ indentation + l.length + n
  le_column : indentation + cols l ≤ cut.column

theorem dropEndWhile_append_of_mem {s t : Text} (h : ∃ c ∈ t, c ≠ ' ') :
    dropEndWhile (· == ' ') (s ++ t) = s ++ dropEndWhile (· == ' ') t := by
  obtain ⟨c, hc, hne⟩ := h
  have hdrop : (t.reverse.dropWhile (· == ' ')).isEmpty = false := by
    rw [List.isEmpty_eq_false_iff, Ne, List.dropWhile_eq_nil_iff]
    intro hall
    exact hne (eq_of_beq (hall c (List.mem_reverse.2 hc)))
  rw [dropEndWhile, dropEndWhile, List.reverse_append, List.dropWhile_append, hdrop]
  simp

theorem divides_of_mem_usableCuts (ht : Begins t)
    (hcut : cut ∈ usableCuts rules (spaces indentation ++ t) indentation) :
    ∃ l n r, Divides indentation t cut l n r := by
  obtain ⟨l, b, a, r, rfl, rfl⟩ := (mem_usableCuts ht).1 hcut
  obtain ⟨c, hc, hne⟩ := ht
  have hkept : (l ++ [b]).head? = some c := by
    cases l with
    | nil => exact hc
    | cons d l => exact hc
  have hmem : ∃ c ∈ l ++ [b], c ≠ ' ' := ⟨c, List.mem_of_head? hkept, hne⟩
  have hlength : (spaces indentation ++ (l ++ [b])).length = indentation + l.length + 1 := by
    simp [spaces, Nat.add_assoc]
  have hline : spaces indentation ++ (l ++ b :: a :: r) =
      spaces indentation ++ (l ++ [b]) ++ a :: r := by simp
  obtain ⟨x, hx, hxspace⟩ := dropEndWhile_append (· == ' ') (l ++ [b])
  obtain ⟨y, hy, hyspace⟩ := dropWhile_append (· == ' ') (a :: r)
  have hlast (d : Char) (hd : (dropEndWhile (· == ' ') (l ++ [b])).getLast? = some d) : d ≠ ' ' := by
    simpa using not_of_getLast?_dropEndWhile hd
  generalize hl' : dropEndWhile (· == ' ') (l ++ [b]) = l' at hx hlast
  have hl'ne : l' ≠ [] := by
    rintro rfl
    rw [hx] at hmem
    obtain ⟨d, hd, hdne⟩ := hmem
    exact hdne (eq_of_beq (hxspace d hd))
  obtain ⟨d, hd⟩ := Option.ne_none_iff_exists'.1 fun h => hl'ne (List.getLast?_eq_none_iff.1 h)
  have hbegins : Begins l' := by
    refine ⟨c, ?_, hne⟩
    rw [hx, List.head?_append_of_ne_nil _ hl'ne] at hkept
    exact hkept
  have hsum := congrArg List.length hx
  have hcols : cols (l ++ [b]) = cols l' + cols x := by rw [hx, cols_append]
  simp only [List.length_append, List.length_cons, List.length_nil] at hsum
  refine ⟨l', x.length + y.length, (a :: r).dropWhile (· == ' '), ?_, ?_, hbegins, ⟨d, hd, hlast d hd⟩,
    fun e he => ?_, ?_, ?_, ?_⟩
  · have hspaces : spaces (x.length + y.length) = x ++ y := by
      conv_rhs => rw [eq_spaces hxspace, eq_spaces hyspace]
      exact List.replicate_append_replicate.symm
    rw [hspaces, List.append_cons, hx]
    conv_lhs => rw [hy]
    simp
  · rw [Page.splitLine, hline, List.take_left' hlength, List.drop_left' hlength,
      dropEndWhile_append_of_mem hmem, hl']
  · have := List.head?_dropWhile_not (· == ' ') (a :: r)
    rw [he] at this
    simpa using this
  · dsimp only; omega
  · dsimp only; omega
  · dsimp only; omega

end MarkupText.LineBreak
