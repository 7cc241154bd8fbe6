import Mathlib.Data.List.Chain
import MarkupText.Proofs.Flow.Divisions
import MarkupText.Proofs.Flow.Overflow

/-!
# Folding what was folded

Inserting a finished text again gives its lines back (`Page.finish_insert_finish`), if these would stay
as they are and none was split where a line must not begin or end. Every line was split off one that
was too wide, and the next begins with what was left of that (`Laid`). So when the words come in again,
the first word of the next line makes the line too wide again, and it is split in front of that word
(`Division.folds_again`); the further words of a line find room on it (`Page.Reached.placeRest`).

Where a line must not begin or end the words are put together with a space or without, as the
characters there ask for, and nothing says that the line is split there once more. A line that is too
wide and still has a rejected cut is split there when it stands by itself.
-/

namespace MarkupText

open Text LineBreak Greedy

section Lines
variable {rules : Rules} {cs t u v w l r : Text} {indentation width n g : Nat} {cut : Cut} {a b : Char}

/-- The line `l` was split off in front of one that `v` tells of. -/
def SplitOff (rules : Rules) (cs : Text) (indentation width : Nat) (tells : Text → Text → Prop)
    (l v : Text) : Prop :=
  ∃ n r cut, Division rules cs indentation width l n r cut ∧ tells r v

/-- No two lines were split at a rejected cut. -/
def Unforced (rules : Rules) (ls : List Text) : Prop :=
  ls.IsChain fun upper lower => seam? rules upper lower ≠ some .rejected

instance (rules : Rules) (ls : List Text) : Decidable (Unforced rules ls) :=
  inferInstanceAs (Decidable (List.IsChain _ _))

theorem isChain_concat {α : Type} {R : α → α → Prop} {xs : List α} {x : α} :
    (xs ++ [x]).IsChain R ↔ xs.IsChain R ∧ ∀ y ∈ xs.getLast?, R y x := by
  simp [List.isChain_append]

theorem seam?_congr (hu : u.head? = some a) (hv : v.head? = some a) (hne : a ≠ ' ') :
    seam? rules l u = seam? rules l v := by
  obtain ⟨u, rfl⟩ := List.head?_eq_some_iff.1 hu
  obtain ⟨v, rfl⟩ := List.head?_eq_some_iff.1 hv
  have hspace (x : Text) : (a :: x).dropWhile (· == ' ') = a :: x :=
    List.dropWhile_cons_of_neg (by simpa using hne)
  rw [seam?, seam?, hspace, hspace]
  rfl

/-- The lines, and what stands on the one being written: if none was split where it must not be, each
was split off in front of the next. -/
structure Laid (rules : Rules) (cs : Text) (indentation width : Nat) (ms : List Text) (t : Text) :
    Prop where
  gapped : ∀ m ∈ ms ++ [t], Gapped rules m
  filled : ∀ m ∈ ms, Filled cs m
  split : Unforced rules (ms ++ [t]) →
    ms.IsChain (SplitOff rules cs indentation width (Follows rules)) ∧
      ∀ m ∈ ms.getLast?, SplitOff rules cs indentation width (· <+: ·) m t

theorem Unforced.of_head {ms : List Text} (h : Unforced rules (ms ++ [u]))
    (hu : u.head? = some a) (hv : v.head? = some a) (hne : a ≠ ' ') :
    Unforced rules (ms ++ [v]) := by
  obtain ⟨hms, hlast⟩ := isChain_concat.1 h
  exact isChain_concat.2 ⟨hms, fun m hm => seam?_congr hv hu hne ▸ hlast m hm⟩

theorem foldInvariant_laid (hcs : Measured cs) : Page.FoldInvariant rules cs indentation width
    fun ls t => ∃ ms, ls = ms.map (spaces indentation ++ ·) ∧ Laid rules cs indentation width ms t where
  first hw := ⟨[], rfl, fun m hm => List.mem_singleton.1 hm ▸ .of_inked hw, (by simp),
    fun _ => ⟨.nil, by simp⟩⟩
  word {ls t w} wanted hk ht _ hw := by
    obtain ⟨ms, rfl, h⟩ := hk
    obtain ⟨a, ha, hne⟩ := ht.begins
    have hbehind : (t ++ Page.gapFor rules wanted t w ++ w).head? = some a := by
      rw [List.append_assoc, List.head?_append, ha]
      rfl
    refine ⟨ms, rfl, fun m hm => ?_, h.filled, fun hunforced => ?_⟩
    · rcases List.mem_append.1 hm with hm | hm
      · exact h.gapped m (List.mem_append_left _ hm)
      · rw [List.mem_singleton.1 hm]
        exact (h.gapped t (by simp)).append ht hw wanted
    · -- the line still begins where it did, so the lines above it know it
      obtain ⟨hchain, hlast⟩ := h.split (hunforced.of_head hbehind ha hne)
      refine ⟨hchain, fun m hm => ?_⟩
      obtain ⟨n, r, cut, hdivision, hprefix⟩ := hlast m hm
      exact ⟨n, r, cut, hdivision, hprefix.trans (by rw [List.append_assoc]; exact List.prefix_append _ _)⟩
  split {ls t cut l n r} hk ht hl wide chosen divides := by
    obtain ⟨ms, rfl, h⟩ := hk
    have heq := divides.eq
    obtain ⟨a, ha, hne⟩ := hl.begins
    have hbegins : t.head? = some a := by
      rw [heq, List.append_assoc, List.head?_append, ha]
      rfl
    have hgapped := h.gapped t (by simp)
    have hdivision : Division rules cs indentation width l n r cut :=
      ⟨heq ▸ ht, heq ▸ hgapped, heq ▸ wide, heq ▸ chosen, heq ▸ divides⟩
    refine ⟨ms ++ [l], by simp, fun m hm => ?_, fun m hm => ?_, fun hunforced => ?_⟩
    · rcases List.mem_append.1 hm with hm | hm
      · rcases List.mem_append.1 hm with hm | hm
        · exact h.gapped m (List.mem_append_left _ hm)
        · rw [List.mem_singleton.1 hm]
          exact hdivision.gapped.left.left
      · rw [List.mem_singleton.1 hm]
        exact hdivision.gapped.right
    · rcases List.mem_append.1 hm with hm | hm
      · exact h.filled m hm
      · exact List.mem_singleton.1 hm ▸ hl
    · obtain ⟨hupper, hseam⟩ := isChain_concat.1 hunforced
      have hseam : seam? rules l r ≠ some .rejected := hseam l (by simp)
      obtain ⟨hchain, hlast⟩ := h.split (Unforced.of_head hupper ha hbegins hne)
      refine ⟨isChain_concat.2 ⟨hchain, fun m hm => ?_⟩, fun m hm => ?_⟩
      · obtain ⟨n', r', cut', hdivision', hprefix⟩ := hlast m hm
        exact ⟨n', r', cut', hdivision', hdivision.follows hcs hseam (heq ▸ hprefix)⟩
      · obtain rfl : l = m := by simpa using hm
        exact ⟨n, r, cut, hdivision, List.prefix_refl r⟩

/-! ### Splitting once more -/

theorem splitLine_joint (hl : Filled cs l) (hv : Filled cs v) {pos : Nat}
    (hle : indentation + l.length ≤ pos) (hpos : pos ≤ indentation + l.length + g) :
    Page.splitLine (spaces indentation ++ (l ++ spaces g ++ v)) pos = (spaces indentation ++ l, v) := by
  obtain ⟨k, rfl⟩ := Nat.exists_eq_add_of_le hle
  have hlength : (spaces indentation ++ l ++ spaces k).length = indentation + l.length + k := by
    simp [spaces, Nat.add_assoc]
  have hline : spaces indentation ++ (l ++ spaces g ++ v) =
      spaces indentation ++ l ++ spaces k ++ (spaces (g - k) ++ v) := by
    rw [spaces_eq_append (show k ≤ g by omega)]
    simp
  have hspace (n : Nat) : ∀ c ∈ spaces n, (c == ' ') = true := fun c hc => by
    rw [List.eq_of_mem_replicate hc]
    rfl
  have hkept : dropEndWhile (· == ' ') (spaces indentation ++ l ++ spaces k) =
      spaces indentation ++ l := by
    obtain ⟨d, hd, hne⟩ := hl.last
    obtain ⟨x, rfl⟩ := List.getLast?_eq_some_iff.1 hd
    rw [dropEndWhile, List.reverse_append,
      List.dropWhile_append_of_pos fun c hc => hspace k c (List.mem_reverse.1 hc)]
    change dropEndWhile (· == ' ') _ = _
    rw [← List.append_assoc]
    exact List.rdropWhile_concat_neg _ _ _ (by simpa using hne)
  have hmoved : (spaces (g - k) ++ v).dropWhile (· == ' ') = v := by
    obtain ⟨a, ha, hne⟩ := hv.begins
    obtain ⟨v, rfl⟩ := List.head?_eq_some_iff.1 ha
    rw [List.dropWhile_append_of_pos (hspace (g - k)),
      List.dropWhile_cons_of_neg (by simpa using hne)]
  rw [Page.splitLine, hline, List.take_left' hlength, List.drop_left' hlength, hkept, hmoved]

theorem Folds.eq_of_stays {ls ls' : List Text} {t' : Text}
    (h : Folds rules indentation width ls t ls' t') (hstays : Stays rules indentation width t) :
    ls' = ls ∧ t' = t := by
  cases h with
  | refl => exact ⟨rfl, rfl⟩
  | split cut wide chosen => exact (hstays.not_chosen wide chosen).elim

namespace Division

/-- The gap in front of the first word of the next line is no less than what was dropped there. -/
theorem exists_gap (h : Division rules cs indentation width l n r cut) (hcs : Measured cs)
    (hw : Follows rules r w) (hne : w ≠ []) :
    ∃ g, n ≤ g ∧ Page.gapFor rules true l w = spaces g := by
  obtain ⟨b, hb⟩ := Option.ne_none_iff_exists'.1
    (mt List.getLast?_eq_none_iff.1 (h.line hcs).ne_nil)
  obtain ⟨a, ha, -⟩ := (h.rest hcs).begins
  have hspaces := h.spaces_le hb ha
  have hhead := hw.head ha hne
  rw [Page.gapFor, hb, hhead]
  dsimp only
  cases hjoins : Page.joins rules b a with
  | true =>
    rw [hjoins] at hspaces
    exact ⟨0, by simpa using hspaces, rfl⟩
  | false => exact ⟨1, by omega, rfl⟩

/-- With the first word of the next line behind it the line is split in front of that word. -/
theorem folds_again (h : Division rules cs indentation width l n r cut) (hcs : Measured cs)
    (hseam : seam? rules l r ≠ some .rejected) (hl : Stays rules indentation width l)
    (hfollows : Follows rules r w) (hw : Inked cs w) (hstays : Stays rules indentation width w)
    {ls ls' : List Text} {t' : Text}
    (hfolds : Folds rules indentation width ls (l ++ Page.gapFor rules true l w ++ w) ls' t')
    (hstays' : Stays rules indentation width t') :
    ls' = ls ++ [spaces indentation ++ l] ∧ t' = w := by
  have hfilled := (h.line hcs).append (Page.gapFor_cases rules true l w) hw.filled
  obtain ⟨g, hg, hgap⟩ := h.exists_gap hcs hfollows hw.1
  rw [hgap] at hfolds hfilled
  have hwide := h.wide_again hcs hseam hfollows hw.1 hg hfilled
  cases hfolds with
  | refl =>
    -- too wide with a legal cut, the line cannot have been left as it is
    obtain ⟨c, hc, -, -, hlegal⟩ := exists_seam indentation (h.line hcs) hw.1
      (h.touch_next hcs hseam hfollows hw.1 hg) (Nat.zero_le g)
    have hnone := hstays'.resolve_left (Nat.not_le.2 hwide)
    exact absurd hlegal (not_legal_of_findBreak_eq_none hnone c hc).1
  | split cut wide chosen divides rest =>
    obtain ⟨hle, hpos⟩ := h.pos_of_chosen hcs hseam hl hfollows hw.1 hg chosen
    have hsplit := divides.split.symm.trans (splitLine_joint (h.line hcs) hw.filled hle hpos)
    obtain ⟨hupper, rfl⟩ := Prod.mk.inj hsplit
    rw [hupper] at rest
    exact rest.eq_of_stays hstays

end Division

/-! ### Words of lines -/

theorem words_cons_blank (hc : isBlank a = true) (t : Text) : words (a :: t) = words t := by
  simp [words, List.splitOnP_cons_eq_if_modifyHead, hc]

theorem words_append_space (hw : Inked cs w) (u : Text) : words (w ++ ' ' :: u) = w :: words u := by
  have hsolid : words w = [w] := words_of_solid hw.1 fun c hc => (hw.2 c hc).2
  rw [words_append (.inr fun c hc => ?_), hsolid, words_cons_blank isBlank_space]
  · rfl
  · obtain rfl : ' ' = c := by simpa using hc
    exact isBlank_space

theorem words_indented (n : Nat) (t : Text) : words (spaces n ++ t) = words t := by
  induction n with
  | zero => rfl
  | succ n ih =>
    rw [show spaces (n + 1) = ' ' :: spaces n from List.replicate_succ, List.cons_append,
      words_cons_blank isBlank_space, ih]

theorem words_ended (ls : List Text) (t : Text) : words (ended ls ++ t) = ls.flatMap words ++ words t := by
  induction ls with
  | nil => rfl
  | cons l ls ih =>
    have hcons : ended (l :: ls) ++ t = l ++ '\n' :: (ended ls ++ t) := by simp [ended]
    rw [hcons, words_append (.inr fun c hc => ?_), words_cons_blank isBlank_newline, ih,
      List.flatMap_cons, List.append_assoc]
    obtain rfl : '\n' = c := by simpa using hc
    exact isBlank_newline

theorem Filled.words_ne_nil (h : Filled cs t) : words t ≠ [] := by
  obtain ⟨c, hc, hne⟩ := h.begins
  have hmem := List.mem_of_head? hc
  intro hwords
  have hblank := List.all_eq_true.1 (Page.words_eq_nil_iff.1 hwords) c hmem
  rw [((h.chars c hmem).resolve_left hne).2] at hblank
  cases hblank

theorem Gapped.gapFor_eq (h : Gapped rules (u ++ ' ' :: w)) (hu : u ≠ []) (hw : w ≠ []) :
    Page.gapFor rules true u w = [' '] := by
  obtain ⟨x, b, rfl⟩ := (List.eq_nil_or_concat' u).resolve_left hu
  obtain ⟨a, y, rfl⟩ := List.exists_cons_of_ne_nil hw
  have hjoins := (h x b a y (by simp)).2.2
  simp [Page.gapFor, hjoins]

/-- A line of several words that stays fits. -/
theorem Stays.fits_of_space (h : Stays rules indentation width (u ++ ' ' :: v)) (hu : Filled cs u) :
    (spaces indentation ++ (u ++ ' ' :: v)).width ≤ width := by
  rcases h with h | h
  · exact h
  obtain ⟨x, b, rfl⟩ := (List.eq_nil_or_concat' u).resolve_left hu.ne_nil
  have hcut : (⟨indentation + x.length + 1, indentation + cols (x ++ [b]), cutKind rules b ' '⟩ : Cut) ∈
      usableCuts rules (spaces indentation ++ (x ++ [b] ++ ' ' :: v)) indentation :=
    (mem_usableCuts (hu.begins.append _)).2 ⟨x, b, ' ', v, by simp, rfl⟩
  have hlegal : cutKind rules b ' ' = .legal := by rw [cutKind, if_pos (.inr rfl)]
  exact absurd hlegal (not_legal_of_findBreak_eq_none h _ hcut).1

/-- What a line of several words begins with stays. -/
theorem Stays.prefix_space (h : Stays rules indentation width (u ++ ' ' :: v)) (hcs : Measured cs)
    (hu : Filled cs u) (hv : Filled cs (u ++ ' ' :: v)) : Stays rules indentation width u := by
  have hfits := h.fits_of_space hu
  rw [hv.width_eq hcs, cols_append] at hfits
  exact .inl (by rw [hu.width_eq hcs]; omega)

/-- A line that a further pass can build again. -/
structure Steady (rules : Rules) (cs : Text) (indentation width : Nat) (t : Text) : Prop where
  filled : Filled cs t
  gapped : Gapped rules t
  stays : Stays rules indentation width t

end Lines

namespace Page
variable {rules : Rules} {cs t u v w : Text} {ms vs ws ws' : List Text} {p : Page}
  {spaceBefore : Bool}

theorem placeWords_append (h : ws ≠ []) : p.placeWords rules spaceBefore (ws ++ ws') =
    (p.placeWords rules spaceBefore ws).placeWords rules true ws' := by
  induction ws generalizing p spaceBefore with
  | nil => exact absurd rfl h
  | cons w ws ih =>
    cases ws with
    | nil => rfl
    | cons v ws => exact ih (List.cons_ne_nil v ws)

/-- The page shows the lines, the last one without an end. -/
def Reached (ms : List Text) (p : Page) : Prop :=
  p.buffer.text ++ ['\n'] = ended (ms.map (spaces p.layout.indentation ++ ·))

theorem reached_concat : Reached (ms ++ [u]) p ↔ p.buffer.text =
    ended (ms.map (spaces p.layout.indentation ++ ·)) ++ (spaces p.layout.indentation ++ u) := by
  rw [Reached, List.map_append, List.map_singleton, ended_concat]
  exact List.append_left_inj _

namespace Reached

theorem placeWord (h : Reached (ms ++ [u]) p) (hcs : Measured cs) (hu : Filled cs u)
    (hw : Inked cs w) (hgapped : Gapped rules (u ++ ' ' :: w))
    (hstays : Stays rules p.layout.indentation p.layout.width (u ++ ' ' :: w)) :
    Reached (ms ++ [u ++ ' ' :: w]) (p.placeWord rules true w) := by
  have hgap := hgapped.gapFor_eq hu.ne_nil hw.1
  have hp := reached_concat.1 h
  rw [← List.append_nil (_ ++ u)] at hp
  obtain ⟨ls', t', hfolds, -, -, htext⟩ := folds_placeWord rules true hcs hu hw (.inl rfl) hp
  rw [Bool.true_or, hgap, List.append_assoc] at hfolds
  obtain ⟨rfl, rfl⟩ := hfolds.eq_of_stays hstays
  rw [reached_concat, layout_placeWord]
  exact htext

/-- The words that follow on a line are written behind it. -/
theorem placeRest (h : Reached (ms ++ [u]) p) (hcs : Measured cs) (hu : Filled cs u)
    (hv : Filled cs v) (hline : Steady rules cs p.layout.indentation p.layout.width (u ++ ' ' :: v)) :
    Reached (ms ++ [u ++ ' ' :: v]) (p.placeWords rules true v.words) := by
  -- on the length of what is still to be written, `u` being what is written of the line
  induction hn : v.length using Nat.strong_induction_on generalizing u v p with
  | _ n ih =>
  subst hn
  have hgapped : Gapped rules v := (List.append_cons u ' ' v ▸ hline.gapped).right
  rcases hv.cases hgapped with hw | ⟨w, v, rfl, hw, hv', -⟩
  · rw [words_of_solid hw.1 fun c hc => (hw.2 c hc).2]
    exact h.placeWord hcs hu hw hline.gapped hline.stays
  · have hassoc : u ++ ' ' :: (w ++ ' ' :: v) = u ++ ' ' :: w ++ ' ' :: v := by simp
    rw [hassoc] at hline ⊢
    have huw : Filled cs (u ++ ' ' :: w) := by
      simpa using hu.append (.inr rfl) hw.filled
    have hplaced := h.placeWord hcs hu hw hline.gapped.left
      (hline.stays.prefix_space hcs huw hline.filled)
    rw [words_append_space hw]
    rw [← layout_placeWord rules p true w] at hline
    exact ih v.length (by simp; omega) hplaced huw hv' hline rfl

/-- A line is written when its first word is. -/
theorem placeLine (hcs : Measured cs)
    (hline : Steady rules cs p.layout.indentation p.layout.width v)
    (hfirst : ∀ w, Inked cs w → (v = w ∨ ∃ u, v = w ++ ' ' :: u) →
      Stays rules p.layout.indentation p.layout.width w →
      Reached (ms ++ [w]) (p.placeWord rules spaceBefore w)) :
    Reached (ms ++ [v]) (p.placeWords rules spaceBefore v.words) := by
  rcases hline.filled.cases hline.gapped with hw | ⟨w, u, rfl, hw, hu, -⟩
  · rw [words_of_solid hw.1 fun c hc => (hw.2 c hc).2]
    exact hfirst v hw (.inl rfl) hline.stays
  · rw [words_append_space hw]
    have hplaced := hfirst w hw (.inr ⟨u, rfl⟩)
      (hline.stays.prefix_space hcs hw.filled hline.filled)
    rw [← layout_placeWord rules p spaceBefore w] at hline
    exact hplaced.placeRest hcs hw.filled hu hline

theorem placeFirst (hcs : Measured cs) (hp : p.buffer.text = [])
    (hline : Steady rules cs p.layout.indentation p.layout.width v) :
    Reached [v] (p.placeWords rules spaceBefore v.words) := by
  change Reached ([] ++ [v]) _
  refine placeLine hcs hline fun w hw _ hstays => ?_
  obtain ⟨ls', t', hfolds, -, -, htext⟩ := folds_placeFirst rules spaceBefore hcs hw hp
  obtain ⟨rfl, rfl⟩ := hfolds.eq_of_stays hstays
  rw [reached_concat, layout_placeWord]
  exact htext

/-- The next line is split off where it was. -/
theorem placeNext (h : Reached (ms ++ [u]) p) (hcs : Measured cs)
    (hsplit : SplitOff rules cs p.layout.indentation p.layout.width (Follows rules) u v)
    (hseam : seam? rules u v ≠ some .rejected)
    (hu : Steady rules cs p.layout.indentation p.layout.width u)
    (hv : Steady rules cs p.layout.indentation p.layout.width v) :
    Reached (ms ++ [u] ++ [v]) (p.placeWords rules true v.words) := by
  obtain ⟨n, r, cut, hdivision, hfollows⟩ := hsplit
  obtain ⟨a, ha, hne⟩ := (hdivision.rest hcs).begins
  rw [seam?_congr (hfollows.head ha hv.filled.ne_nil) ha hne] at hseam
  refine placeLine hcs hv fun w hw hfirst hstays => ?_
  have hfollows : Follows rules r w := by
    rcases hfirst with rfl | ⟨x, rfl⟩
    · exact hfollows
    · exact hfollows.first hw.1
  have hp := reached_concat.1 h
  rw [← List.append_nil (_ ++ u)] at hp
  obtain ⟨ls', t', hfolds, -, hstays', htext⟩ :=
    folds_placeWord rules true hcs hu.filled hw (.inl rfl) hp
  -- the word is written on the line above, and folding takes it off again
  obtain ⟨rfl, rfl⟩ :=
    hdivision.folds_again hcs hseam hu.stays hfollows hw hstays hfolds hstays'
  rw [reached_concat, layout_placeWord, List.map_append]
  exact htext

theorem placeLines (h : Reached (ms ++ [u]) p) (hcs : Measured cs)
    (hlines : ∀ v ∈ u :: vs, Steady rules cs p.layout.indentation p.layout.width v)
    (hsplit : (u :: vs).IsChain (SplitOff rules cs p.layout.indentation p.layout.width (Follows rules)))
    (hunforced : Unforced rules (u :: vs)) :
    Reached (ms ++ u :: vs) (p.placeWords rules true (vs.flatMap words)) := by
  induction vs generalizing p ms u with
  | nil => exact h
  | cons v vs ih =>
    obtain ⟨huv, hsplit⟩ := List.isChain_cons_cons.1 hsplit
    obtain ⟨hseam, hunforced⟩ := List.isChain_cons_cons.1 hunforced
    obtain ⟨hu, hlines⟩ := List.forall_mem_cons.1 hlines
    have hv := hlines v List.mem_cons_self
    have hplaced := h.placeNext hcs huv hseam hu hv
    have hlayout : (p.placeWords rules true v.words).layout = p.layout :=
      (pours_placeWords rules v.words p true).layout
    rw [← hlayout] at hlines hsplit
    rw [List.flatMap_cons, placeWords_append hv.filled.words_ne_nil, List.append_cons]
    exact ih hplaced hlines hsplit hunforced

end Reached

/-! ### Inserting the lines again -/

variable {l : Layout} {leaves : List Text}

theorem rows_lines (h : ∀ m ∈ ms ++ [t], Filled cs m) (indentation : Nat) :
    rows (ended (ms.map (spaces indentation ++ ·)) ++ (spaces indentation ++ t)) =
      (ms ++ [t]).map (spaces indentation ++ ·) := by
  rw [rows_ended fun line hline => ?_, List.map_append, List.map_singleton]
  rw [← List.map_singleton, ← List.map_append] at hline
  obtain ⟨m, hm, rfl⟩ := List.mem_map.1 hline
  exact (h m hm).newline_notMem indentation

/-- The words of lines that were split off one another give these lines again. -/
theorem finish_insert_lines (hl : l.fold = .wrap) (hcs : Measured cs)
    (hlines : ∀ m ∈ ms ++ [t], Steady rules cs l.indentation l.width m)
    (hsplit : (ms ++ [t]).IsChain (SplitOff rules cs l.indentation l.width (Follows rules)))
    (hunforced : Unforced rules (ms ++ [t])) :
    let out := ended (ms.map (spaces l.indentation ++ ·)) ++ (spaces l.indentation ++ t)
    (({ layout := l } : Page).insert rules out).buffer.finish.1 = out := by
  intro out
  obtain ⟨d, hout, hblank⟩ := (hlines t (by simp)).filled.shows_last
    (ended (ms.map (spaces l.indentation ++ ·)) ++ spaces l.indentation)
  rw [List.append_assoc, show _ ++ _ = out from rfl] at hout
  have hends : endsBlank out = false := by rw [endsBlank, hout]; exact hblank
  have hfresh : ({ layout := l } : Page).freshFor out = { layout := l } := by
    simp [freshFor, Buffer.atLineStart, Buffer.currentLine, lastRow]
  have hbuffer : (({ layout := l } : Page).insert rules out).buffer =
      (({ layout := l } : Page).placeWords rules (startsBlank out) out.words).buffer := by
    have hempty : out.isEmpty = false := by
      rw [List.isEmpty_eq_false_iff]
      intro h
      rw [h] at hout
      cases hout
    rw [buffer_insert, hempty, if_neg Bool.false_ne_true, hfresh]
    simp only [hl]
    change (if endsBlank out then _ else _ : Page).buffer = _
    rw [hends, if_neg Bool.false_ne_true]
    rfl
  have hwords : out.words = (ms ++ [t]).flatMap words := by
    rw [words_ended, words_indented, List.flatMap_append, List.flatMap_singleton, List.flatMap_map]
    simp only [words_indented]
  have hreached : Reached (ms ++ [t])
      (({ layout := l } : Page).placeWords rules (startsBlank out) out.words) := by
    rw [hwords]
    cases hms : ms ++ [t] with
    | nil => simp at hms
    | cons m vs =>
      rw [hms] at hlines hsplit hunforced
      have hfirst : Reached ([] ++ [m]) (({ layout := l } : Page).placeWords rules (startsBlank out) m.words) :=
        .placeFirst hcs rfl (hlines m List.mem_cons_self)
      have hlayout : (({ layout := l } : Page).placeWords rules (startsBlank out) m.words).layout = l :=
        (pours_placeWords rules m.words _ _).layout
      rw [List.flatMap_cons, placeWords_append (hlines m List.mem_cons_self).filled.words_ne_nil]
      exact hfirst.placeLines hcs (by rwa [hlayout]) (by rwa [hlayout]) hunforced
  have htext := reached_concat.1 hreached
  rw [(pours_placeWords rules out.words _ _).layout, ← hbuffer] at htext
  exact Buffer.finish_eq (htext.trans (List.append_nil _).symm) hout hblank (.inl rfl)

theorem finish_laid (rules : Rules) (leaves : List Text) (hl : l.fold = .wrap)
    (h : Measured leaves.flatten) :
    let out := (leaves.foldl (·.insert rules) { layout := l : Page }).buffer.finish.1
    out = [] ∨ ∃ ms t, Laid rules leaves.flatten l.indentation l.width ms t ∧
      (∀ m ∈ ms ++ [t], Filled leaves.flatten m) ∧
      out = ended (ms.map (spaces l.indentation ++ ·)) ++ (spaces l.indentation ++ t) := by
  refine (finish_insertAll_lines rules hl leaves h (foldInvariant_laid h)).imp_right ?_
  rintro ⟨_, t, ⟨ms, rfl, hlaid⟩, ht, -, hout⟩
  refine ⟨ms, t, hlaid, fun m hm => ?_, hout⟩
  rcases List.mem_append.1 hm with hm | hm
  · exact hlaid.filled m hm
  · exact List.mem_singleton.1 hm ▸ ht

/-- Lines that stay and were not split where one must not begin or end are laid out again. -/
theorem finish_insert_laid (hl : l.fold = .wrap) (hcs : Measured cs)
    (h : Laid rules cs l.indentation l.width ms t) (hfilled : ∀ m ∈ ms ++ [t], Filled cs m)
    (hstays : ∀ m ∈ ms ++ [t], Stays rules l.indentation l.width m)
    (hunforced : Unforced rules (ms ++ [t])) :
    let out := ended (ms.map (spaces l.indentation ++ ·)) ++ (spaces l.indentation ++ t)
    (({ layout := l } : Page).insert rules out).buffer.finish.1 = out := by
  obtain ⟨hchain, hlast⟩ := h.split hunforced
  refine finish_insert_lines hl hcs (fun m hm => ⟨hfilled m hm, h.gapped m hm, hstays m hm⟩)
    (isChain_concat.2 ⟨hchain, fun m hm => ?_⟩) hunforced
  obtain ⟨n, r, cut, hdivision, hprefix⟩ := hlast m hm
  exact ⟨n, r, cut, hdivision, .inl hprefix⟩

theorem unforced_of_indented (hfilled : ∀ m ∈ ms, Filled cs m) {indentation : Nat}
    (h : Unforced rules (ms.map (spaces indentation ++ ·))) : Unforced rules ms := by
  refine List.IsChain.imp_of_mem_imp (fun u v hu hv huv => ?_) ((List.isChain_map _).1 h)
  have hspaces : (spaces indentation ++ v).dropWhile (· == ' ') = v.dropWhile (· == ' ') :=
    List.dropWhile_append_of_pos fun c hc => by rw [List.eq_of_mem_replicate hc]; rfl
  rwa [seam?, hspaces, List.getLast?_append_of_ne_nil _ (hfilled u hu).ne_nil] at huv

/-- Where finished lines stay, and none was split where one must not begin or end, they are laid out
again when their text is inserted. -/
theorem finish_insert_finish (rules : Rules) (leaves : List Text) (l : Layout) (hl : l.fold = .wrap)
    (h : Measured leaves.flatten) :
    let out := (leaves.foldl (·.insert rules) { layout := l : Page }).buffer.finish.1
    (∀ line ∈ rows out, line.width ≤ l.width ∨
        findBreak rules line l.indentation l.width = none) →
      Unforced rules (rows out) →
      (({ layout := l } : Page).insert rules out).buffer.finish.1 = out := by
  intro out hstays hunforced
  rcases finish_laid rules leaves hl h with hout | ⟨ms, t, hlaid, hfilled, hout⟩
  · rw [show out = [] from hout]
    rfl
  · rw [show out = _ from hout] at hstays hunforced ⊢
    rw [rows_lines hfilled] at hstays hunforced
    exact finish_insert_laid hl h hlaid hfilled
      (fun m hm => hstays _ (List.mem_map_of_mem hm)) (unforced_of_indented hfilled hunforced)

/-- No line may begin with a full stop, so this one is split in front of the character before it. -/
theorem finish_insert_finish_kinsoku :
    let l : Layout := { width := 6 }
    let leaves : List Text := ["日本".toList, "語。".toList]
    let out := "日本\n語。".toList
    Measured leaves.flatten ∧
      (leaves.foldl (·.insert .kinsoku) { layout := l : Page }).buffer.finish.1 = out ∧
      (({ layout := l } : Page).insert .kinsoku out).buffer.finish.1 = out := by
  intro l leaves out
  have hcs : Measured leaves.flatten := .of_plain (List.all_iff_forall_prop.1 (by decide +kernel))
  obtain ⟨hout, hunforced⟩ :
      (leaves.foldl (·.insert .kinsoku) { layout := l : Page }).buffer.finish.1 = out ∧
        Unforced .kinsoku (rows out) := by
    decide +kernel
  have hfits : ∀ line ∈ rows out, line.width ≤ l.width := by decide +kernel
  have hagain := finish_insert_finish .kinsoku leaves l rfl hcs
  rw [hout] at hagain
  exact ⟨hcs, hout, hagain (fun line hline => .inl (hfits line hline)) hunforced⟩

/-- A line that is too wide for want of a better cut is split once more. -/
theorem not_finish_insert_finish_fullStop :
    let l : Layout := { width := 2 }
    let out := (({ layout := l } : Page).insert .kinsoku "日。本".toList).buffer.finish.1
    out = "日。\n本".toList ∧
      (({ layout := l } : Page).insert .kinsoku out).buffer.finish.1 = "日\n。\n本".toList := by
  decide +kernel

end Page
end MarkupText
