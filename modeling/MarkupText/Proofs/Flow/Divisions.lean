import MarkupText.Proofs.Flow.Folds

/-!
# Lines that are put together again

A `Division` tells how a line was split off one that was too wide. When what follows on it is put
behind it again, up to its first word, the line is too wide again (`Division.wide_again`) and is split
at the same place (`Division.pos_of_chosen`), if it was not split where a line must not begin or end.
For this the cuts of two lines put together are those of the first, those at the spaces between and
those of the second (`mem_usableCuts_joint`).
-/

namespace MarkupText

open Text LineBreak Greedy

section Lines
variable {rules : Rules} {cs t u v w l r T : Text} {indentation width n g : Nat} {cut c : Cut}
  {a b : Char}

/-! ### Spaces in a line -/

/-- Every space in the line stands alone, between characters that are not written without one. -/
def Gapped (rules : Rules) (t : Text) : Prop :=
  ∀ x b a y, t = x ++ b :: ' ' :: a :: y → b ≠ ' ' ∧ a ≠ ' ' ∧ Page.joins rules b a = false

theorem Page.joins_of_gapFor {wanted : Bool} (hgap : Page.gapFor rules wanted t w = [' '])
    (hb : t.getLast? = some b) (ha : w.head? = some a) : Page.joins rules b a = false := by
  unfold Page.gapFor at hgap
  rw [hb, ha] at hgap
  cases hjoins : Page.joins rules b a with
  | false => rfl
  | true => simp [hjoins] at hgap

namespace Gapped

theorem of_inked (hw : Inked cs w) : Gapped rules w := by
  rintro x b a y rfl
  exact absurd rfl (hw.ne_space (c := ' ') (by simp))

theorem left (h : Gapped rules (t ++ u)) : Gapped rules t := by
  rintro x b a y rfl
  exact h x b a (y ++ u) (by simp)

theorem right (h : Gapped rules (t ++ u)) : Gapped rules u := by
  rintro x b a y rfl
  exact h (t ++ x) b a y (by simp)

/-- A word is put behind the line. -/
theorem append (h : Gapped rules t) (ht : Filled cs t) (hw : Inked cs w) (wanted : Bool) :
    Gapped rules (t ++ Page.gapFor rules wanted t w ++ w) := by
  have hspace {x y : Text} (heq : w = x ++ ' ' :: y) : False :=
    hw.ne_space (c := ' ') (by rw [heq]; simp) rfl
  obtain ⟨d, hd, hne⟩ := ht.last
  -- a space that does not stand in the line is the gap in front of the word
  have hgap {z y : Text} (heq : Page.gapFor rules wanted t w ++ w = z ++ ' ' :: y) :
      z = [] ∧ w = y ∧ Page.gapFor rules wanted t w = [' '] := by
    rcases Page.gapFor_cases rules wanted t w with hgap | hgap
    · rw [hgap] at heq
      exact (hspace heq).elim
    · rw [hgap] at heq
      cases z with
      | nil => exact ⟨rfl, (List.cons.inj heq).2, hgap⟩
      | cons e z => exact (hspace (List.cons.inj heq).2).elim
  have hseam {b a : Char} {z y : Text} (hb : t.getLast? = some b)
      (heq : Page.gapFor rules wanted t w ++ w = z ++ ' ' :: a :: y) :
      b ≠ ' ' ∧ a ≠ ' ' ∧ Page.joins rules b a = false := by
    obtain ⟨-, rfl, hgap⟩ := hgap heq
    obtain rfl : d = b := by rw [hd, Option.some.injEq] at hb; exact hb
    exact ⟨hne, hw.ne_space List.mem_cons_self, Page.joins_of_gapFor hgap hd rfl⟩
  intro x b a y heq
  rw [List.append_assoc, List.append_cons] at heq
  rcases List.append_eq_append_iff.1 heq with ⟨z, hx, hz⟩ | ⟨z, rfl, hz⟩
  · obtain ⟨rfl, -, -⟩ := hgap hz
    rw [List.append_nil] at hx
    exact hseam (hx ▸ List.getLast?_concat) hz
  · cases z with
    | nil => exact hseam (z := []) (by simp) hz.symm
    | cons e z =>
      obtain ⟨rfl, hz⟩ := List.cons.inj hz
      cases z with
      | nil =>
        rw [List.getLast?_concat] at hd
        exact absurd (Option.some.inj hd).symm hne
      | cons e z =>
        obtain ⟨rfl, -⟩ := List.cons.inj hz
        exact h x b a z (by simp)

end Gapped

/-- A line is a word, or it begins with one and a space. -/
theorem Filled.cases (h : Filled cs t) (hgapped : Gapped rules t) : Inked cs t ∨
    ∃ v u, t = v ++ ' ' :: u ∧ Inked cs v ∧ Filled cs u ∧ Gapped rules u := by
  obtain ⟨c, hc, hne⟩ := h.begins
  have hsplit := List.takeWhile_append_dropWhile (p := (· != ' ')) (l := t)
  have hword : Inked cs (t.takeWhile (· != ' ')) := by
    refine ⟨?_, fun d hd => ?_⟩
    · obtain ⟨u, rfl⟩ := List.head?_eq_some_iff.1 hc
      simp [hne]
    · have hspace : d ≠ ' ' := by simpa using List.mem_takeWhile_imp hd
      exact (h.chars d ((List.takeWhile_prefix _).subset hd)).resolve_left hspace
  have hhead := List.head?_dropWhile_not (· != ' ') t
  cases hrest : t.dropWhile (· != ' ') with
  | nil =>
    rw [hrest, List.append_nil] at hsplit
    exact .inl (hsplit ▸ hword)
  | cons d u =>
    rw [hrest] at hsplit hhead
    obtain rfl : d = ' ' := by simpa using hhead
    obtain ⟨e, he, hne'⟩ := h.last
    generalize t.takeWhile (· != ' ') = v at hword hsplit
    subst hsplit
    obtain ⟨b, hb⟩ := Option.ne_none_iff_exists'.1 (mt List.getLast?_eq_none_iff.1 hword.1)
    obtain ⟨x, rfl⟩ := List.getLast?_eq_some_iff.1 hb
    cases u with
    | nil =>
      rw [List.getLast?_append_of_ne_nil _ (by simp)] at he
      exact absurd (Option.some.inj he).symm hne'
    | cons a u =>
      obtain ⟨-, ha, -⟩ := hgapped x b a u (by simp)
      refine .inr ⟨x ++ [b], a :: u, rfl, hword, ⟨fun c hc => h.chars c ?_, ⟨a, rfl, ha⟩, e, ?_, hne'⟩, ?_⟩
      · exact List.mem_append_right _ (List.mem_cons_of_mem _ hc)
      · rwa [List.getLast?_append_of_ne_nil _ (by simp), List.getLast?_cons_cons] at he
      · exact (List.append_cons (x ++ [b]) ' ' (a :: u) ▸ hgapped).right

/-! ### The cuts of two lines put together -/

theorem spaces_eq_append {k : Nat} (h : k ≤ g) : spaces g = spaces k ++ spaces (g - k) := by
  rw [spaces, spaces, spaces, List.replicate_append_replicate, Nat.add_sub_cancel' h]

/-- A cut of the line `l ++ spaces g ++ v`: one of `l`, one at the spaces, or one in `v`. -/
inductive JointCut (rules : Rules) (indentation : Nat) (l : Text) (g : Nat) (v : Text) (c : Cut) :
    Prop
  | front (mem : c ∈ usableCuts rules (spaces indentation ++ l) indentation)
  | seam (k : Nat) (b a : Char) (x : Text) (le : k ≤ g) (before : (l ++ spaces k).getLast? = some b)
      (after : spaces (g - k) ++ v = a :: x) (pos : c.pos = indentation + l.length + k)
      (column : c.column = indentation + cols l + k) (kind : c.kind = cutKind rules b a)
  | inner (x : Text) (b a : Char) (y : Text) (eq : v = x ++ b :: a :: y)
      (pos : c.pos = indentation + l.length + g + x.length + 1)
      (column : c.column = indentation + cols l + g + cols (x ++ [b]))
      (kind : c.kind = cutKind rules b a)

theorem jointCut_of_mem (hl : Begins l) {g : Nat} {v : Text}
    (h : c ∈ usableCuts rules (spaces indentation ++ (l ++ spaces g ++ v)) indentation) :
    JointCut rules indentation l g v c := by
  have hbegins : Begins (l ++ spaces g ++ v) := (hl.append (spaces g)).append v
  obtain ⟨x, b, a, y, heq, rfl⟩ := (mem_usableCuts hbegins).1 h
  rw [List.append_assoc l] at heq h
  have hx : x ++ [b] <+: l ++ (spaces g ++ v) := ⟨a :: y, by rw [heq]; simp⟩
  rcases Nat.lt_or_ge (x.length + 1) l.length with hlt | hge
  · exact .front ((mem_usableCuts_append rules hl (spaces g ++ v)).2 ⟨h, by dsimp only; omega⟩)
  -- what stands between the end of `l` and the cut
  obtain ⟨z, hz⟩ := List.prefix_of_prefix_length_le (List.prefix_append l (spaces g ++ v)) hx
    (by simpa using hge)
  have hlength : x.length + 1 = l.length + z.length := by simpa using congrArg List.length hz.symm
  have hcols : cols (x ++ [b]) = cols l + cols z := by rw [← hz, cols_append]
  have hrest : z ++ a :: y = spaces g ++ v := by
    rw [List.append_cons, ← hz, List.append_assoc] at heq
    exact (List.append_cancel_left heq).symm
  rcases List.append_eq_append_iff.1 hrest with ⟨y', hy, hv⟩ | ⟨z', rfl, hv⟩
  · obtain ⟨hg, hzspaces, hyspaces⟩ := List.append_eq_replicate_iff.1 hy.symm
    change z = spaces z.length at hzspaces
    refine .seam z.length b a y (by omega) ?_ ?_ (by dsimp only; omega) ?_ rfl
    · rw [← hzspaces, hz, List.getLast?_concat]
    · rw [hv, ← hg, Nat.add_sub_cancel_left, spaces, ← hyspaces]
    · dsimp only
      rw [hcols, hzspaces, cols_spaces, spaces, List.length_replicate, Nat.add_assoc]
  · rw [List.length_append, spaces, List.length_replicate] at hlength
    rw [cols_append (spaces g), cols_spaces] at hcols
    rcases List.eq_nil_or_concat' z' with rfl | ⟨z', d, rfl⟩
    · rw [List.append_nil] at hz
      exact .seam g b a y (Nat.le_refl g) (by rw [hz, List.getLast?_concat])
        (by simp [spaces, hv]) (by dsimp only; simp at hlength; omega)
        (by dsimp only; rw [hcols]; simp [Nat.add_assoc]) rfl
    · obtain rfl : d = b := by
        have := congrArg List.getLast? hz
        simpa [← List.append_assoc] using this
      rw [List.length_append, List.length_singleton] at hlength
      exact .inner z' d a y (by simpa using hv) (by dsimp only; omega)
        (by dsimp only; rw [hcols]; omega) rfl

theorem mem_of_jointCut (hl : Begins l) {g : Nat} {v : Text}
    (h : JointCut rules indentation l g v c) :
    c ∈ usableCuts rules (spaces indentation ++ (l ++ spaces g ++ v)) indentation := by
  have hbegins : Begins (l ++ spaces g ++ v) := (hl.append (spaces g)).append v
  cases h with
  | front mem =>
    rw [List.append_assoc l]
    exact ((mem_usableCuts_append rules hl (spaces g ++ v)).1 mem).1
  | seam k b a x le before after pos column kind =>
    obtain ⟨z, hz⟩ := List.getLast?_eq_some_iff.1 before
    have hlength : l.length + k = z.length + 1 := by
      simpa [spaces] using congrArg List.length hz
    have hcols : cols l + k = cols (z ++ [b]) := by rw [← hz, cols_append, cols_spaces]
    refine (mem_usableCuts hbegins).2 ⟨z, b, a, x, ?_, ?_⟩
    · rw [spaces_eq_append le, ← List.append_assoc l, List.append_assoc, after, hz]
      simp
    · cases c
      dsimp only at pos column
      simp only [Cut.mk.injEq]
      exact ⟨by omega, by omega, kind⟩
  | inner x b a y eq pos column kind =>
    subst eq
    refine (mem_usableCuts hbegins).2 ⟨l ++ spaces g ++ x, b, a, y, by simp, ?_⟩
    cases c
    dsimp only at pos column
    simp only [Cut.mk.injEq, List.length_append, List.append_assoc, cols_append, cols_spaces]
    rw [cols_append] at column
    refine ⟨?_, by omega, kind⟩
    rw [pos, spaces, List.length_replicate]
    omega

theorem mem_usableCuts_joint (hl : Begins l) (g : Nat) (v : Text) :
    c ∈ usableCuts rules (spaces indentation ++ (l ++ spaces g ++ v)) indentation ↔
      JointCut rules indentation l g v c :=
  ⟨jointCut_of_mem hl, mem_of_jointCut hl⟩

theorem pos_lt_of_mem_usableCuts (hl : Begins l)
    (h : c ∈ usableCuts rules (spaces indentation ++ l) indentation) :
    c.pos < indentation + l.length := by
  obtain ⟨x, b, a, y, rfl, rfl⟩ := (mem_usableCuts hl).1 h
  simp only [List.length_append, List.length_cons]
  omega

/-- At spaces a line may be split. -/
theorem cutKind_seam {k : Nat} {x : Text} (hk : k ≤ g) (hb : (l ++ spaces k).getLast? = some b)
    (ha : spaces (g - k) ++ v = a :: x)
    (htouch : g = 0 → ∀ b a, l.getLast? = some b → v.head? = some a → cutKind rules b a = .legal) :
    cutKind rules b a = .legal := by
  rcases Nat.eq_zero_or_pos g with rfl | hpos
  · obtain rfl : k = 0 := by omega
    rw [show spaces 0 = [] from rfl] at hb
    rw [Nat.sub_zero, show spaces 0 = [] from rfl, List.nil_append] at ha
    exact htouch rfl b a (by simpa using hb) (by rw [ha]; rfl)
  · have hspace : b = ' ' ∨ a = ' ' := by
      rcases Nat.eq_zero_or_pos k with rfl | hk'
      · right
        obtain ⟨g, rfl⟩ : ∃ m, g = m + 1 := ⟨g - 1, by omega⟩
        exact (List.cons.inj ha).1.symm
      · left
        rw [List.getLast?_append_of_ne_nil _ (by simp [spaces]; omega)] at hb
        exact List.eq_of_mem_replicate (List.mem_of_getLast? hb)
    rw [cutKind, if_pos hspace]

/-- The spaces between two lines are legal cuts. -/
theorem exists_seam (indentation : Nat) (hl : Filled cs l) (hv : v ≠ [])
    (htouch : g = 0 → ∀ b a, l.getLast? = some b → v.head? = some a → cutKind rules b a = .legal)
    {k : Nat} (hk : k ≤ g) :
    ∃ c ∈ usableCuts rules (spaces indentation ++ (l ++ spaces g ++ v)) indentation,
      c.pos = indentation + l.length + k ∧ c.column = indentation + cols l + k ∧ c.kind = .legal := by
  obtain ⟨a, x, ha⟩ : ∃ a x, spaces (g - k) ++ v = a :: x :=
    List.exists_cons_of_ne_nil (by simp [hv])
  obtain ⟨b, hb⟩ : ∃ b, (l ++ spaces k).getLast? = some b :=
    Option.ne_none_iff_exists'.1 (mt List.getLast?_eq_none_iff.1 (by simp [hl.ne_nil]))
  exact ⟨⟨indentation + l.length + k, indentation + cols l + k, cutKind rules b a⟩,
    (mem_usableCuts_joint hl.begins g v).2 (.seam k b a x hk hb ha rfl rfl rfl), rfl, rfl,
    cutKind_seam hk hb ha htouch⟩

theorem LineBreak.Chosen.kind_ne {cuts : List Cut} (h : Chosen cuts width cut) :
    cut.kind ≠ .never := by
  cases h with
  | last h legal => exact h.kind
  | before _ _ _ _ legal => simp [legal]
  | behind _ _ _ _ legal => simp [legal]
  | rejected h => exact h.kind
  | beyond _ _ legal => simp [legal]

/-- A cut that a line may be split at, better or worse. -/
def LineBreak.Cut.Usable (width : Nat) (cut : Cut) : Prop :=
  cut.kind = .legal ∨ cut.column ≤ width ∧ cut.kind ≠ .never

theorem LineBreak.LastFitting.usable {cuts : List Cut} (h : LastFitting cuts width cut) :
    cut.Usable width :=
  .inr ⟨h.fits, h.kind⟩

theorem LineBreak.Chosen.exists_usable {cuts : List Cut} (h : Chosen cuts width cut) :
    ∃ c ∈ cuts, c.Usable width := by
  cases h with
  | last h => exact ⟨cut, h.mem, h.usable⟩
  | before last h => exact ⟨last, h.mem, h.usable⟩
  | behind last h => exact ⟨last, h.mem, h.usable⟩
  | rejected h => exact ⟨cut, h.mem, h.usable⟩
  | beyond _ mem legal => exact ⟨cut, mem, .inl legal⟩

/-- A line that is too wide and stays has no cut. -/
theorem Stays.not_usable (h : Stays rules indentation width t)
    (hwide : width < (spaces indentation ++ t).width) {c : Cut}
    (hc : c ∈ usableCuts rules (spaces indentation ++ t) indentation) : ¬ c.Usable width := by
  have hnone := not_legal_of_findBreak_eq_none (h.resolve_left (Nat.not_le.2 hwide)) c hc
  rintro (hlegal | ⟨hfits, hkind⟩)
  · exact hnone.1 hlegal
  · exact hkind (hnone.2 hfits)

/-- Where a line stays there is nothing to choose. -/
theorem Stays.not_chosen (h : Stays rules indentation width t)
    (hwide : width < (spaces indentation ++ t).width) :
    ¬ Chosen (usableCuts rules (spaces indentation ++ t) indentation) width cut := fun hchosen =>
  let ⟨_, hc, husable⟩ := hchosen.exists_usable
  h.not_usable hwide hc husable

/-! ### Lines that were divided -/

/-- The kind of the cut between two lines. -/
def LineBreak.seam? (rules : Rules) (upper lower : Text) : Option CutKind :=
  match upper.getLast?, (lower.dropWhile (· == ' ')).head? with
  | some b, some a => some (cutKind rules b a)
  | _, _ => none

theorem seam?_eq (hb : l.getLast? = some b) (ha : v.head? = some a) (hne : a ≠ ' ') :
    seam? rules l v = some (cutKind rules b a) := by
  obtain ⟨v, rfl⟩ := List.head?_eq_some_iff.1 ha
  rw [seam?, hb, List.dropWhile_cons_of_neg (by simpa using hne)]
  rfl

/-- The line `l` was split off a line that was too wide, and `r` was left. -/
structure Division (rules : Rules) (cs : Text) (indentation width : Nat) (l : Text) (n : Nat)
    (r : Text) (cut : Cut) : Prop where
  filled : Filled cs (l ++ spaces n ++ r)
  gapped : Gapped rules (l ++ spaces n ++ r)
  wide : width < (spaces indentation ++ (l ++ spaces n ++ r)).width
  chosen : Chosen (usableCuts rules (spaces indentation ++ (l ++ spaces n ++ r)) indentation)
    width cut
  divides : Divides indentation (l ++ spaces n ++ r) cut l n r

/-- The line `v` begins like `r`, and if it is shorter it ends where `r` may be split. -/
def Follows (rules : Rules) (r v : Text) : Prop :=
  r <+: v ∨ ∃ b c x, r = v ++ c :: x ∧ v.getLast? = some b ∧ cutKind rules b c = .legal

namespace Follows

theorem head (h : Follows rules r v) (hr : r.head? = some a) (hv : v ≠ []) : v.head? = some a := by
  rcases h with ⟨x, rfl⟩ | ⟨b, c, x, rfl, -, -⟩
  · rw [List.head?_append, hr]
    rfl
  · rwa [List.head?_append_of_ne_nil _ hv] at hr

/-- The first word of a line that follows follows itself. -/
theorem first (h : Follows rules r (v ++ ' ' :: u)) (hv : v ≠ []) : Follows rules r v := by
  obtain ⟨b, hb⟩ := Option.ne_none_iff_exists'.1 (mt List.getLast?_eq_none_iff.1 hv)
  have hspace : cutKind rules b ' ' = .legal := by rw [cutKind, if_pos (.inr rfl)]
  rcases h with h | ⟨-, c, x, rfl, -, -⟩
  · rcases List.prefix_or_prefix_of_prefix h (List.prefix_append v (' ' :: u)) with h' | ⟨x, rfl⟩
    · exact .inl h'
    · cases x with
      | nil => exact .inl (by simp)
      | cons c x =>
        obtain ⟨y, hy⟩ := h
        obtain ⟨rfl, -⟩ := List.cons.inj (List.append_cancel_left ((List.append_assoc ..).symm.trans hy))
        exact .inr ⟨b, ' ', x, rfl, hb, hspace⟩
  · exact .inr ⟨b, ' ', u ++ c :: x, by simp, hb, hspace⟩

end Follows

namespace Division

theorem line (h : Division rules cs indentation width l n r cut) (hcs : Measured cs) :
    Filled cs l :=
  (h.filled.divides hcs h.chosen.mem h.divides).1

theorem rest (h : Division rules cs indentation width l n r cut) (hcs : Measured cs) :
    Filled cs r :=
  (h.filled.divides hcs h.chosen.mem h.divides).2.1

/-- At most one space was dropped, and it belonged there. -/
theorem spaces_le (h : Division rules cs indentation width l n r cut)
    (hb : l.getLast? = some b) (ha : r.head? = some a) :
    n = 0 ∨ n = 1 ∧ Page.joins rules b a = false := by
  obtain ⟨x, rfl⟩ := List.getLast?_eq_some_iff.1 hb
  obtain ⟨y, rfl⟩ := List.head?_eq_some_iff.1 ha
  match n, h with
  | 0, _ => exact .inl rfl
  | 1, h => exact .inr ⟨rfl, (h.gapped x b a y (by simp [spaces])).2.2⟩
  | n + 2, h =>
    have := (h.gapped x b ' ' (spaces n ++ a :: y) (by simp [spaces, List.replicate_succ])).2.1
    exact absurd rfl this

/-- Where no spaces were dropped the line was split at a legal cut, if not at a rejected one. -/
theorem touch (h : Division rules cs indentation width l n r cut) (hcs : Measured cs)
    (hseam : seam? rules l r ≠ some .rejected) (hn : n = 0) (hb : l.getLast? = some b)
    (ha : r.head? = some a) : cutKind rules b a = .legal := by
  subst hn
  have hne : a ≠ ' ' := h.divides.next a ha
  rw [seam?_eq hb ha hne] at hseam
  have hkind := h.chosen.kind_ne
  have hpos := h.divides.pos_le
  have hle := h.divides.le_pos
  have hcut : cut.kind = cutKind rules b a := by
    cases (mem_usableCuts_joint (h.line hcs).begins 0 r).1 h.chosen.mem with
    | front mem =>
      have := pos_lt_of_mem_usableCuts (h.line hcs).begins mem
      omega
    | seam k b' a' x le before after _ _ kind =>
      obtain rfl : k = 0 := by omega
      obtain ⟨y, rfl⟩ := List.head?_eq_some_iff.1 ha
      rw [show spaces 0 = [] from rfl, List.append_nil, hb, Option.some.injEq] at before
      obtain ⟨rfl, -⟩ := List.cons.inj after
      rw [kind, before]
    | inner x b' a' y _ pos => omega
  rw [hcut] at hkind
  cases hcases : cutKind rules b a with
  | legal => rfl
  | rejected => exact absurd (congrArg some hcases) hseam
  | never => exact absurd hcases hkind

theorem touch_next (h : Division rules cs indentation width l n r cut) (hcs : Measured cs)
    (hseam : seam? rules l r ≠ some .rejected) (hv : Follows rules r v) (hvne : v ≠ [])
    (hg : n ≤ g) : g = 0 → ∀ b a, l.getLast? = some b → v.head? = some a →
      cutKind rules b a = .legal := by
  intro hzero b a hb ha
  obtain ⟨d, hd⟩ := Option.ne_none_iff_exists'.1 fun h' =>
    (h.rest hcs).ne_nil (List.head?_eq_none_iff.1 h')
  refine h.touch hcs hseam (by omega) hb ?_
  rw [hd, ← ha, hv.head hd hvne]

/-- Where the line that was split off fits, the last cut that fits is no further than a scan behind it,
and no legal one is behind it. -/
theorem lastFitting (h : Division rules cs indentation width l n r cut) (hcs : Measured cs)
    (hseam : seam? rules l r ≠ some .rejected) (hfits : indentation + cols l ≤ width) :
    (∃ last, LastFitting
        (usableCuts rules (spaces indentation ++ (l ++ spaces n ++ r)) indentation) width last ∧
      last.pos ≤ indentation + l.length + n + scanLimit) ∧
    ∀ c ∈ usableCuts rules (spaces indentation ++ (l ++ spaces n ++ r)) indentation,
      c.kind = .legal → c.column ≤ width → c.pos ≤ indentation + l.length + n := by
  have hl := h.line hcs
  have hpos := h.divides.pos_le
  have hle := h.divides.le_pos
  have hsorted := usableCuts_sorted rules (spaces indentation ++ (l ++ spaces n ++ r)) indentation
  have hjoint {c : Cut} :
      c ∈ usableCuts rules (spaces indentation ++ (l ++ spaces n ++ r)) indentation ↔ _ :=
    mem_usableCuts_joint hl.begins n r
  have htouch := h.touch_next hcs hseam (.inl (List.prefix_refl r)) (h.rest hcs).ne_nil
    (Nat.le_refl n)
  -- in front of the spaces the line may be split
  obtain ⟨front, hfront, hfrontPos, hfrontColumn, hfrontKind⟩ := exists_seam
    indentation hl (h.rest hcs).ne_nil htouch (Nat.zero_le n)
  rw [Nat.add_zero] at hfrontPos hfrontColumn
  cases h.chosen with
  | last hlast legal =>
    refine ⟨⟨cut, hlast, by omega⟩, fun c hc hlegal hfit => ?_⟩
    have := hlast.last c hc hfit (by simp [hlegal])
    omega
  | before last hlast rejected mem legal lt near closest =>
    refine ⟨⟨last, hlast, by omega⟩, fun c hc hlegal hfit => ?_⟩
    have hle := hlast.last c hc hfit (by simp [hlegal])
    have hne : c.pos ≠ last.pos := fun heq => by
      rw [hsorted.eq_of_pos_eq hc hlast.mem heq, rejected] at hlegal
      cases hlegal
    have := closest c hc hlegal (by omega)
    omega
  | behind last hlast rejected mem legal lt near none_before closest =>
    -- then the line ends in front of that cut, and so it does not fit
    exfalso
    have hlt : last.pos < indentation + l.length := by
      cases hjoint.1 hlast.mem with
      | front mem => exact pos_lt_of_mem_usableCuts hl.begins mem
      | seam k b a x le before after _ _ kind =>
        rw [rejected, cutKind_seam le before after htouch] at kind
        cases kind
      | inner => omega
    have hcut := closest front hfront hfrontKind (by omega)
    have heq := hsorted.eq_of_pos_eq mem hfront (by omega)
    have := hlast.last cut mem (by rw [heq, hfrontColumn]; exact hfits) (by simp [legal])
    omega
  | rejected _ rejected =>
    cases hjoint.1 h.chosen.mem with
    | front mem =>
      have := pos_lt_of_mem_usableCuts hl.begins mem
      omega
    | seam k b a x le before after _ _ kind =>
      rw [rejected, cutKind_seam le before after htouch] at kind
      cases kind
    | inner => omega
  | beyond none_fits =>
    have := none_fits front hfront (by omega)
    rw [hfrontKind] at this
    cases this

/-- A cut that fits in a line behind the one split off was there when that was split off. -/
theorem mem_of_inner (h : Division rules cs indentation width l n r cut) (hcs : Measured cs)
    (hv : Follows rules r v) {x y : Text} (heq : v = x ++ b :: a :: y)
    (hfits : indentation + cols l + n + cols (x ++ [b]) ≤ width) :
    (⟨indentation + l.length + n + x.length + 1, indentation + cols l + n + cols (x ++ [b]),
        cutKind rules b a⟩ : Cut) ∈
      usableCuts rules (spaces indentation ++ (l ++ spaces n ++ r)) indentation := by
  have hwide := h.wide
  rw [h.filled.width_eq hcs, cols_append, cols_append, cols_spaces] at hwide
  have hinner {z : Text} (hr : r = x ++ b :: a :: z) :
      (⟨indentation + l.length + n + x.length + 1, indentation + cols l + n + cols (x ++ [b]),
        cutKind rules b a⟩ : Cut) ∈
      usableCuts rules (spaces indentation ++ (l ++ spaces n ++ r)) indentation :=
    (mem_usableCuts_joint (h.line hcs).begins n r).2 (.inner x b a z hr rfl rfl rfl)
  rcases hv with hprefix | ⟨b', c, z, rfl, -, -⟩
  · rw [heq, List.append_cons] at hprefix
    rcases List.prefix_or_prefix_of_prefix hprefix (List.prefix_append (x ++ [b]) (a :: y)) with
      ⟨z, hz⟩ | ⟨z, rfl⟩
    · -- what was left reaches only to the cut, so that does not fit
      have := congrArg cols hz
      rw [cols_append] at this
      omega
    · cases z with
      | nil =>
        rw [List.append_nil] at hwide
        omega
      | cons c z =>
        obtain ⟨u, hu⟩ := hprefix
        rw [List.append_assoc] at hu
        obtain ⟨rfl, -⟩ := List.cons.inj (List.append_cancel_left hu)
        exact hinner (z := z) (by simp)
  · exact hinner (z := y ++ c :: z) (by rw [heq]; simp)

/-- With what follows on it the line is too wide again. -/
theorem wide_again (h : Division rules cs indentation width l n r cut) (hcs : Measured cs)
    (hseam : seam? rules l r ≠ some .rejected) (hv : Follows rules r v) (hvne : v ≠ []) (hg : n ≤ g)
    (hfilled : Filled cs (l ++ spaces g ++ v)) :
    width < (spaces indentation ++ (l ++ spaces g ++ v)).width := by
  have hwide := h.wide
  rw [h.filled.width_eq hcs, cols_append, cols_append, cols_spaces] at hwide
  rw [hfilled.width_eq hcs, cols_append, cols_append, cols_spaces]
  by_contra hle
  rcases hv with ⟨z, rfl⟩ | ⟨b, c, z, rfl, hb, hlegal⟩
  · rw [cols_append] at hle
    omega
  · obtain ⟨x, rfl⟩ := List.getLast?_eq_some_iff.1 hb
    have hmem : (⟨indentation + l.length + n + x.length + 1,
        indentation + cols l + n + cols (x ++ [b]), cutKind rules b c⟩ : Cut) ∈ _ :=
      (mem_usableCuts_joint (h.line hcs).begins n (x ++ [b] ++ c :: z)).2
        (.inner x b c z (by simp) rfl rfl rfl)
    have := (h.lastFitting hcs hseam (by omega)).2 _ hmem hlegal (by dsimp only; omega)
    dsimp only at this
    omega

/-- Where the line fits, a cut that fits in the line behind it is at most a scan away, and not
legal. -/
theorem near_of_inside (h : Division rules cs indentation width l n r cut) (hcs : Measured cs)
    (hseam : seam? rules l r ≠ some .rejected) (hv : Follows rules r v) (hg : n ≤ g)
    (hfits : indentation + cols l ≤ width)
    (hc : c ∈ usableCuts rules (spaces indentation ++ (l ++ spaces g ++ v)) indentation)
    (hpos : indentation + l.length + g < c.pos) (hfit : c.column ≤ width) (hkind : c.kind ≠ .never) :
    c.kind ≠ .legal ∧ c.pos ≤ indentation + l.length + g + scanLimit := by
  have hl := h.line hcs
  obtain ⟨⟨last, hlast, hnear⟩, hlegals⟩ := h.lastFitting hcs hseam hfits
  cases (mem_usableCuts_joint hl.begins g v).1 hc with
  | front mem =>
    have := pos_lt_of_mem_usableCuts hl.begins mem
    omega
  | seam k b a x le before after pos column kind => omega
  | inner x b a y eq pos column kind =>
    have hmem := h.mem_of_inner hcs hv eq (by omega)
    have hle := hlast.last _ hmem (by dsimp only; omega) (by rwa [← kind])
    refine ⟨fun hlegal => ?_, by dsimp only at hle; omega⟩
    have := hlegals _ hmem (by rwa [← kind]) (by dsimp only; omega)
    dsimp only at this
    omega

/-- With what follows on it the line, if it fits, is split where it was. -/
theorem pos_of_fits (h : Division rules cs indentation width l n r cut) (hcs : Measured cs)
    (hseam : seam? rules l r ≠ some .rejected) (hv : Follows rules r v) (hvne : v ≠ []) (hg : n ≤ g)
    (hfits : indentation + cols l ≤ width)
    (hc : Chosen (usableCuts rules (spaces indentation ++ (l ++ spaces g ++ v)) indentation) width
      c) :
    indentation + l.length ≤ c.pos ∧ c.pos ≤ indentation + l.length + g := by
  have hl := h.line hcs
  have hsorted := usableCuts_sorted rules (spaces indentation ++ (l ++ spaces g ++ v)) indentation
  have htouch := h.touch_next hcs hseam hv hvne hg
  obtain ⟨front, hfront, hfrontPos, hfrontColumn, hfrontKind⟩ :=
    exists_seam indentation hl hvne htouch (Nat.zero_le g)
  obtain ⟨back, hback, hbackPos, -, hbackKind⟩ :=
    exists_seam indentation hl hvne htouch (Nat.le_refl g)
  have hfrontFits : front.column ≤ width := by omega
  have hinside {c : Cut} := h.near_of_inside (c := c) hcs hseam hv hg hfits
  -- a rejected cut that is the last to fit is shortly behind the spaces
  have hrejected {c : Cut}
      (hc : LastFitting (usableCuts rules (spaces indentation ++ (l ++ spaces g ++ v)) indentation)
        width c) (hkind : c.kind = .rejected) :
      indentation + l.length + g < c.pos ∧ c.pos ≤ indentation + l.length + g + scanLimit := by
    have hge := hc.last front hfront hfrontFits (by simp [hfrontKind])
    have hlt : indentation + l.length + g < c.pos := by
      cases (mem_usableCuts_joint hl.begins g v).1 hc.mem with
      | front mem =>
        have := pos_lt_of_mem_usableCuts hl.begins mem
        omega
      | seam k b a x le before after pos column kind =>
        rw [hkind, cutKind_seam le before after htouch] at kind
        cases kind
      | inner x b a y eq pos column kind => omega
    exact ⟨hlt, (hinside hc.mem hlt hc.fits hc.kind).2⟩
  cases hc with
  | last hc legal =>
    have hge := hc.last front hfront hfrontFits (by simp [hfrontKind])
    refine ⟨by omega, ?_⟩
    by_contra hlt
    exact (hinside hc.mem (by omega) hc.fits hc.kind).1 legal
  | before last hlast rejected mem legal lt near closest =>
    obtain ⟨hlt, -⟩ := hrejected hlast rejected
    have hge := closest back hback hbackKind (by omega)
    refine ⟨by omega, ?_⟩
    by_contra hgt
    have hcolumn := hsorted.column_le mem hlast.mem (Nat.le_of_lt lt)
    exact (hinside mem (by omega) (hcolumn.trans hlast.fits) (by simp [legal])).1 legal
  | behind last hlast rejected mem legal lt near none_before =>
    obtain ⟨hlt, hle⟩ := hrejected hlast rejected
    have := none_before back hback hbackKind (by omega)
    omega
  | rejected hlast rejected none_near =>
    obtain ⟨hlt, hle⟩ := hrejected hlast rejected
    have := none_near back hback hbackKind
    omega
  | beyond none_fits =>
    have := none_fits front hfront hfrontFits
    rw [hfrontKind] at this
    cases this

/-- A line that is too wide and stays is split behind itself, at the first legal cut. -/
theorem pos_of_over (h : Division rules cs indentation width l n r cut) (hcs : Measured cs)
    (hseam : seam? rules l r ≠ some .rejected) (hstays : Stays rules indentation width l)
    (hv : Follows rules r v) (hvne : v ≠ []) (hg : n ≤ g) (hover : width < indentation + cols l)
    (hc : Chosen (usableCuts rules (spaces indentation ++ (l ++ spaces g ++ v)) indentation) width
      c) :
    indentation + l.length ≤ c.pos ∧ c.pos ≤ indentation + l.length + g := by
  have hl := h.line hcs
  obtain ⟨front, hfront, hfrontPos, -, hfrontKind⟩ := exists_seam indentation hl hvne
    (h.touch_next hcs hseam hv hvne hg) (Nat.zero_le g)
  have hnone := not_legal_of_findBreak_eq_none
    (hstays.resolve_left (by rw [hl.width_eq hcs]; omega))
  have hnever {c : Cut}
      (hc : c ∈ usableCuts rules (spaces indentation ++ (l ++ spaces g ++ v)) indentation)
      (hfit : c.column ≤ width) : c.kind = .never := by
    cases (mem_usableCuts_joint hl.begins g v).1 hc with
    | front mem => exact (hnone c mem).2 hfit
    | seam k b a x le before after pos column kind => omega
    | inner x b a y eq pos column kind => omega
  obtain ⟨mem, legal, first⟩ := hc.of_none_fits fun c h => h.kind (hnever h.mem h.fits)
  have hle := first front hfront hfrontKind
  refine ⟨?_, by omega⟩
  by_contra hlt
  cases (mem_usableCuts_joint hl.begins g v).1 mem with
  | front mem => exact (hnone c mem).1 legal
  | seam k b a x le before after pos column kind => omega
  | inner x b a y eq pos column kind => omega

/-- With what follows on it the line is split where it was. -/
theorem pos_of_chosen (h : Division rules cs indentation width l n r cut) (hcs : Measured cs)
    (hseam : seam? rules l r ≠ some .rejected) (hstays : Stays rules indentation width l)
    (hv : Follows rules r v) (hvne : v ≠ []) (hg : n ≤ g)
    (hc : Chosen (usableCuts rules (spaces indentation ++ (l ++ spaces g ++ v)) indentation) width
      c) :
    indentation + l.length ≤ c.pos ∧ c.pos ≤ indentation + l.length + g := by
  rcases Nat.lt_or_ge width (indentation + cols l) with hover | hfits
  · exact h.pos_of_over hcs hseam hstays hv hvne hg hover hc
  · exact h.pos_of_fits hcs hseam hv hvne hg hfits hc

/-- What the line began with still follows it when it is divided. -/
theorem follows (h : Division rules cs indentation width l n r cut) (hcs : Measured cs)
    (hseam : seam? rules l r ≠ some .rejected) {s : Text} (hs : s <+: l ++ spaces n ++ r) :
    Follows rules s l := by
  obtain ⟨b, hb⟩ := Option.ne_none_iff_exists'.1
    (mt List.getLast?_eq_none_iff.1 (h.line hcs).ne_nil)
  rw [List.append_assoc] at hs
  rcases List.prefix_or_prefix_of_prefix hs (List.prefix_append l _) with hle | ⟨z, rfl⟩
  · exact .inl hle
  · cases z with
    | nil => exact .inl (by simp)
    | cons c z =>
      obtain ⟨y, hy⟩ := hs
      rw [List.append_assoc] at hy
      have hrest : spaces (n - 0) ++ r = c :: (z ++ y) := (List.append_cancel_left hy).symm
      exact .inr ⟨b, c, z, rfl, hb, cutKind_seam (Nat.zero_le n) (by simpa [spaces] using hb) hrest
        fun hn _ _ hb ha => h.touch hcs hseam hn hb ha⟩

end Division

end Lines
end MarkupText
