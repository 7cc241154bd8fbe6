import MarkupText.Proofs.LineBreak.Cuts
import Mathlib.Order.Bounds.Basic

/-!
# The order of the search for a break

The search in terms of positions in the line alone. `Usable` says at which positions a line may be
split, `kindAt` what a split there amounts to, and `Found` which position is looked for first. The
search gives what `Found` says and nothing else, and it splits a line only inside, behind something
visible and not between two characters that must stay together (`findBreak_eq_iff_found`).
-/

namespace MarkupText.LineBreak

open Text

variable {rules : Rules} {line t : Text} {indentation width pos column c k p : Nat} {cut : Cut}

/-- The first position with at least `indentation` columns in front of it. -/
def Reserved (line : Text) (indentation p : Nat) : Prop :=
  IsLeast {p | indentation ≤ cols (line.take p)} p

/-- Position `k` is inside the line and behind something visible that is not reserved. -/
def Usable (line : Text) (indentation k : Nat) : Prop :=
  k < line.length ∧ ∃ p < k, Reserved line indentation p ∧ ∃ c ∈ (line.take k).drop p, c ≠ ' '

/-- What a split in front of character `k` amounts to. -/
def kindAt (rules : Rules) (t : Text) (k : Nat) : CutKind :=
  match t[k - 1]?, t[k]? with
  | some before, some after => cutKind rules before after
  | _, _ => .never

/-- The positions where a split is legal. -/
def legalPlaces (rules : Rules) (line : Text) (indentation : Nat) : Set Nat :=
  {k | Usable line indentation k ∧ kindAt rules line k = .legal}

/-- The positions that leave at most `width` columns on the line, rejected ones among them. -/
def fittingPlaces (rules : Rules) (line : Text) (indentation width : Nat) : Set Nat :=
  {k | Usable line indentation k ∧ cols (line.take k) ≤ width ∧ kindAt rules line k ≠ .never}

/-- What takes the place of the rejected position `c`: the closest legal one shortly before it, else
the closest one shortly behind it, else `c` itself. -/
inductive Replaces (legal : Set Nat) (c : Nat) : (k : Nat) → Prop
  | before {k : Nat} (h : IsGreatest {k ∈ legal | k < c ∧ c ≤ k + scanLimit} k) :
      Replaces legal c k
  | behind {k : Nat} (none_before : ∀ k ∈ legal, k < c → k + scanLimit < c)
      (h : IsLeast {k ∈ legal | c < k ∧ k ≤ c + scanLimit} k) : Replaces legal c k
  | alone (none_near : ∀ k ∈ legal, k + scanLimit < c ∨ c + scanLimit < k) : Replaces legal c c

/-- The position at which the line is split, or `none` if it stays whole. -/
inductive Found (rules : Rules) (line : Text) (indentation width : Nat) :
    (result : Option Nat) → Prop
  | last {c : Nat} (h : IsGreatest (fittingPlaces rules line indentation width) c)
      (legal : kindAt rules line c = .legal) : Found rules line indentation width (some c)
  | near {c k : Nat} (h : IsGreatest (fittingPlaces rules line indentation width) c)
      (rejected : kindAt rules line c = .rejected)
      (replaces : Replaces (legalPlaces rules line indentation) c k) :
      Found rules line indentation width (some k)
  | beyond {k : Nat} (none_fits : fittingPlaces rules line indentation width = ∅)
      (h : IsLeast (legalPlaces rules line indentation) k) :
      Found rules line indentation width (some k)
  | whole (none_fits : fittingPlaces rules line indentation width = ∅)
      (none_legal : legalPlaces rules line indentation = ∅) :
      Found rules line indentation width none

/-- Position `k` is strictly inside the line and behind something visible, and the characters at it
need not stay together. -/
structure Parts (rules : Rules) (t : Text) (k : Nat) : Prop where
  pos : 0 < k
  lt : k < t.length
  visible : ∃ c ∈ t.take k, c ≠ ' '
  breakable : ∃ a b, t[k - 1]? = some a ∧ t[k]? = some b ∧
    (a = ' ' ∨ b = ' ' ∨ rules.breakable a = true ∨ rules.breakable b = true)

/-! ### Cuts as positions -/

theorem reserved_spec (indentation pos column : Nat) (t : Text) :
    ∃ l r, t = l ++ r ∧ reserved indentation pos column t = (pos + l.length, column + cols l) ∧
      (∀ q < l.length, column + cols (l.take q) < indentation) ∧
      (r = [] ∨ indentation ≤ column + cols l) := by
  induction t generalizing pos column with
  | nil => exact ⟨[], [], rfl, rfl, fun q hq => absurd hq (Nat.not_lt_zero q), .inl rfl⟩
  | cons c t ih =>
    rw [reserved]
    split
    · rename_i hle
      exact ⟨[], c :: t, rfl, rfl, fun q hq => absurd hq (Nat.not_lt_zero q), .inr hle⟩
    · rename_i hlt
      obtain ⟨l, r, rfl, heq, hbefore, hend⟩ := ih (pos + 1) (column + charWidth c)
      refine ⟨c :: l, r, rfl, ?_, fun q hq => ?_, ?_⟩
      · rw [heq, List.length_cons, cols_cons]
        simp only [Prod.mk.injEq]
        omega
      · cases q with
        | zero => simpa using hlt
        | succ q =>
          have := hbefore q (Nat.lt_of_succ_lt_succ hq)
          rw [List.take_succ_cons, cols_cons]
          omega
      · rwa [cols_cons, ← Nat.add_assoc]

/-- What the search passes over is reserved, if anything follows. -/
theorem reserved_append {l r : Text} (hbefore : ∀ q < l.length, cols (l.take q) < indentation)
    (hend : r = [] ∨ indentation ≤ cols l) (hp : p < (l ++ r).length) :
    Reserved (l ++ r) indentation p ↔ r ≠ [] ∧ p = l.length := by
  have hlow {q : Nat} (hq : indentation ≤ cols ((l ++ r).take q)) : l.length ≤ q := by
    by_contra hlt
    rw [List.take_append_of_le_length (by omega)] at hq
    have := hbefore q (by omega)
    omega
  constructor
  · intro h
    have hle : l.length ≤ p := hlow h.1
    have hr : r ≠ [] := by
      rintro rfl
      rw [List.append_nil] at hp
      omega
    refine ⟨hr, Nat.le_antisymm (h.2 ?_) hle⟩
    simpa using hend.resolve_left hr
  · rintro ⟨hr, rfl⟩
    exact ⟨by simpa using hend.resolve_left hr, fun q hq => hlow hq⟩

theorem kindAt_append (s : Text) (before after : Char) (r : Text) :
    kindAt rules (s ++ before :: after :: r) (s.length + 1) = cutKind rules before after := by
  simp [kindAt]

/-- A text behind one character, cut in front of another one. -/
theorem kindAt_append_cons (l : Text) (c : Char) (m : Text) (after : Char) (r : Text) :
    kindAt rules (l ++ c :: (m ++ after :: r)) (l.length + 1 + m.length) =
      cutKind rules (m.getLast?.getD c) after := by
  rcases List.eq_nil_or_concat' m with rfl | ⟨m, b, rfl⟩
  · exact kindAt_append l c after r
  · have := @kindAt_append rules (l ++ c :: m) b after r
    simp only [List.append_assoc, List.cons_append, List.length_append, List.length_cons] at this
    simpa [Nat.add_assoc, Nat.add_comm 1] using this

/-- The usable cuts are the usable positions, each with its column and its kind. -/
theorem mem_usableCuts_iff : cut ∈ usableCuts rules line indentation ↔
    Usable line indentation cut.pos ∧ cut.column = cols (line.take cut.pos) ∧
      cut.kind = kindAt rules line cut.pos := by
  obtain ⟨l, r, rfl, hreserved, hbefore, hend⟩ := reserved_spec indentation 0 0 line
  simp only [Nat.zero_add] at hreserved hbefore hend
  have hplace {p k : Nat} (hpk : p < k) (hk : k < (l ++ r).length) :
      Reserved (l ++ r) indentation p ↔ r ≠ [] ∧ p = l.length :=
    reserved_append hbefore hend (Nat.lt_trans hpk hk)
  unfold usableCuts
  rw [hreserved]
  dsimp only
  rw [List.drop_left]
  cases r with
  | nil =>
    refine iff_of_false List.not_mem_nil ?_
    rintro ⟨⟨hk, p, hpk, hp, -⟩, -⟩
    exact ((hplace hpk hk).1 hp).1 rfl
  | cons c t =>
    rw [mem_cutsFrom]
    have htake (m : Text) (a : Char) (u : Text) :
        (l ++ c :: (m ++ a :: u)).take (l.length + 1 + m.length) = l ++ c :: m := by
      have hlength : l.length + 1 + m.length = (l ++ c :: m).length := by simp; omega
      rw [hlength, ← List.cons_append, ← List.append_assoc, List.take_left]
    constructor
    · rintro ⟨m, a, u, rfl, hseen, rfl⟩
      dsimp only
      have hk : l.length + 1 + m.length < (l ++ c :: (m ++ a :: u)).length := by simp; omega
      refine ⟨⟨hk, l.length, by omega, (hplace (by omega) hk).2 ⟨by simp, rfl⟩, ?_⟩, ?_,
        (kindAt_append_cons l c m a u).symm⟩
      · rw [htake, List.drop_left]
        simpa using hseen
      · rw [htake, cols_append, cols_cons, Nat.add_assoc]
    · rintro ⟨⟨hk, p, hpk, hp, hseen⟩, hcolumn, hkind⟩
      obtain ⟨-, rfl⟩ := (hplace hpk hk).1 hp
      obtain ⟨m, a, u, rfl, hm⟩ : ∃ m a u, t = m ++ a :: u ∧
          l.length + 1 + m.length = cut.pos := by
        have hlt : cut.pos - (l.length + 1) < t.length := by
          rw [List.length_append, List.length_cons] at hk
          omega
        refine ⟨t.take (cut.pos - (l.length + 1)), t[cut.pos - (l.length + 1)],
          t.drop (cut.pos - (l.length + 1) + 1), by simp, ?_⟩
        rw [List.length_take]
        omega
      rw [← hm, htake] at hseen hcolumn
      rw [← hm, kindAt_append_cons] at hkind
      rw [List.drop_left] at hseen
      refine ⟨m, a, u, rfl, by simpa using hseen, ?_⟩
      obtain ⟨pos, column, kind⟩ := cut
      dsimp only at hm hcolumn hkind ⊢
      rw [← hm, hcolumn, hkind, cols_append, cols_cons, Nat.add_assoc l.cols]

/-- The cut at a usable position. -/
theorem mem_usableCuts_of_usable (h : Usable line indentation k) (rules : Rules) :
    ⟨k, cols (line.take k), kindAt rules line k⟩ ∈ usableCuts rules line indentation :=
  mem_usableCuts_iff.2 ⟨h, rfl, rfl⟩

theorem pos_mem_legalPlaces (h : cut ∈ usableCuts rules line indentation)
    (hkind : cut.kind = .legal) : cut.pos ∈ legalPlaces rules line indentation := by
  obtain ⟨husable, -, hkind'⟩ := mem_usableCuts_iff.1 h
  exact ⟨husable, hkind' ▸ hkind⟩

/-- The last cut that fits stands at the last position that fits. -/
theorem LastFitting.isGreatest (h : LastFitting (usableCuts rules line indentation) width cut) :
    IsGreatest (fittingPlaces rules line indentation width) cut.pos ∧
      kindAt rules line cut.pos = cut.kind := by
  obtain ⟨husable, hcolumn, hkind⟩ := mem_usableCuts_iff.1 h.mem
  refine ⟨⟨⟨husable, hcolumn ▸ h.fits, hkind ▸ h.kind⟩, ?_⟩, hkind.symm⟩
  rintro k ⟨hk, hfits, hne⟩
  exact h.last _ (mem_usableCuts_of_usable hk rules) hfits hne

/-! ### What is found -/

/-- The cut that is chosen stands at the position that is looked for. -/
theorem Chosen.found (h : Chosen (usableCuts rules line indentation) width cut) :
    Found rules line indentation width (some cut.pos) := by
  cases h with
  | last h legal =>
    obtain ⟨hlast, hkind⟩ := h.isGreatest
    exact .last hlast (hkind.trans legal)
  | before last h rejected mem legal lt near closest =>
    obtain ⟨hlast, hkind⟩ := h.isGreatest
    refine .near hlast (hkind.trans rejected)
      (.before ⟨⟨pos_mem_legalPlaces mem legal, lt, near⟩, ?_⟩)
    rintro k ⟨⟨husable, hlegal⟩, hlt, -⟩
    exact closest _ (mem_usableCuts_of_usable husable rules) hlegal hlt
  | behind last h rejected mem legal lt near none_before closest =>
    obtain ⟨hlast, hkind⟩ := h.isGreatest
    refine .near hlast (hkind.trans rejected)
      (.behind ?_ ⟨⟨pos_mem_legalPlaces mem legal, lt, near⟩, ?_⟩)
    · rintro k ⟨husable, hlegal⟩ hlt
      exact none_before _ (mem_usableCuts_of_usable husable rules) hlegal hlt
    · rintro k ⟨⟨husable, hlegal⟩, hlt, -⟩
      exact closest _ (mem_usableCuts_of_usable husable rules) hlegal hlt
  | rejected h rejected none_near =>
    obtain ⟨hlast, hkind⟩ := h.isGreatest
    refine .near hlast (hkind.trans rejected) (.alone ?_)
    rintro k ⟨husable, hlegal⟩
    exact none_near _ (mem_usableCuts_of_usable husable rules) hlegal
  | beyond none_fits mem legal first =>
    refine .beyond ?_ ⟨pos_mem_legalPlaces mem legal, ?_⟩
    · refine Set.eq_empty_iff_forall_notMem.2 ?_
      rintro k ⟨husable, hfits, hne⟩
      exact hne (none_fits _ (mem_usableCuts_of_usable husable rules) hfits)
    · rintro k ⟨husable, hlegal⟩
      exact first _ (mem_usableCuts_of_usable husable rules) hlegal

theorem found_findBreak (rules : Rules) (line : Text) (indentation width : Nat) :
    Found rules line indentation width (findBreak rules line indentation width) := by
  cases h : findBreak rules line indentation width with
  | some pos =>
    obtain ⟨cut, rfl, hcut⟩ := chosen_of_findBreak h
    exact hcut.found
  | none =>
    have hnone := not_legal_of_findBreak_eq_none h
    refine .whole (Set.eq_empty_iff_forall_notMem.2 ?_) (Set.eq_empty_iff_forall_notMem.2 ?_)
    · rintro k ⟨husable, hfits, hne⟩
      exact hne ((hnone _ (mem_usableCuts_of_usable husable rules)).2 hfits)
    · rintro k ⟨husable, hlegal⟩
      exact (hnone _ (mem_usableCuts_of_usable husable rules)).1 hlegal

/-! ### Nothing else is found -/

theorem Replaces.unique {legal : Set Nat} {c k k' : Nat} (h : Replaces legal c k)
    (h' : Replaces legal c k') : k = k' := by
  cases h with
  | before h =>
    -- a legal position shortly before `c` rules out the other two ways
    obtain ⟨hk, hlt, hnear⟩ := h.1
    cases h' with
    | before h' => exact h.unique h'
    | behind none_before => exact absurd (none_before k hk hlt) (by omega)
    | alone none_near => exact absurd (none_near k hk) (by omega)
  | behind none_before h =>
    obtain ⟨hk, hlt, hnear⟩ := h.1
    cases h' with
    | before h' => exact absurd (none_before k' h'.1.1 h'.1.2.1) (Nat.not_lt.2 h'.1.2.2)
    | behind _ h' => exact h.unique h'
    | alone none_near => exact absurd (none_near k hk) (by omega)
  | alone none_near =>
    cases h' with
    | before h' =>
      obtain ⟨hk, hlt, hnear⟩ := h'.1
      exact absurd (none_near k' hk) (by omega)
    | behind _ h' =>
      obtain ⟨hk, hlt, hnear⟩ := h'.1
      exact absurd (none_near k' hk) (by omega)
    | alone => rfl

/-- The search starts from the last position that fits. -/
theorem Found.of_last {result : Option Nat} (h : Found rules line indentation width result)
    (hc : IsGreatest (fittingPlaces rules line indentation width) c) :
    kindAt rules line c = .legal ∧ result = some c ∨ kindAt rules line c = .rejected ∧
      ∃ k, Replaces (legalPlaces rules line indentation) c k ∧ result = some k := by
  cases h with
  | last h legal =>
    obtain rfl := h.unique hc
    exact .inl ⟨legal, rfl⟩
  | near h rejected replaces =>
    obtain rfl := h.unique hc
    exact .inr ⟨rejected, _, replaces, rfl⟩
  | beyond none_fits => exact absurd (none_fits ▸ hc.1) (Set.notMem_empty c)
  | whole none_fits => exact absurd (none_fits ▸ hc.1) (Set.notMem_empty c)

/-- When none fits, it is for the first legal one. -/
theorem Found.of_none_fits {result : Option Nat} (h : Found rules line indentation width result)
    (hnone : fittingPlaces rules line indentation width = ∅) :
    (∃ k, IsLeast (legalPlaces rules line indentation) k ∧ result = some k) ∨
      legalPlaces rules line indentation = ∅ ∧ result = none := by
  cases h with
  | last h => exact absurd (hnone ▸ h.1) (Set.notMem_empty _)
  | near h => exact absurd (hnone ▸ h.1) (Set.notMem_empty _)
  | beyond _ h => exact .inl ⟨_, h, rfl⟩
  | whole _ none_legal => exact .inr ⟨none_legal, rfl⟩

theorem Found.unique {result result' : Option Nat} (h : Found rules line indentation width result)
    (h' : Found rules line indentation width result') : result = result' := by
  cases h with
  | last h legal =>
    rcases h'.of_last h with ⟨-, rfl⟩ | ⟨rejected, -⟩
    · rfl
    · rw [legal] at rejected
      cases rejected
  | near h rejected replaces =>
    rcases h'.of_last h with ⟨legal, -⟩ | ⟨-, k, hk, rfl⟩
    · rw [rejected] at legal
      cases legal
    · rw [replaces.unique hk]
  | beyond none_fits h =>
    rcases h'.of_none_fits none_fits with ⟨k, hk, rfl⟩ | ⟨none_legal, -⟩
    · rw [h.unique hk]
    · exact absurd (none_legal ▸ h.1) (Set.notMem_empty _)
  | whole none_fits none_legal =>
    rcases h'.of_none_fits none_fits with ⟨k, hk, -⟩ | ⟨-, rfl⟩
    · exact absurd (none_legal ▸ hk.1) (Set.notMem_empty _)
    · rfl

/-! ### Where lines are split -/

theorem parts_of_usable (h : Usable t indentation k) (hkind : kindAt rules t k ≠ .never) :
    Parts rules t k := by
  obtain ⟨hlt, p, hpk, -, c, hc, hne⟩ := h
  refine ⟨by omega, hlt, ⟨c, List.mem_of_mem_drop hc, hne⟩, ?_⟩
  have hbefore : k - 1 < t.length := by omega
  refine ⟨t[k - 1], t[k], List.getElem?_eq_getElem hbefore, List.getElem?_eq_getElem hlt, ?_⟩
  unfold kindAt at hkind
  rw [List.getElem?_eq_getElem hbefore, List.getElem?_eq_getElem hlt] at hkind
  dsimp only at hkind
  by_contra hstay
  simp only [not_or, Bool.not_eq_true] at hstay
  obtain ⟨hbefore, hafter, hb, ha⟩ := hstay
  simp [cutKind, hbefore, hafter, hb, ha] at hkind

theorem Found.parts (h : Found rules line indentation width (some k)) : Parts rules line k := by
  have hlegal {k : Nat} (hk : k ∈ legalPlaces rules line indentation) : Parts rules line k :=
    parts_of_usable hk.1 (by rw [hk.2]; decide)
  cases h with
  | last h => exact parts_of_usable h.1.1 h.1.2.2
  | near h rejected replaces =>
    cases replaces with
    | before h => exact hlegal h.1.1
    | behind _ h => exact hlegal h.1.1
    | alone => exact parts_of_usable h.1.1 h.1.2.2
  | beyond _ h => exact hlegal h.1

/-- The search gives the position that is looked for and nothing else, which is strictly inside the
line, behind something visible, and not between two characters that must stay together. -/
theorem findBreak_eq_iff_found (rules : Rules) (line : Text) (indentation width : Nat) :
    (∀ result, findBreak rules line indentation width = result ↔
      Found rules line indentation width result) ∧
    ∀ k ∈ findBreak rules line indentation width, Parts rules line k := by
  have hfound := found_findBreak rules line indentation width
  refine ⟨fun result => ⟨fun h => h ▸ hfound, hfound.unique⟩, fun k hk => ?_⟩
  rw [Option.mem_def.1 hk] at hfound
  exact hfound.parts

/-- A full stop must not begin a line: the break moves back to the legal place before it. -/
example : findBreak .kinsoku "日本語。文章".toList 0 6 = some 2 := by
  decide +kernel

end MarkupText.LineBreak
