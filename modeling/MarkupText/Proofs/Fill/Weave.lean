import MarkupText.Proofs.Fill.Order

/-!
# What fills leave

`Rendered.weave` replaces some ranges of a text at once, and `Rendered.replacements` are the ranges
of the placeholders that some fills reach, each with the text that it gets. After the fills the text
is woven from the text before them (`Settled.text_fillEach`): that is proved fill by fill, since a
fill that is made first and one that is woven in give the same (`weave_splice`).
-/

namespace MarkupText

open Text

namespace Text

/-- The part of a text between two positions. -/
def between (t : Text) (start stop : Nat) : Text := (t.slice? start stop).getD []

variable {t l m r : Text} {start stop : Nat}

theorem between_append (l m r : Text) : between (l ++ m ++ r) l.size (l.size + m.size) = m := by
  rw [between, slice?_append_size]
  rfl

theorem splitAt?_append_add (l t : Text) (n : Nat) :
    splitAt? (l ++ t) (l.size + n) = (splitAt? t n).map fun (x, y) => (l ++ x, y) := by
  cases h : splitAt? t n with
  | some p =>
    obtain ⟨rfl, rfl⟩ := eq_append_of_splitAt? h
    rw [← size_append, ← List.append_assoc]
    exact splitAt?_append_size ..
  | none =>
    cases h' : splitAt? (l ++ t) (l.size + n) with
    | none => rfl
    | some p =>
      obtain ⟨heq, hsize⟩ := eq_append_of_splitAt? h'
      obtain ⟨v, hv, ht⟩ := append_eq_of_size_le heq.symm (by omega)
      rw [hv, size_append] at hsize
      rw [splitAt?_eq_some_iff.2 ⟨ht, Nat.add_left_cancel hsize⟩] at h
      cases h

theorem between_append_add (l t : Text) (start stop : Nat) :
    between (l ++ t) (l.size + start) (l.size + stop) = between t start stop := by
  unfold between slice?
  simp only [splitAt?_append_add, Nat.add_le_add_iff_left, Nat.add_sub_add_left]
  cases splitAt? t start <;> rfl

end Text

namespace Rendered

/-- A range of a text, and what comes in its place. -/
structure Piece where
  start : Nat
  stop : Nat
  text : Text

/-- The text from `pos` on, with all ranges replaced at once. -/
def weave (t : Text) (pos : Nat) : List Piece → Text
  | [] => t.between pos t.size
  | p :: ps => t.between pos p.start ++ p.text ++ weave t p.stop ps

/-- What fills put in the place of placeholders: the first span with a token that is not `taken`
gets the text of the first fill of this token. -/
def replacements (fs : List ImageFill) : (taken : List Nat) → List Span → List Piece
  | _, [] => []
  | taken, a :: spans =>
    match a.token? with
    | none => replacements fs taken spans
    | some n =>
      (if n ∈ taken then []
        else ((fs.find? (·.token == n)).map fun f => ⟨a.start, a.stop, f.replacement⟩).toList) ++
        replacements fs (n :: taken) spans

/-- From `pos` on the ranges come one after the other. -/
def InOrder (t : Text) (pos : Nat) : List Piece → Prop
  | [] => Boundary t pos
  | p :: ps => pos ≤ p.start ∧ p.start ≤ p.stop ∧ Boundary t pos ∧ Boundary t p.start ∧
      InOrder t p.stop ps

/-! ### Weaving -/

def Piece.move (removed inserted : Nat) (p : Piece) : Piece :=
  { p with start := p.start - removed + inserted, stop := p.stop - removed + inserted }

variable {t l m r u k k' : Text} {pos n : Nat} {ps qs : List Piece} {fs : List ImageFill}
  {taken taken' : List Nat} {spans : List Span}

theorem weave_nil (t : Text) : weave t 0 [] = t := by
  have := between_append [] t []
  simpa [weave] using this

theorem InOrder.le_start {p : Piece} (h : InOrder t pos ps) (hp : p ∈ ps) : pos ≤ p.start := by
  induction ps generalizing pos with
  | nil => cases hp
  | cons q ps ih =>
    obtain ⟨hstart, hstop, -, -, hps⟩ := h
    rcases List.mem_cons.1 hp with rfl | hp
    · exact hstart
    · have := ih hps hp
      omega

/-- What is woven behind an edit is what was there, moved. -/
theorem weave_behind (h : InOrder (l ++ m ++ r) pos ps) (hpos : l.size + m.size ≤ pos) :
    weave (l ++ u ++ r) (pos - m.size + u.size) (ps.map (·.move m.size u.size)) =
      weave (l ++ m ++ r) pos ps := by
  have hbetween {start stop : Nat} (hstart : l.size + m.size ≤ start)
      (hstop : l.size + m.size ≤ stop) :
      between (l ++ u ++ r) (start - m.size + u.size) (stop - m.size + u.size) =
        between (l ++ m ++ r) start stop := by
    obtain ⟨a, rfl⟩ := Nat.exists_eq_add_of_le hstart
    obtain ⟨b, rfl⟩ := Nat.exists_eq_add_of_le hstop
    rw [← size_append, between_append_add]
    have hmoved (n : Nat) : (l ++ m : Text).size + n - m.size + u.size =
        (l ++ u : Text).size + n := by
      simp only [size_append]
      omega
    rw [hmoved, hmoved, between_append_add]
  induction ps generalizing pos with
  | nil =>
    have hsize : l.size + m.size ≤ (l ++ m ++ r : Text).size := by
      simp only [size_append]
      omega
    have hmoved : (l ++ m ++ r : Text).size - m.size + u.size = (l ++ u ++ r : Text).size := by
      simp only [size_append]
      omega
    have hrest := hbetween hpos hsize
    rwa [hmoved] at hrest
  | cons p ps ih =>
    obtain ⟨hstart, hstop, -, -, hps⟩ := h
    have hrest := ih hps (by omega)
    have hfirst := hbetween hpos (Nat.le_trans hpos hstart)
    simp only [List.map_cons, weave, Piece.move] at hrest ⊢
    rw [hfirst, hrest]

/-- A range may be replaced before those behind it are. -/
theorem weave_splice_first (h : InOrder (l ++ m ++ r) pos (⟨l.size, l.size + m.size, u⟩ :: qs)) :
    weave (l ++ u ++ r) pos (qs.map (·.move m.size u.size)) =
      weave (l ++ m ++ r) pos (⟨l.size, l.size + m.size, u⟩ :: qs) := by
  obtain ⟨hpos, -, hbefore, -, hqs⟩ := h
  obtain ⟨l₁, l₂, rfl, rfl⟩ : Boundary l pos := by
    rw [List.append_assoc] at hbefore
    exact hbefore.of_append hpos
  have hfront : between (l₁ ++ l₂ ++ m ++ r) l₁.size (l₁ ++ l₂ : Text).size = l₂ := by
    rw [size_append, List.append_assoc]
    exact between_append ..
  -- what stands between the start and a position in the rest, before and after
  have hrest (r₁ r₂ : Text) : between (l₁ ++ l₂ ++ u ++ (r₁ ++ r₂)) l₁.size
      ((l₁ ++ l₂ ++ u : Text).size + r₁.size) = l₂ ++ u ++ r₁ := by
    have := between_append l₁ (l₂ ++ u ++ r₁) r₂
    simpa only [size_append, List.append_assoc, Nat.add_assoc] using this
  have hold (r₁ r₂ : Text) : between (l₁ ++ l₂ ++ m ++ (r₁ ++ r₂))
      ((l₁ ++ l₂ : Text).size + m.size) ((l₁ ++ l₂ : Text).size + m.size + r₁.size) = r₁ := by
    have := between_append (l₁ ++ l₂ ++ m) r₁ r₂
    simpa only [size_append, List.append_assoc, Nat.add_assoc] using this
  cases qs with
  | nil =>
    have hu := hrest r []
    have hm := hold r []
    rw [← size_append, List.append_nil] at hu
    rw [← size_append, ← size_append, List.append_nil] at hm
    simp only [List.map_nil, weave, hfront, hu, ← size_append, hm]
  | cons q qs =>
    obtain ⟨hq, hqle, -, hqat, hqs⟩ := hqs
    replace hq : (l₁ ++ l₂ : Text).size + m.size ≤ q.start := hq
    obtain ⟨r₁, r₂, rfl, hr⟩ : Boundary r (q.start - (l₁ ++ l₂ ++ m : Text).size) :=
      hqat.of_append_left (by rw [size_append]; exact hq)
    have hqstart : q.start = (l₁ ++ l₂ : Text).size + m.size + r₁.size := by
      rw [size_append] at hr
      omega
    have hqmoved : q.start - m.size + u.size = (l₁ ++ l₂ ++ u : Text).size + r₁.size := by
      rw [hqstart, size_append (l₁ ++ l₂)]
      omega
    have hpos : (l₁ ++ l₂ : Text).size + m.size ≤ q.stop := Nat.le_trans hq hqle
    have hbehind := weave_behind (u := u) hqs hpos
    change between _ _ (q.start - m.size + u.size) ++ q.text ++
        weave _ (q.stop - m.size + u.size) (qs.map _) =
      between _ _ (l₁ ++ l₂ : Text).size ++ u ++
        (between _ _ q.start ++ q.text ++ weave _ q.stop qs)
    rw [hqmoved, hrest, hbehind, hfront, hqstart, hold]
    simp only [List.append_assoc]

/-- A range may be replaced before the others are. -/
theorem weave_splice (h : InOrder (l ++ m ++ r) pos (ps ++ ⟨l.size, l.size + m.size, u⟩ :: qs)) :
    weave (l ++ u ++ r) pos (ps ++ qs.map (·.move m.size u.size)) =
      weave (l ++ m ++ r) pos (ps ++ ⟨l.size, l.size + m.size, u⟩ :: qs) := by
  induction ps generalizing pos with
  | nil => exact weave_splice_first h
  | cons p ps ih =>
    obtain ⟨hstart, hstop, hbefore, hp, hps⟩ := h
    have hle : p.stop ≤ l.size := hps.le_start (List.mem_append_right _ List.mem_cons_self)
    rw [List.append_assoc] at hbefore hp
    obtain ⟨a, y, rfl, ha⟩ : Boundary l p.start := hp.of_append (by omega)
    rw [← ha] at hstart
    obtain ⟨b, c, rfl, rfl⟩ : Boundary a pos := by
      rw [List.append_assoc] at hbefore
      exact hbefore.of_append hstart
    have hfirst (v : Text) : between (b ++ c ++ y ++ v ++ r) b.size p.start = c := by
      have := between_append b c (y ++ v ++ r)
      rw [← ha]
      simpa only [size_append, List.append_assoc] using this
    change between _ _ p.start ++ p.text ++ weave _ p.stop _ =
      between _ _ p.start ++ p.text ++ weave _ p.stop _
    rw [hfirst, hfirst]
    exact congrArg (c ++ p.text ++ ·) (ih hps)

/-! ### Replacements -/

theorem replacements_congr (h : ∀ a ∈ spans, ∀ n, a.token? = some n → (n ∈ taken ↔ n ∈ taken')) :
    replacements fs taken spans = replacements fs taken' spans := by
  induction spans generalizing taken taken' with
  | nil => rfl
  | cons a spans ih =>
    obtain ⟨ha, hrest⟩ := List.forall_mem_cons.1 h
    unfold replacements
    cases htoken : a.token? with
    | none => exact ih hrest
    | some n =>
      dsimp only
      have hspans : replacements fs (n :: taken) spans = replacements fs (n :: taken') spans :=
        ih fun b hb k hk => by rw [List.mem_cons, List.mem_cons, hrest b hb k hk]
      simp only [hspans, ha n htoken]

theorem replacements_append (fs : List ImageFill) (taken : List Nat) (as bs : List Span) :
    replacements fs taken (as ++ bs) = replacements fs taken as ++
      replacements fs ((as.filterMap Span.token?).reverse ++ taken) bs := by
  induction as generalizing taken with
  | nil => rfl
  | cons a as ih =>
    simp only [List.cons_append, replacements]
    cases htoken : a.token? with
    | none =>
      dsimp only
      rw [ih, List.filterMap_cons_none htoken]
    | some n =>
      dsimp only
      rw [ih, List.filterMap_cons_some htoken, List.reverse_cons, List.append_assoc,
        List.append_assoc]
      rfl

theorem replacements_map {g : Span → Span} {φ : Piece → Piece}
    (htoken : ∀ a, (g a).token? = a.token?)
    (h : ∀ a ∈ spans, a.token?.isSome = true →
      ∀ u, (⟨(g a).start, (g a).stop, u⟩ : Piece) = φ ⟨a.start, a.stop, u⟩) :
    replacements fs taken (spans.map g) = (replacements fs taken spans).map φ := by
  induction spans generalizing taken with
  | nil => rfl
  | cons a spans ih =>
    obtain ⟨ha, hrest⟩ := List.forall_mem_cons.1 h
    simp only [List.map_cons, replacements, htoken]
    cases hsome : a.token? with
    | none => exact ih hrest
    | some n =>
      dsimp only
      rw [ih hrest, List.map_append]
      congr 1
      split
      · rfl
      · cases fs.find? (·.token == n) with
        | none => rfl
        | some f => exact congrArg (· :: []) (ha (by rw [hsome]; rfl) f.replacement)

/-- A fill whose token is taken or stands nowhere replaces nothing. -/
theorem replacements_cons (f : ImageFill)
    (h : ∀ a ∈ spans, a.token? = some f.token → f.token ∈ taken) :
    replacements (f :: fs) taken spans = replacements fs taken spans := by
  induction spans generalizing taken with
  | nil => rfl
  | cons a spans ih =>
    obtain ⟨ha, hrest⟩ := List.forall_mem_cons.1 h
    simp only [replacements]
    cases htoken : a.token? with
    | none => exact ih hrest
    | some n =>
      dsimp only
      rw [ih fun b hb hf => List.mem_cons_of_mem n (hrest b hb hf)]
      split
      · rfl
      · rename_i hn
        have hne : (f.token == n) = false := by
          rw [beq_eq_false_iff_ne]
          rintro rfl
          exact hn (ha htoken)
        rw [List.find?_cons_of_neg (by simpa using hne)]

/-- The first fill of a token replaces the first placeholder with it. -/
theorem replacements_first {before : List Span} {f : ImageFill} {p : Span}
    (hbefore : ∀ a ∈ before, a.token? ≠ some f.token) (hp : p.token? = some f.token)
    (hf : f.token ∉ taken) (fs : List ImageFill) (behind : List Span) :
    replacements (f :: fs) taken (before ++ p :: behind) = replacements fs taken before ++
      ⟨p.start, p.stop, f.replacement⟩ ::
        replacements fs (f.token :: ((before.filterMap Span.token?).reverse ++ taken)) behind := by
  have hmet : f.token ∉ (before.filterMap Span.token?).reverse := by
    rw [List.mem_reverse, List.mem_filterMap]
    rintro ⟨a, ha, htoken⟩
    exact hbefore a ha htoken
  rw [replacements_append, replacements_cons f fun a ha h => absurd h (hbefore a ha)]
  simp only [replacements, hp]
  rw [if_neg fun h => (List.mem_append.1 h).elim hmet hf, List.find?_cons_of_pos (by simp),
    replacements_cons f fun _ _ _ => List.mem_cons_self]
  rfl

/-- Replacements are in order if placeholders are in order and apart. -/
theorem inOrder_replacements_of_apart (fs : List ImageFill) (taken : List Nat)
    (hspans : ∀ a ∈ spans, a.start ≤ a.stop ∧ RangeRule.within t a.start a.stop)
    (hapart : (spans.filter (·.mark.isImage)).Pairwise fun p q => p.stop < q.start)
    (hpos : ∀ a ∈ spans.filter (·.mark.isImage), pos ≤ a.start) (hat : Boundary t pos) :
    InOrder t pos (replacements fs taken spans) := by
  induction spans generalizing taken pos with
  | nil => exact hat
  | cons a spans ih =>
    obtain ⟨⟨hle, hstart, hstop⟩, hrest⟩ := List.forall_mem_cons.1 hspans
    have hbehind : ∀ b ∈ spans.filter (·.mark.isImage), b ∈ (a :: spans).filter (·.mark.isImage) :=
      fun b hb => List.mem_filter.2
        ⟨List.mem_cons_of_mem a (List.mem_filter.1 hb).1, (List.mem_filter.1 hb).2⟩
    have hsub : (spans.filter (·.mark.isImage)).Pairwise fun p q => p.stop < q.start :=
      hapart.sublist ((List.sublist_cons_self a spans).filter _)
    unfold replacements
    cases htoken : a.token? with
    | none => exact ih taken hrest hsub (fun b hb => hpos b (hbehind b hb)) hat
    | some n =>
      dsimp only
      have hskip := ih (n :: taken) hrest hsub (fun b hb => hpos b (hbehind b hb)) hat
      split
      · exact hskip
      · cases fs.find? (·.token == n) with
        | none => exact hskip
        | some f =>
          have himage : a.mark.isImage = true := isImage_of_token? htoken
          simp only [List.filter_cons, himage, if_true] at hapart hpos
          refine ⟨hpos a List.mem_cons_self, hle, hat, hstart, ih _ hrest hsub ?_ hstop⟩
          exact fun b hb => Nat.le_of_lt (List.rel_of_pairwise_cons hapart hb)

section FillSpan
variable {start stop size : Nat}

theorem replacements_fillSpan_before (fs : List ImageFill) (taken : List Nat)
    (h : ∀ a ∈ spans, a.token?.isSome = true → a.start ≤ a.stop ∧ a.stop < start) :
    replacements fs taken (spans.map (fillSpan start stop size)) =
      replacements fs taken spans := by
  refine (replacements_map (fun _ => token?_fillSpan) fun a ha hsome u => ?_).trans (List.map_id _)
  obtain ⟨hle, hlt⟩ := h a ha hsome
  rw [fillSpan_of_before hlt hle]
  rfl

theorem replacements_fillSpan_behind (hrange : start ≤ stop) (fs : List ImageFill)
    (taken : List Nat)
    (h : ∀ a ∈ spans, a.token?.isSome = true → a.start ≤ a.stop ∧ stop < a.start) :
    replacements fs taken (spans.map (fillSpan start stop size)) =
      (replacements fs taken spans).map (·.move (stop - start) size) := by
  refine replacements_map (fun _ => token?_fillSpan) fun a ha hsome u => ?_
  obtain ⟨hle, hlt⟩ := h a ha hsome
  rw [fillSpan_of_after hlt hrange hle]
  rfl

theorem filterMap_token?_fillSpan (spans : List Span) :
    (spans.map (fillSpan start stop size)).filterMap Span.token? =
      spans.filterMap Span.token? := by
  rw [List.filterMap_map]
  exact List.filterMap_congr fun a _ => token?_fillSpan

end FillSpan

namespace Settled
variable {r : Rendered}

theorem inOrder_replacements (h : Settled r) (fs : List ImageFill) (taken : List Nat) :
    InOrder r.text 0 (replacements fs taken r.spans) :=
  inOrder_replacements_of_apart fs taken (fun a ha => ⟨h.ordered a ha, h.within a ha⟩) h.apart
    (fun _ _ => Nat.zero_le _) ⟨[], r.text, rfl, rfl⟩

/-- After a fill its placeholder is passed over, and what is replaced behind it has moved. -/
theorem replacements_put (h : Settled r) {f : ImageFill} {p : Span} {before behind : List Span}
    (hspans : r.spans = before ++ p :: behind) (hp : p.token? = some f.token)
    (hbefore : ∀ a ∈ before, a.token? ≠ some f.token) (fs : List ImageFill) :
    replacements fs (r.put p f).filled (r.put p f).spans = replacements fs r.filled before ++
      (replacements fs (f.token :: ((before.filterMap Span.token?).reverse ++ r.filled))
        behind).map (·.move (p.stop - p.start) f.replacement.size) := by
  have hapart := h.apart
  rw [hspans, List.filter_append, List.filter_cons, if_pos (isImage_of_token? hp)] at hapart
  obtain ⟨-, hafter, hfront⟩ := List.pairwise_append.1 hapart
  have hfronts : ∀ a ∈ before, a.token?.isSome = true → a.start ≤ a.stop ∧ a.stop < p.start :=
    fun a ha hsome => ⟨h.ordered a (hspans ▸ List.mem_append_left _ ha),
      hfront a (List.mem_filter.2 ⟨ha, isImage_of_isSome hsome⟩) p List.mem_cons_self⟩
  have hafters : ∀ a ∈ behind, a.token?.isSome = true → a.start ≤ a.stop ∧ p.stop < a.start :=
    fun a ha hsome => ⟨h.ordered a (hspans ▸ List.mem_append_right _ (List.mem_cons_of_mem p ha)),
      List.rel_of_pairwise_cons hafter (List.mem_filter.2 ⟨ha, isImage_of_isSome hsome⟩)⟩
  have hple : p.start ≤ p.stop :=
    h.ordered p (hspans ▸ List.mem_append_right _ List.mem_cons_self)
  have hfilled : replacements fs (f.token :: r.filled) before = replacements fs r.filled before :=
    replacements_congr fun a ha n hn => by
      have hne : n ≠ f.token := fun heq => hbefore a ha (heq ▸ hn)
      rw [List.mem_cons, or_iff_right hne]
  simp only [Rendered.put, hspans, List.map_append, List.map_cons]
  rw [replacements_append, replacements_fillSpan_before _ _ hfronts, hfilled,
    filterMap_token?_fillSpan]
  simp only [replacements, token?_fillSpan, hp]
  rw [if_pos (List.mem_append_right _ List.mem_cons_self), List.nil_append,
    replacements_fillSpan_behind hple _ _ hafters]
  congr 2
  exact replacements_congr fun a _ n _ => by simp only [List.mem_cons, List.mem_append]; tauto

/-- The first fill of a placeholder may be woven in instead. -/
theorem weave_put (h : Settled r) {f : ImageFill} {p : Span} (hf : f.token ∉ r.filled)
    (hp : r.placeholder? f.token = some p) (fs : List ImageFill) :
    weave (r.put p f).text 0 (replacements fs (r.put p f).filled (r.put p f).spans) =
      weave r.text 0 (replacements (f :: fs) r.filled r.spans) := by
  obtain ⟨himage, htoken⟩ := mem_of_placeholder? hp
  have hple := h.ordered p (List.mem_filter.1 himage).1
  obtain ⟨l, m, x, htext, hput, hl, hm⟩ := h.text_put hp
  have hstop : l.size + m.size = p.stop := by omega
  rw [placeholder?_eq, List.find?_eq_some_iff_append] at hp
  obtain ⟨-, before, behind, hspans, hfirst⟩ := hp
  have hbefore : ∀ a ∈ before, a.token? ≠ some f.token := fun a ha => by simpa using hfirst a ha
  have hold := replacements_first hbefore htoken hf fs behind
  rw [← hspans, ← hl, ← hstop] at hold
  have horder := h.inOrder_replacements (f :: fs) r.filled
  rw [htext, hold] at horder
  rw [h.replacements_put hspans htoken hbefore, hold, hput, htext, ← hm]
  exact weave_splice horder

/-- After fills the text is the text before with the placeholders that they reach replaced. -/
theorem text_fillEach (h : Settled r) (fs : List ImageFill) :
    (r.fillEach fs).text = weave r.text 0 (replacements fs r.filled r.spans) := by
  induction fs generalizing r with
  | nil =>
    have hnone (taken : List Nat) (spans : List Span) : replacements [] taken spans = [] := by
      induction spans generalizing taken with
      | nil => rfl
      | cons a spans ih =>
        unfold replacements
        cases a.token? with
        | none => exact ih taken
        | some n =>
          simp only [ih]
          split <;> rfl
    rw [hnone, weave_nil]
    rfl
  | cons f fs ih =>
    refine (ih (h.fillOne f)).trans ?_
    rcases fillOne_cases r f with ⟨hskip, heq⟩ | ⟨p, hf, hp, heq⟩
    · rw [heq, replacements_cons f fun a ha htoken => ?_]
      rcases hskip with hmem | hnone
      · exact hmem
      · rw [placeholder?_eq] at hnone
        exact absurd (List.find?_eq_none.1 hnone a ha) (by simp [htoken])
    · rw [heq]
      exact h.weave_put hf hp fs

end Settled
end Rendered
end MarkupText
