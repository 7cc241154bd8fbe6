import MarkupText.Rendered
import MarkupText.Proofs.Buffer.Placeholders

/-!
# The order of fills

A fill moves the spans behind its placeholder and cuts those that end at it, so it changes what
later fills work on. `Rendered.Settled` says that placeholders are apart and that no span begins or
ends inside one. Fills keep that (`Settled.fillOne`), and where it holds two fills with different
tokens give the same in either order (`Settled.fillOne_comm`), so that all orders do which keep the
order of the fills of each token (`Settled.fillEach_reorder`).
-/

namespace MarkupText

open Text

/-- The token of a placeholder. -/
def Span.token? (a : Span) : Option Nat :=
  match a.mark with
  | .image request => some request.token
  | _ => none

/-! ### One span -/

namespace Rendered

section Span
variable {a p q : Span} {start stop inserted s e i S E j n : Nat}

@[simp] theorem mark_fillSpan : (fillSpan start stop inserted a).mark = a.mark := by
  unfold fillSpan
  split <;> rfl

@[simp] theorem token?_fillSpan : (fillSpan start stop inserted a).token? = a.token? := by
  unfold Span.token?
  rw [mark_fillSpan]

theorem fillSpan_of_inside (h : start ≤ a.start ∧ a.stop ≤ stop) :
    fillSpan start stop inserted a = ⟨start, start + inserted, a.mark⟩ :=
  if_pos h

theorem fillSpan_of_not_inside (h : ¬ (start ≤ a.start ∧ a.stop ≤ stop)) :
    fillSpan start stop inserted a =
      ⟨movedStart start (stop - start) inserted a.start,
        movedStop start (stop - start) inserted a.stop, a.mark⟩ :=
  if_neg h

theorem fillSpan_of_before (h : a.stop < start) (ha : a.start ≤ a.stop) :
    fillSpan start stop inserted a = a := by
  rw [fillSpan_of_not_inside (by omega), movedStart_of_lt (by omega), movedStop_of_le (by omega)]

theorem fillSpan_of_after (h : stop < a.start) (hp : start ≤ stop) (ha : a.start ≤ a.stop) :
    fillSpan start stop inserted a =
      ⟨a.start - (stop - start) + inserted, a.stop - (stop - start) + inserted, a.mark⟩ := by
  rw [fillSpan_of_not_inside (by omega), movedStart_of_le (by omega), movedStop_of_lt (by omega)]

theorem le_of_le_movedStart (hp : s ≤ e) (hpq : e < S)
    (h : S - (e - s) + i ≤ movedStart s (e - s) i n) : S ≤ n := by
  unfold movedStart at h
  repeat' split at h
  all_goals omega

theorem le_of_movedStop_le (hp : s ≤ e) (hpq : e < E)
    (h : movedStop s (e - s) i n ≤ E - (e - s) + i) : n ≤ E := by
  unfold movedStop at h
  repeat' split at h
  all_goals omega

theorem le_of_le_movedStart_behind (hpq : s < S) (h : s ≤ movedStart S (E - S) j n) : s ≤ n := by
  unfold movedStart at h
  repeat' split at h
  all_goals omega

theorem le_of_movedStop_behind_le (hpq : e < S) (h : movedStop S (E - S) j n ≤ e) : n ≤ e := by
  unfold movedStop at h
  repeat' split at h
  all_goals omega

section Commute
variable (hp : s ≤ e) (hpq : e < S) (hq : S ≤ E)
include hp hpq hq

theorem movedStart_comm (n : Nat) :
    movedStart (S - (e - s) + i) (E - S) j (movedStart s (e - s) i n) =
      movedStart s (e - s) i (movedStart S (E - S) j n) := by
  have hcases : n < s ∨ (s ≤ n ∧ n < e) ∨ (e ≤ n ∧ n < S) ∨ (S ≤ n ∧ n < E) ∨ E ≤ n := by omega
  rcases hcases with h | h | h | h | h
  all_goals
    simp (disch := omega) only [movedStart_of_lt, movedStart_of_inside, movedStart_of_le]
  all_goals omega

theorem movedStop_comm (n : Nat) :
    movedStop (S - (e - s) + i) (E - S) j (movedStop s (e - s) i n) =
      movedStop s (e - s) i (movedStop S (E - S) j n) := by
  have hcases : n ≤ s ∨ (s < n ∧ n ≤ e) ∨ (e < n ∧ n ≤ S) ∨ (S < n ∧ n ≤ E) ∨ E < n := by omega
  rcases hcases with h | h | h | h | h
  all_goals
    simp (disch := omega) only [movedStop_of_le, movedStop_of_inside, movedStop_of_lt]
  all_goals omega

theorem fillSpan_comm (ha : a.start ≤ a.stop) :
    fillSpan (S - (e - s) + i) (E - (e - s) + i) j (fillSpan s e i a) =
      fillSpan s e i (fillSpan S E j a) := by
  by_cases hfirst : s ≤ a.start ∧ a.stop ≤ e
  · have hbefore : fillSpan S E j a = a := fillSpan_of_before (by omega) ha
    rw [hbefore, fillSpan_of_inside hfirst]
    exact fillSpan_of_before (by dsimp only; omega) (Nat.le_add_right ..)
  by_cases hsecond : S ≤ a.start ∧ a.stop ≤ E
  · rw [fillSpan_of_after (by omega) hp ha, fillSpan_of_inside hsecond,
      fillSpan_of_inside (by dsimp only; omega),
      fillSpan_of_after (by dsimp only; omega) hp (Nat.le_add_right ..)]
    simp only [Span.mk.injEq, and_true, true_and]
    omega
  · -- a span that neither placeholder contains keeps to its characters, so its ends move one by one
    have hlen : E - (e - s) + i - (S - (e - s) + i) = E - S := by omega
    rw [fillSpan_of_not_inside hfirst, fillSpan_of_not_inside hsecond, fillSpan_of_not_inside,
      fillSpan_of_not_inside, hlen, movedStart_comm hp hpq hq, movedStop_comm hp hpq hq]
    · exact fun h => hfirst
        ⟨le_of_le_movedStart_behind (by omega) h.1, le_of_movedStop_behind_le hpq h.2⟩
    · exact fun h => hsecond ⟨le_of_le_movedStart hp hpq h.1, le_of_movedStop_le hp (by omega) h.2⟩

end Commute

theorem ordered_fillSpan (hp : s ≤ e) (ha : a.start ≤ a.stop) :
    (fillSpan s e i a).start ≤ (fillSpan s e i a).stop := by
  by_cases hin : s ≤ a.start ∧ a.stop ≤ e
  · rw [fillSpan_of_inside hin]
    exact Nat.le_add_right ..
  · rw [fillSpan_of_not_inside hin]
    unfold movedStart movedStop
    repeat' split
    all_goals
      dsimp only
      omega

end Span

/-! ### Settled texts -/

/-- The spans cover ranges of the text, and those of the placeholders are in order and apart. -/
structure Settled (r : Rendered) : Prop where
  ordered : ∀ a ∈ r.spans, a.start ≤ a.stop
  within : ∀ a ∈ r.spans, RangeRule.within r.text a.start a.stop
  apart : (r.spans.filter (·.mark.isImage)).Pairwise fun p q => p.stop < q.start

/-- The text with a placeholder replaced. -/
def put (r : Rendered) (p : Span) (f : ImageFill) : Rendered :=
  { r with
    text := r.text.splice p.start (p.stop - p.start) f.replacement
    spans := r.spans.map (fillSpan p.start p.stop f.replacement.size)
    filled := f.token :: r.filled }

variable {r r' : Rendered} {p q a : Span} {f g : ImageFill} {fs gs : List ImageFill} {n : Nat}

theorem placeholder?_eq (r : Rendered) (n : Nat) :
    r.placeholder? n = r.spans.find? (·.token? == some n) := by
  unfold placeholder? Span.token?
  congr 1
  funext a
  cases a.mark <;> rfl

theorem isImage_of_isSome (h : a.token?.isSome = true) : a.mark.isImage = true := by
  unfold Span.token? at h
  cases hmark : a.mark with
  | image request => rfl
  | _ => rw [hmark] at h; cases h

theorem isImage_of_token? (h : a.token? = some n) : a.mark.isImage = true :=
  isImage_of_isSome (by rw [h]; rfl)

theorem mem_of_placeholder? (h : r.placeholder? n = some p) :
    p ∈ r.spans.filter (·.mark.isImage) ∧ p.token? = some n := by
  rw [placeholder?_eq] at h
  have htoken : p.token? = some n := by simpa using List.find?_some h
  exact ⟨List.mem_filter.2 ⟨List.mem_of_find?_eq_some h, isImage_of_token? htoken⟩, htoken⟩

theorem placeholder?_put : (r.put p f).placeholder? n =
    (r.placeholder? n).map (fillSpan p.start p.stop f.replacement.size) := by
  have h : ((·.token? == some n) ∘ fillSpan p.start p.stop f.replacement.size) =
      fun a : Span => a.token? == some n := by
    funext a
    exact congrArg (· == some n) token?_fillSpan
  rw [placeholder?_eq, placeholder?_eq, put, List.find?_map, h]

theorem exists_cut {t : Text} {start stop : Nat} (h : RangeRule.within t start stop)
    (hle : start ≤ stop) : ∃ l m x, t = l ++ m ++ x ∧ l.size = start ∧ m.size = stop - start := by
  obtain ⟨⟨l, y, hl, hstart⟩, k, x, hk, hstop⟩ := h
  obtain ⟨m, rfl, -⟩ := append_eq_of_size_le (hk.symm.trans hl) (by omega)
  refine ⟨l, m, x, hk, hstart, ?_⟩
  rw [size_append] at hstop
  omega

namespace Settled
variable (h : Settled r)
include h

theorem cases (hp : p ∈ r.spans.filter (·.mark.isImage))
    (hq : q ∈ r.spans.filter (·.mark.isImage)) : p = q ∨ p.stop < q.start ∨ q.stop < p.start := by
  obtain ⟨before, behind, heq⟩ := List.append_of_mem hp
  have hapart := h.apart
  rw [heq] at hapart hq
  obtain ⟨-, hbehind, hbefore⟩ := List.pairwise_append.1 hapart
  rcases List.mem_append.1 hq with hq | hq
  · exact .inr (.inr (hbefore q hq p List.mem_cons_self))
  · rcases List.mem_cons.1 hq with rfl | hq
    · exact .inl rfl
    · exact .inr (.inl (List.rel_of_pairwise_cons hbehind hq))

/-- A fill puts the replacement where the placeholder is cut out of the text. -/
theorem text_put (hp : r.placeholder? f.token = some p) :
    ∃ l m x, r.text = l ++ m ++ x ∧ (r.put p f).text = l ++ f.replacement ++ x ∧
      l.size = p.start ∧ m.size = p.stop - p.start := by
  have hmem := (List.mem_filter.1 (mem_of_placeholder? hp).1).1
  obtain ⟨l, m, x, htext, hl, hm⟩ := exists_cut (h.within p hmem) (h.ordered p hmem)
  refine ⟨l, m, x, htext, ?_, hl, hm⟩
  rw [Rendered.put, ← hm, ← hl, htext]
  exact splice_append_size ..

theorem put (hp : r.placeholder? f.token = some p) : Settled (r.put p f) := by
  obtain ⟨himage, -⟩ := mem_of_placeholder? hp
  have hple := h.ordered p (List.mem_filter.1 himage).1
  obtain ⟨l, m, x, htext, hput, hl, hm⟩ := h.text_put hp
  refine ⟨fun a ha => ?_, fun a ha => ?_, ?_⟩
  · obtain ⟨a, hmem, rfl⟩ := List.mem_map.1 ha
    exact ordered_fillSpan hple (h.ordered a hmem)
  · obtain ⟨a, hmem, rfl⟩ := List.mem_map.1 ha
    obtain ⟨hstart, hstop⟩ := h.within a hmem
    rw [htext] at hstart hstop
    rw [hput]
    by_cases hin : p.start ≤ a.start ∧ a.stop ≤ p.stop
    · rw [fillSpan_of_inside hin, ← hl, ← size_append]
      exact ⟨((Boundary.size l).append_right _).append_right x, (Boundary.size _).append_right x⟩
    · rw [fillSpan_of_not_inside hin, ← hm, ← hl]
      exact ⟨hstart.movedStart, hstop.movedStop⟩
  · have hfilter : (r.put p f).spans.filter (·.mark.isImage) =
        (r.spans.filter (·.mark.isImage)).map (fillSpan p.start p.stop f.replacement.size) := by
      rw [Rendered.put, List.filter_map]
      congr 1
      exact List.filter_congr fun a _ => by simp
    rw [hfilter, List.pairwise_map]
    refine h.apart.imp_of_mem fun {a b} ha hb hab => ?_
    have hale := h.ordered a (List.mem_filter.1 ha).1
    have hble := h.ordered b (List.mem_filter.1 hb).1
    rcases h.cases himage ha with rfl | hpa | hap
    · rw [fillSpan_of_inside ⟨Nat.le_refl _, Nat.le_refl _⟩, fillSpan_of_after hab hple hble]
      dsimp only
      omega
    · rw [fillSpan_of_after hpa hple hale, fillSpan_of_after (by omega) hple hble]
      dsimp only
      omega
    · rw [fillSpan_of_before hap hale]
      rcases h.cases himage hb with rfl | hpb | hbp
      · rw [fillSpan_of_inside ⟨Nat.le_refl _, Nat.le_refl _⟩]
        exact hab
      · rw [fillSpan_of_after hpb hple hble]
        dsimp only
        omega
      · rwa [fillSpan_of_before hbp hble]

end Settled

/-! ### Sequences of fills -/

/-- The text after a fill; one that fails changes nothing. -/
def fillOne (r : Rendered) (f : ImageFill) : Rendered :=
  match r.fill f with
  | .ok r => r
  | .error _ => r

/-- The text after some fills, whatever became of each. -/
def fillEach (r : Rendered) (fs : List ImageFill) : Rendered := fs.foldl fillOne r

theorem fill_eq (r : Rendered) (f : ImageFill) : r.fill f =
    if f.token ∈ r.filled then .error (.alreadyFilled f.token)
    else match r.placeholder? f.token with
      | none => .error (.unknownToken f.token)
      | some p => .ok (r.put p f) := by
  unfold fill put
  refine if_congr List.contains_iff_mem rfl ?_
  cases r.placeholder? f.token <;> rfl

theorem fillOne_of_filled (h : f.token ∈ r.filled) : r.fillOne f = r := by
  rw [fillOne, fill_eq, if_pos h]

theorem fillOne_of_unknown (h : r.placeholder? f.token = none) : r.fillOne f = r := by
  rw [fillOne, fill_eq, h]
  by_cases hf : f.token ∈ r.filled
  · rw [if_pos hf]
  · rw [if_neg hf]

theorem fillOne_of_put (h : f.token ∉ r.filled) (hp : r.placeholder? f.token = some p) :
    r.fillOne f = r.put p f := by
  rw [fillOne, fill_eq, if_neg h, hp]

theorem fillOne_cases (r : Rendered) (f : ImageFill) :
    (f.token ∈ r.filled ∨ r.placeholder? f.token = none) ∧ r.fillOne f = r ∨
      ∃ p, f.token ∉ r.filled ∧ r.placeholder? f.token = some p ∧ r.fillOne f = r.put p f := by
  by_cases hf : f.token ∈ r.filled
  · exact .inl ⟨.inl hf, fillOne_of_filled hf⟩
  · cases hp : r.placeholder? f.token with
    | none => exact .inl ⟨.inr rfl, fillOne_of_unknown hp⟩
    | some p => exact .inr ⟨p, hf, rfl, fillOne_of_put hf hp⟩

theorem Settled.fillOne (h : Settled r) (f : ImageFill) : Settled (r.fillOne f) := by
  rcases fillOne_cases r f with ⟨-, heq⟩ | ⟨p, -, hp, heq⟩
  · rwa [heq]
  · rw [heq]
    exact h.put hp

theorem isSome_placeholder?_fillOne :
    ((r.fillOne f).placeholder? n).isSome = (r.placeholder? n).isSome := by
  rcases fillOne_cases r f with ⟨-, heq⟩ | ⟨p, -, -, heq⟩
  · rw [heq]
  · rw [heq, placeholder?_put, Option.isSome_map]

theorem mem_filled_fillOne : n ∈ (r.fillOne f).filled ↔
    n ∈ r.filled ∨ n = f.token ∧ (r.placeholder? n).isSome = true := by
  rcases fillOne_cases r f with ⟨hskip, heq⟩ | ⟨p, -, hp, heq⟩
  · rw [heq]
    refine ⟨.inl, ?_⟩
    rintro (hn | ⟨rfl, hsome⟩)
    · exact hn
    · rcases hskip with hmem | hnone
      · exact hmem
      · rw [hnone] at hsome
        cases hsome
  · rw [heq]
    refine ⟨fun hn => ?_, ?_⟩
    · rcases List.mem_cons.1 hn with rfl | hn
      · exact .inr ⟨rfl, by rw [hp]; rfl⟩
      · exact .inl hn
    · rintro (hn | ⟨rfl, -⟩)
      · exact List.mem_cons_of_mem _ hn
      · exact List.mem_cons_self

/-! ### Reordering -/

/-- The texts and spans are the same, and so are the tokens that were filled. -/
structure Same (r r' : Rendered) : Prop where
  text : r.text = r'.text
  spans : r.spans = r'.spans
  filled : ∀ n, n ∈ r.filled ↔ n ∈ r'.filled

namespace Same
variable {r'' : Rendered}

theorem refl (r : Rendered) : Same r r := ⟨rfl, rfl, fun _ => .rfl⟩

theorem symm (h : Same r r') : Same r' r := ⟨h.text.symm, h.spans.symm, fun n => (h.filled n).symm⟩

theorem trans (h₁ : Same r r') (h₂ : Same r' r'') : Same r r'' :=
  ⟨h₁.text.trans h₂.text, h₁.spans.trans h₂.spans, fun n => (h₁.filled n).trans (h₂.filled n)⟩

theorem put (h : Same r r') (p : Span) (f : ImageFill) : Same (r.put p f) (r'.put p f) where
  text := congrArg (Text.splice · _ _ _) h.text
  spans := congrArg (List.map _) h.spans
  filled n := by simp only [Rendered.put, List.mem_cons, h.filled]

theorem fillOne (h : Same r r') (f : ImageFill) : Same (r.fillOne f) (r'.fillOne f) := by
  have hplaceholder : r'.placeholder? f.token = r.placeholder? f.token := by
    rw [placeholder?_eq, placeholder?_eq, h.spans]
  rcases fillOne_cases r f with ⟨hskip, heq⟩ | ⟨p, hf, hp, heq⟩
  · rcases hskip with hmem | hnone
    · rwa [heq, fillOne_of_filled ((h.filled _).1 hmem)]
    · rwa [heq, fillOne_of_unknown (hplaceholder.trans hnone)]
  · rw [heq, fillOne_of_put (mt (h.filled _).2 hf) (hplaceholder.trans hp)]
    exact h.put p f

theorem fillEach (h : Same r r') (fs : List ImageFill) : Same (r.fillEach fs) (r'.fillEach fs) := by
  induction fs generalizing r r' with
  | nil => exact h
  | cons f fs ih => exact ih (h.fillOne f)

end Same

theorem Settled.put_comm (h : Settled r) (hp : r.placeholder? f.token = some p)
    (hq : r.placeholder? g.token = some q) (hpq : p.stop < q.start) :
    Same ((r.put p f).put (fillSpan p.start p.stop f.replacement.size q) g)
      ((r.put q g).put (fillSpan q.start q.stop g.replacement.size p) f) := by
  have hpmem := (List.mem_filter.1 (mem_of_placeholder? hp).1).1
  have hqmem := (List.mem_filter.1 (mem_of_placeholder? hq).1).1
  have hple := h.ordered p hpmem
  have hqle := h.ordered q hqmem
  rw [fillSpan_of_after hpq hple hqle, fillSpan_of_before hpq hple]
  have hlen : q.stop - (p.stop - p.start) + f.replacement.size -
      (q.start - (p.stop - p.start) + f.replacement.size) = q.stop - q.start := by omega
  refine ⟨?_, ?_, fun n => ?_⟩
  · obtain ⟨l, m, x, htext, hl, hm⟩ := exists_cut (h.within p hpmem) hple
    obtain ⟨k, m', x', htext', hk, hm'⟩ := exists_cut (h.within q hqmem) hqle
    obtain ⟨y, rfl, rfl⟩ : ∃ y, k = l ++ m ++ y ∧ x = y ++ (m' ++ x') := by
      refine append_eq_of_size_le (?_ : k ++ (m' ++ x') = l ++ m ++ x) ?_
      · rw [← htext, htext', List.append_assoc]
      · rw [size_append]
        omega
    have hfirst : r.text.splice p.start (p.stop - p.start) f.replacement =
        l ++ f.replacement ++ y ++ m' ++ x' := by
      rw [← hm, ← hl, htext, splice_append_size, ← List.append_assoc, ← List.append_assoc]
    have hsecond : r.text.splice q.start (q.stop - q.start) g.replacement =
        l ++ m ++ (y ++ g.replacement ++ x') := by
      rw [← hm', ← hk, htext', splice_append_size]
      simp only [List.append_assoc]
    have hstart : q.start - (p.stop - p.start) + f.replacement.size =
        (l ++ f.replacement ++ y : Text).size := by
      simp only [size_append] at hk ⊢
      omega
    rw [hstart] at hlen
    calc ((r.put p f).put _ g).text
        = (l ++ f.replacement ++ y ++ m' ++ x' : Text).splice
            (l ++ f.replacement ++ y : Text).size m'.size g.replacement := by
          simp only [Rendered.put, hfirst, hlen, hstart, hm']
      _ = l ++ f.replacement ++ (y ++ g.replacement ++ x') := by
          rw [splice_append_size]
          simp only [List.append_assoc]
      _ = (l ++ m ++ (y ++ g.replacement ++ x') : Text).splice l.size m.size f.replacement :=
          (splice_append_size ..).symm
      _ = _ := by simp only [Rendered.put, hsecond, hl, hm]
  · simp only [Rendered.put, List.map_map]
    exact List.map_congr_left fun a ha => by
      have := fillSpan_comm hple hpq hqle (i := f.replacement.size) (j := g.replacement.size)
        (h.ordered a ha)
      exact this
  · simp only [Rendered.put, List.mem_cons]
    exact or_left_comm

theorem fillOne_fillOne_of_skipped (g : ImageFill)
    (h : f.token ∈ r.filled ∨ r.placeholder? f.token = none) :
    (r.fillOne g).fillOne f = r.fillOne g := by
  rcases h with hmem | hnone
  · exact fillOne_of_filled (mem_filled_fillOne.2 (.inl hmem))
  · refine fillOne_of_unknown (Option.not_isSome_iff_eq_none.1 ?_)
    rw [isSome_placeholder?_fillOne, hnone]
    exact Bool.false_ne_true

theorem Settled.fillOne_comm (h : Settled r) (hfg : f.token ≠ g.token) :
    Same ((r.fillOne f).fillOne g) ((r.fillOne g).fillOne f) := by
  rcases fillOne_cases r f with ⟨hskip, heq⟩ | ⟨p, hf, hp, heqf⟩
  · rw [heq, fillOne_fillOne_of_skipped g hskip]
    exact .refl _
  rcases fillOne_cases r g with ⟨hskip, heq⟩ | ⟨q, hg, hq, heqg⟩
  · rw [heq, fillOne_fillOne_of_skipped f hskip]
    exact .refl _
  have hthen {f g : ImageFill} {p q : Span} (hg : g.token ∉ r.filled) (hgf : g.token ≠ f.token)
      (hq : r.placeholder? g.token = some q) : (r.put p f).fillOne g =
        (r.put p f).put (fillSpan p.start p.stop f.replacement.size q) g := by
    refine fillOne_of_put (fun hmem => ?_) (by rw [placeholder?_put, hq]; rfl)
    exact (List.mem_cons.1 hmem).elim hgf hg
  rw [heqf, heqg, hthen hg hfg.symm hq, hthen hf hfg hp]
  obtain ⟨hpimage, hptoken⟩ := mem_of_placeholder? hp
  obtain ⟨hqimage, hqtoken⟩ := mem_of_placeholder? hq
  rcases h.cases hpimage hqimage with rfl | hpq | hqp
  · exact absurd (Option.some.inj (hptoken.symm.trans hqtoken)) hfg
  · exact h.put_comm hp hq hpq
  · exact (h.put_comm hq hp hqp).symm

/-- A fill may be made before others with other tokens. -/
theorem Settled.fillEach_move (h : Settled r) (hgs : ∀ g ∈ gs, f.token ≠ g.token)
    (fs : List ImageFill) :
    Same (r.fillEach (gs ++ f :: fs)) ((r.fillOne f).fillEach (gs ++ fs)) := by
  induction gs generalizing r with
  | nil => exact .refl _
  | cons g gs ih =>
    obtain ⟨hg, hrest⟩ := List.forall_mem_cons.1 hgs
    exact (ih (h.fillOne g) hrest).trans ((h.fillOne_comm hg).symm.fillEach _)

/-- The order of fills matters only among those of one token. -/
theorem Settled.fillEach_reorder (h : Settled r)
    (hfg : ∀ n, fs.filter (·.token == n) = gs.filter (·.token == n)) :
    Same (r.fillEach fs) (r.fillEach gs) := by
  induction fs generalizing r gs with
  | nil =>
    have hgs : gs = [] := List.eq_nil_iff_forall_not_mem.2 fun g hg => by
      have : g ∈ gs.filter (·.token == g.token) := List.mem_filter.2 ⟨hg, beq_self_eq_true _⟩
      rw [← hfg] at this
      cases this
    rw [hgs]
    exact .refl r
  | cons f fs ih =>
    -- the first fill of this token among the others may be made before those in front of it
    have hfirst := hfg f.token
    simp only [List.filter_cons, beq_self_eq_true, if_true] at hfirst
    obtain ⟨ks, ms, rfl, hks, -, hms⟩ := List.filter_eq_cons_iff.1 hfirst.symm
    have hother : ∀ g ∈ ks, f.token ≠ g.token := fun g hg heq =>
      hks g hg (beq_iff_eq.2 heq.symm)
    refine .trans (ih (h.fillOne f) fun n => ?_) (h.fillEach_move hother ms).symm
    rw [List.filter_append]
    by_cases hn : f.token = n
    · subst hn
      rw [List.filter_eq_nil_iff.2 hks, hms, List.nil_append]
    · have := hfg n
      rwa [List.filter_cons_of_neg (by simpa using hn), List.filter_append,
        List.filter_cons_of_neg (by simpa using hn)] at this

end Rendered
end MarkupText
