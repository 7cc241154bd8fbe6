import MarkupText.Console.Ansi
import MarkupText.Proofs.Text.Position
import Mathlib.Data.List.Basic

/-!
# What a terminal shows

Styled output is a row of signals: characters, and escape sequences that set the codes of a style
or take back what was set. Where all spans end between characters, the characters are those of the
text, each in the style that the spans over it add up to, and at newlines no style is in force
(`Console.exists_faithful`). No span ends inside a run between neighbouring cuts, so the spans over
a run are the spans over each of its characters (`Console.styleAt_eq`).
-/

namespace MarkupText
namespace Console

open Text

/-- What is sent to a terminal. -/
inductive Signal where
  | char (c : Char)
  /-- Sets the codes of a style, on top of what is set. -/
  | set (s : RunStyle)
  /-- Takes back all that is set. -/
  | reset

namespace Signal

def write : Signal → Text
  | char c => [c]
  | set s => setCodes ([';'].intercalate s.codes)
  | reset => setCodes ['0']

/-- The character of a signal that is no escape sequence. -/
def char? : Signal → Option Char
  | char c => some c
  | _ => none

end Signal

/-- A character with the styles that are in force at it. -/
abbrev Shown := Char × List RunStyle

/-- The characters that signals show when some styles are in force before. -/
def shown : List RunStyle → List Signal → List Shown
  | _, [] => []
  | styles, .char c :: signals => (c, styles) :: shown styles signals
  | styles, .set s :: signals => shown (styles ++ [s]) signals
  | _, .reset :: signals => shown [] signals

/-- The styles that are in force after signals. -/
def inForce : List RunStyle → List Signal → List RunStyle
  | styles, [] => styles
  | styles, .char _ :: signals => inForce styles signals
  | styles, .set s :: signals => inForce (styles ++ [s]) signals
  | _, .reset :: signals => inForce [] signals

/-- A style as the styles in force; the plain one needs none. -/
def RunStyle.forced (s : RunStyle) : List RunStyle := if s = {} then [] else [s]

/-- The style that the spans over byte `n` add up to in order. -/
def styleAt (r : Rendered) (n : Nat) : RunStyle :=
  .ofMarks ((r.spans.filter fun a => a.start ≤ n && n < a.stop).map (·.mark))

/-- The characters of a text at byte `n`, each in the style of the spans over it, newlines plain. -/
def inked (r : Rendered) (n : Nat) : Text → List Shown
  | [] => []
  | c :: t => (c, if c = '\n' then [] else (styleAt r n).forced) :: inked r (n + c.utf8Size) t

/-- The signals write the output of `r`, and show its text as it is marked. -/
structure Faithful (r : Rendered) (signals : List Signal) : Prop where
  written : signals.flatMap Signal.write = r.ansi
  /-- Without the escape sequences the text is left. -/
  erased : signals.filterMap Signal.char? = r.text
  styled : shown [] signals = inked r 0 r.text
  newline : ∀ x ∈ shown [] signals, x.1 = '\n' → x.2 = []
  closed : inForce [] signals = []

variable {r : Rendered} {s : RunStyle} {t u out : Text} {xs ys : List Shown} {n start stop : Nat}

/-! ### Signals -/

theorem shown_append (styles : List RunStyle) (ss ts : List Signal) :
    shown styles (ss ++ ts) = shown styles ss ++ shown (inForce styles ss) ts := by
  fun_induction shown styles ss <;> simp_all [shown, inForce]

theorem inForce_append (styles : List RunStyle) (ss ts : List Signal) :
    inForce styles (ss ++ ts) = inForce (inForce styles ss) ts := by
  fun_induction inForce styles ss <;> simp_all [inForce]

theorem shown_chars (styles : List RunStyle) (t : Text) :
    shown styles (t.map .char) = t.map (·, styles) ∧ inForce styles (t.map .char) = styles := by
  induction t with
  | nil => exact ⟨rfl, rfl⟩
  | cons c t ih => simp [shown, inForce, ih]

theorem write_chars (t : Text) : (t.map Signal.char).flatMap Signal.write = t := by
  induction t with
  | nil => rfl
  | cons c t ih => simp [Signal.write, ih]

/-- The characters that are shown are those that are sent. -/
theorem map_shown (styles : List RunStyle) (ss : List Signal) :
    (shown styles ss).map Prod.fst = ss.filterMap Signal.char? := by
  fun_induction shown styles ss <;> simp_all [Signal.char?, List.filterMap_cons]

/-- The text `out` is sent by signals that show `xs` and leave no style in force. -/
def Shows (out : Text) (xs : List Shown) : Prop :=
  ∃ ss : List Signal, ss.flatMap Signal.write = out ∧ shown [] ss = xs ∧ inForce [] ss = []

namespace Shows

theorem nil : Shows [] [] := ⟨[], rfl, rfl, rfl⟩

theorem append (h : Shows t xs) (h' : Shows u ys) : Shows (t ++ u) (xs ++ ys) := by
  obtain ⟨ss, rfl, rfl, hss⟩ := h
  obtain ⟨ts, rfl, rfl, hts⟩ := h'
  refine ⟨ss ++ ts, List.flatMap_append, ?_, ?_⟩
  · rw [shown_append, hss]
  · rw [inForce_append, hss, hts]

theorem plain (t : Text) : Shows t (t.map (·, [])) :=
  ⟨t.map .char, write_chars t, shown_chars [] t⟩

end Shows

/-! ### Runs -/

theorem codes_eq_nil_iff : s.codes = [] ↔ s = {} := by
  constructor
  · intro h
    obtain ⟨foreground, background, bold, dimmed, italic, underline, strikethrough⟩ := s
    simp only [RunStyle.codes, RunStyle.effects, List.append_eq_nil_iff, Option.toList_eq_nil_iff,
      Option.map_eq_none_iff, List.map_eq_nil_iff, List.filter_eq_nil_iff] at h
    obtain ⟨⟨rfl, rfl⟩, heffects⟩ := h
    simp at heffects
    simp [heffects]
  · rintro rfl
    rfl

theorem shows_styled (s : RunStyle) (t : Text) : Shows (styled s t) (t.map (·, s.forced)) := by
  unfold styled
  split
  · rename_i h
    rcases Bool.or_eq_true_iff.1 h with h | h
    · rw [List.isEmpty_iff.1 h]
      exact .nil
    · rw [RunStyle.forced, if_pos (codes_eq_nil_iff.1 (List.isEmpty_iff.1 h))]
      exact .plain t
  · rename_i h
    have hs : s ≠ {} := by
      rintro rfl
      simp [codes_eq_nil_iff.2] at h
    obtain ⟨hshown, hforce⟩ := shown_chars [s] t
    refine ⟨.set s :: t.map .char ++ [.reset], ?_, ?_, ?_⟩
    · simp [Signal.write, write_chars]
    · simp [shown, shown_append, hshown, RunStyle.forced, hs]
    · simp [inForce, inForce_append]

/-- The characters of a text in one style, newlines plain. -/
def inkedRun (s : RunStyle) (t : Text) : List Shown :=
  t.map fun c => (c, if c = '\n' then [] else s.forced)

theorem inkedRun_append (s : RunStyle) (t u : Text) :
    inkedRun s (t ++ u) = inkedRun s t ++ inkedRun s u := List.map_append

theorem shows_join (ws : List Text) (hws : ∀ w ∈ ws, '\n' ∉ w) :
    Shows (['\n'].intercalate (ws.map (styled s))) (inkedRun s (['\n'].intercalate ws)) := by
  have hrow {w : Text} (hw : '\n' ∉ w) : Shows (styled s w) (inkedRun s w) := by
    have hink : inkedRun s w = w.map (·, s.forced) := List.map_congr_left fun c hc => by
      rw [if_neg (ne_of_mem_of_not_mem hc hw)]
    exact hink ▸ shows_styled s w
  induction ws with
  | nil => exact .nil
  | cons w ws ih =>
    have hw := hrow (hws w List.mem_cons_self)
    by_cases hnil : ws = []
    · rw [hnil, List.map_singleton, List.intercalate_singleton, List.intercalate_singleton]
      exact hw
    · have hrest := ih fun v hv => hws v (List.mem_cons_of_mem _ hv)
      rw [List.map_cons, List.intercalate_cons_of_ne_nil (by simpa using hnil),
        List.intercalate_cons_of_ne_nil hnil, inkedRun_append, inkedRun_append]
      exact (hw.append (.plain ['\n'])).append hrest

theorem shows_rows (s : RunStyle) (t : Text) :
    Shows (['\n'].intercalate (t.rows.map (styled s))) (inkedRun s t) := by
  have h := shows_join (s := s) t.rows fun w hw => newline_notMem_of_mem_rows hw
  rwa [rows, List.intercalate_splitOn] at h

theorem inked_append (r : Rendered) (n : Nat) (t u : Text) :
    inked r n (t ++ u) = inked r n t ++ inked r (n + t.size) u := by
  induction t generalizing n with
  | nil => rfl
  | cons c t ih => simp only [List.cons_append, inked, ih, size_cons, Nat.add_assoc]

theorem map_inked (r : Rendered) (n : Nat) (t : Text) : (inked r n t).map Prod.fst = t := by
  induction t generalizing n with
  | nil => rfl
  | cons c t ih => exact congrArg (c :: ·) (ih _)

theorem plain_of_mem_inked {x : Shown} (hx : x ∈ inked r n t) (hnewline : x.1 = '\n') :
    x.2 = [] := by
  induction t generalizing n with
  | nil => cases hx
  | cons c t ih =>
    rcases List.mem_cons.1 hx with rfl | hx
    · exact if_pos hnewline
    · exact ih hx

theorem inked_eq_inkedRun (h : ∀ k, n ≤ k → k < n + t.size → styleAt r k = s) :
    inked r n t = inkedRun s t := by
  induction t generalizing n with
  | nil => rfl
  | cons c t ih =>
    have hc := c.utf8Size_pos
    rw [size_cons] at h
    rw [inked, h n (Nat.le_refl n) (by omega), ih fun k hk hlt => h k (by omega) (by omega)]
    rfl

/-- Where no span ends inside a run, the spans over the run are those over each byte of it. -/
theorem styleAt_eq (hspans : ∀ a ∈ r.spans, (a.start ≤ start ∨ stop ≤ a.start) ∧
    (a.stop ≤ start ∨ stop ≤ a.stop)) (hstart : start ≤ n) (hstop : n < stop) :
    styleAt r n = .ofMarks (marksOver r start stop) := by
  unfold styleAt marksOver
  congr 2
  refine List.filter_congr fun a ha => ?_
  obtain ⟨h₁, h₂⟩ := hspans a ha
  rw [← Bool.decide_and, ← Bool.decide_and, decide_eq_decide]
  omega

theorem shows_styledRun {l m x : Text} (htext : r.text = l ++ m ++ x) (hstart : l.size = start)
    (hstop : start + m.size = stop) (hspans : ∀ a ∈ r.spans,
      (a.start ≤ start ∨ stop ≤ a.start) ∧ (a.stop ≤ start ∨ stop ≤ a.stop)) :
    Shows (styledRun r start stop) (inked r start m) := by
  have hslice : r.text.slice? start stop = some m := by
    rw [htext, ← hstop, ← hstart, slice?_append_size]
  rw [styledRun, hslice, Option.getD_some,
    inked_eq_inkedRun fun k hk hlt => styleAt_eq hspans hk (hstop ▸ hlt)]
  exact shows_rows _ m

/-- From a cut on, all runs together show the rest of the text. -/
theorem shows_styledRuns {l : Text} {cs : List Nat} (hsorted : (start :: cs).Pairwise (· < ·))
    (hbound : ∀ n ∈ cs, Boundary r.text n) (hlast : (start :: cs).getLast? = some r.text.size)
    (hspans : ∀ a ∈ r.spans, (a.start ≤ start ∨ a.start ∈ cs) ∧ (a.stop ≤ start ∨ a.stop ∈ cs))
    (htext : r.text = l ++ t) (hstart : l.size = start) :
    Shows (styledRuns r (start :: cs)) (inked r start t) := by
  induction cs generalizing start l t with
  | nil =>
    obtain rfl : t = [] := by
      have hsize : start = r.text.size := Option.some.inj hlast
      rw [htext, size_append] at hsize
      exact size_eq_zero_iff.1 (by omega)
    exact .nil
  | cons stop cs ih =>
    obtain ⟨hlt, hsorted⟩ := List.pairwise_cons.1 hsorted
    have hstop := hlt stop List.mem_cons_self
    have hle : ∀ n ∈ stop :: cs, stop ≤ n := fun n hn => by
      rcases List.mem_cons.1 hn with rfl | hn
      · exact Nat.le_refl _
      · exact Nat.le_of_lt ((List.pairwise_cons.1 hsorted).1 n hn)
    have hb := hbound stop List.mem_cons_self
    rw [htext] at hb
    obtain ⟨m, x, rfl, hm⟩ := hb.of_append_left (by omega)
    have hcut : start + m.size = stop := by omega
    rw [styledRuns, inked_append, hcut]
    refine (shows_styledRun (htext.trans (List.append_assoc l m x).symm) hstart hcut
      fun a ha => ?_).append ?_
    · obtain ⟨h₁, h₂⟩ := hspans a ha
      exact ⟨h₁.imp_right (hle _), h₂.imp_right (hle _)⟩
    · refine ih (l := l ++ m) hsorted (fun n hn => hbound n (List.mem_cons_of_mem _ hn)) hlast
        (fun a ha => ?_) (htext.trans (List.append_assoc l m x).symm) (by rw [size_append]; omega)
      have hnext {k : Nat} (hk : k ≤ start ∨ k ∈ stop :: cs) : k ≤ stop ∨ k ∈ cs := by
        rcases hk with hk | hk
        · exact .inl (by omega)
        · exact (List.mem_cons.1 hk).imp_left Nat.le_of_eq
      exact ⟨hnext (hspans a ha).1, hnext (hspans a ha).2⟩

/-! ### Cuts -/

theorem eraseRepsBy_loop {α : Type} (same : α → α → Bool) (a : α) (l acc : List α) :
    List.eraseRepsBy.loop same a l acc = acc.reverse ++ List.eraseRepsBy.loop same a l [] := by
  induction l generalizing a acc with
  | nil => simp [List.eraseRepsBy.loop]
  | cons b l ih =>
    simp only [List.eraseRepsBy.loop]
    split
    · exact ih a acc
    · rw [ih b (a :: acc), ih b [a]]
      simp

theorem eraseReps_cons_cons (a b : Nat) (l : List Nat) : (a :: b :: l).eraseReps =
    if a = b then (b :: l).eraseReps else a :: (b :: l).eraseReps := by
  simp only [List.eraseReps, List.eraseRepsBy]
  rw [List.eraseRepsBy.loop]
  split
  · rename_i h
    rw [if_pos (eq_of_beq h), eq_of_beq h]
  · rename_i h
    rw [if_neg (ne_of_beq_false h), eraseRepsBy_loop]
    rfl

theorem mem_eraseReps {n : Nat} {l : List Nat} : n ∈ l.eraseReps ↔ n ∈ l := by
  induction l with
  | nil => rfl
  | cons a l ih =>
    cases l with
    | nil => rfl
    | cons b l =>
      rw [eraseReps_cons_cons]
      split
      · rename_i h
        rw [ih, h]
        simp
      · rw [List.mem_cons, ih, ← List.mem_cons]

theorem pairwise_eraseReps {l : List Nat} (h : l.Pairwise (· ≤ ·)) :
    l.eraseReps.Pairwise (· < ·) := by
  induction l with
  | nil => exact .nil
  | cons a l ih =>
    cases l with
    | nil => exact List.pairwise_singleton _ a
    | cons b l =>
      obtain ⟨ha, hl⟩ := List.pairwise_cons.1 h
      rw [eraseReps_cons_cons]
      split
      · exact ih hl
      · rename_i hne
        refine List.pairwise_cons.2 ⟨fun n hn => ?_, ih hl⟩
        have hab := ha b List.mem_cons_self
        rcases List.mem_cons.1 (mem_eraseReps.1 hn) with rfl | hn
        · omega
        · have := (List.pairwise_cons.1 hl).1 n hn
          omega

theorem mem_cuts : n ∈ cuts r ↔ Boundary r.text n ∧
    ((∃ a ∈ r.spans, n = a.start ∨ n = a.stop) ∨ n = 0 ∨ n = r.text.size) := by
  simp [cuts, mem_eraseReps, isBoundary_iff, and_comm, and_or_left]

theorem pairwise_cuts (r : Rendered) : (cuts r).Pairwise (· < ·) :=
  pairwise_eraseReps <| (List.pairwise_mergeSort (by simpa using fun a b c => Nat.le_trans)
    (by simpa using Nat.le_total) _).imp of_decide_eq_true

/-- The largest entry of a sorted list is its last one. -/
theorem getLast?_of_sorted {cs : List Nat} (hsorted : cs.Pairwise (· < ·)) (hn : n ∈ cs)
    (hle : ∀ k ∈ cs, k ≤ n) : cs.getLast? = some n := by
  obtain ⟨l, r, rfl⟩ := List.append_of_mem hn
  obtain rfl : r = [] := List.eq_nil_iff_forall_not_mem.2 fun k hk => by
    have hlt := (List.pairwise_cons.1 (List.pairwise_append.1 hsorted).2.1).1 k hk
    have := hle k (by simp [hk])
    omega
  exact List.getLast?_concat

/-- Styled output shows the text of what was rendered, each character in the style of exactly the
spans over it, and no style is in force at a newline. -/
theorem exists_faithful (h : ∀ a ∈ r.spans, r.text.isBoundary a.start = true ∧
    r.text.isBoundary a.stop = true) : ∃ signals, Faithful r signals := by
  have hzero : 0 ∈ cuts r := mem_cuts.2 ⟨⟨[], r.text, rfl, rfl⟩, .inr (.inl rfl)⟩
  have hsize : r.text.size ∈ cuts r := mem_cuts.2 ⟨.size r.text, .inr (.inr rfl)⟩
  have hsorted := pairwise_cuts r
  have hbound : ∀ n ∈ cuts r, Boundary r.text n := fun n hn => (mem_cuts.1 hn).1
  have hspans : ∀ a ∈ r.spans, a.start ∈ cuts r ∧ a.stop ∈ cuts r := fun a ha =>
    ⟨mem_cuts.2 ⟨isBoundary_iff.1 (h a ha).1, .inl ⟨a, ha, .inl rfl⟩⟩,
      mem_cuts.2 ⟨isBoundary_iff.1 (h a ha).2, .inl ⟨a, ha, .inr rfl⟩⟩⟩
  have hshows : Shows r.ansi (inked r 0 r.text) := by
    unfold Rendered.ansi
    generalize cuts r = cs at hzero hsize hsorted hbound hspans
    cases cs with
    | nil => cases hzero
    | cons start cs =>
      obtain rfl : start = 0 := by
        rcases List.mem_cons.1 hzero with h | h
        · exact h.symm
        · exact absurd ((List.pairwise_cons.1 hsorted).1 0 h) (Nat.not_lt_zero _)
      refine shows_styledRuns (l := []) hsorted
        (fun n hn => hbound n (List.mem_cons_of_mem _ hn)) ?_ (fun a ha => ?_) rfl rfl
      · exact getLast?_of_sorted hsorted hsize fun n hn => (hbound n hn).le
      · have hcut {k : Nat} (hk : k ∈ 0 :: cs) : k ≤ 0 ∨ k ∈ cs :=
          (List.mem_cons.1 hk).imp_left Nat.le_of_eq
        exact ⟨hcut (hspans a ha).1, hcut (hspans a ha).2⟩
  obtain ⟨signals, hwritten, hshown, hclosed⟩ := hshows
  refine ⟨signals, hwritten, ?_, hshown, ?_, hclosed⟩
  · rw [← map_shown [], hshown, map_inked]
  · rw [hshown]
    exact fun x hx => plain_of_mem_inked hx

/-- A link over both lines, bold text that overlaps it, and an escape character in the text. -/
def overlapping : Rendered where
  text := ['a', 'é', '\n', '\x1b', 'z']
  spans := [⟨0, 5, .link []⟩, ⟨1, 6, .face .bold⟩, ⟨3, 3, .ruler⟩]

theorem exists_faithful_overlapping :
    (∀ a ∈ overlapping.spans, overlapping.text.isBoundary a.start = true ∧
      overlapping.text.isBoundary a.stop = true) ∧
    inked overlapping 0 overlapping.text =
      [('a', [{ underline := true }]), ('é', [{ bold := true, underline := true }]), ('\n', []),
        ('\x1b', [{ bold := true, underline := true }]), ('z', [{ bold := true }])] ∧
    ∃ signals, Faithful overlapping signals := by
  have hbound : ∀ a ∈ overlapping.spans, overlapping.text.isBoundary a.start = true ∧
      overlapping.text.isBoundary a.stop = true := by decide
  exact ⟨hbound, by decide, exists_faithful hbound⟩

end Console
end MarkupText
