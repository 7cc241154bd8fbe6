import MarkupText.Proofs.Flow.Gaps

/-!
# Folding round by round

Folding a line is a loop. `Page.round` is one round of it, which makes one splice or none, and
`Page.Rounds` a run of the loop with the splices that it makes; `foldLine` is where the only run
from a buffer ends (`Page.Rounds.unique`). Every splice replaces a run of spaces in the line being
written by a newline and the indentation, or drops the spaces at the end (`Splice.Respaces`). So
nothing in front of the line is touched, and what is shown on the line stays
(`Page.rounds_foldLine`), whatever the widths of texts and characters are: a run is finite because
the loop goes on only when the line has become narrower.
-/

namespace MarkupText

open Text

/-- A replacement of `removed` bytes at `pos`. -/
structure Splice where
  pos : Nat
  removed : Nat
  insert : Text

namespace Splice

/-- The buffer after a splice. -/
def apply (s : Splice) (b : Buffer) : Buffer := b.splice s.pos s.removed s.insert

/-- The splice replaces spaces of the line being written, by a newline and the indentation or, at
the end of the text, by nothing. -/
structure Respaces (indentation : Nat) (b : Buffer) (s : Splice) : Prop where
  /-- The range lies in the line being written. -/
  inside : b.lineStart ≤ s.pos ∧ s.pos + s.removed ≤ b.size
  /-- It starts and stops between characters. -/
  boundaries : b.text.isBoundary s.pos = true ∧ b.text.isBoundary (s.pos + s.removed) = true
  removes : b.text.slice? s.pos (s.pos + s.removed) = some (spaces s.removed)
  inserts : s.insert = '\n' :: spaces indentation ∨ s.insert = [] ∧ s.pos + s.removed = b.size

/-- Each splice respaces the buffer that those before it have left. -/
def RespaceInTurn (indentation : Nat) : Buffer → List Splice → Prop
  | _, [] => True
  | b, s :: ss => s.Respaces indentation b ∧ RespaceInTurn indentation (s.apply b) ss

/-- The splice replaces the spaces between two parts of the line being written. -/
structure Between (x y : Text) (b : Buffer) (s : Splice) : Prop where
  line : b.currentLine = x ++ spaces s.removed ++ y
  pos : s.pos = b.lineStart + x.size

variable {indentation : Nat} {b : Buffer} {s : Splice} {x y l : Text}

theorem Between.parts (h : s.Between x y b) (hl : b.text = l ++ b.currentLine) :
    b.text = l ++ x ++ spaces s.removed ++ y ∧ s.pos = size (l ++ x) := by
  have hstart : b.lineStart = l.size := by
    rw [Buffer.lineStart, Buffer.size]
    conv_lhs => rw [hl, size_append]
    exact Nat.add_sub_cancel ..
  refine ⟨?_, by rw [h.pos, hstart, size_append]⟩
  rw [hl, h.line]
  simp

theorem Between.respaces (h : s.Between x y b)
    (hi : s.insert = '\n' :: spaces indentation ∨ s.insert = [] ∧ y = []) :
    s.Respaces indentation b := by
  obtain ⟨l, hl, -⟩ := b.text_eq_currentLine
  obtain ⟨hparts, hpos⟩ := h.parts hl
  have hstop : s.pos + s.removed = size (l ++ x ++ spaces s.removed) := by
    rw [size_append _ (spaces _), size_spaces, hpos]
  have hsize : b.size = s.pos + s.removed + y.size := by
    rw [Buffer.size, hstop, ← size_append, ← hparts]
  have hslice := slice?_append_size (l ++ x) (spaces s.removed) y
  rw [size_spaces, ← hparts, ← hpos] at hslice
  have hinserts : s.insert = '\n' :: spaces indentation ∨
      s.insert = [] ∧ s.pos + s.removed = b.size := by
    rcases hi with hi | ⟨hnil, hy⟩
    · exact .inl hi
    · exact .inr ⟨hnil, by rw [hsize, hy]; rfl⟩
  exact {
    inside := ⟨by rw [h.pos]; exact Nat.le_add_right .., by omega⟩
    boundaries := ⟨isBoundary_iff.2 ⟨l ++ x, spaces s.removed ++ y, by simp [hparts], hpos.symm⟩,
      isBoundary_iff.2 ⟨_, y, hparts, hstop.symm⟩⟩
    removes := hslice
    inserts := hinserts }

theorem Between.text_apply (h : s.Between x y b) (hl : b.text = l ++ b.currentLine) :
    (s.apply b).text = l ++ x ++ s.insert ++ y := by
  obtain ⟨hparts, hpos⟩ := h.parts hl
  have hsplice := Buffer.splice_eq hparts s.insert
  rw [size_spaces, ← hpos] at hsplice
  exact congrArg Buffer.text hsplice

/-- The line behind the newline that a splice inserts. -/
theorem Between.currentLine_apply (h : s.Between x y b)
    (hi : s.insert = '\n' :: spaces indentation) (hl : b.text = l ++ b.currentLine) :
    (s.apply b).currentLine = spaces indentation ++ y := by
  have hline : '\n' ∉ spaces indentation ++ y := by
    rw [List.mem_append, not_or]
    refine ⟨newline_notMem_spaces _, fun hc => newline_notMem_lastRow b.text ?_⟩
    change '\n' ∈ b.currentLine
    rw [h.line]
    exact List.mem_append_right _ hc
  have htext : (s.apply b).text = (l ++ x ++ ['\n']) ++ (spaces indentation ++ y) := by
    rw [h.text_apply hl, hi]
    simp
  exact (Buffer.currentLine_eq htext (.inr List.getLast?_concat) hline).1

end Splice

namespace Page
variable {rules : LineBreak.Rules} {indentation width : Nat} {b c d : Buffer} {s : Splice}
  {ss ss' : List Splice}

/-- What a round of folding comes to. -/
inductive Round where
  /-- The line stays, and folding ends. -/
  | done
  /-- Folding ends after a splice. -/
  | last (s : Splice)
  /-- Folding goes on after a splice. -/
  | next (s : Splice)

/-- The splice that drops the spaces at the end. -/
def trimming (b : Buffer) : Splice :=
  let n := (b.text.reverse.takeWhile (· == ' ')).length
  ⟨b.size - n, n, []⟩

/-- The splice that divides the line being written at a cut. -/
def division (indentation pos : Nat) (b : Buffer) : Splice :=
  let (left, right) := splitLine b.currentLine pos
  ⟨b.lineStart + left.size, b.currentLine.size - left.size - right.size,
    '\n' :: spaces indentation⟩

/-- One round of folding. -/
def round (rules : LineBreak.Rules) (indentation width : Nat) (b : Buffer) : Round :=
  if b.column ≤ width then .done
  else match LineBreak.findBreak rules b.currentLine indentation width with
    | none => .done
    | some pos =>
      if (splitLine b.currentLine pos).2.isEmpty then .last (trimming b)
      else if ((division indentation pos b).apply b).column < b.column then
        .next (division indentation pos b)
      else .last (division indentation pos b)

/-- A run of the loop from `b` to `c`, with the splices made on the way. -/
inductive Rounds (rules : LineBreak.Rules) (indentation width : Nat) :
    Buffer → List Splice → Buffer → Prop
  | done {b : Buffer} (h : round rules indentation width b = .done) :
      Rounds rules indentation width b [] b
  | last {b : Buffer} {s : Splice} (h : round rules indentation width b = .last s) :
      Rounds rules indentation width b [s] (s.apply b)
  | next {b c : Buffer} {s : Splice} {ss : List Splice}
      (h : round rules indentation width b = .next s)
      (rest : Rounds rules indentation width (s.apply b) ss c) :
      Rounds rules indentation width b (s :: ss) c

/-! ### The loop and its rounds -/

theorem apply_trimming (b : Buffer) : (trimming b).apply b = b.trimSpaces := by
  unfold trimming Splice.apply Buffer.trimSpaces
  dsimp only
  split
  · rename_i h
    rw [h]
    exact b.splice_nothing
  · rfl

/-- Folding is a round, and folding again if the round says so. -/
theorem foldLine_eq (rules : LineBreak.Rules) (indentation width : Nat) (b : Buffer) :
    foldLine rules indentation width b = match round rules indentation width b with
      | .done => b
      | .last s => s.apply b
      | .next s => foldLine rules indentation width (s.apply b) := by
  rw [foldLine, round]
  split
  · rfl
  · cases LineBreak.findBreak rules b.currentLine indentation width with
    | none => rfl
    | some pos =>
      dsimp only
      split
      · exact (apply_trimming b).symm
      · change (if ((division indentation pos b).apply b).column < b.column then _ else _) = _
        split <;> rfl

/-- There is one run from a buffer. -/
theorem Rounds.unique (h : Rounds rules indentation width b ss c)
    (h' : Rounds rules indentation width b ss' d) : ss' = ss ∧ d = c := by
  induction h generalizing ss' with
  | done h =>
    cases h' with
    | done => exact ⟨rfl, rfl⟩
    | last h' => cases h.symm.trans h'
    | next h' => cases h.symm.trans h'
  | last h =>
    cases h' with
    | done h' => cases h.symm.trans h'
    | last h' => cases h.symm.trans h'; exact ⟨rfl, rfl⟩
    | next h' => cases h.symm.trans h'
  | next h rest ih =>
    cases h' with
    | done h' => cases h.symm.trans h'
    | last h' => cases h.symm.trans h'
    | next h' rest' =>
      cases h.symm.trans h'
      exact (ih rest').imp_left (congrArg _)

/-- What a round can come to: the line is divided or trimmed only where it is too wide, and the loop
goes on only where a division has made it narrower. -/
theorem round_spec (rules : LineBreak.Rules) (indentation width : Nat) (b : Buffer) :
    match round rules indentation width b with
    | .done => True
    | .last s => width < b.column ∧ (s = trimming b ∨ ∃ pos, s = division indentation pos b)
    | .next s =>
      width < b.column ∧ (s.apply b).column < b.column ∧ ∃ pos, s = division indentation pos b := by
  by_cases hfits : b.column ≤ width
  · rw [round, if_pos hfits]
    trivial
  have hwide : width < b.column := Nat.lt_of_not_le hfits
  rw [round, if_neg hfits]
  cases LineBreak.findBreak rules b.currentLine indentation width with
  | none => trivial
  | some pos =>
    dsimp only
    by_cases hempty : (splitLine b.currentLine pos).2.isEmpty
    · rw [if_pos hempty]
      exact ⟨hwide, .inl rfl⟩
    rw [if_neg hempty]
    by_cases hnarrow : ((division indentation pos b).apply b).column < b.column
    · rw [if_pos hnarrow]
      exact ⟨hwide, hnarrow, pos, rfl⟩
    · rw [if_neg hnarrow]
      exact ⟨hwide, .inr ⟨pos, rfl⟩⟩

theorem round_last (h : round rules indentation width b = .last s) :
    width < b.column ∧ (s = trimming b ∨ ∃ pos, s = division indentation pos b) := by
  have hspec := round_spec rules indentation width b
  rwa [h] at hspec

theorem round_next (h : round rules indentation width b = .next s) :
    width < b.column ∧ (s.apply b).column < b.column ∧ ∃ pos, s = division indentation pos b := by
  have hspec := round_spec rules indentation width b
  rwa [h] at hspec

/-- From every buffer there is a run of the loop, and it ends where folding does. -/
theorem exists_rounds (rules : LineBreak.Rules) (indentation width : Nat) (b : Buffer) :
    ∃ ss, Rounds rules indentation width b ss (foldLine rules indentation width b) := by
  induction hn : b.column using Nat.strong_induction_on generalizing b with
  | _ n ih =>
  rw [foldLine_eq]
  cases h : round rules indentation width b with
  | done => exact ⟨[], .done h⟩
  | last s => exact ⟨[s], .last h⟩
  | next s =>
    obtain ⟨ss, hss⟩ := ih _ (hn ▸ (round_next h).2.1) (s.apply b) rfl
    exact ⟨s :: ss, .next h hss⟩

/-- A run makes at most as many splices as the line has columns too many. -/
theorem Rounds.length_le (h : Rounds rules indentation width b ss c) :
    ss.length ≤ b.column - width := by
  induction h with
  | done => exact Nat.zero_le _
  | last h =>
    have := (round_last h).1
    rw [List.length_singleton]
    omega
  | next h rest ih =>
    obtain ⟨hwide, hnarrow, -⟩ := round_next h
    rw [List.length_cons]
    omega

/-! ### The splices -/

theorem between_division (indentation pos : Nat) (b : Buffer) :
    ∃ x y, (division indentation pos b).Between x y b := by
  obtain ⟨k, hk⟩ := splitLine_eq b.currentLine pos
  have hremoved : (division indentation pos b).removed = k := by
    change b.currentLine.size - (splitLine b.currentLine pos).1.size -
      (splitLine b.currentLine pos).2.size = k
    generalize splitLine b.currentLine pos = cut at hk
    rw [hk]
    simp only [size_append, size_spaces]
    omega
  exact ⟨_, _, by rw [hremoved]; exact hk, rfl⟩

/-- The spaces at the end of the text are those at the end of the line being written. -/
theorem rtakeWhile_currentLine (b : Buffer) :
    b.currentLine.rtakeWhile (· == ' ') = spaces (trimming b).removed := by
  have htail : b.currentLine.reverse.takeWhile (· == ' ') =
      b.text.reverse.takeWhile (· == ' ') := by
    rw [Buffer.currentLine, lastRow, List.reverse_reverse, List.takeWhile_takeWhile]
    congr 1
    funext c
    by_cases hc : c = ' ' <;> simp [hc]
  have hall : ∀ c ∈ b.currentLine.rtakeWhile (· == ' '), (c == ' ') = true := fun c hc =>
    List.mem_rtakeWhile_imp (p := (· == ' ')) hc
  rw [eq_spaces hall, List.rtakeWhile, htail, List.length_reverse]
  rfl

theorem between_trimming (b : Buffer) : ∃ x, (trimming b).Between x [] b := by
  obtain ⟨l, htext, hstart⟩ := b.text_eq_currentLine
  have hline : b.currentLine =
      b.currentLine.rdropWhile (· == ' ') ++ spaces (trimming b).removed := by
    rw [← rtakeWhile_currentLine]
    exact List.rdropWhile_append_rtakeWhile.symm
  refine ⟨_, by rw [List.append_nil]; exact hline, ?_⟩
  have hsize := congrArg size hline
  have hall : b.size = l.size + b.currentLine.size := by
    rw [Buffer.size]
    conv_lhs => rw [htext]
    exact size_append ..
  rw [size_append, size_spaces] at hsize
  change b.size - (trimming b).removed = _
  omega

/-! ### The run -/

/-- What a round does before the next. -/
theorem between_of_next (h : round rules indentation width b = .next s) :
    ∃ x y, s.Between x y b ∧ s.insert = '\n' :: spaces indentation := by
  obtain ⟨-, -, pos, rfl⟩ := round_next h
  obtain ⟨x, y, hxy⟩ := between_division indentation pos b
  exact ⟨x, y, hxy, rfl⟩

/-- What the last round does. -/
theorem between_of_last (h : round rules indentation width b = .last s) : ∃ x y,
    s.Between x y b ∧ (s.insert = '\n' :: spaces indentation ∨ s.insert = [] ∧ y = []) := by
  obtain ⟨-, rfl | ⟨pos, rfl⟩⟩ := round_last h
  · obtain ⟨x, hx⟩ := between_trimming b
    exact ⟨x, [], hx, .inr ⟨rfl, rfl⟩⟩
  · obtain ⟨x, y, hxy⟩ := between_division indentation pos b
    exact ⟨x, y, hxy, .inl rfl⟩

theorem Rounds.respaceInTurn (h : Rounds rules indentation width b ss c) :
    Splice.RespaceInTurn indentation b ss := by
  induction h with
  | done => exact trivial
  | last h =>
    obtain ⟨x, y, hxy, hi⟩ := between_of_last h
    exact ⟨hxy.respaces hi, trivial⟩
  | next h rest ih =>
    obtain ⟨x, y, hxy, hi⟩ := between_of_next h
    exact ⟨hxy.respaces (.inl hi), ih⟩

/-- What stands in front of the line stays, and so does what is shown on it. -/
theorem Rounds.text_eq (h : Rounds rules indentation width b ss c) {l : Text}
    (hl : b.text = l ++ b.currentLine) :
    ∃ u, c.text = l ++ u ∧ u.filter (Shown ·) = b.currentLine.filter (Shown ·) := by
  have hspaces (n : Nat) : (spaces n).filter (Shown ·) = [] :=
    List.filter_eq_nil_iff.2 fun d hd => by rw [List.eq_of_mem_replicate hd]; decide
  have hnewline (n : Nat) : ('\n' :: spaces n).filter (Shown ·) = [] := by
    rw [List.filter_cons_of_neg (by decide), hspaces]
  induction h generalizing l with
  | done => exact ⟨_, hl, rfl⟩
  | @last b s h =>
    obtain ⟨x, y, hxy, hi⟩ := between_of_last h
    have hinsert : s.insert.filter (Shown ·) = [] := by
      rcases hi with hi | ⟨hi, -⟩
      · rw [hi, hnewline]
      · rw [hi, List.filter_nil]
    refine ⟨x ++ s.insert ++ y, by rw [hxy.text_apply hl]; simp, ?_⟩
    rw [hxy.line]
    simp only [List.filter_append, hinsert, hspaces]
  | @next b c s ss h rest ih =>
    obtain ⟨x, y, hxy, hi⟩ := between_of_next h
    have hline := hxy.currentLine_apply hi hl
    -- the line in the next round stands behind the newline of this one
    have hnext : (s.apply b).text = (l ++ x ++ ['\n']) ++ (s.apply b).currentLine := by
      rw [hxy.text_apply hl, hi, hline]
      simp
    obtain ⟨u, hu, hshown⟩ := ih hnext
    refine ⟨x ++ '\n' :: u, by rw [hu]; simp, ?_⟩
    rw [hline] at hshown
    rw [hxy.line, List.filter_append, List.filter_cons_of_neg (by decide), hshown]
    simp only [List.filter_append, hspaces, List.nil_append, List.append_nil]

/-- Folding ends, after at most as many splices as the line has columns too many. Each of them
replaces spaces of the line being written. Nothing in front of the line changes, and the characters
on it other than spaces stay, in order. -/
theorem rounds_foldLine (rules : LineBreak.Rules) (indentation width : Nat) (b : Buffer) :
    ∃ ss, Rounds rules indentation width b ss (foldLine rules indentation width b) ∧
      (∀ ss' c, Rounds rules indentation width b ss' c →
        ss' = ss ∧ c = foldLine rules indentation width b) ∧
      ss.length ≤ b.column - width ∧ Splice.RespaceInTurn indentation b ss ∧
      ∃ upper lower, b.text = upper ++ b.currentLine ∧ upper.size = b.lineStart ∧
        (foldLine rules indentation width b).text = upper ++ lower ∧
        lower.filter (Shown ·) = b.currentLine.filter (· ≠ ' ') := by
  obtain ⟨ss, hss⟩ := exists_rounds rules indentation width b
  obtain ⟨upper, htext, hstart⟩ := b.text_eq_currentLine
  obtain ⟨lower, hlower, hshown⟩ := hss.text_eq htext
  have hline : b.currentLine.filter (Shown ·) = b.currentLine.filter (· ≠ ' ') :=
    List.filter_congr fun c hc => by
      have hne : c ≠ '\n' := ne_of_mem_of_not_mem hc (newline_notMem_lastRow b.text)
      simp [Shown, hne]
  exact ⟨ss, hss, fun ss' c h => hss.unique h, hss.length_le, hss.respaceInTurn, upper, lower,
    htext, hstart, hlower, hshown.trans hline⟩

end Page
end MarkupText
