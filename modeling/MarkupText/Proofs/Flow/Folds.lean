import MarkupText.Proofs.Flow.GreedyFlow
import MarkupText.Proofs.LineBreak.Cuts

/-!
# Folding as a run of splits

`Folds` splits a line at a chosen cut as long as it is too wide. Where widths add up this is what
folding does to the line being written (`Page.folds_foldLine`): every split makes the line narrower,
so folding only stops at a line that fits or that has no cut. Placing a word puts it behind the line
and folds (`Page.folds_placeWord`).
-/

namespace MarkupText

open Text LineBreak Greedy

/-- Texts in which everything visible takes up columns, and widths add up. -/
structure Measured (cs : Text) : Prop where
  positive : ∀ c ∈ cs, isBlank c = false → 0 < charWidth c
  additive : ∀ t : Text, (∀ c ∈ t, c = ' ' ∨ c ∈ cs ∧ isBlank c = false) → t.width = cols t

theorem SpaceSeparated.measured {rules : Rules} {cs : Text} (h : SpaceSeparated rules cs) :
    Measured cs :=
  ⟨h.positive, h.additive⟩

theorem Measured.of_plain {cs : Text}
    (h : ∀ c ∈ cs, isBlank c = true ∨ Plain c ∧ 0 < charWidth c) : Measured cs where
  positive c hc hblank := by
    rcases h c hc with hblank' | hplain
    · rw [hblank] at hblank'
      cases hblank'
    · exact hplain.2
  additive t ht := width_eq_cols_of_plain fun c hc => by
    rcases ht c hc with rfl | ⟨hmem, hblank⟩
    · decide
    · rcases h c hmem with hblank' | hplain
      · rw [hblank] at hblank'
        cases hblank'
      · exact hplain.1

/-- What stands on a line behind its indentation: words of a text with spaces between them. -/
structure Filled (cs t : Text) : Prop where
  chars : ∀ c ∈ t, c = ' ' ∨ c ∈ cs ∧ isBlank c = false
  begins : Begins t
  last : ∃ d, t.getLast? = some d ∧ d ≠ ' '

section Lines
variable {rules : Rules} {cs t u w : Text} {indentation width n : Nat} {ls : List Text} {cut : Cut}

/-- Lines, each with its end. -/
def ended (ls : List Text) : Text := (ls.map (· ++ ['\n'])).flatten

theorem ended_concat (ls : List Text) (l : Text) : ended (ls ++ [l]) = ended ls ++ l ++ ['\n'] := by
  simp [ended]

theorem ended_eq (ls : List Text) : ended ls = [] ∨ (ended ls).getLast? = some '\n' := by
  rcases List.eq_nil_or_concat' ls with rfl | ⟨ls, l, rfl⟩
  · exact .inl rfl
  · exact .inr (by rw [ended_concat, List.getLast?_concat])

/-- What stands on a row in front of a text joins its first row. -/
theorem rows_append {l w u : Text} {ws : List Text} (hl : '\n' ∉ l) (h : rows u = w :: ws) :
    rows (l ++ u) = (l ++ w) :: ws := by
  induction l with
  | nil => exact h
  | cons c l ih =>
    rw [List.mem_cons, not_or] at hl
    have hc : (c == '\n') = false := by simpa using Ne.symm hl.1
    have := ih hl.2
    rw [rows] at this ⊢
    rw [List.cons_append, List.splitOn_cons_eq_if_modifyHead, hc, if_neg Bool.false_ne_true, this]
    rfl

/-- Lines are rows of a text that begins with them. -/
theorem rows_ended_append (h : ∀ l ∈ ls, '\n' ∉ l) (u : Text) :
    rows (ended ls ++ u) = ls ++ rows u := by
  induction ls with
  | nil => rfl
  | cons l ls ih =>
    have hcons : ended (l :: ls) ++ u = l ++ '\n' :: (ended ls ++ u) := by simp [ended]
    have hrow : rows ('\n' :: (ended ls ++ u)) = [] :: rows (ended ls ++ u) := rfl
    rw [hcons, rows_append (h l List.mem_cons_self) hrow, List.append_nil,
      ih fun u hu => h u (List.mem_cons_of_mem l hu)]
    rfl

/-- The lines are the rows of the text that they make. -/
theorem rows_ended (h : ∀ l ∈ ls ++ [t], '\n' ∉ l) : rows (ended ls ++ t) = ls ++ [t] := by
  have hlast : rows (t ++ []) = [t ++ []] := rows_append (h t (by simp)) rfl
  rw [List.append_nil] at hlast
  rw [rows_ended_append fun l hl => h l (List.mem_append_left _ hl), hlast]

theorem Inked.filled (h : Inked cs w) : Filled cs w := by
  obtain ⟨c, hc⟩ := Option.ne_none_iff_exists'.1 fun h' => h.1 (List.head?_eq_none_iff.1 h')
  obtain ⟨d, hd⟩ := Option.ne_none_iff_exists'.1 fun h' => h.1 (List.getLast?_eq_none_iff.1 h')
  exact ⟨fun c hc => .inr (h.2 c hc), ⟨c, hc, h.ne_space (List.mem_of_head? hc)⟩,
    d, hd, h.ne_space (List.mem_of_getLast? hd)⟩

namespace Filled

theorem ne_nil (h : Filled cs t) : t ≠ [] := by
  rintro rfl
  obtain ⟨c, hc, -⟩ := h.begins
  cases hc

theorem shows_last (h : Filled cs t) (u : Text) :
    ∃ d, (u ++ t).getLast? = some d ∧ isBlank d = false := by
  obtain ⟨d, hd, hne⟩ := h.last
  refine ⟨d, ?_, ((h.chars d (List.mem_of_getLast? hd)).resolve_left hne).2⟩
  rw [List.getLast?_append, hd]
  rfl

theorem append (h : Filled cs t) {gap : Text} (hgap : gap = [] ∨ gap = [' ']) (hw : Filled cs w) :
    Filled cs (t ++ gap ++ w) where
  chars c hc := by
    rcases List.mem_append.1 hc with hc | hc
    · rcases List.mem_append.1 hc with hc | hc
      · exact h.chars c hc
      · rcases hgap with rfl | rfl
        · cases hc
        · exact .inl (List.mem_singleton.1 hc)
    · exact hw.chars c hc
  begins := (h.begins.append gap).append w
  last := by
    obtain ⟨d, hd, hne⟩ := hw.last
    exact ⟨d, by rw [List.getLast?_append, hd]; rfl, hne⟩

theorem indented (h : Filled cs t) (indentation : Nat) :
    ∀ c ∈ spaces indentation ++ t, c = ' ' ∨ c ∈ cs ∧ isBlank c = false := fun c hc =>
  (List.mem_append.1 hc).elim (fun h => .inl (List.eq_of_mem_replicate h)) (h.chars c)

theorem newline_notMem (h : Filled cs t) (indentation : Nat) : '\n' ∉ spaces indentation ++ t := by
  intro hmem
  rcases h.indented indentation _ hmem with h | ⟨-, h⟩
  · cases h
  · rw [isBlank_newline] at h; cases h

theorem width_eq (h : Filled cs t) (hcs : Measured cs) (indentation : Nat) :
    (spaces indentation ++ t).width = indentation + cols t := by
  rw [hcs.additive _ (h.indented indentation)]
  exact (cols_append _ _).trans (by rw [cols_spaces])

theorem cols_pos (h : Filled cs t) (hcs : Measured cs) : 0 < cols t := by
  obtain ⟨c, hc, hne⟩ := h.begins
  obtain ⟨u, rfl⟩ := List.head?_eq_some_iff.1 hc
  obtain ⟨hmem, hblank⟩ := (h.chars c List.mem_cons_self).resolve_left hne
  have := hcs.positive c hmem hblank
  rw [cols_cons]
  omega

/-- Both parts of a divided line are lines again, and the second is narrower than the whole. -/
theorem divides {l r : Text} (h : Filled cs t) (hcs : Measured cs)
    (hcut : cut ∈ usableCuts rules (spaces indentation ++ t) indentation)
    (hdiv : Divides indentation t cut l n r) : Filled cs l ∧ Filled cs r ∧ cols r < cols t := by
  have heq := hdiv.eq
  have hl : Filled cs l := by
    refine ⟨fun c hc => h.chars c ?_, hdiv.begins, hdiv.last⟩
    rw [heq, List.append_assoc]
    exact List.mem_append_left _ hc
  have hr : r ≠ [] := by
    rintro rfl
    rw [List.append_nil] at heq
    cases n with
    | zero =>
      -- the cut would stand at the end of the line
      obtain ⟨l', b, a, r', ht, rfl⟩ := (mem_usableCuts h.begins).1 hcut
      have hle := hdiv.pos_le
      have hsize := congrArg List.length ht
      rw [heq] at hsize
      simp only [spaces, List.replicate_zero, List.append_nil, List.length_append,
        List.length_cons] at hsize
      dsimp only at hle
      have := hdiv.le_pos
      dsimp only at this
      omega
    | succ n =>
      obtain ⟨d, hd, hne⟩ := h.last
      rw [heq, List.getLast?_append_of_ne_nil _ (by simp [spaces])] at hd
      exact hne (List.eq_of_mem_replicate (List.mem_of_getLast? hd))
  refine ⟨hl, ⟨fun c hc => h.chars c ?_, ?_, ?_⟩, ?_⟩
  · rw [heq]
    exact List.mem_append_right _ hc
  · obtain ⟨c, hc⟩ := Option.ne_none_iff_exists'.1 fun h' => hr (List.head?_eq_none_iff.1 h')
    exact ⟨c, hc, hdiv.next c hc⟩
  · obtain ⟨d, hd, hne⟩ := h.last
    rw [heq, List.getLast?_append_of_ne_nil _ hr] at hd
    exact ⟨d, hd, hne⟩
  · have := hl.cols_pos hcs
    rw [heq, cols_append, cols_append]
    omega

end Filled

/-- A line is split while it is wider than `width`: the lines `ls` followed by `t` become the lines
`ls'` followed by `t'`. -/
inductive Folds (rules : Rules) (indentation width : Nat) :
    List Text → Text → List Text → Text → Prop
  | refl (ls : List Text) (t : Text) : Folds rules indentation width ls t ls t
  | split {ls ls' : List Text} {t t' l r : Text} {n : Nat} (cut : Cut)
      (wide : width < (spaces indentation ++ t).width)
      (chosen : Chosen (usableCuts rules (spaces indentation ++ t) indentation) width cut)
      (divides : Divides indentation t cut l n r)
      (rest : Folds rules indentation width (ls ++ [spaces indentation ++ l]) r ls' t') :
      Folds rules indentation width ls t ls' t'

/-- A line that is not folded: it fits, or it has no cut to fold it at. -/
def Stays (rules : Rules) (indentation width : Nat) (t : Text) : Prop :=
  (spaces indentation ++ t).width ≤ width ∨
    findBreak rules (spaces indentation ++ t) indentation width = none

end Lines

namespace Page
variable {rules : Rules} {cs t u w : Text} {indentation width : Nat} {ls : List Text} {b : Buffer}

/-- The line being written is folded until it fits or has no cut. -/
theorem folds_foldLine (hcs : Measured cs) (ht : Filled cs t)
    (hb : b.text = ended ls ++ (spaces indentation ++ t)) :
    ∃ ls' t', Folds rules indentation width ls t ls' t' ∧ Filled cs t' ∧
      Stays rules indentation width t' ∧
      (foldLine rules indentation width b).text = ended ls' ++ (spaces indentation ++ t') := by
  induction hn : cols t using Nat.strong_induction_on generalizing b ls t with
  | _ k ih =>
  subst hn
  obtain ⟨hline, hstart⟩ := Buffer.currentLine_eq hb (ended_eq ls) (ht.newline_notMem indentation)
  rw [foldLine, Buffer.column, hline]
  by_cases hfit : (spaces indentation ++ t).width ≤ width
  · rw [if_pos hfit]
    exact ⟨ls, t, .refl ls t, ht, .inl hfit, hb⟩
  · simp only [if_neg hfit]
    cases hbreak : findBreak rules (spaces indentation ++ t) indentation width with
    | none => exact ⟨ls, t, .refl ls t, ht, .inr hbreak, hb⟩
    | some pos =>
      obtain ⟨cut, rfl, hchosen⟩ := chosen_of_findBreak hbreak
      obtain ⟨l, n, r, hdiv⟩ := divides_of_mem_usableCuts ht.begins hchosen.mem
      obtain ⟨hl, hr, hlt⟩ := ht.divides hcs hchosen.mem hdiv
      have hempty : r.isEmpty = false := by simpa using hr.ne_nil
      simp only [hdiv.split, hempty, Bool.false_eq_true, if_false]
      have hremoved : (spaces indentation ++ t).size - (spaces indentation ++ l : Text).size - r.size
          = n := by
        rw [hdiv.eq]
        simp only [size_append, size_spaces]
        omega
      have hsplice := Buffer.splice_eq (l := ended ls ++ (spaces indentation ++ l)) (m := spaces n)
        (r := r) (by rw [hb, hdiv.eq]; simp) ('\n' :: spaces indentation)
      rw [size_spaces] at hsplice
      rw [hstart, hremoved, ← size_append]
      generalize b.splice _ _ _ = b' at hsplice ⊢
      have htext : b'.text = ended (ls ++ [spaces indentation ++ l]) ++ (spaces indentation ++ r) := by
        rw [hsplice, ended_concat]
        simp
      have hline' := (Buffer.currentLine_eq htext (ended_eq _) (hr.newline_notMem indentation)).1
      -- the line gets narrower, so folding goes on
      have hnarrow : b'.column < (spaces indentation ++ t).width := by
        rw [Buffer.column, hline', hr.width_eq hcs, ht.width_eq hcs]
        omega
      rw [if_pos hnarrow]
      obtain ⟨ls', t', hfolds, ht', hstays, htext'⟩ := ih _ hlt hr htext rfl
      exact ⟨ls', t', .split cut (Nat.lt_of_not_le hfit) hchosen hdiv hfolds, ht', hstays, htext'⟩

/-! ### Placing a word -/

/-- The space between what stands on a line and a word behind it, if one is wanted or there. -/
def gapFor (rules : Rules) (wanted : Bool) (t w : Text) : Text :=
  match t.getLast?, w.head? with
  | some b, some a => if wanted && !joins rules b a then [' '] else []
  | _, _ => []

theorem gapFor_cases (rules : Rules) (wanted : Bool) (t w : Text) :
    gapFor rules wanted t w = [] ∨ gapFor rules wanted t w = [' '] := by
  unfold gapFor
  split
  · split
    · exact .inr rfl
    · exact .inl rfl
  · exact .inl rfl

variable {p q : Page} {gap : Text} {spaceBefore : Bool}

/-- The page without the space at its end, if that does not belong in front of `c`. -/
def dropSpace (rules : Rules) (c : Char) (p : Page) : Page :=
  if p.spaceUnwanted rules c then p.onBuffer fun b => b.splice (b.size - 1) 1 [] else p

@[simp] theorem layout_dropSpace (rules : Rules) (c : Char) (p : Page) :
    (p.dropSpace rules c).layout = p.layout := by
  unfold dropSpace
  split <;> rfl

/-- A word is written behind the spaces that belong there, and the line is folded. -/
theorem placeWord_eq (rules : Rules) (p : Page) (spaceBefore : Bool) (c : Char) (w : Text) :
    p.placeWord rules spaceBefore (c :: w) =
      ((if spaceBefore then p.indent.space else p.indent).dropSpace rules c).onBuffer fun b =>
        foldLine rules p.layout.indentation p.layout.width (b.push (c :: w)) := by
  have hlayout : (if spaceBefore then p.indent.space else p.indent).layout = p.layout := by
    split
    · exact ((pours_indent p).trans (pours_space _)).layout
    · exact (pours_indent p).layout
  rw [← hlayout, ← layout_dropSpace rules c]
  rfl

theorem currentLine_filled (ht : Filled cs t) (hgap : gap = [] ∨ gap = [' '])
    (hp : p.buffer.text = ended ls ++ (spaces indentation ++ t ++ gap)) :
    p.buffer.currentLine = spaces indentation ++ t ++ gap := by
  refine (Buffer.currentLine_eq hp (ended_eq ls) fun hmem => ?_).1
  rcases List.mem_append.1 hmem with hmem | hmem
  · exact ht.newline_notMem indentation hmem
  · rcases hgap with rfl | rfl
    · cases hmem
    · cases List.mem_singleton.1 hmem

theorem getLast?_indented (ht : Filled cs t) (indentation : Nat) :
    ∃ d, t.getLast? = some d ∧ (spaces indentation ++ t).getLast? = some d ∧ d ≠ ' ' := by
  obtain ⟨d, hd, hne⟩ := ht.last
  exact ⟨d, hd, by rw [List.getLast?_append, hd]; rfl, hne⟩

/-- A space behind what stands on a line is written. -/
theorem space_filled (hcs : Measured cs) (ht : Filled cs t)
    (hp : p.buffer.text = ended ls ++ (spaces p.layout.indentation ++ t)) :
    p.space = p.onBuffer (·.push [' ']) := by
  have hline : p.buffer.currentLine = spaces p.layout.indentation ++ t := by
    simpa using currentLine_filled ht (.inl rfl) (hp.trans (congrArg _ (List.append_nil _).symm))
  obtain ⟨d, -, hd, hne⟩ := getLast?_indented ht p.layout.indentation
  have hstart : p.buffer.atLineStart = false := by
    rw [Buffer.atLineStart, hline, List.all_eq_false]
    exact ⟨d, List.mem_of_getLast? hd, by simpa using hne⟩
  have hcolumn : ¬ p.buffer.column ≤ p.layout.indentation := by
    have := ht.cols_pos hcs
    rw [Buffer.column, hline, ht.width_eq hcs]
    omega
  have hlast : (p.buffer.lastChar == some ' ') = false := by
    rw [Buffer.lastChar, hp, List.getLast?_append, hd]
    simpa using hne
  simp [space, hstart, hcolumn, hlast]

/-- The page on which a word is put: behind what stands on the line there is a space if one is
wanted or there. -/
theorem spaced_filled (spaceBefore : Bool) (hcs : Measured cs) (ht : Filled cs t)
    (hgap : gap = [] ∨ gap = [' '])
    (hp : p.buffer.text = ended ls ++ (spaces p.layout.indentation ++ t ++ gap)) :
    ∃ q, (if spaceBefore then p.indent.space else p.indent) = q ∧ q.layout = p.layout ∧
      q.buffer.text = ended ls ++ (spaces p.layout.indentation ++ t ++
        if spaceBefore || !gap.isEmpty then [' '] else []) := by
  have hindent : p.indent = p := by
    refine indent_of_currentLine_ne ?_
    rw [currentLine_filled ht hgap hp]
    simp [ht.ne_nil]
  refine ⟨_, rfl, ?_⟩
  rw [hindent]
  rcases hgap with rfl | rfl
  · rw [List.append_nil] at hp
    cases spaceBefore with
    | false => exact ⟨rfl, by simp [hp]⟩
    | true =>
      rw [if_pos rfl, space_filled hcs ht hp]
      exact ⟨rfl, by simp [onBuffer, hp]⟩
  · have hspace : p.space = p := space_eq_self (by rw [hp, ← List.append_assoc]; simp)
    rw [hspace, ite_self]
    exact ⟨rfl, by simp [hp]⟩

theorem spaceUnwanted_filled (hcs : Measured cs) (ht : Filled cs t) {c d : Char}
    (hd : t.getLast? = some d)
    (hp : p.buffer.text = ended ls ++ (spaces p.layout.indentation ++ t ++ [' '])) :
    p.spaceUnwanted rules c = joins rules d c := by
  have hwide : ¬ (spaces p.layout.indentation ++ t).width ≤ p.layout.indentation := by
    have := ht.cols_pos hcs
    rw [ht.width_eq hcs]
    omega
  have hlast : (spaces p.layout.indentation ++ t).getLast? = some d := by
    rw [List.getLast?_append, hd]
    rfl
  have hcut : dropLast? ' ' p.buffer.currentLine = some (spaces p.layout.indentation ++ t) := by
    rw [currentLine_filled ht (.inr rfl) hp, dropLast?, List.getLast?_concat, if_pos rfl,
      List.dropLast_concat]
  simp [spaceUnwanted, hcut, hwide, hlast]

/-- Placing a word appends it to the line, behind a space or not, and folds the line. -/
theorem folds_placeWord (rules : Rules) (spaceBefore : Bool) (hcs : Measured cs)
    (ht : Filled cs t) (hw : Inked cs w) (hgap : gap = [] ∨ gap = [' '])
    (hp : p.buffer.text = ended ls ++ (spaces p.layout.indentation ++ t ++ gap)) :
    ∃ ls' t', Folds rules p.layout.indentation p.layout.width ls
        (t ++ gapFor rules (spaceBefore || !gap.isEmpty) t w ++ w) ls' t' ∧ Filled cs t' ∧
      Stays rules p.layout.indentation p.layout.width t' ∧
      (p.placeWord rules spaceBefore w).buffer.text =
        ended ls' ++ (spaces p.layout.indentation ++ t') := by
  obtain ⟨q, hq, hlayout, htext⟩ := spaced_filled spaceBefore hcs ht hgap hp
  generalize (spaceBefore || !gap.isEmpty) = wanted at htext ⊢
  obtain ⟨c, w, rfl⟩ := List.exists_cons_of_ne_nil hw.1
  obtain ⟨d, hd, hd', hne⟩ := getLast?_indented ht p.layout.indentation
  have hplace : (p.placeWord rules spaceBefore (c :: w)).buffer =
      foldLine rules p.layout.indentation p.layout.width
        ((q.dropSpace rules c).buffer.push (c :: w)) := by
    rw [placeWord_eq, hq]
    rfl
  have hpushed : ((q.dropSpace rules c).buffer.push (c :: w)).text = ended ls ++
      (spaces p.layout.indentation ++ (t ++ gapFor rules wanted t (c :: w) ++ c :: w)) := by
    unfold dropSpace
    cases wanted with
    | false =>
      have hline : q.buffer.currentLine = spaces p.layout.indentation ++ t := by
        simpa using currentLine_filled ht (.inl rfl) htext
      rw [spaceUnwanted_of_last (hline ▸ hd') hne, if_neg Bool.false_ne_true, Buffer.text_push, htext]
      simp [gapFor, hd]
    | true =>
      rw [if_pos rfl] at htext
      rw [spaceUnwanted_filled hcs ht hd (hlayout ▸ htext)]
      cases hjoins : joins rules d c with
      | false =>
        rw [if_neg Bool.false_ne_true, Buffer.text_push, htext]
        simp [gapFor, hd, hjoins]
      | true =>
        have hsplice := Buffer.splice_eq (b := q.buffer)
          (l := ended ls ++ (spaces p.layout.indentation ++ t)) (m := [' ']) (r := [])
          (by rw [htext]; simp) []
        have hsize : q.buffer.size - 1 =
            (ended ls ++ (spaces p.layout.indentation ++ t) : Text).size := by
          rw [Buffer.size, htext, ← List.append_assoc, size_append]
          exact Nat.add_sub_cancel ..
        rw [if_pos rfl, onBuffer, Buffer.text_push, hsize, show (1 : Nat) = size [' '] from rfl, hsplice]
        simp [gapFor, hd, hjoins]
  rw [hplace]
  exact folds_foldLine hcs (ht.append (gapFor_cases ..) hw.filled) hpushed

/-- The first word is placed behind the indentation. -/
theorem folds_placeFirst (rules : Rules) (spaceBefore : Bool) (hcs : Measured cs)
    (hw : Inked cs w) (hp : p.buffer.text = []) :
    ∃ ls' t', Folds rules p.layout.indentation p.layout.width [] w ls' t' ∧ Filled cs t' ∧
      Stays rules p.layout.indentation p.layout.width t' ∧
      (p.placeWord rules spaceBefore w).buffer.text =
        ended ls' ++ (spaces p.layout.indentation ++ t') := by
  obtain ⟨b, hb, hplace⟩ := buffer_placeFirst rules spaceBefore hp hw.1
  rw [hplace]
  exact folds_foldLine hcs hw.filled hb

/-! ### Inserting texts -/

/-- A property of finished lines and the line behind them that placing and folding keep. -/
structure FoldInvariant (rules : Rules) (cs : Text) (indentation width : Nat)
    (K : List Text → Text → Prop) : Prop where
  first : ∀ {w}, Inked cs w → K [] w
  word : ∀ {ls t w} (wanted : Bool), K ls t → Filled cs t → Stays rules indentation width t →
    Inked cs w → K ls (t ++ gapFor rules wanted t w ++ w)
  split : ∀ {ls t cut l n r}, K ls t → Filled cs t → Filled cs l →
    width < (spaces indentation ++ t).width →
    Chosen (usableCuts rules (spaces indentation ++ t) indentation) width cut →
    Divides indentation t cut l n r → K (ls ++ [spaces indentation ++ l]) r

/-- The page is empty, or it shows lines with a property and perhaps a space behind them. -/
def ShowsLines (rules : Rules) (cs : Text) (K : List Text → Text → Prop) (p : Page) : Prop :=
  p.buffer.text = [] ∨ ∃ ls t gap, K ls t ∧ Filled cs t ∧
    Stays rules p.layout.indentation p.layout.width t ∧ (gap = [] ∨ gap = [' ']) ∧
    p.buffer.text = ended ls ++ (spaces p.layout.indentation ++ t ++ gap)

section Insert
variable {K : List Text → Text → Prop} {l : Layout} {ws : List Text}

theorem FoldInvariant.folds (hK : FoldInvariant rules cs indentation width K) (hcs : Measured cs)
    {ls' : List Text} {t' : Text} (h : Folds rules indentation width ls t ls' t') :
    K ls t → Filled cs t → K ls' t' := by
  induction h with
  | refl ls t => exact fun hk _ => hk
  | split cut wide chosen divides rest ih =>
    intro hk ht
    obtain ⟨hl, hr, -⟩ := ht.divides hcs chosen.mem divides
    exact ih (hK.split hk ht hl wide chosen divides) hr

theorem ShowsLines.placeWord (hcs : Measured cs)
    (hK : FoldInvariant rules cs p.layout.indentation p.layout.width K)
    (h : p.ShowsLines rules cs K) (hw : Inked cs w) :
    (p.placeWord rules spaceBefore w).ShowsLines rules cs K := by
  have hlayout := layout_placeWord rules p spaceBefore w
  right
  rw [hlayout]
  rcases h with hp | ⟨ls, t, gap, hk, ht, hstays, hgap, hp⟩
  · obtain ⟨ls', t', hfolds, ht', hstays', htext⟩ :=
      folds_placeFirst rules spaceBefore hcs hw hp
    exact ⟨ls', t', [], hK.folds hcs hfolds (hK.first hw) hw.filled, ht', hstays', .inl rfl,
      by rw [htext, List.append_nil]⟩
  · obtain ⟨ls', t', hfolds, ht', hstays', htext⟩ :=
      folds_placeWord rules spaceBefore hcs ht hw hgap hp
    exact ⟨ls', t', [], hK.folds hcs hfolds (hK.word _ hk ht hstays hw)
      (ht.append (gapFor_cases ..) hw.filled), ht', hstays', .inl rfl,
      by rw [htext, List.append_nil]⟩

theorem ShowsLines.placeWords (hcs : Measured cs)
    (hK : FoldInvariant rules cs p.layout.indentation p.layout.width K)
    (h : p.ShowsLines rules cs K) (hws : ∀ w ∈ ws, Inked cs w) :
    (p.placeWords rules spaceBefore ws).ShowsLines rules cs K := by
  induction ws generalizing p spaceBefore with
  | nil => exact h
  | cons w ws ih =>
    have hlayout := layout_placeWord rules p spaceBefore w
    exact ih (by rwa [hlayout]) (h.placeWord hcs hK (hws w List.mem_cons_self))
      fun v hv => hws v (List.mem_cons_of_mem w hv)

theorem space_of_empty (hp : p.buffer.text = []) : p.space = p := by
  have hstart : p.buffer.atLineStart = true := by
    rw [Buffer.atLineStart, Buffer.currentLine, hp]
    rfl
  simp [Page.space, hstart]

theorem ShowsLines.space (hcs : Measured cs) (h : p.ShowsLines rules cs K) :
    p.space.ShowsLines rules cs K := by
  rcases h with hp | ⟨ls, t, gap, hk, ht, hstays, hgap, hp⟩
  · rw [space_of_empty hp]
    exact .inl hp
  · right
    rcases hgap with rfl | rfl
    · rw [List.append_nil] at hp
      rw [space_filled hcs ht hp]
      exact ⟨ls, t, [' '], hk, ht, hstays, .inr rfl, by simp [onBuffer, hp]⟩
    · rw [space_eq_self (by rw [hp, ← List.append_assoc]; simp)]
      exact ⟨ls, t, [' '], hk, ht, hstays, .inr rfl, hp⟩

theorem ShowsLines.insertWrapped (hcs : Measured cs)
    (hK : FoldInvariant rules cs p.layout.indentation p.layout.width K)
    (h : p.ShowsLines rules cs K) {t : Text} (ht : ∀ c ∈ t, c ∈ cs) :
    (p.insertWrapped rules t).ShowsLines rules cs K := by
  have hplaced : (p.placeWords rules (startsBlank t) t.words).ShowsLines rules cs K :=
    h.placeWords hcs hK fun w hw => inked_of_mem_words ht hw
  change (if endsBlank t then (p.placeWords rules (startsBlank t) t.words).space
    else p.placeWords rules (startsBlank t) t.words).ShowsLines rules cs K
  split
  · exact hplaced.space hcs
  · exact hplaced

/-- The page after some texts were inserted in wrap mode. -/
structure Folded (rules : Rules) (cs : Text) (K : List Text → Text → Prop) (l : Layout) (p : Page) :
    Prop where
  shows : p.ShowsLines rules cs K
  layout : p.layout = { l with kind := p.layout.kind }
  kind : p.buffer.text = [] ∨ p.layout.kind = .text

theorem Folded.insert (hl : l.fold = .wrap) (hcs : Measured cs)
    (hK : FoldInvariant rules cs l.indentation l.width K) (h : Folded rules cs K l p) {t : Text}
    (ht : ∀ c ∈ t, c ∈ cs) : Folded rules cs K l (p.insert rules t) := by
  have hlayout := h.layout
  have hfold : p.layout.fold = .wrap := by rw [hlayout]; exact hl
  have hK' : FoldInvariant rules cs p.layout.indentation p.layout.width K := by rwa [hlayout]
  have hshows : (p.insertWrapped rules t).ShowsLines rules cs K := h.shows.insertWrapped hcs hK' ht
  have hinsert := insert_of_wrap rules hfold h.kind t
  have hlayout' := layout_insert rules p t
  refine ⟨?_, ?_, ?_⟩
  · rw [hinsert]
    split
    · exact hshows
    · exact hshows
  · rw [hlayout', h.layout]
    split <;> rfl
  · rw [hlayout']
    split
    · rename_i hblank
      refine h.kind.imp_left fun htext => ?_
      have hwords : t.words = [] := words_eq_nil_iff.2 hblank
      rw [hinsert, if_pos hblank]
      simp only [insertWrapped, hwords, placeWords, space_of_empty htext, ite_self, htext]
    · exact .inr rfl

theorem Folded.insertAll (hl : l.fold = .wrap) (hcs : Measured cs)
    (hK : FoldInvariant rules cs l.indentation l.width K) (leaves : List Text)
    (h : Folded rules cs K l p) (hs : ∀ c ∈ leaves.flatten, c ∈ cs) :
    Folded rules cs K l (leaves.foldl (·.insert rules) p) := by
  induction leaves generalizing p with
  | nil => exact h
  | cons t leaves ih =>
    rw [List.flatten_cons] at hs
    exact ih (h.insert hl hcs hK fun c hc => hs c (List.mem_append_left _ hc))
      fun c hc => hs c (List.mem_append_right _ hc)

/-- The finished text is empty, or its lines have the property. -/
theorem Folded.finish (h : Folded rules cs K l p) : p.buffer.finish.1 = [] ∨
    ∃ ls t, K ls t ∧ Filled cs t ∧ Stays rules l.indentation l.width t ∧
      p.buffer.finish.1 = ended ls ++ (spaces l.indentation ++ t) := by
  rcases h.shows with hp | ⟨ls, t, gap, hk, ht, hstays, hgap, hp⟩
  · refine .inl ?_
    change dropEndWhile isBlank p.buffer.text = []
    rw [hp]
    rfl
  · right
    rw [h.layout] at hstays hp
    obtain ⟨d, hd, hblank⟩ := ht.shows_last (ended ls ++ spaces l.indentation)
    refine ⟨ls, t, hk, ht, hstays, ?_⟩
    rw [← List.append_assoc] at hp ⊢
    exact Buffer.finish_eq (hp.trans (by simp)) hd hblank hgap

/-- Texts inserted one after another in wrap mode, from an empty page on. -/
theorem finish_insertAll_lines (rules : Rules) (hl : l.fold = .wrap) (leaves : List Text)
    (hcs : Measured leaves.flatten)
    (hK : FoldInvariant rules leaves.flatten l.indentation l.width K) :
    let out := (leaves.foldl (·.insert rules) { layout := l : Page }).buffer.finish.1
    out = [] ∨ ∃ ls t, K ls t ∧ Filled leaves.flatten t ∧
      Stays rules l.indentation l.width t ∧ out = ended ls ++ (spaces l.indentation ++ t) :=
  have hstart : Folded rules leaves.flatten K l { layout := l } := ⟨.inl rfl, rfl, .inl rfl⟩
  (hstart.insertAll hl hcs hK leaves fun _ hc => hc).finish

end Insert
end Page
end MarkupText
