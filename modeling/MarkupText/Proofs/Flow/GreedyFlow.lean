import MarkupText.Proofs.Flow.Greedy
import MarkupText.Proofs.Flow.Run
import Mathlib.Data.Bool.AllAny

/-!
# Inline flow is greedy word wrap

Inserting texts whose words are set off by blanks alone gives the words wrapped greedily, however the
text is cut into pieces (`Page.insert_eq_wrap`). The page after some pieces shows the words so far,
and one space behind them if the last piece ended with a blank (`Page.Flows`). A further word goes on
the last line or on a new one (`Page.Shows.placeNext`), and a piece of a word prolongs the last word,
which may then move to a new line (`Page.Shows.placeGlued`).
-/

namespace MarkupText

open Text LineBreak Greedy

namespace Buffer
variable {rules : Rules} {cs : Text} {l : List Text} {w t line : Text} {indentation width : Nat}
  {b : Buffer}

theorem currentLine_eq (h : b.text = t ++ line) (ht : t = [] ∨ t.getLast? = some '\n')
    (hline : '\n' ∉ line) : b.currentLine = line ∧ b.lineStart = t.size := by
  have hcur : b.currentLine = line := by
    have hend : t.rtakeWhile (· != '\n') = [] := by
      rcases ht with rfl | ht
      · rfl
      · obtain ⟨t, rfl⟩ := List.getLast?_eq_some_iff.1 ht
        exact List.rtakeWhile_concat_neg _ _ _ (by decide)
    have hrow : ∀ c ∈ line.reverse, (c != '\n') = true := fun c hc => by
      simpa using fun hc' : c = '\n' => hline (hc' ▸ List.mem_reverse.1 hc)
    rw [currentLine, h, lastRow, List.reverse_append, List.takeWhile_append_of_pos hrow,
      List.reverse_append, List.reverse_reverse]
    exact congrArg (· ++ line) hend
  refine ⟨hcur, ?_⟩
  rw [lineStart, hcur, Buffer.size, h, size_append]
  exact Nat.add_sub_cancel ..

/-- Finishing drops a space behind a text that ends with something to see. -/
theorem finish_eq {gap : Text} {d : Char} (hb : b.text = t ++ gap) (hd : t.getLast? = some d)
    (hblank : isBlank d = false) (hgap : gap = [] ∨ gap = [' ']) : b.finish.1 = t := by
  obtain ⟨t, rfl⟩ := List.getLast?_eq_some_iff.1 hd
  have hlast : dropEndWhile isBlank (t ++ [d]) = t ++ [d] :=
    List.rdropWhile_concat_neg _ _ _ (by simp [hblank])
  change dropEndWhile isBlank b.text = _
  rw [hb]
  rcases hgap with rfl | rfl
  · rw [List.append_nil, hlast]
  · exact (List.rdropWhile_concat_pos _ _ _ isBlank_space).trans hlast

end Buffer

namespace Page
variable {rules : Rules} {cs : Text} {l : List Text} {w t : Text} {indentation width : Nat}
  {b : Buffer}

theorem foldLine_word (hcs : SpaceSeparated rules cs) (hw : Inked cs w)
    (hline : b.currentLine = lineOf indentation [w]) : foldLine rules indentation width b = b := by
  have hbreak : findBreak rules b.currentLine indentation width = none := by
    rw [hline, lineOf_singleton]
    exact findBreak_word hw.1 fun c hc => hw.solid hcs hc
  rw [foldLine]
  simp only [hbreak, ite_self]

/-- A line that became too wide by its last word is split in front of it. -/
theorem foldLine_lastWord (hcs : SpaceSeparated rules cs) (hne : l ≠ [])
    (hl : ∀ w ∈ l, Inked cs w) (hkept : Kept indentation width l) (hw : Inked cs w)
    (htext : b.text = t ++ lineOf indentation (l ++ [w]))
    (ht : t = [] ∨ t.getLast? = some '\n') :
    (foldLine rules indentation width b).text =
      if (lineOf indentation (l ++ [w])).width ≤ width then b.text
      else t ++ lineOf indentation l ++ '\n' :: lineOf indentation [w] := by
  have hlw : ∀ v ∈ l ++ [w], Inked cs v := by
    intro v hv
    rcases List.mem_append.1 hv with hv | hv
    · exact hl v hv
    · exact List.mem_singleton.1 hv ▸ hw
  obtain ⟨hline, hstart⟩ := Buffer.currentLine_eq htext ht (newline_notMem_lineOf hlw)
  rw [lineOf_concat hne] at htext hline ⊢
  obtain ⟨pos, hbreak, hsplit⟩ := findBreak_lastWord (stem_of_kept hcs hne hl hkept)
    (fun c hc => hw.solid hcs hc) hw.1
  change findBreak rules (lineOf indentation l ++ ' ' :: w) indentation width = some pos at hbreak
  change splitLine (lineOf indentation l ++ ' ' :: w) pos = (lineOf indentation l, w) at hsplit
  rw [foldLine, Buffer.column, hline]
  by_cases hfit : (lineOf indentation l ++ ' ' :: w).width ≤ width
  · rw [if_pos hfit, if_pos hfit]
  · have hempty : w.isEmpty = false := by simpa using hw.1
    simp only [if_neg hfit, hbreak, hsplit, hempty, Bool.false_eq_true, if_false]
    have hremoved : (lineOf indentation l ++ ' ' :: w).size - (lineOf indentation l).size - w.size
        = size [' '] := by
      simp only [size_append, size_cons, size_nil]
      omega
    have hsplice := Buffer.splice_eq (l := t ++ lineOf indentation l) (m := [' ']) (r := w)
      (by rw [htext]; simp) ('\n' :: spaces indentation)
    rw [hstart, hremoved, ← size_append]
    generalize b.splice _ _ _ = b' at hsplice ⊢
    have htext' : b'.text = (t ++ lineOf indentation l ++ ['\n']) ++ lineOf indentation [w] := by
      rw [hsplice]
      simp
    have hline' := (Buffer.currentLine_eq htext' (.inr List.getLast?_concat)
      (newline_notMem_lineOf fun v hv => List.mem_singleton.1 hv ▸ hw)).1
    have hresult : b'.text = t ++ lineOf indentation l ++ '\n' :: lineOf indentation [w] := by
      rw [htext']
      simp
    -- folding may go on, but the new line holds a single word
    split
    · rw [foldLine_word hcs hw hline', hresult]
    · exact hresult

/-- The page shows some words, wrapped, and what is behind them. -/
def Shows (p : Page) (ws : List Text) (gap : Text) : Prop :=
  p.buffer.text = wrap p.layout.indentation p.layout.width ws ++ gap

variable {p : Page} {ws : List Text} {u v : Text} {spaceBefore : Bool}

/-- The last line of the words that a page shows. -/
theorem Shows.lastLine {gap : Text} (h : p.Shows ws gap) (hne : ws ≠ [])
    (hws : ∀ w ∈ ws, Inked cs w) (hgap : gap = [] ∨ gap = [' ']) :
    ∃ ls l, linesOf p.layout.indentation p.layout.width ws = ls ++ [l] ∧ l ≠ [] ∧
      (∀ w ∈ l, Inked cs w) ∧ Kept p.layout.indentation p.layout.width l ∧
      (∀ w, linesOf p.layout.indentation p.layout.width (ws ++ [w]) =
        ls ++ place p.layout.indentation p.layout.width l w) ∧
      p.buffer.text = above p.layout.indentation ls ++ (lineOf p.layout.indentation l ++ gap) ∧
      p.buffer.currentLine = lineOf p.layout.indentation l ++ gap := by
  obtain ⟨ls, l, hlines, hl, hkept, hmem, hplace⟩ := linesOf_concat
    p.layout.indentation p.layout.width hne
  have hinked : ∀ w ∈ l, Inked cs w := fun w hw => hws w (hmem w hw)
  have htext : p.buffer.text =
      above p.layout.indentation ls ++ (lineOf p.layout.indentation l ++ gap) := by
    rw [h, wrap, hlines, join_lines, List.append_assoc]
  have hnew : '\n' ∉ lineOf p.layout.indentation l ++ gap := by
    rw [List.mem_append]
    rintro (hnew | hnew)
    · exact newline_notMem_lineOf hinked hnew
    · rcases hgap with rfl | rfl
      · cases hnew
      · cases List.mem_singleton.1 hnew
  exact ⟨ls, l, hlines, hl, hinked, hkept, hplace, htext,
    (Buffer.currentLine_eq htext (above_eq ..) hnew).1⟩

theorem indent_of_currentLine_ne (h : p.buffer.currentLine ≠ []) : p.indent = p := by
  rw [indent, if_neg (by simpa using h)]

theorem space_eq (hcs : SpaceSeparated rules cs) (hne : l ≠ []) (hl : ∀ w ∈ l, Inked cs w)
    (htext : p.buffer.text = t ++ lineOf p.layout.indentation l)
    (hline : p.buffer.currentLine = lineOf p.layout.indentation l) :
    p.space = p.onBuffer (·.push [' ']) := by
  obtain ⟨d, hd, -, hblank⟩ := last_lineOf p.layout.indentation hne hl
  have hspace : d ≠ ' ' := (shown_of_not_blank hblank).1
  have hstart : p.buffer.atLineStart = false := by
    rw [Buffer.atLineStart, hline, List.all_eq_false]
    exact ⟨d, List.mem_of_getLast? hd, by simpa using hspace⟩
  have hcolumn : ¬ p.buffer.column ≤ p.layout.indentation := by
    rw [Buffer.column, hline]
    exact Nat.not_le.2 (indentation_lt_width hcs hne hl)
  have hlast : (p.buffer.lastChar == some ' ') = false := by
    rw [Buffer.lastChar, htext, List.getLast?_append, hd]
    simpa using hspace
  simp [space, hstart, hcolumn, hlast]

theorem space_eq_self (h : p.buffer.text.getLast? = some ' ') : p.space = p := by
  simp [space, Buffer.lastChar, h]

/-- A space in front of a word is never taken back. -/
theorem spaceUnwanted_space (hcs : SpaceSeparated rules cs) (hne : l ≠ [])
    (hl : ∀ w ∈ l, Inked cs w)
    (hline : p.buffer.currentLine = lineOf p.layout.indentation l ++ [' ']) {c : Char}
    (hc : c ∈ cs) : p.spaceUnwanted rules c = false := by
  obtain ⟨d, hd, hmem, -⟩ := last_lineOf p.layout.indentation hne hl
  have hwide : ¬ (lineOf p.layout.indentation l).width ≤ p.layout.indentation :=
    Nat.not_le.2 (indentation_lt_width hcs hne hl)
  have hcut : dropLast? ' ' p.buffer.currentLine = some (lineOf p.layout.indentation l) := by
    rw [hline, dropLast?, List.getLast?_concat, if_pos rfl, List.dropLast_concat]
  simp [spaceUnwanted, hcut, hwide, hd, joins, hcs.spaced d hmem, hcs.unbreakable d hmem,
    hcs.unbreakable c hc]

theorem spaceUnwanted_of_last {c d : Char} (hd : p.buffer.currentLine.getLast? = some d)
    (hne : d ≠ ' ') : p.spaceUnwanted rules c = false := by
  have hcut : dropLast? ' ' p.buffer.currentLine = none := by
    rw [dropLast?, hd, if_neg (by simpa using hne)]
  simp [spaceUnwanted, hcut]

theorem spaceUnwanted_indented (hline : p.buffer.currentLine = spaces p.layout.indentation)
    (c : Char) :
    p.spaceUnwanted rules c = false := by
  rw [spaceUnwanted, hline]
  cases p.layout.indentation with
  | zero => rfl
  | succ n =>
    have hcut : dropLast? ' ' (spaces (n + 1)) = some (spaces n) := by
      rw [dropLast?, spaces, List.getLast?_replicate, if_neg (Nat.succ_ne_zero n), if_pos rfl,
        List.dropLast_replicate]
      rfl
    have hwidth : (spaces n).width ≤ n + 1 := by
      rw [width_eq_cols fun c hc => by rw [List.eq_of_mem_replicate hc]; decide]
      exact (cols_spaces n).le.trans (Nat.le_succ n)
    simp [hcut, hwidth]

/-- What placing a word comes to where no space is taken back. -/
theorem buffer_placeWord {c : Char} {w : Text} {q : Page}
    (hq : (if spaceBefore then p.indent.space else p.indent) = q)
    (h : q.spaceUnwanted rules c = false) :
    (p.placeWord rules spaceBefore (c :: w)).buffer =
      foldLine rules q.layout.indentation q.layout.width (q.buffer.push (c :: w)) := by
  subst hq
  simp [placeWord, h, onBuffer]

/-- On an empty page a word is placed behind the indentation. -/
theorem buffer_placeFirst (rules : Rules) (spaceBefore : Bool) (hp : p.buffer.text = [])
    (hw : w ≠ []) :
    ∃ b : Buffer, b.text = [] ++ (spaces p.layout.indentation ++ w) ∧
      (p.placeWord rules spaceBefore w).buffer =
        foldLine rules p.layout.indentation p.layout.width b := by
  have hindent : p.indent = p.onBuffer (·.push (spaces p.layout.indentation)) := by
    rw [indent, if_pos]
    simp [Buffer.currentLine, hp, lastRow]
  have hlayout : p.indent.layout = p.layout := by
    rw [hindent]
    rfl
  have hindented : p.indent.buffer.text = [] ++ spaces p.layout.indentation := by
    rw [hindent]
    simp [onBuffer, hp]
  obtain ⟨hline, -⟩ := Buffer.currentLine_eq hindented (.inl rfl)
    (fun hc => by cases List.eq_of_mem_replicate hc)
  have hspace : (if spaceBefore then p.indent.space else p.indent) = p.indent := by
    have hstart : p.indent.buffer.atLineStart = true := by
      rw [Buffer.atLineStart, hline, List.all_eq_true]
      exact fun c hc => by rw [List.eq_of_mem_replicate hc]; rfl
    simp [space, hstart]
  obtain ⟨c, w, rfl⟩ := List.exists_cons_of_ne_nil hw
  refine ⟨p.indent.buffer.push (c :: w), by rw [Buffer.text_push, hindented, List.append_assoc], ?_⟩
  rw [buffer_placeWord hspace (spaceUnwanted_indented (hlayout ▸ hline) c), hlayout]

theorem Shows.placeFirst (hcs : SpaceSeparated rules cs) (h : p.Shows [] []) (hw : Inked cs w) :
    (p.placeWord rules spaceBefore w).Shows [w] [] := by
  have htext : p.buffer.text = [] := h
  obtain ⟨b, hb, hplace⟩ := buffer_placeFirst rules spaceBefore htext hw.1
  have hpushed : b.text = [] ++ lineOf p.layout.indentation [w] := by simp [hb]
  have hcurrent := (Buffer.currentLine_eq hpushed (.inl rfl)
    (newline_notMem_lineOf fun v hv => List.mem_singleton.1 hv ▸ hw)).1
  rw [Shows, (writes_placeWord (R := RangeRule.within) p spaceBefore _).layout, hplace,
    foldLine_word hcs hw hcurrent, hpushed]
  simp [wrap, linesOf, pack]

/-- A word behind a space goes on the last line or on the next. -/
theorem Shows.placeNext {gap : Text} (hcs : SpaceSeparated rules cs) (h : p.Shows ws gap)
    (hne : ws ≠ []) (hws : ∀ w ∈ ws, Inked cs w) (hw : Inked cs w)
    (hgap : gap = [] ∧ spaceBefore = true ∨ gap = [' ']) :
    (p.placeWord rules spaceBefore w).Shows (ws ++ [w]) [] := by
  obtain ⟨ls, l, hlines, hl, hinked, hkept, hplace, htext, hline⟩ :=
    h.lastLine hne hws (hgap.imp And.left id)
  obtain ⟨d, hd, -⟩ := last_lineOf p.layout.indentation hl hinked
  have hindent : p.indent = p := indent_of_currentLine_ne (by rw [hline]; intro hnil; simp_all)
  obtain ⟨q, hq, hqlayout, hqtext⟩ : ∃ q,
      (if spaceBefore then p.indent.space else p.indent) = q ∧ q.layout = p.layout ∧
        q.buffer.text =
          above p.layout.indentation ls ++ (lineOf p.layout.indentation l ++ [' ']) := by
    rcases hgap with ⟨rfl, rfl⟩ | rfl
    · rw [List.append_nil] at htext hline
      refine ⟨_, rfl, ?_⟩
      rw [if_pos rfl, hindent, space_eq hcs hl hinked htext hline]
      exact ⟨rfl, by simp [onBuffer, htext]⟩
    · have hspace : p.space = p := space_eq_self (by rw [htext, ← List.append_assoc]; simp)
      exact ⟨p, by rw [hindent, hspace, ite_self], rfl, htext⟩
  have hnew : '\n' ∉ lineOf p.layout.indentation l ++ [' '] := by
    simp [newline_notMem_lineOf hinked]
  have hqline := (Buffer.currentLine_eq hqtext (above_eq ..) hnew).1
  obtain ⟨c, w, rfl⟩ := List.exists_cons_of_ne_nil hw.1
  have hpushed : (q.buffer.push (c :: w)).text =
      above p.layout.indentation ls ++ lineOf p.layout.indentation (l ++ [c :: w]) := by
    rw [Buffer.text_push, hqtext, lineOf_concat hl]
    simp
  rw [Shows, (writes_placeWord (R := RangeRule.within) p spaceBefore _).layout,
    buffer_placeWord hq (spaceUnwanted_space hcs hl hinked (hqlayout ▸ hqline)
      (hw.2 c List.mem_cons_self).1), hqlayout,
    foldLine_lastWord hcs hl hinked hkept hw hpushed (above_eq ..), hpushed, wrap, hplace,
    join_place, List.append_nil]

theorem buffer_placeGlued {c : Char} {v : Text} (hl : l ≠ []) (hinked : ∀ w ∈ l, Inked cs w)
    (hline : p.buffer.currentLine = lineOf p.layout.indentation l) :
    (p.placeWord rules false (c :: v)).buffer =
      foldLine rules p.layout.indentation p.layout.width (p.buffer.push (c :: v)) := by
  obtain ⟨d, hd, -, hblank⟩ := last_lineOf p.layout.indentation hl hinked
  have hindent : p.indent = p := indent_of_currentLine_ne (by rw [hline]; intro hnil; simp_all)
  exact buffer_placeWord hindent
    (spaceUnwanted_of_last (hline ▸ hd) (shown_of_not_blank hblank).1)

/-- A piece of a word prolongs the last word, which stays where it is or moves to the next line. -/
theorem Shows.placeGlued (hcs : SpaceSeparated rules cs) (h : p.Shows (ws ++ [u]) [])
    (hws : ∀ w ∈ ws, Inked cs w) (hu : Inked cs u) (hv : Inked cs v) :
    (p.placeWord rules false v).Shows (ws ++ [u ++ v]) [] := by
  have huv := hu.append hv
  have hone {w : Text} (hw : Inked cs w) : ∀ v ∈ [w], Inked cs v := fun v hv =>
    List.mem_singleton.1 hv ▸ hw
  -- a line of the last word alone is never folded
  have halone {t : Text} (htext : p.buffer.text = t ++ lineOf p.layout.indentation [u])
      (ht : t = [] ∨ t.getLast? = some '\n') : (p.placeWord rules false v).buffer.text =
        t ++ lineOf p.layout.indentation [u ++ v] := by
    have hline := (Buffer.currentLine_eq htext ht (newline_notMem_lineOf (hone hu))).1
    obtain ⟨c, v, rfl⟩ := List.exists_cons_of_ne_nil hv.1
    have hpushed : (p.buffer.push (c :: v)).text =
        t ++ lineOf p.layout.indentation [u ++ c :: v] := by
      rw [Buffer.text_push, htext, lineOf_singleton, lineOf_singleton]
      simp
    rw [buffer_placeGlued (List.cons_ne_nil u []) (hone hu) hline, foldLine_word hcs huv
      (Buffer.currentLine_eq hpushed ht (newline_notMem_lineOf (hone huv))).1, hpushed]
  rw [Shows, List.append_nil] at h ⊢
  rw [(writes_placeWord (R := RangeRule.within) p false v).layout]
  by_cases hne : ws = []
  · subst hne
    rw [List.nil_append, wrap_singleton] at h ⊢
    exact halone (t := []) h (.inl rfl)
  · obtain ⟨ls, l, -, hl, hkept, hmem, hplace⟩ := linesOf_concat
      p.layout.indentation p.layout.width hne
    have hinked : ∀ w ∈ l, Inked cs w := fun w hw => hws w (hmem w hw)
    have hinked' {w : Text} (hw : Inked cs w) : ∀ v ∈ l ++ [w], Inked cs v := fun v hv =>
      (List.mem_append.1 hv).elim (hinked v) (hone hw v)
    rw [wrap, hplace, join_place] at h ⊢
    by_cases hfit : (lineOf p.layout.indentation (l ++ [u])).width ≤ p.layout.width
    · rw [if_pos hfit] at h
      have hline := (Buffer.currentLine_eq h (above_eq ..) (newline_notMem_lineOf (hinked' hu))).1
      obtain ⟨c, v, rfl⟩ := List.exists_cons_of_ne_nil hv.1
      have hpushed : (p.buffer.push (c :: v)).text = above p.layout.indentation ls ++
          lineOf p.layout.indentation (l ++ [u ++ c :: v]) := by
        rw [Buffer.text_push, h, lineOf_concat_append, List.append_assoc]
      rw [buffer_placeGlued (by simp) (hinked' hu) hline,
        foldLine_lastWord hcs hl hinked hkept huv hpushed (above_eq ..), hpushed]
    · have hwider : ¬ (lineOf p.layout.indentation (l ++ [u ++ v])).width ≤ p.layout.width :=
        fun h => hfit ((width_le_width_append hcs (hinked' hu) (hinked' huv)).trans h)
      rw [if_neg hfit] at h
      rw [if_neg hwider, List.append_cons, halone (by rw [h, List.append_cons]) (.inr (by simp))]

def endsBlank (t : Text) : Bool := (t.getLast?.map isBlank).getD false

def startsBlank (t : Text) : Bool := (t.head?.map isBlank).getD false

/-- What stands behind the words of a text that was inserted: a space for its blanks. -/
def gapAfter (s : Text) : Text := if s.words ≠ [] ∧ endsBlank s = true then [' '] else []

variable {s : Text} {gap : Text}

theorem endsBlank_append (s : Text) (hne : t ≠ []) : endsBlank (s ++ t) = endsBlank t := by
  rw [endsBlank, List.getLast?_append_of_ne_nil s hne]
  rfl

theorem startsBlank_append (hne : s ≠ []) (t : Text) : startsBlank (s ++ t) = startsBlank s := by
  rw [startsBlank, List.head?_append_of_ne_nil s hne]
  rfl

theorem gapAfter_cases (s : Text) : gapAfter s = [] ∨ gapAfter s = [' '] := by
  unfold gapAfter
  split
  · exact .inr rfl
  · exact .inl rfl

theorem Shows.place (hcs : SpaceSeparated rules cs) (h : p.Shows ws gap)
    (hws : ∀ v ∈ ws ++ [w], Inked cs v)
    (hgap : gap = [] ∧ (ws = [] ∨ spaceBefore = true) ∨ gap = [' '] ∧ ws ≠ []) :
    (p.placeWord rules spaceBefore w).Shows (ws ++ [w]) [] := by
  have hw := hws w (by simp)
  by_cases hne : ws = []
  · obtain ⟨rfl, -⟩ := hgap.resolve_right fun h => h.2 hne
    subst hne
    exact h.placeFirst hcs hw
  · exact h.placeNext hcs hne (fun v hv => hws v (List.mem_append_left _ hv)) hw
      (hgap.imp (fun h => ⟨h.1, h.2.resolve_left hne⟩) And.left)

theorem Shows.placeWords (hcs : SpaceSeparated rules cs) {vs : List Text} (h : p.Shows ws [])
    (hws : ∀ w ∈ ws ++ vs, Inked cs w) : (p.placeWords rules true vs).Shows (ws ++ vs) [] := by
  induction vs generalizing p ws with
  | nil => rwa [List.append_nil]
  | cons v vs ih =>
    rw [List.append_cons] at hws ⊢
    have hv : (p.placeWord rules true v).Shows (ws ++ [v]) [] :=
      h.place hcs (fun w hw => hws w (List.mem_append_left _ hw)) (.inl ⟨rfl, .inr rfl⟩)
    exact ih hv hws

theorem Shows.space (hcs : SpaceSeparated rules cs) (h : p.Shows ws gap)
    (hws : ∀ w ∈ ws, Inked cs w) (hgap : gap = [] ∨ gap = [' '] ∧ ws ≠ []) :
    p.space.Shows ws (if ws = [] then [] else [' ']) := by
  by_cases hne : ws = []
  · obtain rfl : gap = [] := hgap.resolve_right fun h => h.2 hne
    subst hne
    have hstart : p.buffer.atLineStart = true := by
      have htext : p.buffer.text = [] := h
      rw [Buffer.atLineStart, Buffer.currentLine, htext]
      rfl
    simpa [Page.space, hstart] using h
  · rw [if_neg hne]
    obtain ⟨ls, l, -, hl, hinked, -, -, htext, hline⟩ :=
      h.lastLine hne hws (hgap.imp_right And.left)
    rcases hgap with rfl | ⟨rfl, -⟩
    · rw [List.append_nil] at htext hline
      rw [space_eq hcs hl hinked htext hline]
      rw [Shows, List.append_nil] at h
      rw [Shows, layout_onBuffer, ← h]
      rfl
    · rwa [space_eq_self (by rw [htext, ← List.append_assoc]; simp)]

theorem words_eq_nil_iff {t : Text} : t.words = [] ↔ t.blank = true := by
  have hvisible : t.words = [] ↔ visible t = [] := by
    rw [← flatten_words]
    constructor
    · intro h
      rw [h]
      rfl
    · intro h
      by_contra hne
      obtain ⟨w, ws, hw⟩ := List.exists_cons_of_ne_nil hne
      rw [hw, List.flatten_cons] at h
      exact ne_nil_of_mem_words (hw ▸ List.mem_cons_self) (List.append_eq_nil_iff.1 h).1
  rw [hvisible, visible_eq_nil_iff, blank, List.all_eq_true]

theorem words_append_of_blank (h : t.words = []) : (s ++ t).words = s.words := by
  have hblank := List.all_eq_true.1 (words_eq_nil_iff.1 h)
  rw [words_append (.inr fun c hc => hblank c (List.mem_of_head? hc)), h, List.append_nil]

/-- What is behind the words sets off those of a text after a blank. -/
theorem gapAfter_spec (hblank : (∀ c, s.getLast? = some c → isBlank c = true) ∨
    ∀ d, t.head? = some d → isBlank d = true) (ht : t ≠ []) :
    gapAfter s = [] ∧ (s.words = [] ∨ startsBlank t = true) ∨
      gapAfter s = [' '] ∧ s.words ≠ [] := by
  by_cases hne : s.words = []
  · exact .inl ⟨by simp [gapAfter, hne], .inl hne⟩
  · by_cases hend : endsBlank s = true
    · exact .inr ⟨by simp [gapAfter, hne, hend], hne⟩
    · refine .inl ⟨by simp [gapAfter, hend], .inr ?_⟩
      have hs : s ≠ [] := by rintro rfl; exact hne rfl
      obtain ⟨s, c, rfl⟩ := (List.eq_nil_or_concat' s).resolve_left hs
      obtain ⟨d, t, rfl⟩ := List.exists_cons_of_ne_nil ht
      rcases hblank with h | h
      · exact absurd (by simp [endsBlank, h c]) hend
      · have hd := h d rfl
        simp [startsBlank, hd]

theorem Shows.placeText (hcs : SpaceSeparated rules cs) (h : p.Shows s.words (gapAfter s))
    (hs : ∀ c ∈ s ++ t, c ∈ cs) :
    (p.placeWords rules (startsBlank t) t.words).Shows (s ++ t).words
      (if t.words = [] then gapAfter s else []) := by
  have hinked : ∀ w ∈ (s ++ t).words, Inked cs w := fun w hw => inked_of_mem_words hs hw
  cases hwords : t.words with
  | nil =>
    rw [words_append_of_blank hwords, if_pos rfl]
    exact h
  | cons v vs =>
    rw [if_neg (List.cons_ne_nil v vs)]
    change ((p.placeWord rules (startsBlank t) v).placeWords rules true vs).Shows _ _
    -- without a blank where the texts meet, the words that meet are one
    by_cases hglued : Glued s t
    · obtain ⟨c, d, hc, hcblank, hd, hdblank⟩ := hglued
      obtain ⟨ws, u, v', vs', hsw, htw, hst⟩ := words_append_of_glued hc hcblank hd hdblank
      obtain ⟨rfl, rfl⟩ := List.cons.inj (hwords.symm.trans htw)
      have hgap : gapAfter s = [] := by simp [gapAfter, endsBlank, hc, hcblank]
      have hsb : startsBlank t = false := by simp [startsBlank, hd, hdblank]
      have hws : ∀ w ∈ ws ++ [u], Inked cs w := fun w hw =>
        inked_of_mem_words (fun c hc => hs c (List.mem_append_left _ hc)) (hsw ▸ hw)
      have hv : Inked cs v :=
        inked_of_mem_words (fun c hc => hs c (List.mem_append_right _ hc))
          (hwords ▸ List.mem_cons_self)
      rw [hgap, hsw] at h
      rw [hst, List.append_cons] at hinked ⊢
      rw [hsb]
      exact (h.placeGlued hcs (fun w hw => hws w (List.mem_append_left _ hw))
        (hws u (by simp)) hv).placeWords hcs hinked
    · have hblank := blank_of_not_glued hglued
      have ht : t ≠ [] := by rintro rfl; cases hwords
      rw [words_append hblank, hwords, List.append_cons] at hinked ⊢
      exact (h.place hcs (fun w hw => hinked w (List.mem_append_left _ hw))
        (gapAfter_spec hblank ht)).placeWords hcs hinked

theorem Shows.insertWrapped (hcs : SpaceSeparated rules cs) (h : p.Shows s.words (gapAfter s))
    (hs : ∀ c ∈ s ++ t, c ∈ cs) (hne : t ≠ []) :
    (p.insertWrapped rules t).Shows (s ++ t).words (gapAfter (s ++ t)) := by
  have hinked : ∀ w ∈ (s ++ t).words, Inked cs w := fun w hw => inked_of_mem_words hs hw
  have hplaced := h.placeText hcs hs
  have hends := endsBlank_append s hne
  change (if endsBlank t then ((p.placeWords rules (startsBlank t) t.words)).space
    else p.placeWords rules (startsBlank t) t.words).Shows _ _
  cases hend : endsBlank t with
  | true =>
    have hgap : (if t.words = [] then gapAfter s else []) = [] ∨
        (if t.words = [] then gapAfter s else []) = [' '] ∧ (s ++ t).words ≠ [] := by
      by_cases ht : t.words = []
      · rw [if_pos ht, words_append_of_blank ht, gapAfter]
        split
        · rename_i hgap; exact .inr ⟨rfl, hgap.1⟩
        · exact .inl rfl
      · exact .inl (if_neg ht)
    have := hplaced.space hcs hinked hgap
    rw [gapAfter, hends, hend]
    simpa using this
  | false =>
    have ht : t.words ≠ [] := by
      intro ht
      obtain ⟨t, c, rfl⟩ := (List.eq_nil_or_concat' t).resolve_left hne
      have := List.all_eq_true.1 (words_eq_nil_iff.1 ht) c (by simp)
      simp [endsBlank, this] at hend
    rw [if_neg ht] at hplaced
    have hgap : gapAfter (s ++ t) = [] := by simp [gapAfter, hends, hend]
    rw [hgap]
    exact hplaced

/-- In wrap mode, where a line begins or text was written last, nothing is done but wrapping. -/
theorem insert_of_wrap (rules : Rules) (hfold : p.layout.fold = .wrap)
    (hkind : p.buffer.text = [] ∨ p.layout.kind = .text) (t : Text) :
    p.insert rules t = if t.blank then p.insertWrapped rules t
      else (p.insertWrapped rules t).onLayout ({ · with kind := .text }) := by
  have hfresh : (p.layout.kind = .image && !t.blank && !p.buffer.atLineStart) = false := by
    rcases hkind with htext | hkind
    · simp [Buffer.atLineStart, Buffer.currentLine, htext, lastRow]
    · simp [hkind]
  by_cases ht : t = []
  · subst ht
    rfl
  · simp only [Page.insert, List.isEmpty_iff, ht, if_false, hfresh, hfold, Bool.false_eq_true]

/-- The page after the text `s` was inserted in wrap mode. -/
structure Flows (l : Layout) (s : Text) (p : Page) : Prop where
  shows : p.Shows s.words (gapAfter s)
  layout : p.layout = { l with kind := p.layout.kind }
  kind : s.words = [] ∨ p.layout.kind = .text

theorem Flows.insert {l : Layout} (hl : l.fold = .wrap) (hcs : SpaceSeparated rules cs)
    (h : Flows l s p) (hs : ∀ c ∈ s ++ t, c ∈ cs) : Flows l (s ++ t) (p.insert rules t) := by
  by_cases hne : t = []
  · subst hne
    rw [List.append_nil]
    exact h
  have hfold : p.layout.fold = .wrap := by rw [h.layout]; exact hl
  have hkind : p.buffer.text = [] ∨ p.layout.kind = .text := by
    refine h.kind.imp_left fun hwords => ?_
    have := h.shows
    rwa [gapAfter, hwords] at this
  have hinsert := insert_of_wrap rules hfold hkind t
  have hshows := h.shows.insertWrapped hcs hs hne
  have hlayout := layout_insert rules p t
  refine ⟨?_, ?_, ?_⟩
  · rw [hinsert]
    split
    · exact hshows
    · exact hshows
  · rw [hlayout, h.layout]
    split <;> rfl
  · rw [hlayout]
    split
    · rename_i hblank
      rw [words_append_of_blank (words_eq_nil_iff.2 hblank)]
      exact h.kind
    · exact .inr rfl

theorem Flows.insertAll {l : Layout} (hl : l.fold = .wrap) (hcs : SpaceSeparated rules cs)
    (leaves : List Text) (h : Flows l s p) (hs : ∀ c ∈ s ++ leaves.flatten, c ∈ cs) :
    Flows l (s ++ leaves.flatten) (leaves.foldl (·.insert rules) p) := by
  induction leaves generalizing s p with
  | nil => rwa [List.flatten_nil, List.append_nil]
  | cons t leaves ih =>
    rw [List.flatten_cons, ← List.append_assoc] at hs ⊢
    exact ih (h.insert hl hcs fun c hc => hs c (List.mem_append_left _ hc)) hs

theorem Flows.finish {l : Layout} (h : Flows l s p) :
    p.buffer.finish.1 = wrap l.indentation l.width s.words := by
  have hshows := h.shows
  rw [Shows, h.layout] at hshows
  by_cases hne : s.words = []
  · change dropEndWhile isBlank p.buffer.text = _
    rw [hshows]
    simp [gapAfter, hne, wrap, linesOf, dropEndWhile]
  · obtain ⟨ls, ws, hlines, hws, -, hmem, -⟩ := linesOf_concat l.indentation
      l.width hne
    obtain ⟨d, hd, -, hblank⟩ := last_lineOf l.indentation hws
      fun w hw => inked_of_mem_words (fun _ hc => hc) (hmem w hw)
    have hlast : (wrap l.indentation l.width s.words).getLast? = some d := by
      rw [wrap, hlines, join_lines, List.getLast?_append, hd]
      rfl
    exact Buffer.finish_eq hshows hlast hblank (gapAfter_cases s)

theorem finish_insertAll (leaves : List Text) {l : Layout} (hl : l.fold = .wrap)
    (h : SpaceSeparated rules leaves.flatten) :
    (leaves.foldl (·.insert rules) { layout := l : Page }).buffer.finish.1 =
      wrap l.indentation l.width (words leaves.flatten) := by
  have hstart : Flows l [] { layout := l } := ⟨rfl, rfl, .inl rfl⟩
  exact (hstart.insertAll hl h leaves fun c hc => hc).finish

/-- The inline flow is greedy word wrap, however the text is cut into leaves. -/
theorem insert_eq_wrap (rules : Rules) (leaves : List Text) (l : Layout) (hl : l.fold = .wrap)
    (h : SpaceSeparated rules leaves.flatten) :
    (leaves.foldl (·.insert rules) { layout := l : Page }).buffer.finish.1 =
        wrap l.indentation l.width (words leaves.flatten) ∧
      ∀ leaves' : List Text, leaves'.flatten = leaves.flatten →
        (leaves'.foldl (·.insert rules) { layout := l : Page }).buffer.finish.1 =
          (leaves.foldl (·.insert rules) { layout := l : Page }).buffer.finish.1 :=
  ⟨finish_insertAll leaves hl h, fun leaves' heq => by
    rw [finish_insertAll leaves hl h, finish_insertAll leaves' hl (heq ▸ h), heq]⟩

theorem insert_eq_wrap_quick :
    ([" quick ".toList, "bro".toList, "wn\nfox".toList].foldl (·.insert .kinsoku)
        { layout := { width := 7, indentation := 1 } : Page }).buffer.finish.1 =
      " quick\n brown\n fox".toList :=
  (insert_eq_wrap .kinsoku [" quick ".toList, "bro".toList, "wn\nfox".toList]
    { width := 7, indentation := 1 } rfl
    (spaceSeparated_kinsoku (List.all_iff_forall_prop.1 rfl))).1.trans (by decide)

end Page
end MarkupText
