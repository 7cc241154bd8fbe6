import MarkupText.Proofs.Flow.Folds

/-!
# Verbatim text

`Text.indentRows` puts spaces in front of every row of a text that is not empty and changes nothing
else; `Text.outdentRows` takes them away again. Texts inserted in verbatim mode leave their
concatenation so indented (`Page.insertAll_verbatim`): rows are indented one by one, from whether
the line being written is empty, and an indented row is empty just where the row is.
-/

namespace MarkupText

open Text

namespace Text
variable {t row : Text} {rs : List Text} {n : Nat}

/-- A row behind `n` spaces, unless it is empty. -/
def indentRow (n : Nat) (row : Text) : Text := if row = [] then [] else spaces n ++ row

/-- The text with all its rows indented that are not empty. -/
def indentRows (n : Nat) (t : Text) : Text := ['\n'].intercalate (t.rows.map (indentRow n))

/-- The text without the first `n` characters of its rows. -/
def outdentRows (n : Nat) (t : Text) : Text := ['\n'].intercalate (t.rows.map (·.drop n))

/-- The rows in front of the last, which is being written. -/
theorem exists_rows_concat (t : Text) : ∃ ls l, rows t = ls ++ [l] ∧ t = ended ls ++ l ∧
    ∀ row ∈ ls ++ [l], '\n' ∉ row := by
  obtain h | ⟨ls, l, h⟩ := List.eq_nil_or_concat' (rows t)
  · exact absurd h (List.splitOn_ne_nil '\n' t)
  · refine ⟨ls, l, h, ?_, fun row hrow => newline_notMem_of_mem_rows (h ▸ hrow)⟩
    have hjoin : ['\n'].intercalate (rows t) = t := List.intercalate_splitOn '\n'
    rw [h, Greedy.join_concat] at hjoin
    exact hjoin.symm

/-- The first row, and the others each behind a newline. -/
theorem join_newline (row : Text) (rs : List Text) :
    ['\n'].intercalate (row :: rs) = row ++ (rs.map ('\n' :: ·)).flatten := by
  induction rs generalizing row with
  | nil => exact List.intercalate_singleton.trans (List.append_nil row).symm
  | cons r rs ih =>
    rw [List.intercalate_cons_of_ne_nil (List.cons_ne_nil r rs), ih]
    simp

/-! ### Indented rows -/

theorem indentRow_of_ne_nil (h : row ≠ []) : indentRow n row = spaces n ++ row := if_neg h

theorem indentRow_eq_nil_iff : indentRow n row = [] ↔ row = [] := by
  unfold indentRow
  split <;> simp_all

theorem drop_indentRow (n : Nat) (row : Text) : (indentRow n row).drop n = row := by
  unfold indentRow
  split
  · rename_i h
    rw [h, List.drop_nil]
  · exact List.drop_left' (List.length_replicate ..)

theorem newline_notMem_indentRow (h : '\n' ∉ row) : '\n' ∉ indentRow n row := by
  unfold indentRow
  split
  · exact List.not_mem_nil
  · intro hc
    rcases List.mem_append.1 hc with hc | hc
    · cases List.eq_of_mem_replicate hc
    · exact h hc

theorem outdentRows_indentRows (n : Nat) (t : Text) : outdentRows n (indentRows n t) = t := by
  have hrows : rows (indentRows n t) = t.rows.map (indentRow n) := by
    have hne : t.rows ≠ [] := List.splitOn_ne_nil '\n' t
    refine List.splitOn_intercalate '\n' (fun row hrow => ?_) (by simpa using hne)
    obtain ⟨row, hmem, rfl⟩ := List.mem_map.1 hrow
    exact newline_notMem_indentRow (newline_notMem_of_mem_rows hmem)
  have hmap : (t.rows.map (indentRow n)).map (·.drop n) = t.rows := by
    rw [List.map_map]
    exact (List.map_congr_left fun row _ => drop_indentRow n row).trans (List.map_id _)
  rw [outdentRows, hrows, hmap, rows, List.intercalate_splitOn]

/-- The rows in front of the last stay as they are. -/
theorem indentRows_eq {ls : List Text} {l : Text} (h : rows t = ls ++ [l]) :
    indentRows n t = ended (ls.map (indentRow n)) ++ indentRow n l := by
  rw [indentRows, h, List.map_append, List.map_singleton, Greedy.join_concat]
  rfl

theorem indentRows_append_newline (n : Nat) (t : Text) :
    indentRows n (t ++ ['\n']) = indentRows n t ++ ['\n'] := by
  obtain ⟨ls, l, hrows, ht, hls⟩ := exists_rows_concat t
  have hended : rows (t ++ ['\n']) = (ls ++ [l]) ++ [[]] := by
    rw [ht, ← ended_concat, ← List.append_nil (ended _)]
    exact rows_ended_append hls []
  rw [indentRows_eq hended, indentRows_eq hrows, List.map_append, List.map_singleton, ended_concat]
  exact List.append_nil _

/-- What is appended to the last row stands behind its indentation. -/
theorem indentRows_append_row (hne : row ≠ []) (hrow : '\n' ∉ row) (n : Nat) (t : Text) :
    ∃ upper line, indentRows n t = upper ++ line ∧ (upper = [] ∨ upper.getLast? = some '\n') ∧
      '\n' ∉ line ∧
      indentRows n (t ++ row) = indentRows n t ++ (if line = [] then spaces n else []) ++ row := by
  obtain ⟨ls, l, hrows, ht, hls⟩ := exists_rows_concat t
  have hl : '\n' ∉ l := hls l (by simp)
  have happend : rows (t ++ row) = ls ++ [l ++ row] := by
    rw [ht, List.append_assoc]
    refine rows_ended fun r hr => ?_
    rcases List.mem_append.1 hr with hr | hr
    · exact hls r (List.mem_append_left _ hr)
    · rw [List.mem_singleton.1 hr, List.mem_append, not_or]
      exact ⟨hl, hrow⟩
  refine ⟨_, _, indentRows_eq hrows, ended_eq _, newline_notMem_indentRow hl, ?_⟩
  rw [indentRows_eq happend, indentRows_eq hrows, indentRow_of_ne_nil (by simp [hne])]
  simp only [indentRow_eq_nil_iff]
  split
  · rename_i h
    simp [h, indentRow]
  · rename_i h
    simp [indentRow_of_ne_nil h]

end Text

namespace Page
variable {rules : LineBreak.Rules} {p : Page} {s t row : Text}

/-- The page with text written behind its own, every row indented. -/
def pushRows (p : Page) (t : Text) : Page :=
  p.onBuffer (·.push (indentRows p.layout.indentation t))

theorem pushRows_nil (p : Page) : p.pushRows [] = p := by
  change { p with buffer := { p.buffer with text := p.buffer.text ++ [] } } = p
  rw [List.append_nil]

/-- Rows are indented where they begin. -/
theorem pushRow_pushRows (hp : p.buffer.text = []) (hrow : '\n' ∉ row) (s : Text) :
    (p.pushRows s).pushRow row = p.pushRows (s ++ row) := by
  by_cases hne : row = []
  · rw [hne, List.append_nil]
    rfl
  obtain ⟨upper, line, htext, hupper, hline, happend⟩ :=
    indentRows_append_row hne hrow p.layout.indentation s
  have hcurrent : (p.pushRows s).buffer.currentLine = line :=
    (Buffer.currentLine_eq (by rw [← htext]; simp [pushRows, onBuffer, hp]) hupper hline).1
  have hindent : (p.pushRows s).indent = p.onBuffer (·.push (indentRows p.layout.indentation s ++
      if line = [] then spaces p.layout.indentation else [])) := by
    rw [indent, hcurrent]
    by_cases hnil : line = []
    · rw [if_pos (List.isEmpty_iff.2 hnil), if_pos hnil]
      simp [pushRows, onBuffer, Buffer.push]
    · rw [if_neg (by simpa using hnil), if_neg hnil, List.append_nil]
      rfl
  rw [pushRow, if_neg (by simpa using hne), hindent, pushRows, happend]
  simp [onBuffer, Buffer.push]

theorem newline_pushRows (p : Page) (s : Text) :
    (p.pushRows s).onBuffer (·.push ['\n']) = p.pushRows (s ++ ['\n']) := by
  rw [pushRows, pushRows, indentRows_append_newline]
  simp [onBuffer, Buffer.push]

theorem foldl_pushRows (hp : p.buffer.text = []) {ls : List Text} (hls : ∀ row ∈ ls, '\n' ∉ row)
    (s : Text) :
    ls.foldl (fun p row => (p.onBuffer (·.push ['\n'])).pushRow row) (p.pushRows s) =
      p.pushRows (s ++ (ls.map ('\n' :: ·)).flatten) := by
  induction ls generalizing s with
  | nil => simp
  | cons row ls ih =>
    rw [List.foldl_cons, newline_pushRows, pushRow_pushRows hp (hls row List.mem_cons_self),
      ih fun r hr => hls r (List.mem_cons_of_mem row hr)]
    simp

theorem insertVerbatim_pushRows (hp : p.buffer.text = []) (s t : Text) :
    (p.pushRows s).insertVerbatim t = p.pushRows (s ++ t) := by
  obtain ⟨row, ls, hrows⟩ := List.exists_cons_of_ne_nil (List.splitOn_ne_nil '\n' t)
  have hmem : ∀ r ∈ row :: ls, '\n' ∉ r := fun r hr => newline_notMem_of_mem_rows (hrows ▸ hr)
  have hjoin : t = row ++ (ls.map ('\n' :: ·)).flatten := by
    rw [← join_newline row ls, ← hrows]
    exact (List.intercalate_splitOn '\n').symm
  rw [insertVerbatim, rows, hrows]
  dsimp only
  rw [pushRow_pushRows hp (hmem row List.mem_cons_self),
    foldl_pushRows hp fun r hr => hmem r (List.mem_cons_of_mem row hr), List.append_assoc, ← hjoin]

/-- In verbatim mode the text is written behind what is there, and nothing else changes. -/
theorem insert_pushRows (hp : p.buffer.text = []) (hfold : p.layout.fold = .verbatim)
    (hkind : p.layout.kind = .text) (s t : Text) :
    (p.pushRows s).insert rules t = p.pushRows (s ++ t) := by
  have hlayout (q : Page) (h : q.layout = p.layout) :
      q.onLayout ({ · with kind := .text }) = q := by
    have hkeep : { q.layout with kind := .text } = q.layout := by
      rw [h, ← hkind]
    exact congrArg (fun l => { q with layout := l }) hkeep
  by_cases ht : t = []
  · rw [ht, List.append_nil]
    rfl
  have himage : ((p.pushRows s).layout.kind = .image && !t.blank &&
      !(p.pushRows s).buffer.atLineStart) = false := by
    rw [show (p.pushRows s).layout = p.layout from rfl, hkind]
    rfl
  have hverbatim : (p.pushRows s).layout.fold = .verbatim := hfold
  rw [insert, if_neg (by simpa using ht), himage, if_neg Bool.false_ne_true]
  simp only [hverbatim, insertVerbatim_pushRows hp]
  split
  · rfl
  · exact hlayout _ rfl

/-- Texts inserted in verbatim mode are kept: of their concatenation every row that is not empty is
indented, and nothing else is done to it. -/
theorem insertAll_verbatim (rules : LineBreak.Rules) (leaves : List Text) (p : Page)
    (hp : p.buffer.text = []) (hfold : p.layout.fold = .verbatim)
    (hkind : p.layout.kind = .text) :
    let n := p.layout.indentation
    let out := leaves.foldl (·.insert rules) p
    out = { p with buffer.text := indentRows n leaves.flatten } ∧
      outdentRows n out.buffer.text = leaves.flatten ∧
      ∀ leaves' : List Text, leaves'.flatten = leaves.flatten →
        leaves'.foldl (·.insert rules) p = out := by
  intro n out
  have hall (leaves : List Text) (s : Text) :
      leaves.foldl (·.insert rules) (p.pushRows s) = p.pushRows (s ++ leaves.flatten) := by
    induction leaves generalizing s with
    | nil => rw [List.flatten_nil, List.append_nil]; rfl
    | cons t leaves ih =>
      rw [List.foldl_cons, insert_pushRows hp hfold hkind, ih, List.flatten_cons, List.append_assoc]
  have hout (leaves : List Text) : leaves.foldl (·.insert rules) p =
      { p with buffer.text := indentRows n leaves.flatten } := by
    have := hall leaves []
    rw [pushRows_nil] at this
    rw [this, pushRows, onBuffer, Buffer.push, hp]
    rfl
  refine ⟨hout leaves, ?_, fun leaves' heq => ?_⟩
  · rw [show out = _ from hout leaves]
    exact outdentRows_indentRows n _
  · rw [hout leaves', heq, ← hout leaves]

theorem insertAll_verbatim_cutLines :
    let p : Page := { layout := { width := 3, indentation := 2, fold := .verbatim } }
    let leaves : List Text := ["a  b".toList, "c\n".toList, "\n  ".toList, "d".toList]
    p.buffer.text = [] ∧ p.layout.fold = .verbatim ∧ p.layout.kind = .text ∧
      (leaves.foldl (·.insert .kinsoku) p).buffer.text = "  a  bc\n\n    d".toList := by
  intro p leaves
  refine ⟨rfl, rfl, rfl, ?_⟩
  rw [(insertAll_verbatim .kinsoku leaves p rfl rfl rfl).1]
  decide

end Page
end MarkupText
