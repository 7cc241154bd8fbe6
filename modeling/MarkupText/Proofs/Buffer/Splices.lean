import MarkupText.Proofs.Buffer.Moves
import MarkupText.Proofs.Text.Bytes
import Mathlib.Data.List.Forall2

/-!
# Spans and regions under a splice

What replacing the bytes `[p, q)` does to what was recorded (`Buffer.spliced_splice`). A span goes
on covering the bytes that it covered, and takes in what is inserted only if it reaches past both
ends (`Buffer.Follows`). A span with nothing left is empty or inverted, and stays so wherever
operations move it (`Buffer.moved`), as ends are never moved behind starts. An open region starts
where the first byte went that survives behind its start.
-/

namespace MarkupText

open Text

/-- Whether byte `n` is in the range. -/
def Span.Covers (a : Span) (n : Nat) : Prop := a.start ≤ n ∧ n < a.stop

namespace Buffer
variable {b c d : Buffer} {a a' : Span} {l m r insert : Text} {p q pos removed i n : Nat}

/-! ### Operations -/

/-- An operation on a buffer. -/
inductive Op where
  | push (t : Text)
  | pushLabel (t : Text)
  | annotate (start stop : Nat) (mark : Mark)
  | add (a : Span)
  | openRegion
  | closeRegion
  | splice (pos removed : Nat) (insert : Text)
  | trimSpaces
  | newline
  | ensureNewline
  | ensureParagraph

/-- The buffer after an operation. -/
def Op.run (b : Buffer) : Op → Buffer
  | push t => b.push t
  | pushLabel t => b.pushLabel t
  | annotate start stop mark => b.annotate start stop mark
  | add a => b.add a
  | openRegion => b.openRegion
  | closeRegion => b.closeRegion.2
  | splice pos removed insert => b.splice pos removed insert
  | trimSpaces => b.trimSpaces
  | newline => b.newline
  | ensureNewline => b.ensureNewline
  | ensureParagraph => b.ensureParagraph

/-- The buffer after operations in turn. -/
def after (b : Buffer) (ops : List Op) : Buffer := ops.foldl Op.run b

/-! ### What a splice does -/

/-- Where byte `n` goes that survives when `[p, q)` becomes `inserted` bytes. -/
def survivorAt (p q inserted n : Nat) : Nat := if n < p then n else n - (q - p) + inserted

/-- The first byte from `n` on that survives when `[p, q)` is replaced. -/
def survivorFrom (p q n : Nat) : Nat := if n < p then n else max n q

/-- The bytes under a span. -/
def covered (b : Buffer) (a : Span) : List UInt8 := b.text.bytesIn a.start a.stop

/-- What becomes of the span `a` as `a'` when `insert` replaces the bytes `[p, q)`. -/
structure Follows (b c : Buffer) (p q : Nat) (insert : Text) (a a' : Span) : Prop where
  mark : a'.mark = a.mark
  survivors : ∀ n, n < p ∨ q ≤ n → (a'.Covers (survivorAt p q insert.size n) ↔ a.Covers n)
  inserted : ∀ k < insert.size, (a'.Covers (p + k) ↔ a.start < p ∧ q < a.stop)
  /-- A span that does not meet the range covers the same text. -/
  apart : a.meets p q = false → c.covered a' = b.covered a
  /-- One that reaches past both ends covers its head, the inserted text and its tail. -/
  around : a.start < p → q < a.stop →
    c.covered a' = b.covered { a with stop := p } ++ insert.bytes ++ b.covered { a with start := q }
  /-- One that overlaps an edge covers what is left of it. -/
  before : a.start < p → p < a.stop → a.stop ≤ q → c.covered a' = b.covered { a with stop := p }
  behind : p ≤ a.start → a.start < q → q < a.stop → c.covered a' = b.covered { a with start := q }

/-- The buffer without one of its spans. -/
def dropSpan (b : Buffer) (i : Nat) : Buffer := { b with spans := b.spans.eraseIdx i }

/-- The span at index `i` is empty or inverted and stays so whatever is done, and finishing drops
it. -/
def Buried (b : Buffer) (i : Nat) : Prop :=
  ∀ ops : List Op, ∃ a, (b.after ops).spans[i]? = some a ∧ a.stop ≤ a.start ∧
    (b.after ops).finish.2 = ((b.after ops).dropSpan i).finish.2

/-- What a buffer records when `insert` replaces the bytes `[p, q)`. -/
structure Spliced (b c : Buffer) (p q : Nat) (insert : Text) : Prop where
  survivors : ∀ n x, n < p ∨ q ≤ n → At b.text n x → At c.text (survivorAt p q insert.size n) x
  inserted : ∀ k x, At insert k x → At c.text (p + k) x
  /-- Every span follows its characters. -/
  spans : ∀ (i : Nat) a, b.spans[i]? = some a → a.start < a.stop →
    ∃ a', c.spans[i]? = some a' ∧ Follows b c p q insert a a'
  /-- A span inside the range is lost for good. -/
  buried : ∀ (i : Nat) a, b.spans[i]? = some a → p ≤ a.start → a.start < a.stop → a.stop ≤ q →
    c.Buried i
  /-- Spans that have no byte in common do not get one. -/
  disjoint : ∀ (i j : Nat) a₁ a₂ a₁' a₂', b.spans[i]? = some a₁ → b.spans[j]? = some a₂ →
    c.spans[i]? = some a₁' → c.spans[j]? = some a₂' → (∀ n, ¬ (a₁.Covers n ∧ a₂.Covers n)) →
      ∀ n, ¬ (a₁'.Covers n ∧ a₂'.Covers n)
  /-- An open region starts in front of the first character that survives behind its start, and
  behind the inserted text if it started at or inside the edit. -/
  regions : List.Forall₂ (fun m m' => m' = survivorAt p q insert.size (survivorFrom p q m) ∧
    (p ≤ m → p + insert.size ≤ m')) b.regions c.regions

/-! ### Where operations move spans -/

/-- Bytes that are replaced. -/
structure Edit where
  pos : Nat
  removed : Nat
  inserted : Nat

/-- The spaces at the end of the text are dropped. -/
def trimming (b : Buffer) : Edit :=
  let kept := (dropEndWhile (· == ' ') b.text).size
  ⟨kept, b.size - kept, 0⟩

namespace Op

/-- What an operation replaces. -/
def edit (b : Buffer) : Op → Edit
  | splice pos removed insert => ⟨pos, min (pos + removed) b.size - pos, insert.size⟩
  | trimSpaces | newline => b.trimming
  | ensureNewline | ensureParagraph => if b.atLabelEnd then ⟨b.size, 0, 0⟩ else b.trimming
  | _ => ⟨b.size, 0, 0⟩

/-- Where an operation moves a span. -/
def move (b : Buffer) (op : Op) (a : Span) : Span :=
  a.edit (op.edit b).pos (op.edit b).removed (op.edit b).inserted

end Op

/-- Where operations in turn move a span. -/
def moved (b : Buffer) : List Op → Span → Span
  | [], a => a
  | op :: ops, a => moved (op.run b) ops (op.move b a)

/-- The buffer `c` comes from `b` by an edit, and further spans may be on record. -/
structure Shifts (e : Edit) (b c : Buffer) : Prop where
  spans : ∃ new, c.spans = b.spans.map (·.edit e.pos e.removed e.inserted) ++ new
  labelEnd : c.labelEnd = b.labelEnd.map (movedStop e.pos e.removed e.inserted)

namespace Shifts
variable {e : Edit}

theorem nothing (new : List Span) (hspans : c.spans = b.spans ++ new)
    (hlabel : c.labelEnd = b.labelEnd) : Shifts ⟨n, 0, 0⟩ b c where
  spans := ⟨new, by rw [hspans, edit_nothing, List.map_id]⟩
  labelEnd := by
    rw [hlabel, show movedStop n 0 0 = id from funext (movedStop_nothing n), Option.map_id_fun]
    rfl

theorem push (h : Shifts e b c) (t : Text) : Shifts e b (c.push t) := ⟨h.spans, h.labelEnd⟩

theorem trimSpaces (b : Buffer) : Shifts b.trimming b b.trimSpaces := by
  obtain ⟨k, htext, htrim⟩ := b.trimSpaces_eq
  have hk : b.size - (dropEndWhile (· == ' ') b.text).size = k := by
    rw [Buffer.size, congrArg Text.size htext]
    simp
  have hsplice := splice_eq (r := []) (htext.trans (List.append_nil _).symm) []
  rw [size_spaces] at hsplice
  rw [htrim, hsplice, trimming, hk]
  exact ⟨⟨[], (List.append_nil _).symm⟩, rfl⟩

end Shifts

/-- Unless a label was just written, newlines take the place of spaces at the end. -/
theorem ensureNewline_eq_push (h : b.atLabelEnd = false) :
    ∃ m, m ≤ 1 ∧ b.ensureNewline = b.trimSpaces.push (List.replicate m '\n') := by
  unfold ensureNewline
  rw [h]
  cases b.atLineStart with
  | true => exact ⟨0, Nat.zero_le 1, by simp [push]⟩
  | false => exact ⟨1, Nat.le_refl 1, by simp [newline]⟩

theorem ensureParagraph_eq_push (h : b.atLabelEnd = false) :
    ∃ m, m ≤ 2 ∧ b.ensureParagraph = b.trimSpaces.push (List.replicate m '\n') := by
  obtain ⟨m, hm, hline⟩ := ensureNewline_eq_push h
  rcases b.ensureParagraph_spec with ⟨heq, -⟩ | ⟨heq, -⟩
  · exact ⟨m, Nat.le_succ_of_le hm, heq.trans hline⟩
  · refine ⟨m + 1, Nat.succ_le_succ hm, heq.trans ?_⟩
    rw [hline]
    simp [push, List.replicate_succ']

/-- All but writing a label moves the end of the last label along like that of a span. -/
theorem Op.shifts (op : Op) (h : ∀ t, op ≠ .pushLabel t) (b : Buffer) :
    Shifts (op.edit b) b (op.run b) := by
  cases op with
  | push t => exact .nothing [] (List.append_nil _).symm rfl
  | pushLabel t => exact absurd rfl (h t)
  | annotate | add =>
    simp only [run, Buffer.add, Buffer.annotate]
    split
    · exact .nothing [_] rfl rfl
    · exact .nothing [] (List.append_nil _).symm rfl
  | openRegion => exact .nothing [] (List.append_nil _).symm rfl
  | closeRegion =>
    exact .nothing [] ((spans_closeRegion b).trans (List.append_nil _).symm) (labelEnd_closeRegion b)
  | splice pos removed insert => exact ⟨⟨[], (List.append_nil _).symm⟩, rfl⟩
  | trimSpaces => exact .trimSpaces b
  | newline => exact (Shifts.trimSpaces b).push _
  | ensureNewline =>
    cases hlabel : b.atLabelEnd with
    | true =>
      simp only [run, edit, Buffer.ensureNewline, hlabel, if_true]
      exact .nothing [] (List.append_nil _).symm rfl
    | false =>
      obtain ⟨m, -, heq⟩ := ensureNewline_eq_push hlabel
      simp only [run, edit, heq, hlabel, Bool.false_eq_true, if_false]
      exact (Shifts.trimSpaces b).push _
  | ensureParagraph =>
    cases hlabel : b.atLabelEnd with
    | true =>
      simp only [run, edit, Buffer.ensureParagraph, hlabel, if_true]
      exact .nothing [] (List.append_nil _).symm rfl
    | false =>
      obtain ⟨m, -, heq⟩ := ensureParagraph_eq_push hlabel
      simp only [run, edit, heq, hlabel, Bool.false_eq_true, if_false]
      exact (Shifts.trimSpaces b).push _

theorem Op.spans_run (op : Op) (b : Buffer) :
    ∃ new, (op.run b).spans = b.spans.map (op.move b) ++ new := by
  by_cases h : ∃ t, op = .pushLabel t
  · obtain ⟨t, rfl⟩ := h
    exact (Shifts.nothing (c := b.push t) [] (List.append_nil _).symm rfl).spans
  · exact (op.shifts (fun t ht => h ⟨t, ht⟩) b).spans

theorem getElem?_after (ops : List Op) (ha : b.spans[i]? = some a) :
    (b.after ops).spans[i]? = some (b.moved ops a) := by
  induction ops generalizing b a with
  | nil => exact ha
  | cons op ops ih =>
    obtain ⟨new, hnew⟩ := op.spans_run b
    refine ih (b := op.run b) ?_
    have hi : i < (b.spans.map (op.move b)).length := by
      rw [List.length_map]
      exact (List.getElem?_eq_some_iff.1 ha).1
    rw [hnew, List.getElem?_append_left hi, List.getElem?_map, ha, Option.map_some]

/-- Ends in front of starts stay there. -/
theorem stop_edit_le_start_edit (h : a.stop ≤ a'.start) (pos removed inserted : Nat) :
    (a.edit pos removed inserted).stop ≤ (a'.edit pos removed inserted).start :=
  Nat.le_trans (movedStop_mono h) (movedStop_le_movedStart ..)

/-- A span with nothing under it gets nothing. -/
theorem stop_moved_le_start_moved (ops : List Op) (h : a.stop ≤ a.start) :
    (b.moved ops a).stop ≤ (b.moved ops a).start := by
  induction ops generalizing b a with
  | nil => exact h
  | cons op ops ih => exact ih (stop_edit_le_start_edit h ..)

/-- A span with nothing under it is not finished. -/
theorem finish_dropSpan (ha : b.spans[i]? = some a) (hdead : a.stop ≤ a.start) :
    b.finish.2 = (b.dropSpan i).finish.2 := by
  obtain ⟨hi, hget⟩ := List.getElem?_eq_some_iff.1 ha
  have hspans : b.spans = b.spans.take i ++ a :: b.spans.drop (i + 1) := by
    rw [← hget, List.getElem_cons_drop, List.take_append_drop]
  have hout : ¬ a.start < min a.stop (b.text.dropEndWhile isBlank).size := by omega
  simp only [Buffer.finish, dropSpan, List.eraseIdx_eq_take_drop_succ]
  conv_lhs => rw [hspans]
  simp [hout]

theorem buried_of_dead (ha : b.spans[i]? = some a) (hdead : a.stop ≤ a.start) : b.Buried i := by
  intro ops
  have ha' := getElem?_after ops ha
  have hdead' := stop_moved_le_start_moved (b := b) ops hdead
  exact ⟨_, ha', hdead', finish_dropSpan ha' hdead'⟩

/-! ### One splice -/

theorem splice_eq_of_range (h : b.text = l ++ m ++ r)
    (hend : min (l.size + removed) b.size = l.size + m.size) (insert : Text) :
    b.splice l.size removed insert = b.splice l.size m.size insert := by
  have hm : min (l.size + m.size) b.size = l.size + m.size := by
    rw [Buffer.size, h]
    simp only [size_append]
    omega
  rw [Buffer.splice, Buffer.splice, hend, hm]

section Range
variable (htext : b.text = l ++ m ++ r) (hc : c.text = l ++ insert ++ r) {start stop : Nat}
include htext hc

theorem bytesIn_front (h : stop ≤ l.size) :
    c.text.bytesIn start stop = b.text.bytesIn start stop := by
  rw [hc, htext, List.append_assoc, List.append_assoc, bytesIn_append_right h,
    bytesIn_append_right h]

theorem bytesIn_back (h : l.size + m.size ≤ start) (hle : start ≤ stop) :
    c.text.bytesIn (start - m.size + insert.size) (stop - m.size + insert.size) =
      b.text.bytesIn start stop := by
  obtain ⟨j, rfl⟩ := Nat.exists_eq_add_of_le h
  obtain ⟨k, rfl⟩ := Nat.exists_eq_add_of_le (Nat.le_trans h hle)
  have hback := bytesIn_append_left (l ++ m) r j k
  have hback' := bytesIn_append_left (l ++ insert) r j k
  rw [size_append] at hback hback'
  rw [hc, htext, hback, ← hback']
  congr 1 <;> omega

omit htext in
theorem bytesIn_inserted : c.text.bytesIn l.size (l.size + insert.size) = insert.bytes := by
  rw [hc]
  exact bytesIn_of_slice? (slice?_append_size ..)

theorem follows_edit (ha : a.start < a.stop) :
    Follows b c l.size (l.size + m.size) insert a (a.edit l.size m.size insert.size) where
  mark := rfl
  survivors n hn := by
    simp only [Span.Covers, survivorAt, Span.edit, movedStart, movedStop]
    grind
  inserted k hk := by
    simp only [Span.Covers, Span.edit, movedStart, movedStop]
    grind
  apart h := by
    have hout : l.size + m.size ≤ a.start ∨ a.stop ≤ l.size := by
      simpa [Span.meets, Nat.not_lt, imp_iff_not_or] using h
    simp only [covered, Span.edit]
    rcases hout with h | h
    · rw [movedStart_of_le h, movedStop_of_lt (by omega)]
      exact bytesIn_back htext hc h (Nat.le_of_lt ha)
    · rw [movedStart_of_lt (by omega), movedStop_of_le h]
      exact bytesIn_front htext hc h
  around h h' := by
    have htail := bytesIn_back htext hc (Nat.le_refl _) (Nat.le_of_lt h')
    rw [show l.size + m.size - m.size + insert.size = l.size + insert.size by omega] at htail
    have hhead : a.start ≤ l.size := Nat.le_of_lt h
    have hinsert : l.size ≤ l.size + insert.size := Nat.le_add_right ..
    have hstop : l.size + insert.size ≤ a.stop - m.size + insert.size := by omega
    simp only [covered, Span.edit]
    rw [movedStart_of_lt h, movedStop_of_lt h', bytesIn_append _ (hhead.trans hinsert) hstop,
      bytesIn_append _ hhead hinsert, bytesIn_front htext hc (Nat.le_refl _),
      bytesIn_inserted hc, htail]
  before h h' h'' := by
    simp only [covered, Span.edit]
    rw [movedStart_of_lt h, movedStop_of_inside h' h'']
    exact bytesIn_front htext hc (Nat.le_refl _)
  behind h h' h'' := by
    have htail := bytesIn_back htext hc (Nat.le_refl _) (Nat.le_of_lt h'')
    rw [show l.size + m.size - m.size + insert.size = l.size + insert.size by omega] at htail
    simp only [covered, Span.edit]
    rw [movedStart_of_inside h h', movedStop_of_lt h'']
    exact htail

theorem at_survivorAt {x : Char} (h : At b.text n x) (hn : n < l.size ∨ l.size + m.size ≤ n) :
    At c.text (survivorAt l.size (l.size + m.size) insert.size n) x := by
  rw [htext] at h
  rw [hc]
  unfold survivorAt
  split
  · rename_i hlt
    rw [List.append_assoc] at h ⊢
    exact (h.of_append hlt).append_right _
  · rename_i hle
    rcases h.append_cases with h | ⟨k, rfl, hr⟩
    · have := h.lt_size
      rw [size_append] at this
      omega
    · have hback := hr.append_left (l ++ insert)
      rw [size_append] at hback ⊢
      rwa [show l.size + m.size + k - (l.size + m.size - l.size) + insert.size =
        l.size + insert.size + k by omega]

end Range

theorem movedStart_eq_survivorAt (p k inserted n : Nat) :
    movedStart p k inserted n = survivorAt p (p + k) inserted (survivorFrom p (p + k) n) ∧
      (p ≤ n → p + inserted ≤ movedStart p k inserted n) := by
  unfold movedStart survivorAt survivorFrom
  grind

/-- Spans without a common byte stay so: one of them is dead or ends in front of the other. -/
theorem disjoint_edit {a₁ a₂ : Span} (h : ∀ n, ¬ (a₁.Covers n ∧ a₂.Covers n))
    (pos removed inserted : Nat) :
    ¬ ((a₁.edit pos removed inserted).Covers n ∧ (a₂.edit pos removed inserted).Covers n) := by
  have hends : a₁.stop ≤ a₁.start ∨ a₂.stop ≤ a₂.start ∨ a₁.stop ≤ a₂.start ∨
      a₂.stop ≤ a₁.start := by
    by_contra hno
    exact h (max a₁.start a₂.start) ⟨⟨by omega, by omega⟩, by omega, by omega⟩
  rintro ⟨⟨hstart₁, hstop₁⟩, hstart₂, hstop₂⟩
  rcases hends with hle | hle | hle | hle <;>
    · have := stop_edit_le_start_edit hle pos removed inserted
      omega

theorem spliced_of_text (htext : b.text = l ++ m ++ r) (hc : c.text = l ++ insert ++ r)
    (hspans : c.spans = b.spans.map (·.edit l.size m.size insert.size))
    (hregions : c.regions = b.regions.map (movedStart l.size m.size insert.size)) :
    Spliced b c l.size (l.size + m.size) insert := by
  have hget {i : Nat} {a : Span} (ha : b.spans[i]? = some a) :
      c.spans[i]? = some (a.edit l.size m.size insert.size) := by
    rw [hspans, List.getElem?_map, ha, Option.map_some]
  exact
    { survivors := fun n x hn hat => at_survivorAt htext hc hat hn
      inserted := fun k x hat => by
        rw [hc]
        exact (hat.append_left l).append_right r
      spans := fun i a ha hlt => ⟨_, hget ha, follows_edit htext hc hlt⟩
      buried := fun i a ha hstart hlt hstop => buried_of_dead (hget ha) <| by
        simp only [Span.edit]
        rw [movedStart_of_inside hstart (by omega), movedStop_of_inside (by omega) hstop]
        exact Nat.le_add_right ..
      disjoint := fun i j a₁ a₂ a₁' a₂' h₁ h₂ h₁' h₂' hno n => by
        obtain rfl := Option.some.inj ((hget h₁).symm.trans h₁')
        obtain rfl := Option.some.inj ((hget h₂).symm.trans h₂')
        exact disjoint_edit hno l.size m.size insert.size
      regions := by
        rw [hregions, List.forall₂_map_right_iff]
        exact List.forall₂_same.2 fun n _ => movedStart_eq_survivorAt .. }

/-- Replacing a range of characters keeps every span and every open region on its characters. -/
theorem spliced_splice (hpos : b.text.isBoundary pos = true)
    (hend : b.text.isBoundary (min (pos + removed) b.size) = true) (insert : Text) :
    Spliced b (b.splice pos removed insert) pos (min (pos + removed) b.size) insert := by
  obtain ⟨l, x, hx, rfl⟩ := isBoundary_iff.1 hpos
  have hq := isBoundary_iff.1 hend
  have hle : l.size ≤ min (l.size + removed) b.size := by
    rw [Buffer.size, hx, size_append]
    omega
  rw [hx] at hq
  obtain ⟨m, r, rfl, hm⟩ := hq.of_append_left hle
  have hrange : min (l.size + removed) b.size = l.size + m.size := by omega
  have htext : b.text = l ++ m ++ r := hx.trans (List.append_assoc l m r).symm
  rw [splice_eq_of_range htext hrange, hrange, splice_eq htext]
  exact spliced_of_text htext rfl rfl rfl

/-- Six spans over two letters, a wide character and two letters, and regions in front of, inside
and behind the wide character. -/
def spanned : Buffer where
  text := ['a', 'b', '日', 'c', 'd']
  spans := [⟨0, 2, .ruler⟩, ⟨1, 6, .face .bold⟩, ⟨1, 5, .link []⟩, ⟨2, 6, .face .italic⟩,
    ⟨2, 5, .face .underline⟩, ⟨5, 7, .ruler⟩]
  regions := [5, 2, 0]

theorem spliced_splice_spanned :
    spanned.text.isBoundary 2 = true ∧
    spanned.text.isBoundary (min (2 + 3) spanned.size) = true ∧
    (spanned.splice 2 3 ['é']).spans.map (fun a => (a.start, a.stop)) =
      [(0, 2), (1, 5), (1, 2), (4, 5), (4, 2), (4, 6)] ∧
    (spanned.splice 2 3 ['é']).regions = [4, 4, 0] ∧
    Spliced spanned (spanned.splice 2 3 ['é']) 2 5 ['é'] ∧
    (spanned.splice 2 3 ['é']).Buried 4 := by
  have hpos : spanned.text.isBoundary 2 = true := by decide
  have hend : spanned.text.isBoundary (min (2 + 3) spanned.size) = true := by decide
  have h := spliced_splice hpos hend ['é']
  rw [show min (2 + 3) spanned.size = 5 by decide] at h
  exact ⟨hpos, hend, by decide, by decide, h,
    h.buried 4 _ rfl (by decide) (by decide) (by decide)⟩

end Buffer
end MarkupText
