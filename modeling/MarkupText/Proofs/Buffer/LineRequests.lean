import MarkupText.Proofs.Buffer.LineEnds
import MarkupText.Proofs.Buffer.Splices

/-!
# Requests for a line and for a paragraph

A buffer is `LineReady` or `ParagraphReady` when nothing has to be written before a line or a
paragraph starts. `ensureNewline` and `ensureParagraph` bring any buffer there and leave one that is
there as it is, so a second request does nothing (`ensure_stable`). What they do to get there is
`Reended`: spaces at the end of the text go and newlines take their place; everything recorded
follows by the splice.

The end of the last label counts as the start of a line. It is moved along by edits like the end of
a span (`labelEnd_after`), so what stands in front of it is what is left of the label
(`EndsInLabel`), and that may be nothing: the place of a deleted label still counts
(`ensure_deletedLabel`).
-/

namespace MarkupText.Buffer
open Text
variable {b c : Buffer} {ops : List Op} {n : Nat}

/-- A line starts at the end of the text. -/
def LineReady (b : Buffer) : Prop :=
  b.text = [] ∨ b.text.getLast? = some '\n' ∨ b.atLabelEnd = true

/-- A paragraph starts at the end of the text. -/
def ParagraphReady (b : Buffer) : Prop :=
  b.text = [] ∨ ['\n', '\n'] <:+ b.text ∨ b.atLabelEnd = true

theorem ParagraphReady.lineReady (h : b.ParagraphReady) : b.LineReady := by
  obtain h | ⟨t, h⟩ | h := h
  · exact .inl h
  · exact .inr (.inl (by rw [← h]; simp))
  · exact .inr (.inr h)

/-! ### Nothing to be done -/

theorem trimSpaces_eq_self (h : b.text = [] ∨ b.text.getLast? = some '\n') : b.trimSpaces = b := by
  have hnone : (b.text.reverse.takeWhile (· == ' ')).length = 0 := by
    rcases h with h | h
    · simp [h]
    · obtain ⟨t, ht⟩ := List.getLast?_eq_some_iff.1 h
      simp [ht]
  simp [trimSpaces, hnone]

theorem atLineStart_of_currentLine (h : b.currentLine = []) : b.atLineStart = true := by
  simp [atLineStart, h]

theorem LineReady.ensureNewline_eq (h : b.LineReady) : b.ensureNewline = b := by
  unfold ensureNewline
  split
  · rfl
  · rename_i hlabel
    have h := or_assoc.2 h |>.resolve_right hlabel
    rw [if_pos (atLineStart_of_currentLine (currentLine_eq_nil h)), trimSpaces_eq_self h]

theorem ParagraphReady.ensureParagraph_eq (h : b.ParagraphReady) : b.ensureParagraph = b := by
  have hline := h.lineReady.ensureNewline_eq
  rcases b.ensureParagraph_spec with ⟨heq, -⟩ | ⟨-, hlabel, hne, hblank⟩
  · exact heq.trans hline
  · rw [hline] at hne hblank
    rcases h with h | h | h
    · exact absurd h hne
    · exact absurd h hblank
    · exact absurd h (Bool.eq_false_iff.1 hlabel)

/-! ### What is done -/

/-- The buffer `c` is `b` with spaces dropped at the end and at most `n` newlines written there. -/
def Reended (n : Nat) (b c : Buffer) : Prop :=
  ∃ l k m, m ≤ n ∧ b.text = l ++ spaces k ∧ c.text = l ++ List.replicate m '\n' ∧
    c = (b.splice l.size k []).push (List.replicate m '\n')

namespace Reended

theorem refl (n : Nat) (b : Buffer) : Reended n b b :=
  ⟨b.text, 0, 0, Nat.zero_le n, by simp [spaces], by simp, by simp [splice_nothing, push]⟩

theorem trimmed {m : Nat} (hm : m ≤ n) (b : Buffer) :
    Reended n b (b.trimSpaces.push (List.replicate m '\n')) := by
  obtain ⟨k, hk, htrim⟩ := b.trimSpaces_eq
  exact ⟨_, k, m, hm, hk, by rw [text_push, text_trimSpaces], by rw [htrim]⟩

theorem ensureNewline (b : Buffer) : Reended 1 b b.ensureNewline := by
  cases h : b.atLabelEnd with
  | true =>
    rw [Buffer.ensureNewline, h]
    exact refl 1 b
  | false =>
    obtain ⟨m, hm, heq⟩ := ensureNewline_eq_push h
    exact heq ▸ trimmed hm b

theorem ensureParagraph (b : Buffer) : Reended 2 b b.ensureParagraph := by
  cases h : b.atLabelEnd with
  | true =>
    rw [Buffer.ensureParagraph, h]
    exact refl 2 b
  | false =>
    obtain ⟨m, hm, heq⟩ := ensureParagraph_eq_push h
    exact heq ▸ trimmed hm b

/-- Only spaces and newlines come and go. -/
theorem countP_eq (h : Reended n b c) {p : Char → Bool} (hp : ∀ x, p x = true → Shown x) :
    c.text.countP p = b.text.countP p := by
  obtain ⟨l, k, m, -, hb, hc, -⟩ := h
  have hspace : p ' ' = false := Bool.eq_false_iff.2 fun h => (hp _ h).1 rfl
  have hline : p '\n' = false := Bool.eq_false_iff.2 fun h => (hp _ h).2 rfl
  simp [hb, hc, spaces, List.countP_append, List.countP_replicate, hspace, hline]

end Reended

/-! ### What is reached -/

theorem lineReady_ensureNewline (b : Buffer) : b.ensureNewline.LineReady := by
  rcases b.ensureNewline_cases with ⟨h, heq⟩ | h
  · exact .inr (.inr (heq.symm ▸ h))
  · exact or_assoc.1 (.inl (text_of_currentLine h))

theorem paragraphReady_ensureParagraph (b : Buffer) : b.ensureParagraph.ParagraphReady := by
  rcases b.ensureParagraph_spec with ⟨heq, hlabel | hready⟩ | ⟨heq, hlabel, hne, -⟩
  · rw [heq, Buffer.ensureNewline, if_pos hlabel]
    exact .inr (.inr hlabel)
  · rw [heq]
    exact or_assoc.1 (.inl hready)
  · have hline := b.ensureNewline_cases.resolve_left fun h => Bool.eq_false_iff.1 hlabel h.1
    obtain ⟨t, ht⟩ := List.getLast?_eq_some_iff.1 ((text_of_currentLine hline).resolve_left hne)
    rw [heq]
    exact .inr (.inl ⟨t, by rw [text_push, ht]; simp⟩)

/-! ### Labels -/

theorem prefix_splice {t u : Text} {pos : Nat} (h : u <+: t) (hle : u.size ≤ pos) (removed : Nat)
    (insert : Text) : u <+: t.splice pos removed insert := by
  unfold Text.splice
  split
  · exact h
  · rename_i x r hx
    split
    · exact h
    · obtain ⟨rfl, rfl⟩ := eq_append_of_splitAt? hx
      have hux : u <+: x := by
        rcases List.prefix_or_prefix_of_prefix h (List.prefix_append x r) with hux | ⟨y, rfl⟩
        · exact hux
        · have hy : y = [] := by
            rw [size_append] at hle
            exact size_eq_zero_iff.1 (by omega)
          simp [hy]
      rw [List.append_assoc]
      exact hux.trans (List.prefix_append ..)

theorem movedStop_trimming (h : n ≤ b.size) :
    movedStop b.trimming.pos b.trimming.removed b.trimming.inserted n =
      min n (dropEndWhile (· == ' ') b.text).size := by
  unfold movedStop trimming
  dsimp only
  split_ifs <;> omega

/-- The operation is no splice that begins in front of the end of the last label. -/
def Op.SparesLabel (b : Buffer) : Op → Prop
  | splice pos _ _ => ∀ n ∈ b.labelEnd, n ≤ pos
  | _ => True

/-- Nor is any of the operations in turn. -/
def SparesLabel (b : Buffer) : List Op → Prop
  | [] => True
  | op :: ops => op.SparesLabel b ∧ SparesLabel (op.run b) ops

/-- The label `t` stands in the text, without some of the spaces at its end, and it is the one whose
end is on record. -/
def HasLabel (b : Buffer) (t : Text) : Prop :=
  ∃ l m r k, b.text = l ++ m ++ r ∧ t = m ++ spaces k ∧ b.labelEnd = some (l ++ m : Text).size

namespace HasLabel
variable {t : Text}

theorem pushLabel (b : Buffer) (t : Text) : (b.pushLabel t).HasLabel t :=
  ⟨b.text, t, [], 0, by simp [Buffer.pushLabel], by simp [spaces], rfl⟩

theorem push (h : b.HasLabel t) (u : Text) : (b.push u).HasLabel t := by
  obtain ⟨l, m, r, k, htext, ht, hend⟩ := h
  exact ⟨l, m, r ++ u, k, by rw [text_push, htext, List.append_assoc], ht, hend⟩

theorem of_eq (h : b.HasLabel t) (htext : c.text = b.text) (hend : c.labelEnd = b.labelEnd) :
    c.HasLabel t := by
  unfold HasLabel
  rwa [htext, hend]

theorem splice {pos : Nat} (h : b.HasLabel t) (hpos : ∀ n ∈ b.labelEnd, n ≤ pos) (removed : Nat)
    (insert : Text) : (b.splice pos removed insert).HasLabel t := by
  obtain ⟨l, m, r, k, htext, ht, hend⟩ := h
  have hle : (l ++ m : Text).size ≤ pos := hpos _ hend
  obtain ⟨r', hr'⟩ := prefix_splice (htext ▸ List.prefix_append (l ++ m) r) hle
    (min (pos + removed) b.size - pos) insert
  refine ⟨l, m, r', k, hr'.symm, ht, ?_⟩
  change b.labelEnd.map (movedStop pos _ _) = _
  rw [hend, Option.map_some, movedStop_of_le hle]

/-- Dropping spaces at the end may reach into the label, and in front of it. -/
theorem trimSpaces (h : b.HasLabel t) : b.trimSpaces.HasLabel t := by
  obtain ⟨l, m, r, k, htext, ht, hend⟩ := h
  obtain ⟨j, hj, -⟩ := b.trimSpaces_eq
  set kept := dropEndWhile (· == ' ') b.text
  have htrimmed : b.trimSpaces.text = kept := b.text_trimSpaces
  have hend' : b.trimSpaces.labelEnd = some (min (l ++ m : Text).size kept.size) := by
    rw [(Shifts.trimSpaces b).labelEnd, hend, Option.map_some, movedStop_trimming]
    rw [Buffer.size, htext]
    simp
  rcases List.append_eq_append_iff.1 (htext.symm.trans hj) with ⟨r', hr', -⟩ | ⟨x, hx, hspaces⟩
  · refine ⟨l, m, r', k, htrimmed.trans hr', ht, ?_⟩
    rw [hend', hr', size_append (l ++ m), Nat.min_eq_left (Nat.le_add_right ..)]
  · obtain ⟨-, hxspaces, -⟩ := List.append_eq_replicate_iff.1 hspaces.symm
    have hkept : min (l ++ m : Text).size kept.size = kept.size := by
      rw [hx, size_append]
      exact Nat.min_eq_right (Nat.le_add_right ..)
    rw [hkept] at hend'
    rcases List.append_eq_append_iff.1 hx with ⟨m', hm', rfl⟩ | ⟨y, hy, rfl⟩
    · refine ⟨l, m', [], x.length + k, by rw [htrimmed, hm', List.append_nil], ?_, hm' ▸ hend'⟩
      rw [ht, hxspaces]
      simp [spaces, List.append_assoc]
    · obtain ⟨-, -, hm⟩ := List.append_eq_replicate_iff.1 hxspaces
      refine ⟨kept, [], [], m.length + k, by simp [htrimmed], ?_, by simpa using hend'⟩
      rw [ht, hm]
      simp [spaces]

theorem run (h : b.HasLabel t) {op : Op} (hop : ∀ u, op ≠ .pushLabel u)
    (hspares : op.SparesLabel b) : (op.run b).HasLabel t := by
  cases op with
  | push u => exact h.push u
  | pushLabel u => exact absurd rfl (hop u)
  | annotate | add => exact h.of_eq (text_annotate ..) (labelEnd_annotate ..)
  | openRegion => exact h.of_eq rfl rfl
  | closeRegion => exact h.of_eq (text_closeRegion b) (labelEnd_closeRegion b)
  | splice pos removed insert => exact h.splice hspares removed insert
  | trimSpaces => exact h.trimSpaces
  | newline => exact h.trimSpaces.push _
  | ensureNewline =>
    cases hlabel : b.atLabelEnd with
    | true => simpa only [Op.run, Buffer.ensureNewline, hlabel, if_true] using h
    | false =>
      obtain ⟨m, -, heq⟩ := ensureNewline_eq_push hlabel
      exact (congrArg (HasLabel · t) heq).mpr (h.trimSpaces.push _)
  | ensureParagraph =>
    cases hlabel : b.atLabelEnd with
    | true => simpa only [Op.run, Buffer.ensureParagraph, hlabel, if_true] using h
    | false =>
      obtain ⟨m, -, heq⟩ := ensureParagraph_eq_push hlabel
      exact (congrArg (HasLabel · t) heq).mpr (h.trimSpaces.push _)

theorem after (h : b.HasLabel t) (hops : ∀ u, .pushLabel u ∉ ops) (hspares : b.SparesLabel ops) :
    (b.after ops).HasLabel t := by
  induction ops generalizing b with
  | nil => exact h
  | cons op ops ih =>
    obtain ⟨hop, hrest⟩ := hspares
    refine ih (h.run (fun u hu => hops u (hu ▸ List.mem_cons_self)) hop)
      (fun u hu => hops u (List.mem_cons_of_mem _ hu)) hrest

theorem suffix (h : b.HasLabel t) (hend : b.atLabelEnd = true) :
    ∃ m k, t = m ++ spaces k ∧ m <:+ b.text := by
  obtain ⟨l, m, r, k, htext, ht, hlabel⟩ := h
  have hsize : b.labelEnd = some b.size := eq_of_beq hend
  have hr : r = [] := by
    have := Option.some.inj (hlabel.symm.trans hsize)
    rw [Buffer.size, htext, size_append (l ++ m)] at this
    exact size_eq_zero_iff.1 (by omega)
  exact ⟨m, k, ht, l, by rw [htext, hr, List.append_nil]⟩

end HasLabel

theorem labelEnd_after {a : Span} (hops : ∀ u, .pushLabel u ∉ ops)
    (h : b.labelEnd = some a.stop) : (b.after ops).labelEnd = some (b.moved ops a).stop := by
  induction ops generalizing b a with
  | nil => exact h
  | cons op ops ih =>
    refine ih (fun u hu => hops u (List.mem_cons_of_mem _ hu)) ?_
    rw [(op.shifts (fun u hu => hops u (hu ▸ List.mem_cons_self)) b).labelEnd, h]
    rfl

/-- The end of a label is on record only if one was written; the last one counts. -/
theorem exists_last_label (h : (after {} ops).labelEnd.isSome) : ∃ before t rest,
    ops = before ++ .pushLabel t :: rest ∧ ∀ u, .pushLabel u ∉ rest := by
  induction ops using List.reverseRecOn with
  | nil => cases h
  | append_singleton ops op ih =>
    by_cases hop : ∃ t, op = .pushLabel t
    · obtain ⟨t, rfl⟩ := hop
      exact ⟨ops, t, [], rfl, fun _ => List.not_mem_nil⟩
    · have hop (u : Text) : op ≠ .pushLabel u := fun hu => hop ⟨u, hu⟩
      rw [after, List.foldl_concat, ← after, (op.shifts hop _).labelEnd, Option.isSome_map] at h
      obtain ⟨before, t, rest, rfl, hrest⟩ := ih h
      refine ⟨before, t, rest ++ [op], by simp, fun u hu => ?_⟩
      rcases List.mem_append.1 hu with hu | hu
      · exact hrest u hu
      · exact hop u (List.mem_singleton.1 hu).symm

/-- The text that the operations write ends where the label does that was written last: the range of
that label, moved along like any span, ends there. (It is empty or inverted if all of the label was
deleted.) Unless a splice began in front of the end of the label, the text ends in the label itself,
without some of the spaces at its end. -/
def EndsInLabel (ops : List Op) : Prop :=
  ∃ before t rest, ops = before ++ .pushLabel t :: rest ∧ (∀ u, .pushLabel u ∉ rest) ∧
    let b := after {} before
    (∀ mark, ((b.pushLabel t).moved rest ⟨b.size, b.size + t.size, mark⟩).stop =
      (after {} ops).size) ∧
    ((b.pushLabel t).SparesLabel rest → ∃ m k, t = m ++ spaces k ∧ m <:+ (after {} ops).text)

theorem endsInLabel_of_atLabelEnd (h : (after {} ops).atLabelEnd = true) : EndsInLabel ops := by
  have hend : (after {} ops).labelEnd = some (after {} ops).size := eq_of_beq h
  have hsome : (after {} ops).labelEnd.isSome := by
    rw [hend]
    rfl
  obtain ⟨before, t, rest, rfl, hrest⟩ := exists_last_label hsome
  have hafter : after {} (before ++ .pushLabel t :: rest) =
      ((after {} before).pushLabel t).after rest := List.foldl_append
  refine ⟨before, t, rest, rfl, hrest, fun mark => ?_, fun hspares => ?_⟩
  · have hlabel : ((after {} before).pushLabel t).labelEnd =
        some ((after {} before).size + t.size) := congrArg some (size_append ..)
    have := labelEnd_after (a := ⟨(after {} before).size, _, mark⟩) hrest hlabel
    rw [← hafter, hend] at this
    exact (Option.some.inj this).symm
  · rw [hafter] at h ⊢
    exact ((HasLabel.pushLabel ..).after hrest hspares).suffix h

/-! ### Both requests -/

/-- After any operations, a line or a paragraph is requested for good: asking again, or for a line
where a paragraph starts, changes nothing. Only spaces at the end of the text are dropped and
newlines written there. Then the text is empty, or ends in one newline or two, or ends where the
last label does. -/
theorem ensure_stable (ops : List Op) :
    let b := after {} ops
    b.ensureNewline.ensureNewline = b.ensureNewline ∧
    b.ensureParagraph.ensureParagraph = b.ensureParagraph ∧
    b.ensureParagraph.ensureNewline = b.ensureParagraph ∧
    Reended 1 b b.ensureNewline ∧ Reended 2 b b.ensureParagraph ∧
    (b.ensureNewline.text = [] ∨ b.ensureNewline.text.getLast? = some '\n' ∨
      EndsInLabel (ops ++ [.ensureNewline])) ∧
    (b.ensureParagraph.text = [] ∨ ['\n', '\n'] <:+ b.ensureParagraph.text ∨
      EndsInLabel (ops ++ [.ensureParagraph])) := by
  intro b
  have hlabel (op : Op) (h : (op.run b).atLabelEnd = true) : EndsInLabel (ops ++ [op]) :=
    endsInLabel_of_atLabelEnd (by rwa [after, List.foldl_concat])
  have hline := b.lineReady_ensureNewline
  have hparagraph := b.paragraphReady_ensureParagraph
  exact ⟨hline.ensureNewline_eq, hparagraph.ensureParagraph_eq, hparagraph.lineReady.ensureNewline_eq,
    .ensureNewline b, .ensureParagraph b, hline.imp_right (.imp_right (hlabel .ensureNewline)),
    hparagraph.imp_right (.imp_right (hlabel .ensureParagraph))⟩

/-- A splice that deletes a label leaves its end on record, so the line in front of it counts as
fresh: it is not ended, although neither a newline nor anything of a label stands at its end. -/
theorem ensure_deletedLabel :
    let ops : List Op := [.push "abc".toList, .pushLabel "* ".toList, .splice 3 2 []]
    let b := after {} ops
    b.text = "abc".toList ∧ b.ensureNewline = b ∧ b.ensureParagraph = b ∧
      ∀ t, .pushLabel t ∈ ops → ∀ c ∈ t, b.text.getLast? ≠ some c := by
  intro ops b
  have hb : b = { text := "abc".toList, labelEnd := some 3 } := rfl
  rw [hb]
  refine ⟨rfl, rfl, rfl, fun t ht c hc => ?_⟩
  obtain rfl : t = "* ".toList := by simpa [ops] using ht
  obtain rfl | rfl : c = '*' ∨ c = ' ' := by simpa using hc
  all_goals decide

end MarkupText.Buffer
