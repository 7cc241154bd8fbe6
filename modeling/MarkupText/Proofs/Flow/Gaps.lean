import MarkupText.Proofs.Buffer.LineEnds
import MarkupText.Proofs.Flow.GreedyFlow
import MarkupText.Proofs.Text.Columns

/-!
# Gaps between words

`Text.Parted t u` says that a space or a newline stands behind the visible characters `u` and in
front of the next one. No edit takes such a gap back (`Text.Tends`). Between words of ASCII a space is
left out only on a line that does not go beyond the indentation, so the words of an ASCII text stay
apart as soon as they do (`Page.parted_insert`). Whatever else is written on the line, it keeps the
columns that stay (`Text.Even`).
-/

namespace MarkupText

namespace Text
variable {t u v l r i : Text} {c d : Char} {m n k : Nat}

/-- A space or a newline stands behind the visible characters `u`, and something visible later. -/
def Parted (t u : Text) : Prop :=
  ∃ l c r, t = l ++ c :: r ∧ (c = ' ' ∨ c = '\n') ∧ visible l = u ∧ visible r ≠ []

theorem parted_iff : t.Parted u ↔ ∃ i < t.length, (t[i]? = some ' ' ∨ t[i]? = some '\n') ∧
    visible (t.take i) = u ∧ visible (t.drop (i + 1)) ≠ [] := by
  constructor
  · rintro ⟨l, c, r, rfl, hc, hl, hr⟩
    refine ⟨l.length, by simp, ?_, by simpa using hl, ?_⟩
    · rcases hc with rfl | rfl <;> simp
    · rwa [List.append_cons, List.drop_left' (by simp)]
  · rintro ⟨i, hi, hc, hl, hr⟩
    refine ⟨t.take i, t[i], t.drop (i + 1), ?_, ?_, hl, hr⟩
    · rw [List.getElem_cons_drop, List.take_append_drop]
    · simpa [List.getElem?_eq_getElem hi] using hc

instance (t u : Text) : Decidable (t.Parted u) := decidable_of_iff _ parted_iff.symm

theorem isBlank_gap (h : c = ' ' ∨ c = '\n') : isBlank c = true := by
  rcases h with rfl | rfl <;> decide

theorem Parted.append_right (h : t.Parted u) (v : Text) : Parted (t ++ v) u := by
  obtain ⟨l, c, r, rfl, hc, hl, hr⟩ := h
  exact ⟨l, c, r ++ v, by simp, hc, hl, by simp [hr]⟩

/-- A gap does not stand among the blanks at the end. -/
theorem Parted.of_append_blank (h : Parted (t ++ v) u) (hv : v.visible = []) : t.Parted u := by
  obtain ⟨l, c, r, heq, hc, hl, hr⟩ := h
  rcases List.append_eq_append_iff.1 heq with ⟨w, rfl, hw⟩ | ⟨w, rfl, hw⟩
  · rw [hw, visible_append, visible_cons_of_blank (isBlank_gap hc)] at hv
    exact absurd (List.append_eq_nil_iff.1 hv).2 hr
  · cases w with
    | nil =>
      rw [List.nil_append] at hw
      rw [← hw, visible_cons_of_blank (isBlank_gap hc)] at hv
      exact absurd hv hr
    | cons d w =>
      obtain ⟨rfl, rfl⟩ := List.cons.inj hw
      exact ⟨l, c, w, rfl, hc, hl, by simpa [hv] using hr⟩

/-- Where blanks take the place of spaces, the first of them keeps a gap among these open. -/
theorem Parted.replaceSpaces (h : Parted (l ++ spaces k ++ r) u) (hd : d = ' ' ∨ d = '\n')
    (hi : i.visible = []) : Parted (l ++ d :: i ++ r) u := by
  obtain ⟨x, c, y, heq, hc, rfl, hy⟩ := h
  have hdrop {e : Char} (he : e = ' ' ∨ e = '\n') (t : Text) : visible (e :: t) = visible t :=
    visible_cons_of_blank (isBlank_gap he) t
  have hall : visible l ++ visible r = visible x ++ visible y := by
    have := congrArg visible heq
    simpa [hdrop hc] using this
  rcases Nat.lt_or_ge x.length l.length with hlt | hge
  · obtain ⟨w, rfl⟩ := List.prefix_of_prefix_length_le ⟨c :: y, heq.symm⟩
      (⟨spaces k ++ r, by simp⟩ : l <+: l ++ spaces k ++ r) (Nat.le_of_lt hlt)
    obtain ⟨e, w, rfl⟩ := List.exists_cons_of_ne_nil (l := w) (by rintro rfl; simp at hlt)
    obtain rfl : e = c := by
      have : e :: w ++ spaces k ++ r = c :: y := by simpa using heq
      exact (List.cons.inj this).1
    rw [visible_append, hdrop hc, List.append_assoc] at hall
    refine ⟨x, e, w ++ d :: i ++ r, by simp, hc, rfl, fun hnil => hy ?_⟩
    rw [visible_append, visible_append, hdrop hd, hi, List.append_nil] at hnil
    rw [← List.append_cancel_left hall, hnil]
  · obtain ⟨z, rfl⟩ := List.prefix_of_prefix_length_le
      (⟨spaces k ++ r, by simp⟩ : l <+: l ++ spaces k ++ r) ⟨c :: y, heq.symm⟩ hge
    have hrest : spaces k ++ r = z ++ c :: y := by simpa using heq
    rcases List.append_eq_append_iff.1 hrest with ⟨w, rfl, hw⟩ | ⟨w, hw, -⟩
    · exact ⟨l ++ d :: i ++ w, c, y, by rw [hw]; simp, hc, by simp [hdrop hd, hi], hy⟩
    · -- the gap is one of the spaces
      have hz : visible z = [] := visible_eq_nil_iff.2 fun e he => by
        have hmem : e ∈ spaces k := hw ▸ List.mem_append_left _ he
        rw [List.eq_of_mem_replicate hmem]
        exact isBlank_space
      refine ⟨l, d, i ++ r, by simp, hd, by simp [hz], fun hnil => hy ?_⟩
      simp_all

/-! ### Last lines -/

theorem lastRow_append (h : '\n' ∉ u) : lastRow (t ++ u) = lastRow t ++ u := by
  have hrow : ∀ c ∈ u.reverse, (c != '\n') = true := fun c hc => by
    simpa using fun hc' : c = '\n' => h (hc' ▸ List.mem_reverse.1 hc)
  rw [lastRow, List.reverse_append, List.takeWhile_append_of_pos hrow, List.reverse_append,
    List.reverse_reverse]
  rfl

theorem lastRow_newline (t : Text) : lastRow (t ++ ['\n']) = [] := by
  rw [lastRow, List.reverse_concat]
  rfl

theorem lastRow_newline_append (t : Text) (h : '\n' ∉ u) : lastRow (t ++ '\n' :: u) = u := by
  rw [List.append_cons, lastRow_append h, lastRow_newline, List.nil_append]

theorem newline_notMem_lastRow (t : Text) : '\n' ∉ lastRow t := fun h => by
  have := List.mem_takeWhile_imp (List.mem_reverse.1 h)
  cases this

theorem mem_of_mem_lastRow (h : c ∈ lastRow t) : c ∈ t :=
  List.mem_reverse.1 ((List.takeWhile_prefix _).subset (List.mem_reverse.1 h))

theorem newline_notMem_spaces (n : Nat) : '\n' ∉ spaces n := fun h => by
  cases List.eq_of_mem_replicate h

/-- The last line is empty or has at least `n` columns, and `k` of them stay. -/
def Even (k n : Nat) (t : Text) : Prop := t.lastRow = [] ∨ t.lastRow.Reaches k n

theorem Even.mono {k' n' : Nat} (h : t.Even k n) (hk : k' ≤ k) (hn : n' ≤ n) : t.Even k' n' :=
  h.imp_right fun hline => hline.mono hk hn

/-- The columns that stay are taken. -/
theorem Even.stay (h : t.Even k n) : t.Even k k :=
  h.imp_right fun hline => { hline with le_width := hline.holds.le_width }

/-- Behind the indentation, which stands on the line if it was empty. -/
theorem Even.indented {indentation : Nat} (h : t.Even k n) (hk : k ≤ indentation)
    (hm : t.lastRow ≠ [] ∨ indentation ≤ m) :
    (t.lastRow ++ spaces m).Reaches k (min n indentation) := by
  by_cases hline : t.lastRow = []
  · have hm := hm.resolve_left (not_not_intro hline)
    rw [hline, List.nil_append]
    exact (reaches_spaces (hk.trans hm)).mono (Nat.le_refl k) ((Nat.min_le_right ..).trans hm)
  · have hreaches := h.resolve_left hline
    have hn := hreaches.le_width
    refine hreaches.append ?_
    rw [width_append_spaces]
    omega

/-- A text even to `m` columns becomes `u`, even to `n` columns, and the gaps in it stay open. -/
def Tends (k m n : Nat) (t u : Text) : Prop :=
  t.Even k m → u.Even k n ∧ ∀ v, t.Parted v → u.Parted v

namespace Tends

theorem refl (k n : Nat) (t : Text) : Tends k n n t t := fun h => ⟨h, fun _ hv => hv⟩

theorem trans {l : Nat} (h₁ : Tends k l m t u) (h₂ : Tends k m n u v) : Tends k l n t v := fun h =>
  ⟨(h₂ (h₁ h).1).1, fun w hw => (h₂ (h₁ h).1).2 w ((h₁ h).2 w hw)⟩

theorem mono {n' : Nat} (h : Tends k m n t u) (hn : n' ≤ n) : Tends k m n' t u := fun ht =>
  ⟨(h ht).1.mono (Nat.le_refl k) hn, (h ht).2⟩

theorem nothing (k limit n : Nat) (t : Text) : Tends k n (reached k limit n []) t t :=
  (refl k n t).mono (reached_nil_le k limit n)

theorem stay (h : Tends k m n t u) : Tends k m k t u := fun ht => ⟨(h ht).1.stay, (h ht).2⟩

/-- More of the line is written, behind the indentation. -/
theorem indented {indentation j : Nat} (hk : k ≤ indentation)
    (hj : t.lastRow ≠ [] ∨ indentation ≤ j) (hline : '\n' ∉ u)
    (hn : n ≤ k ∨ (∀ c ∈ u, Ascii c) ∧ n ≤ min m indentation + u.length) :
    Tends k m n t (t ++ spaces j ++ u) := by
  refine fun h => ⟨.inr ?_, fun v hv => (hv.append_right _).append_right u⟩
  have hreaches := h.indented hk hj
  rw [lastRow_append hline, lastRow_append (newline_notMem_spaces j)]
  refine hreaches.append ?_
  rcases hn with hn | ⟨hascii, hn⟩
  · exact hn.trans (hreaches.holds.append u).le_width
  · rw [width_append_ascii _ hascii hline]
    exact hn.trans (Nat.add_le_add_right hreaches.le_width _)

/-- The line is ended. -/
theorem newline (k m n : Nat) (t : Text) : Tends k m n t (t ++ ['\n']) := fun _ =>
  ⟨.inl (lastRow_newline t), fun _ hv => hv.append_right _⟩

/-- Blanks at the end are cut off, and with them what stood on the line. -/
theorem cut (hv : v.visible = []) (hline : t.lastRow = []) : Tends k m n (t ++ v) t := fun _ =>
  ⟨.inl hline, fun _ hu => hu.of_append_blank hv⟩

end Tends

theorem trailing_spaces (t : Text) :
    ∃ v, t = dropEndWhile (· == ' ') t ++ v ∧ v.visible = [] := by
  obtain ⟨v, ht, hv⟩ := dropEndWhile_append (· == ' ') t
  exact ⟨v, ht, visible_eq_nil_iff.2 fun c hc => by rw [eq_of_beq (hv c hc)]; exact isBlank_space⟩

end Text

namespace Buffer
open Text
variable {b : Buffer}

theorem tends_newline (k m n : Nat) (b : Buffer) : Tends k m n b.text b.newline.text := by
  obtain ⟨v, ht, hv⟩ := trailing_spaces b.text
  rw [newline, text_push, text_trimSpaces]
  refine fun _ => ⟨.inl (lastRow_newline _), fun u hu => ?_⟩
  rw [ht] at hu
  exact (hu.of_append_blank hv).append_right _

theorem tends_trimSpaces (k m n : Nat) (h : b.atLineStart = true) :
    Tends k m n b.text b.trimSpaces.text := by
  obtain ⟨v, ht, hv⟩ := trailing_spaces b.text
  have hline : b.trimSpaces.text.lastRow = [] := currentLine_trimSpaces h
  rw [text_trimSpaces] at hline ⊢
  conv => arg 4; rw [ht]
  exact .cut hv hline

theorem tends_ensureNewline (k n : Nat) (b : Buffer) :
    Tends k n n b.text b.ensureNewline.text := by
  unfold ensureNewline
  split
  · exact .refl k n _
  · split
    · rename_i h
      exact tends_trimSpaces k n n h
    · exact tends_newline k n n b

theorem tends_ensureParagraph (k n : Nat) (b : Buffer) :
    Tends k n n b.text b.ensureParagraph.text := by
  rcases b.ensureParagraph_spec with ⟨heq, -⟩ | ⟨heq, -⟩
  · rw [heq]
    exact tends_ensureNewline k n b
  · rw [heq]
    exact (tends_ensureNewline k n b).trans (.newline k n n _)

end Buffer

/-- ASCII characters are neither split at nor joined. -/
def LineBreak.Rules.SpareAscii (rules : LineBreak.Rules) : Prop :=
  ∀ c, Text.Ascii c → rules.breakable c = false ∧ rules.spaceless c = false

theorem LineBreak.spareAscii_kinsokuWith (extraNoStart extraNoEnd : Text) :
    (Rules.kinsokuWith extraNoStart extraNoEnd).SpareAscii := by
  intro c hc
  have hc : c.toNat < 0x80 := hc
  have hcjk : isCjk c = false := by
    simp only [isCjk, Bool.or_eq_false_iff, Bool.and_eq_false_iff, decide_eq_false_iff_not]
    omega
  exact ⟨hcjk, hcjk⟩

namespace Page
open Text
variable {rules : LineBreak.Rules} {k m n indentation width : Nat} {p : Page} {b : Buffer}
  {w t : Text} {c d : Char} {spaceBefore : Bool} {ws us vs : List Text}

/-! ### Folding -/

theorem text_cutLine (b : Buffer) (pos indentation : Nat) :
    ∃ upper k, b.text = upper ++ (splitLine b.currentLine pos).1 ++ spaces k ++
        (splitLine b.currentLine pos).2 ∧
      (b.splice (b.lineStart + (splitLine b.currentLine pos).1.size)
        (b.currentLine.size - (splitLine b.currentLine pos).1.size -
          (splitLine b.currentLine pos).2.size) ('\n' :: spaces indentation)).text =
        upper ++ (splitLine b.currentLine pos).1 ++ '\n' :: spaces indentation ++
          (splitLine b.currentLine pos).2 := by
  obtain ⟨l, hl, hstart⟩ := b.text_eq_currentLine
  obtain ⟨k, hk⟩ := splitLine_eq b.currentLine pos
  generalize splitLine b.currentLine pos = cut at hk ⊢
  have hremoved : b.currentLine.size - cut.1.size - cut.2.size = k := by
    rw [hk]; simp only [size_append, size_spaces]; omega
  have htext : b.text = l ++ cut.1 ++ spaces k ++ cut.2 := by
    rw [hl]
    conv_lhs => rw [hk]
    simp only [List.append_assoc]
  have hsplice := Buffer.splice_eq htext ('\n' :: spaces indentation)
  rw [size_spaces] at hsplice
  exact ⟨l, k, htext, by rw [hremoved, ← hstart, ← size_append, hsplice]⟩

/-- A step keeps the text even and its gaps open, and what is written last. -/
structure Keeps (k n : Nat) (d : Char) (b c : Buffer) : Prop where
  tends : Tends k n n b.text c.text
  last : c.text.getLast? = some d

theorem Keeps.trans {c e : Buffer} (h₁ : Keeps k n d b c) (h₂ : Keeps k n d c e) :
    Keeps k n d b e :=
  ⟨h₁.tends.trans h₂.tends, h₂.last⟩

/-- Behind a cut stands the indentation, with at least one more column behind it if ASCII does. -/
theorem keeps_cutLine (hk : k ≤ indentation)
    (hn : n ≤ indentation ∨ Ascii d ∧ d ≠ '\n' ∧ n ≤ indentation + 1)
    (hlast : b.text.getLast? = some d) (pos : Nat)
    (hright : (splitLine b.currentLine pos).2 ≠ []) :
    Keeps k n d b (b.splice (b.lineStart + (splitLine b.currentLine pos).1.size)
      (b.currentLine.size - (splitLine b.currentLine pos).1.size -
        (splitLine b.currentLine pos).2.size) ('\n' :: spaces indentation)) := by
  obtain ⟨upper, m, htext, hcut⟩ := text_cutLine b pos indentation
  have hline : '\n' ∉ (splitLine b.currentLine pos).2 := fun hmem =>
    newline_notMem_lastRow b.text (List.mem_of_mem_drop ((List.dropWhile_sublist _).subset hmem))
  generalize b.splice _ _ _ = c at hcut
  generalize splitLine b.currentLine pos = cut at hright htext hcut hline
  rw [htext, List.getLast?_append_of_ne_nil _ hright] at hlast
  have hrow : c.text.lastRow = spaces indentation ++ cut.2 := by
    rw [hcut, List.append_assoc, List.cons_append]
    refine lastRow_newline_append _ fun hmem => ?_
    exact (List.mem_append.1 hmem).elim (newline_notMem_spaces _) hline
  have hwidth : n ≤ (spaces indentation ++ cut.2).width := by
    have hspaces := holds_spaces indentation
    rcases hn with hn | ⟨hascii, hd, hn⟩
    · exact hn.trans (hspaces.append cut.2).le_width
    · obtain ⟨v, hv⟩ := List.getLast?_eq_some_iff.1 hlast
      have hcols := (hspaces.append v).le_width
      rw [hv, ← List.append_assoc, width_append_ascii _ (by simpa using hascii)
        (by simpa using hd.symm), List.length_singleton]
      omega
  refine ⟨fun _ => ⟨.inr ?_, fun u hu => ?_⟩, ?_⟩
  · rw [hrow]
    exact ((holds_spaces indentation).mono hk).reaches_append hright hwidth
  · rw [htext] at hu
    rw [hcut]
    exact hu.replaceSpaces (.inr rfl) (visible_spaces _)
  · rw [hcut, List.getLast?_append_of_ne_nil _ hright, hlast]

theorem keeps_foldLine (rules : LineBreak.Rules) (width : Nat) (hk : k ≤ indentation)
    (hn : n ≤ indentation ∨ Ascii d ∧ n ≤ indentation + 1)
    (hlast : b.text.getLast? = some d) (hd : d ≠ ' ' ∧ d ≠ '\n') :
    Keeps k n d b (foldLine rules indentation width b) := by
  have hn := hn.imp_right fun h => And.intro h.1 (And.intro hd.2 h.2)
  have hrefl {b : Buffer} (hlast : b.text.getLast? = some d) : Keeps k n d b b :=
    ⟨.refl k n _, hlast⟩
  fun_induction foldLine rules indentation width b with
  | case1 b h => exact hrefl hlast
  | case2 b line h hnone => exact hrefl hlast
  | case3 b line h pos hpos left right hsplit hempty =>
    -- what is written last is no space, so nothing is trimmed
    have htrim : b.trimSpaces.text = b.text := by
      obtain ⟨t, ht⟩ := List.getLast?_eq_some_iff.1 hlast
      rw [Buffer.text_trimSpaces, ht]
      exact List.rdropWhile_concat_neg _ _ _ (by simpa using hd.1)
    exact ⟨htrim.symm ▸ .refl k n _, htrim.symm ▸ hlast⟩
  | case4 b line h pos hpos left right hsplit hne b' hlt ih =>
    have hcut := keeps_cutLine hk hn hlast pos
      (by rw [show splitLine b.currentLine pos = (left, right) from hsplit]; simpa using hne)
    rw [show splitLine b.currentLine pos = (left, right) from hsplit] at hcut
    exact hcut.trans (ih hcut.last)
  | case5 b line h pos hpos left right hsplit hne b' hlt =>
    have hcut := keeps_cutLine hk hn hlast pos
      (by rw [show splitLine b.currentLine pos = (left, right) from hsplit]; simpa using hne)
    rwa [show splitLine b.currentLine pos = (left, right) from hsplit] at hcut

/-! ### Placing words -/

theorem layout_indent (p : Page) : p.indent.layout = p.layout := by
  unfold indent
  split <;> rfl

/-- The indentation is written on an empty line. -/
theorem text_indent (p : Page) : ∃ k, p.indent.buffer.text = p.buffer.text ++ spaces k ∧
    (p.buffer.currentLine ≠ [] ∨ p.layout.indentation ≤ k) := by
  unfold indent
  split
  · exact ⟨_, rfl, .inr (Nat.le_refl _)⟩
  · rename_i h
    exact ⟨0, (List.append_nil _).symm, .inl (by simpa using h)⟩

theorem space_cases (p : Page) :
    p.space = p ∨ p.buffer.currentLine ≠ [] ∧ p.space = p.onBuffer (·.push [' ']) := by
  unfold Page.space
  split
  · exact .inl rfl
  · rename_i h
    rw [Bool.or_eq_true, Bool.or_eq_true, not_or, not_or] at h
    refine .inr ⟨fun hnil => h.1.1 ?_, rfl⟩
    rw [Buffer.atLineStart, hnil]
    rfl

theorem tends_space (k n : Nat) (p : Page) : Tends k n n p.buffer.text p.space.buffer.text := by
  rcases p.space_cases with h | ⟨hne, h⟩
  · rw [h]
    exact .refl k n _
  · rw [h]
    refine fun ht => ⟨.inr ?_, fun v hv => hv.append_right _⟩
    change (lastRow (p.buffer.text ++ spaces 1)).Reaches k n
    have hline := ht.resolve_left hne
    rw [lastRow_append (newline_notMem_spaces 1)]
    refine hline.append ?_
    rw [width_append_spaces]
    exact hline.le_width.trans (Nat.le_succ _)

/-- What stands in front of a word that is placed. -/
theorem text_spaced (p : Page) (spaceBefore : Bool) :
    ∃ q, (if spaceBefore then p.indent.space else p.indent) = q ∧ q.layout = p.layout ∧
      ∃ k, q.buffer.text = p.buffer.text ++ spaces k ∧
        (p.buffer.currentLine ≠ [] ∨ p.layout.indentation ≤ k) := by
  refine ⟨_, rfl, ?_⟩
  obtain ⟨k, htext, hline⟩ := p.text_indent
  have hspace : p.indent.space.layout = p.layout := (pours_space _).layout.trans p.layout_indent
  cases spaceBefore with
  | false => exact ⟨p.layout_indent, k, htext, hline⟩
  | true =>
    rw [if_pos rfl]
    rcases p.indent.space_cases with h | ⟨-, h⟩
    · rw [h]
      exact ⟨p.layout_indent, k, htext, hline⟩
    · refine ⟨hspace, k + 1, ?_, hline.imp_right fun hk => by omega⟩
      rw [h]
      change p.indent.buffer.text ++ [' '] = _
      rw [htext, List.append_assoc, spaces, spaces, List.replicate_succ']

/-- Between ASCII a space stays. -/
theorem spaceUnwanted_of_ascii (hrules : rules.SpareAscii) (htext : p.buffer.text = t ++ [d, ' '])
    (hline : d ≠ '\n') (hd : Ascii d) (hc : Ascii c) : p.spaceUnwanted rules c = false := by
  have hrow : p.buffer.currentLine = (lastRow t ++ [d]) ++ [' '] := by
    rw [Buffer.currentLine, htext, lastRow_append (by simpa using hline.symm)]
    simp
  simp [spaceUnwanted, hrow, dropLast?, joins, hrules d hd, hrules c hc]

theorem width_of_spaceUnwanted (htext : p.buffer.text = t ++ [' '])
    (h : p.spaceUnwanted rules c = true) : p.layout.indentation < t.lastRow.width := by
  have hrow : p.buffer.currentLine = lastRow t ++ [' '] := by
    rw [Buffer.currentLine, htext, lastRow_append (by decide)]
  by_contra hle
  simp [spaceUnwanted, hrow, dropLast?, Nat.le_of_not_lt hle] at h

/-- A word, and the character it ends with. -/
structure Word (w : Text) (d : Char) : Prop where
  last : w.getLast? = some d
  solid : ∀ c ∈ w, isBlank c = false

namespace Word

theorem ne_nil (h : Word w d) : w ≠ [] := by
  rintro rfl
  cases h.last

theorem mem (h : Word w d) : d ∈ w := List.mem_of_getLast? h.last

theorem not_blank (h : Word w d) : isBlank d = false := h.solid d h.mem

theorem visible_eq (h : Word w d) : w.visible = w := visible_eq_self h.solid

theorem newline_notMem (h : Word w d) : '\n' ∉ w := fun hmem => by
  cases h.solid _ hmem

end Word

theorem visible_placeWord (p : Page) (spaceBefore : Bool) (rules : LineBreak.Rules)
    (hw : Word w d) : (p.placeWord rules spaceBefore w).buffer.text.visible =
      p.buffer.text.visible ++ w := by
  have hrun : Buffer.Run RangeRule.tight w.visible p.buffer
      (p.placeWord rules spaceBefore w).buffer := (pours_placeWord p spaceBefore w).flow.run
  rw [hrun.visible, hw.visible_eq]

/-- A word is written behind the indentation and a space, but for a space that is unwanted. -/
theorem buffer_placeWord_cases {q : Page} (rules : LineBreak.Rules)
    (hq : (if spaceBefore then p.indent.space else p.indent) = q) (hlayout : q.layout = p.layout)
    (hw : w ≠ []) :
    ∃ b : Buffer, (p.placeWord rules spaceBefore w).buffer =
        foldLine rules p.layout.indentation p.layout.width (b.push w) ∧
      (b.text = q.buffer.text ∨
        q.buffer.text = b.text ++ [' '] ∧ p.layout.indentation < b.currentLine.width) := by
  obtain ⟨c, w, rfl⟩ := List.exists_cons_of_ne_nil hw
  rw [← hlayout]
  cases h : q.spaceUnwanted rules c with
  | false => exact ⟨q.buffer, buffer_placeWord hq h, .inl rfl⟩
  | true =>
    obtain ⟨l, htext, hpos⟩ := text_of_spaceUnwanted h
    have hsplice := Buffer.splice_eq htext []
    rw [size_spaces, ← hpos] at hsplice
    have hl : (q.buffer.splice (q.buffer.size - 1) 1 []).text = l := by
      rw [hsplice]
      simp
    have hspace : q.buffer.text = l ++ [' '] := by simpa [spaces] using htext
    refine ⟨q.buffer.splice (q.buffer.size - 1) 1 [], ?_, .inr ⟨hl.symm ▸ hspace, ?_⟩⟩
    · subst hq
      simp [placeWord, h, onBuffer]
    · rw [Buffer.currentLine, hl]
      exact width_of_spaceUnwanted hspace h

/-- The line gets longer by the word, or it is a new one that goes beyond the indentation if the word
is ASCII. -/
theorem keeps_placeWord (hk : k ≤ p.layout.indentation) (n : Nat) (spaceBefore : Bool)
    (rules : LineBreak.Rules) (hw : Word w d) :
    Tends k n (reached k (p.layout.indentation + 1) n w) p.buffer.text
        (p.placeWord rules spaceBefore w).buffer.text ∧
      (p.placeWord rules spaceBefore w).buffer.text.getLast? = some d := by
  obtain ⟨q, hq, hlayout, j, htext, hline⟩ := p.text_spaced spaceBefore
  obtain ⟨b, hplace, hb⟩ := buffer_placeWord_cases rules hq hlayout hw.ne_nil
  have hlength := List.length_pos_iff.2 hw.ne_nil
  have hpush : Tends k n (reached k (p.layout.indentation + 1) n w) p.buffer.text
      (b.push w).text := by
    rcases hb with hb | ⟨hb, hwide⟩
    · rw [Buffer.text_push, hb, htext]
      refine .indented hk hline hw.newline_notMem ?_
      unfold reached
      split
      · rename_i hascii
        refine .inr ⟨hascii, ?_⟩
        rw [hw.visible_eq]
        omega
      · exact .inl (Nat.le_refl k)
    · intro h
      have hreaches := h.indented hk hline
      rw [← lastRow_append (newline_notMem_spaces j), ← htext, hb, lastRow_append (by decide)]
        at hreaches
      have hstay := (hreaches.dropSpace _ rfl).mono (m := k)
        (by change k ≤ min k (b.currentLine.width - 1); omega)
      refine ⟨.inr ?_, fun v hv => ?_⟩
      · rw [Buffer.text_push, lastRow_append hw.newline_notMem]
        refine hstay.reaches_append hw.ne_nil ?_
        unfold reached
        split
        · rename_i hascii
          rw [width_append_ascii _ hascii hw.newline_notMem]
          change _ ≤ b.currentLine.width + _
          omega
        · exact (hstay.append w).le_width
      · have hgap : (b.text ++ [' ']).Parted v := hb ▸ htext ▸ hv.append_right _
        exact (hgap.of_append_blank (visible_spaces 1)).append_right w
  have hlast : (b.push w).text.getLast? = some d := by
    rw [Buffer.text_push, List.getLast?_append_of_ne_nil _ hw.ne_nil, hw.last]
  have hfold : reached k (p.layout.indentation + 1) n w ≤ p.layout.indentation ∨
      Ascii d ∧ reached k (p.layout.indentation + 1) n w ≤ p.layout.indentation + 1 := by
    by_cases hascii : ∀ c ∈ w, Ascii c
    · exact .inr ⟨hascii d hw.mem, reached_le (Nat.le_succ_of_le hk) n w⟩
    · exact .inl ((reached_of_not_ascii hascii).trans_le hk)
  have hkeeps := keeps_foldLine rules p.layout.width hk hfold hlast
    (shown_of_not_blank hw.not_blank)
  rw [hplace]
  exact ⟨hpush.trans hkeeps.tends, hkeeps.last⟩

theorem tends_placeWords (hk : k ≤ p.layout.indentation) (n : Nat) (spaceBefore : Bool)
    (rules : LineBreak.Rules) (hws : ∀ w ∈ ws, ∃ d, Word w d) :
    Tends k n (reached k (p.layout.indentation + 1) n ws.flatten) p.buffer.text
      (p.placeWords rules spaceBefore ws).buffer.text := by
  induction ws generalizing p n spaceBefore with
  | nil => exact .nothing k _ n _
  | cons w ws ih =>
    obtain ⟨d, hw⟩ := hws w List.mem_cons_self
    have hword := (keeps_placeWord hk n spaceBefore rules hw).1
    rw [← layout_placeWord rules p spaceBefore w] at hk
    have hrest := ih hk (reached k (p.layout.indentation + 1) n w) true
      fun v hv => hws v (List.mem_cons_of_mem w hv)
    rw [layout_placeWord] at hrest hk
    exact (hword.trans hrest).mono (reached_append (Nat.le_succ_of_le hk) n w ws.flatten)

/-- A page at whose end a word of ASCII was placed, on a line of at least `n` columns or, if they are
more, beyond the indentation. -/
structure Placed (k n : Nat) (p : Page) : Prop where
  even : p.buffer.text.Even k (min n (p.layout.indentation + 1))
  last : ∃ d, p.buffer.text.getLast? = some d ∧ isBlank d = false ∧ Ascii d

theorem placed_placeWord (hk : k ≤ p.layout.indentation) (spaceBefore : Bool)
    (rules : LineBreak.Rules) (hw : Word w d) (hascii : ∀ c ∈ w, Ascii c)
    (h : p.buffer.text.Even k n) :
    (p.placeWord rules spaceBefore w).Placed k (n + w.length) := by
  obtain ⟨htends, hlast⟩ := keeps_placeWord hk n spaceBefore rules hw
  rw [reached_of_ascii hascii, hw.visible_eq] at htends
  exact ⟨layout_placeWord rules p spaceBefore w ▸ (htends h).1, d, hlast, hw.not_blank,
    hascii d hw.mem⟩

/-- A word that is placed behind another one, beyond the indentation, stands apart from it. -/
theorem Placed.parted (h : p.Placed k n) (hn : p.layout.indentation < n)
    (hrules : rules.SpareAscii) (hw : Word w d) (hascii : ∀ c ∈ w, Ascii c) :
    (p.placeWord rules true w).buffer.text.Parted p.buffer.text.visible := by
  obtain ⟨e, he, hblank, heascii⟩ := h.last
  obtain ⟨hspace, hnewline⟩ := shown_of_not_blank hblank
  obtain ⟨t, ht⟩ := List.getLast?_eq_some_iff.1 he
  have hmem : e ∈ p.buffer.currentLine := by
    change e ∈ lastRow p.buffer.text
    rw [ht, lastRow_append (by simpa using hnewline.symm)]
    exact List.mem_append_right _ List.mem_cons_self
  have hline : p.buffer.currentLine ≠ [] := List.ne_nil_of_mem hmem
  have hstart : p.buffer.atLineStart = false := by
    rw [Buffer.atLineStart, List.all_eq_false]
    exact ⟨e, hmem, by simpa using hspace⟩
  have hcolumn : ¬ p.buffer.column ≤ p.layout.indentation := by
    have hreaches : _ ≤ p.buffer.column := (h.even.resolve_left hline).le_width
    omega
  have hlast : (p.buffer.lastChar == some ' ') = false := by
    rw [Buffer.lastChar, he]
    simpa using hspace
  have hpush : p.space = p.onBuffer (·.push [' ']) := by
    simp [Page.space, hstart, hcolumn, hlast]
  have hq : (if true then p.indent.space else p.indent) = p.onBuffer (·.push [' ']) := by
    rw [if_pos rfl, indent_of_currentLine_ne hline, hpush]
  obtain ⟨c, w', rfl⟩ := List.exists_cons_of_ne_nil hw.ne_nil
  rw [buffer_placeWord hq (spaceUnwanted_of_ascii (t := t) hrules (by simp [onBuffer, ht]) hnewline
    heascii (hascii c List.mem_cons_self))]
  have hlast : (((p.onBuffer (·.push [' '])).buffer.push (c :: w')).text).getLast? = some d := by
    rw [Buffer.text_push, List.getLast?_append_of_ne_nil _ hw.ne_nil, hw.last]
  have heven : ((p.onBuffer (·.push [' '])).buffer.push (c :: w')).text.Even 0 0 :=
    .inr ⟨holds_zero _, Nat.zero_le _, fun l _ => by simpa using holds_zero l⟩
  refine ((keeps_foldLine rules p.layout.width (Nat.zero_le _) (.inl (Nat.zero_le _)) hlast
    (shown_of_not_blank hw.not_blank)).tends heven).2 _
      ⟨p.buffer.text, ' ', c :: w', ?_, .inl rfl, rfl, ?_⟩
  · simp [onBuffer]
  · rw [hw.visible_eq]
    exact hw.ne_nil

/-- The words placed behind another one stand apart, beyond the indentation. -/
theorem Placed.parted_placeWords (h : p.Placed k n) (hk : k ≤ p.layout.indentation)
    (hrules : rules.SpareAscii) (hws : ∀ w ∈ ws, ∃ d, Word w d)
    (hascii : ∀ w ∈ ws, ∀ c ∈ w, Ascii c) (heq : ws = us ++ w :: vs)
    (hn : p.layout.indentation < n + us.flatten.length) :
    (p.placeWords rules true ws).buffer.text.Parted (p.buffer.text.visible ++ us.flatten) := by
  induction us generalizing p n ws with
  | nil =>
    subst heq
    obtain ⟨d, hw⟩ := hws w List.mem_cons_self
    have hplaced := placed_placeWord hk true rules hw (hascii w List.mem_cons_self) h.even
    rw [List.flatten_nil, List.append_nil]
    rw [← layout_placeWord rules p true w] at hk
    exact (tends_placeWords hk _ true rules (fun v hv => hws v (List.mem_cons_of_mem w hv))
      hplaced.even).2 _ (h.parted hn hrules hw (hascii w List.mem_cons_self))
  | cons u us ih =>
    subst heq
    obtain ⟨d, hu⟩ := hws u List.mem_cons_self
    have hplaced := placed_placeWord hk true rules hu (hascii u List.mem_cons_self) h.even
    have hlength := List.length_pos_iff.2 hu.ne_nil
    rw [List.flatten_cons, List.length_append] at hn
    rw [← layout_placeWord rules p true u] at hk
    have := ih hplaced hk (fun v hv => hws v (List.mem_cons_of_mem u hv))
      (fun v hv => hascii v (List.mem_cons_of_mem u hv)) rfl (by
        rw [layout_placeWord]
        omega)
    rwa [visible_placeWord p true rules hu, List.append_assoc, ← List.flatten_cons] at this

theorem word_of_mem_words (hw : w ∈ t.words) : ∃ d, Word w d := by
  obtain ⟨d, hd⟩ := Option.ne_none_iff_exists'.1
    (mt List.getLast?_eq_none_iff.1 (ne_nil_of_mem_words hw))
  exact ⟨d, hd, fun c hc => not_isBlank_of_mem_words hw hc⟩

theorem tends_insertWrapped (hk : k ≤ p.layout.indentation) (n : Nat) (rules : LineBreak.Rules)
    (t : Text) :
    Tends k n (reached k (p.layout.indentation + 1) n t) p.buffer.text
      (p.insertWrapped rules t).buffer.text := by
  have hwords (spaceBefore : Bool) : Tends k n (reached k (p.layout.indentation + 1) n t)
      p.buffer.text (p.placeWords rules spaceBefore t.words).buffer.text := by
    have h := tends_placeWords hk n spaceBefore rules fun w (hw : w ∈ t.words) =>
      word_of_mem_words hw
    rw [flatten_words] at h
    by_cases ht : ∀ c ∈ t, Ascii c
    · have hvisible : ∀ c ∈ t.visible, Ascii c := fun c hc => ht c (List.mem_filter.1 hc).1
      rwa [reached_of_ascii hvisible, visible_visible, ← reached_of_ascii ht] at h
    · rw [reached_of_not_ascii ht]
      exact h.stay
  unfold insertWrapped
  dsimp only
  split
  · exact (hwords _).trans (tends_space k _ _)
  · exact hwords _

/-- The words of an ASCII text stand apart as soon as they go beyond the indentation. -/
theorem parted_insertWrapped (hk : k ≤ p.layout.indentation) (hrules : rules.SpareAscii)
    (ht : ∀ c ∈ t, Ascii c) (h : p.buffer.text.Even k n) (hle : n ≤ p.layout.indentation)
    (heq : t.words = us ++ w :: vs) (hn : p.layout.indentation < n + us.flatten.length) :
    (p.insertWrapped rules t).buffer.text.Parted (p.buffer.text.visible ++ us.flatten) := by
  have hall : ∀ w ∈ t.words, ∃ d, Word w d := fun w hw => word_of_mem_words hw
  have hascii : ∀ w ∈ t.words, ∀ c ∈ w, Ascii c := fun w hw c hc => ht c (mem_of_mem_words hw hc)
  have hne : us ≠ [] := by
    rintro rfl
    rw [List.flatten_nil, List.length_nil] at hn
    omega
  obtain ⟨u, us, rfl⟩ := List.exists_cons_of_ne_nil hne
  rw [List.cons_append] at heq
  rw [heq] at hall hascii
  obtain ⟨d, hu⟩ := hall u List.mem_cons_self
  have hrest : ∀ v ∈ us ++ w :: vs, ∃ d, Word v d := fun v hv => hall v (List.mem_cons_of_mem u hv)
  have hwords (spaceBefore : Bool) : (p.placeWords rules spaceBefore t.words).buffer.text.Parted
      (p.buffer.text.visible ++ (u :: us).flatten) ∧
        (p.placeWords rules spaceBefore t.words).buffer.text.Even k k := by
    have hplaced := placed_placeWord hk spaceBefore rules hu (hascii u List.mem_cons_self) h
    rw [List.flatten_cons, List.length_append, ← Nat.add_assoc,
      ← layout_placeWord rules p spaceBefore u] at hn
    rw [← layout_placeWord rules p spaceBefore u] at hk
    have hparted := hplaced.parted_placeWords hk hrules hrest
      (fun v hv => hascii v (List.mem_cons_of_mem u hv)) rfl hn
    rw [visible_placeWord p spaceBefore rules hu, List.append_assoc, ← List.flatten_cons] at hparted
    rw [heq]
    exact ⟨hparted, (tends_placeWords hk _ true rules hrest hplaced.even).1.stay⟩
  unfold insertWrapped
  dsimp only
  split
  · exact (tends_space k k _ (hwords _).2).2 _ (hwords _).1
  · exact (hwords _).1

/-! ### Verbatim text -/

theorem tends_pushRow (hk : k ≤ p.layout.indentation) (n : Nat) {row : Text}
    (hline : '\n' ∉ row) :
    Tends k n (reached k (p.layout.indentation + 1) n row) p.buffer.text
      (p.pushRow row).buffer.text := by
  unfold pushRow
  split
  · rename_i hempty
    rw [List.isEmpty_iff.1 hempty]
    exact .nothing k _ n _
  · rename_i hne
    obtain ⟨j, htext, hindent⟩ := p.text_indent
    have hlength : 0 < row.length := List.length_pos_iff.2 (by simpa using hne)
    have hvisible : row.visible.length ≤ row.length := List.length_filter_le ..
    change Tends k n _ _ (p.indent.buffer.text ++ row)
    rw [htext]
    refine .indented hk hindent hline ?_
    unfold reached
    split
    · exact .inr ⟨‹_›, by omega⟩
    · exact .inl (Nat.le_refl k)

/-- A row on a line of its own is empty, or it goes beyond the indentation if it is ASCII. -/
theorem tends_pushLine (hk : k ≤ p.layout.indentation) {row : Text} (hline : '\n' ∉ row)
    (hn : n ≤ k ∨ (∀ c ∈ row, Ascii c) ∧ n ≤ p.layout.indentation + 1) (m : Nat) :
    Tends k m n p.buffer.text ((p.onBuffer (·.push ['\n'])).pushRow row).buffer.text := by
  have hlimit := Nat.le_succ_of_le hk
  have hrow := tends_pushRow (p := p.onBuffer (·.push ['\n'])) hk (p.layout.indentation + 1) hline
  refine ((Tends.newline k m _ p.buffer.text).trans hrow).mono ?_
  rw [layout_onBuffer]
  rcases hn with hn | ⟨hascii, hn⟩
  · exact hn.trans (le_reached hlimit hlimit row)
  · rw [reached_of_ascii hascii]
    omega

theorem tends_pushLines (hk : k ≤ p.layout.indentation) {row : Text} {rows : List Text}
    (hrows : ∀ r ∈ row :: rows, '\n' ∉ r ∧
      (n ≤ k ∨ (∀ c ∈ r, Ascii c) ∧ n ≤ p.layout.indentation + 1)) (m : Nat) :
    Tends k m n p.buffer.text ((row :: rows).foldl
      (fun p row => (p.onBuffer (·.push ['\n'])).pushRow row) p).buffer.text := by
  induction rows generalizing p row m with
  | nil =>
    obtain ⟨hline, hn⟩ := hrows row List.mem_cons_self
    exact tends_pushLine hk hline hn m
  | cons row' rows ih =>
    obtain ⟨hline, hn⟩ := hrows row List.mem_cons_self
    have hlayout : ((p.onBuffer (·.push ['\n'])).pushRow row).layout = p.layout :=
      (pours_pushRow _ row).layout
    refine (tends_pushLine hk hline hn m).trans (ih (hlayout ▸ hk) ?_ n)
    rw [hlayout]
    exact fun r hr => hrows r (List.mem_cons_of_mem _ hr)

theorem tends_insertVerbatim (hk : k ≤ p.layout.indentation) (n : Nat) (t : Text) :
    Tends k n (reached k (p.layout.indentation + 1) n t) p.buffer.text
      (p.insertVerbatim t).buffer.text := by
  have hascii (ht : ∀ c ∈ t, Ascii c) : ∀ row ∈ t.rows, ∀ c ∈ row, Ascii c := fun row hrow c hc => by
    have hflat : c ∈ t.rows.flatten := List.mem_flatten_of_mem hrow hc
    rw [rows, List.splitOn, flatten_splitOnP] at hflat
    exact ht c (List.mem_filter.1 hflat).1
  have hall : ∀ row ∈ t.rows, '\n' ∉ row ∧ (reached k (p.layout.indentation + 1) n t ≤ k ∨
      (∀ c ∈ row, Ascii c) ∧
        reached k (p.layout.indentation + 1) n t ≤ p.layout.indentation + 1) := by
    refine fun row hrow => ⟨newline_notMem_of_mem_rows hrow, ?_⟩
    by_cases ht : ∀ c ∈ t, Ascii c
    · exact .inr ⟨hascii ht row hrow, reached_le (Nat.le_succ_of_le hk) n t⟩
    · exact .inl (Nat.le_of_eq (reached_of_not_ascii ht))
  have hvisible := visible_flatten_rows t
  unfold insertVerbatim
  split
  · rename_i heq
    exact absurd heq (List.splitOn_ne_nil '\n' t)
  · rename_i row rows heq
    rw [heq] at hall hvisible hascii
    have hrow := tends_pushRow (p := p) hk n (hall row List.mem_cons_self).1
    have hlayout : (p.pushRow row).layout = p.layout := (pours_pushRow p row).layout
    cases rows with
    | nil =>
      rw [List.flatten_cons, List.flatten_nil, List.append_nil] at hvisible
      by_cases ht : ∀ c ∈ t, Ascii c
      · rwa [reached_of_ascii (hascii ht row List.mem_cons_self), hvisible, ← reached_of_ascii ht]
          at hrow
      · rw [reached_of_not_ascii ht]
        exact hrow.stay
    | cons row' rows =>
      rw [← hlayout] at hk
      refine hrow.trans (tends_pushLines hk ?_ _)
      rw [hlayout]
      exact fun r hr => hall r (List.mem_cons_of_mem _ hr)

/-! ### Inserting -/

theorem tends_freshFor (k n : Nat) (t : Text) (p : Page) :
    Tends k n n p.buffer.text (p.freshFor t).buffer.text := by
  unfold freshFor
  split
  · exact Buffer.tends_newline k n n p.buffer
  · exact .refl k n _

theorem tends_insert (hk : k ≤ p.layout.indentation) (n : Nat) (rules : LineBreak.Rules)
    (t : Text) :
    Tends k n (reached k (p.layout.indentation + 1) n t) p.buffer.text
      (p.insert rules t).buffer.text := by
  rw [buffer_insert]
  have hlayout := (pours_freshFor t p).layout
  rw [← hlayout] at hk ⊢
  split
  · rename_i hempty
    rw [List.isEmpty_iff.1 hempty]
    exact .nothing k _ n _
  · split
    · exact (tends_freshFor k n t p).trans (tends_insertVerbatim hk n t)
    · exact (tends_freshFor k n t p).trans (tends_insertWrapped hk n rules t)

/-- The words of an ASCII text inserted in wrap mode stand apart as soon as they go beyond the
indentation. -/
theorem parted_insert (hk : k ≤ p.layout.indentation) (hrules : rules.SpareAscii)
    (ht : ∀ c ∈ t, Ascii c) (hfold : p.layout.fold = .wrap) (h : p.buffer.text.Even k n)
    (hle : n ≤ p.layout.indentation) (heq : t.words = us ++ w :: vs)
    (hn : p.layout.indentation < n + us.flatten.length) :
    (p.insert rules t).buffer.text.Parted (p.buffer.text.visible ++ us.flatten) := by
  have hne : t.isEmpty = false := by
    rw [List.isEmpty_eq_false_iff]
    rintro rfl
    cases us <;> cases heq
  have hlayout := (pours_freshFor t p).layout
  have hvisible : (p.freshFor t).buffer.text.visible = p.buffer.text.visible :=
    (pours_freshFor t p).flow.visible_eq
  rw [buffer_insert, hne, hfold, ← hvisible]
  rw [← hlayout] at hk hle hn
  exact parted_insertWrapped hk hrules ht (tends_freshFor k n t p h).1 hle heq hn

end Page
end MarkupText
