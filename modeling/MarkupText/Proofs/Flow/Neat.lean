import MarkupText.Proofs.Flow.Finished
import MarkupText.Proofs.Flow.Folds

/-!
# Neat text

A neat text (`Text.Neat`) has no blanks but spaces and newlines, does not begin with a newline, has
no space in front of one and never three of them in a row. So is each of its beginnings
(`Neat.of_isPrefix`), which settles all that trims or drops spaces. A newline may only be written
behind something shown (`Neat.newline`); that is why lines are trimmed before they end, and why a
line is split behind something to see (`Page.exists_ne_space_of_findBreak`). Wrapped text is written
neatly (`Page.neat_insert`).
-/

namespace MarkupText

namespace Text
variable {t u v : Text} {c d : Char}

structure Neat (t : Text) : Prop where
  blanks : ∀ c ∈ t, isBlank c = true → c = ' ' ∨ c = '\n'
  head : t.head? ≠ some '\n'
  trimmed : ¬ [' ', '\n'] <:+: t
  gaps : ¬ ['\n', '\n', '\n'] <:+: t

/-- A part of a line of neat text. -/
def InLine (t : Text) : Prop := ∀ c ∈ t, c ≠ '\n' ∧ (isBlank c = true → c = ' ')

theorem inLine_spaces (n : Nat) : InLine (spaces n) := fun c hc => by
  obtain rfl := List.eq_of_mem_replicate hc
  exact ⟨by decide, fun _ => rfl⟩

theorem inLine_of_solid (h : ∀ c ∈ t, isBlank c = false) : InLine t := by
  intro c hc
  refine ⟨fun hline => ?_, fun hblank => ?_⟩
  · rw [hline] at hc
    cases h _ hc
  · rw [h c hc] at hblank
    cases hblank

theorem InLine.append (ht : InLine t) (hu : InLine u) : InLine (t ++ u) := fun c hc =>
  (List.mem_append.1 hc).elim (ht c) (hu c)

theorem InLine.newline_notMem (h : InLine t) : '\n' ∉ t := fun hmem => (h _ hmem).1 rfl

theorem neat_nil : Neat [] where
  blanks c hc := by cases hc
  head h := by cases h
  trimmed h := by simp at h
  gaps h := by simp at h

/-- Without the spaces at its end, a line on which something stands ends with something to see. -/
theorem exists_shown_last (hu : '\n' ∉ u) (hc : ∃ c ∈ u, c ≠ ' ') :
    ∃ d, (dropEndWhile (· == ' ') u).getLast? = some d ∧ Shown d := by
  obtain ⟨v, hv, hv'⟩ := dropEndWhile_append (· == ' ') u
  have hne : dropEndWhile (· == ' ') u ≠ [] := fun hnil => by
    obtain ⟨c, hc, hne⟩ := hc
    rw [hnil, List.nil_append] at hv
    exact hne (eq_of_beq (hv' c (hv ▸ hc)))
  obtain ⟨d, hd⟩ := Option.ne_none_iff_exists'.1 fun hnone => hne (List.getLast?_eq_none_iff.1 hnone)
  refine ⟨d, hd, by simpa using not_of_getLast?_dropEndWhile hd, fun hline => hu ?_⟩
  rw [hv]
  exact List.mem_append_left v (hline ▸ List.mem_of_getLast? hd)

namespace Neat

theorem of_isPrefix (h : Neat t) (hu : u <+: t) : Neat u where
  blanks c hc := h.blanks c (hu.subset hc)
  head hhead := by
    obtain ⟨v, rfl⟩ := hu
    exact h.head (by rw [List.head?_append, hhead]; rfl)
  trimmed hin := h.trimmed (hin.trans hu.isInfix)
  gaps hin := h.gaps (hin.trans hu.isInfix)

theorem char (h : Neat t) (hline : c ≠ '\n') (hblank : isBlank c = true → c = ' ') :
    Neat (t ++ [c]) := by
  have hlast (u : Text) : ¬ u ++ ['\n'] <:+ t ++ [c] := fun hsuffix => by
    obtain ⟨v, hv⟩ := hsuffix
    have hend := congrArg List.getLast? hv
    rw [← List.append_assoc, List.getLast?_concat, List.getLast?_concat] at hend
    exact hline (Option.some.inj hend).symm
  refine ⟨fun d hd hd' => ?_, fun hhead => ?_, fun hin => ?_, fun hin => ?_⟩
  · rcases List.mem_append.1 hd with hd | hd
    · exact h.blanks d hd hd'
    · obtain rfl := List.mem_singleton.1 hd
      exact .inl (hblank hd')
  · cases t with
    | nil => exact hline (Option.some.inj hhead)
    | cons d t => exact h.head hhead
  · exact (List.infix_concat_iff.1 hin).elim (hlast [' ']) h.trimmed
  · exact (List.infix_concat_iff.1 hin).elim (hlast ['\n', '\n']) h.gaps

theorem append (h : Neat t) (hu : InLine u) : Neat (t ++ u) := by
  induction u generalizing t with
  | nil => rwa [List.append_nil]
  | cons c u ih =>
    obtain ⟨hline, hblank⟩ := hu c List.mem_cons_self
    rw [List.append_cons]
    exact ih (h.char hline hblank) fun d hd => hu d (List.mem_cons_of_mem c hd)

theorem newline (h : Neat t) (hne : t ≠ []) (hlast : t.getLast? ≠ some ' ')
    (hgap : ¬ ['\n', '\n'] <:+ t) : Neat (t ++ ['\n']) := by
  have hsuffix {u : Text} (hu : u ++ ['\n'] <:+ t ++ ['\n']) : u <:+ t := by
    obtain ⟨v, hv⟩ := hu
    rw [← List.append_assoc] at hv
    exact ⟨v, List.append_cancel_right hv⟩
  refine ⟨fun d hd hd' => ?_, fun hhead => ?_, fun hin => ?_, fun hin => ?_⟩
  · rcases List.mem_append.1 hd with hd | hd
    · exact h.blanks d hd hd'
    · exact .inr (List.mem_singleton.1 hd)
  · rw [List.head?_append_of_ne_nil _ hne] at hhead
    exact h.head hhead
  · refine (List.infix_concat_iff.1 hin).elim (fun hend => hlast ?_) h.trimmed
    obtain ⟨v, rfl⟩ := hsuffix (u := [' ']) hend
    exact List.getLast?_concat
  · exact (List.infix_concat_iff.1 hin).elim
      (fun hend => hgap (hsuffix (u := ['\n', '\n']) hend)) h.gaps

theorem newline_of_shown (h : Neat t) (hlast : t.getLast? = some d) (hd : Shown d) :
    Neat (t ++ ['\n']) := by
  obtain ⟨u, rfl⟩ := List.getLast?_eq_some_iff.1 hlast
  refine h.newline (by simp) ?_ ?_
  · rw [hlast]
    exact fun heq => hd.1 (Option.some.inj heq)
  · rintro ⟨w, hw⟩
    rw [List.append_cons] at hw
    exact hd.2 (List.append_singleton_inj.1 hw).2.symm

end Neat

/-! ### Lines -/

/-- The normal form of a text, read line by line. -/
structure Tidy (t : Text) : Prop where
  blanks : ∀ c ∈ t, isBlank c = true → c = ' ' ∨ c = '\n'
  trimmed : ∀ l ∈ t.lines, l.getLast? ≠ some ' '
  first : ∀ l ∈ t.lines.head?, l.blank = false
  spaced : ∀ l m, [l, m] <:+: t.lines → l.blank = false ∨ m.blank = false

theorem exists_ended (h : t.Finished) : ∃ ls, t = ended ls ∧ ∀ l ∈ ls, '\n' ∉ l := by
  have hended (ls : List Text) (hne : ls ≠ []) : ended ls = ['\n'].intercalate ls ++ ['\n'] := by
    induction ls with
    | nil => exact absurd rfl hne
    | cons l ls ih =>
      cases ls with
      | nil => simp [ended]
      | cons m ls =>
        have hrest := ih (List.cons_ne_nil m ls)
        have hcons : ended (l :: m :: ls) = l ++ ['\n'] ++ ended (m :: ls) := rfl
        rw [hcons, hrest, List.intercalate_cons_of_ne_nil (List.cons_ne_nil m ls), List.append_assoc _ _ ['\n']]
  rcases h with rfl | h
  · exact ⟨[], rfl, fun l hl => by cases hl⟩
  · obtain ⟨u, rfl⟩ := List.getLast?_eq_some_iff.1 h
    refine ⟨rows u, ?_, fun l hl => newline_notMem_of_mem_rows hl⟩
    rw [hended (rows u) (List.splitOn_ne_nil '\n' u), rows, List.intercalate_splitOn]

theorem lines_ended {ls : List Text} (h : ∀ l ∈ ls, '\n' ∉ l ∧ '\r' ∉ l) :
    lines (ended ls) = ls := by
  have hrows : rows (ended ls) = ls ++ [[]] := by
    rw [← List.append_nil (ended ls), rows_ended_append (fun l hl => (h l hl).1) []]
    rfl
  have hreturn : ls.map dropReturn = ls := by
    refine (List.map_congr_left fun l hl => ?_).trans (List.map_id ls)
    exact if_neg fun hlast => (h l hl).2 (List.mem_of_getLast? hlast)
  rw [lines, hrows, List.dropLast_concat, List.getLast?_concat, hreturn]
  exact List.append_nil ls

/-- Neat text whose last line is ended is in normal form. -/
theorem Neat.tidy (h : Neat t) (hend : t.Finished) : t.Tidy := by
  obtain ⟨ls, rfl, hline⟩ := exists_ended hend
  have hsplit {xs ys : List Text} (l : Text) (hls : ls = xs ++ l :: ys) :
      ended ls = ended xs ++ l ++ '\n' :: ended ys := by
    rw [hls]
    simp [ended]
  have htrimmed (l : Text) (hl : l ∈ ls) : l.getLast? ≠ some ' ' := fun hlast => by
    obtain ⟨u, rfl⟩ := List.getLast?_eq_some_iff.1 hlast
    obtain ⟨xs, ys, hls⟩ := List.append_of_mem hl
    exact h.trimmed ⟨ended xs ++ u, ended ys, by rw [hsplit _ hls]; simp⟩
  have hmem {l : Text} {c : Char} (hl : l ∈ ls) (hc : c ∈ l) : c ∈ ended ls := by
    obtain ⟨xs, ys, hls⟩ := List.append_of_mem hl
    rw [hsplit _ hls]
    simp [hc]
  -- a blank line holds only spaces, and does not end with one
  have hblank (l : Text) (hl : l ∈ ls) : l.blank = false ∨ l = [] := by
    rcases List.eq_nil_or_concat' l with rfl | ⟨u, c, rfl⟩
    · exact .inr rfl
    · refine .inl (Bool.eq_false_iff.2 fun hall => ?_)
      have hc : c ∈ u ++ [c] := List.mem_append_right u List.mem_cons_self
      rcases h.blanks c (hmem hl hc) (List.all_eq_true.1 hall c hc) with rfl | rfl
      · exact htrimmed _ hl List.getLast?_concat
      · exact hline _ hl hc
  have hlines : lines (ended ls) = ls := lines_ended fun l hl => by
    refine ⟨hline l hl, fun hreturn => ?_⟩
    have hkind := h.blanks '\r' (hmem hl hreturn) (by decide)
    revert hkind
    decide
  refine ⟨h.blanks, ?_, ?_, ?_⟩ <;> rw [hlines]
  · exact htrimmed
  · intro l hl
    obtain ⟨ms, rfl⟩ := List.head?_eq_some_iff.1 hl
    refine (hblank l List.mem_cons_self).resolve_right ?_
    rintro rfl
    exact h.head rfl
  · rintro l m ⟨xs, ys, hls⟩
    have hl : l ∈ ls := by simp [← hls]
    have hm : m ∈ ls := by simp [← hls]
    rcases hblank l hl with hfirst | rfl
    · exact .inl hfirst
    rcases hblank m hm with hsecond | rfl
    · exact .inr hsecond
    exfalso
    have hgap : ended ls = ended xs ++ '\n' :: '\n' :: ended ys := by
      rw [← hls]
      simp [ended]
    rcases List.eq_nil_or_concat' xs with rfl | ⟨zs, z, rfl⟩
    · exact h.head (by rw [hgap]; rfl)
    · exact h.gaps ⟨ended zs ++ z, ended ys, by rw [hgap, ended_concat]; simp⟩

end Text

namespace Buffer
open Text
variable {b : Buffer}

theorem neat_trimSpaces (h : b.text.Neat) : b.trimSpaces.text.Neat :=
  h.of_isPrefix b.text_trimSpaces_prefix

theorem neat_newline (h : b.text.Neat) (hline : b.atLineStart = false) : b.newline.text.Neat := by
  obtain ⟨upper, htext, -⟩ := b.text_eq_upper
  have hseen : ∃ c ∈ b.currentLine, c ≠ ' ' := by
    obtain ⟨c, hc, hne⟩ := List.all_eq_false.1 hline
    exact ⟨c, hc, by simpa using hne⟩
  obtain ⟨d, hlast, hd⟩ := exists_shown_last (newline_notMem_lastRow b.text) hseen
  have htrim : b.trimSpaces.text.getLast? = some d := by
    have hsplit := LineBreak.dropEndWhile_append_of_mem (s := upper) hseen
    rw [text_trimSpaces, htext, hsplit, List.getLast?_append, currentLine, hlast]
    rfl
  exact (neat_trimSpaces h).newline_of_shown htrim hd

theorem neat_ensureNewline (h : b.text.Neat) : b.ensureNewline.text.Neat := by
  unfold ensureNewline
  split
  · exact h
  · split
    · exact neat_trimSpaces h
    · rename_i hline
      exact neat_newline h (Bool.eq_false_iff.2 hline)

theorem neat_ensureParagraph (h : b.text.Neat) : b.ensureParagraph.text.Neat := by
  rcases b.ensureParagraph_spec with ⟨heq, -⟩ | ⟨heq, hlabel, hne, hgap⟩
  · rw [heq]
    exact neat_ensureNewline h
  · have hline := b.ensureNewline_cases.resolve_left fun h => Bool.eq_false_iff.1 hlabel h.1
    have hlast := (text_of_currentLine hline).resolve_left hne
    rw [heq]
    exact (neat_ensureNewline h).newline hne (by rw [hlast]; decide) hgap

end Buffer

namespace Page
open Text LineBreak
variable {rules : Rules} {p : Page} {b : Buffer} {line t : Text} {pos indentation width : Nat}

/-- A line is split behind something to see. -/
theorem exists_ne_space_of_findBreak (h : findBreak rules line indentation width = some pos) :
    ∃ c ∈ line.take pos, c ≠ ' ' := by
  obtain ⟨cut, rfl, hchosen⟩ := chosen_of_findBreak h
  have hcut := hchosen.mem
  unfold usableCuts at hcut
  generalize reserved indentation 0 0 line = place at hcut
  obtain ⟨n, m⟩ := place
  dsimp only at hcut
  cases hdrop : line.drop n with
  | nil =>
    rw [hdrop] at hcut
    cases hcut
  | cons c t =>
    rw [hdrop] at hcut
    obtain ⟨l, a, r, rfl, hseen, rfl⟩ := mem_cutsFrom.1 hcut
    have hlength := congrArg List.length hdrop
    rw [List.length_drop, List.length_cons] at hlength
    have htake : line.take (n + 1 + l.length) = line.take n ++ c :: l := by
      have hsplit : line = line.take n ++ c :: l ++ a :: r := by
        conv_lhs => rw [← List.take_append_drop n line, hdrop]
        simp
      conv_lhs => rw [hsplit]
      refine List.take_left' ?_
      rw [List.length_append, List.length_take, List.length_cons]
      omega
    rw [htake]
    rcases hseen with hc | ⟨d, hd, hne⟩
    · exact ⟨c, by simp, by simpa using hc⟩
    · exact ⟨d, by simp [hd], hne⟩

theorem neat_cutLine (indentation : Nat) (h : b.text.Neat)
    (hseen : ∃ c ∈ b.currentLine.take pos, c ≠ ' ') :
    (b.splice (b.lineStart + (splitLine b.currentLine pos).1.size)
      (b.currentLine.size - (splitLine b.currentLine pos).1.size -
        (splitLine b.currentLine pos).2.size) ('\n' :: spaces indentation)).text.Neat := by
  obtain ⟨upper, k, htext, hcut⟩ := text_cutLine b pos indentation
  have hline : '\n' ∉ b.currentLine := newline_notMem_lastRow b.text
  have hright : InLine (splitLine b.currentLine pos).2 := fun c hc => by
    have hmem : c ∈ b.currentLine := List.mem_of_mem_drop ((List.dropWhile_sublist _).subset hc)
    have hne : c ≠ '\n' := fun hc => hline (hc ▸ hmem)
    exact ⟨hne, fun hblank => (h.blanks c (mem_of_mem_lastRow hmem) hblank).resolve_right hne⟩
  obtain ⟨d, hlast, hd⟩ : ∃ d, (splitLine b.currentLine pos).1.getLast? = some d ∧ Shown d :=
    exists_shown_last (fun hmem => hline (List.mem_of_mem_take hmem)) hseen
  have hleft : Neat (upper ++ (splitLine b.currentLine pos).1 ++ ['\n']) := by
    refine Neat.newline_of_shown (h.of_isPrefix ?_) (d := d) ?_ hd
    · rw [htext, List.append_assoc _ (spaces k)]
      exact List.prefix_append _ _
    · rw [List.getLast?_append, hlast]
      rfl
  rw [hcut, List.append_assoc, List.cons_append, List.append_cons]
  exact hleft.append ((inLine_spaces indentation).append hright)

theorem neat_foldLine (rules : Rules) (indentation width : Nat) (b : Buffer) (h : b.text.Neat) :
    (foldLine rules indentation width b).text.Neat := by
  fun_induction foldLine rules indentation width b with
  | case1 b hfits => exact h
  | case2 b line hwide hnone => exact h
  | case3 b line hwide pos hpos left right hsplit hempty => exact Buffer.neat_trimSpaces h
  | case4 b line hwide pos hpos left right hsplit hne b' hlt ih =>
    have hcut := neat_cutLine indentation h (exists_ne_space_of_findBreak hpos)
    rw [show splitLine b.currentLine pos = (left, right) from hsplit] at hcut
    exact ih hcut
  | case5 b line hwide pos hpos left right hsplit hne b' hlt =>
    have hcut := neat_cutLine indentation h (exists_ne_space_of_findBreak hpos)
    rwa [show splitLine b.currentLine pos = (left, right) from hsplit] at hcut

/-! ### Wrapped text -/

theorem text_dropSpace_isPrefix (rules : Rules) (c : Char) (p : Page) :
    (p.dropSpace rules c).buffer.text <+: p.buffer.text := by
  unfold dropSpace
  split
  · rename_i h
    obtain ⟨l, htext, hpos⟩ := text_of_spaceUnwanted h
    have hsplice := Buffer.splice_eq htext []
    rw [size_spaces] at hsplice
    change (p.buffer.splice (p.buffer.size - 1) 1 []).text <+: p.buffer.text
    rw [hpos, hsplice, htext]
    simp
  · exact List.prefix_refl _

theorem neat_placeWord (rules : Rules) (spaceBefore : Bool) (h : p.buffer.text.Neat)
    (hne : t ≠ []) (ht : ∀ c ∈ t, isBlank c = false) :
    (p.placeWord rules spaceBefore t).buffer.text.Neat := by
  obtain ⟨c, t, rfl⟩ := List.exists_cons_of_ne_nil hne
  obtain ⟨q, hq, -, k, htext, -⟩ := p.text_spaced spaceBefore
  have hspaced : q.buffer.text.Neat := by
    rw [htext]
    exact h.append (inLine_spaces k)
  have hdrop := hspaced.of_isPrefix (text_dropSpace_isPrefix rules c q)
  rw [placeWord_eq, hq]
  exact neat_foldLine rules _ _ _ (hdrop.append (inLine_of_solid ht))

theorem neat_placeWords (rules : Rules) (ws : List Text) (spaceBefore : Bool)
    (h : p.buffer.text.Neat) (hws : ∀ w ∈ ws, w ≠ [] ∧ ∀ c ∈ w, isBlank c = false) :
    (p.placeWords rules spaceBefore ws).buffer.text.Neat := by
  induction ws generalizing p spaceBefore with
  | nil => exact h
  | cons w ws ih =>
    obtain ⟨hne, hw⟩ := hws w List.mem_cons_self
    exact ih true (neat_placeWord rules spaceBefore h hne hw) fun w hw =>
      hws w (List.mem_cons_of_mem _ hw)

theorem neat_space (h : p.buffer.text.Neat) : p.space.buffer.text.Neat := by
  rcases p.space_cases with heq | ⟨-, heq⟩
  · rwa [heq]
  · rw [heq]
    exact h.append (inLine_spaces 1)

/-- Inserting wrapped text keeps the page neat. -/
theorem neat_insert (rules : Rules) (t : Text) (hfold : p.layout.fold = .wrap)
    (h : p.buffer.text.Neat) : (p.insert rules t).buffer.text.Neat := by
  have hfresh : (p.freshFor t).buffer.text.Neat := by
    unfold freshFor
    split
    · rename_i hif
      refine Buffer.neat_newline h ?_
      simp_all
    · exact h
  have hwords := neat_placeWords rules t.words ((t.head?.map isBlank).getD false) hfresh
    fun w hw => ⟨ne_nil_of_mem_words hw, fun c hc => not_isBlank_of_mem_words hw hc⟩
  rw [buffer_insert, hfold]
  split
  · exact h
  · dsimp only
    unfold insertWrapped
    dsimp only
    split
    · exact neat_space hwords
    · exact hwords

end Page
end MarkupText
