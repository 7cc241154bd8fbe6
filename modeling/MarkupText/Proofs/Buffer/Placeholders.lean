import MarkupText.Proofs.Buffer.Moves
import MarkupText.Proofs.Render.Edits

/-!
# Placeholders in a buffer

Images are marked by spans like everything else. `Buffer.Placed` says how these placeholders lie in
a buffer: each begins and ends with a shown character, and a newline stands between two. Flowing
text keeps that (`Placed.moves`), and so does marking a range, if it is not for an image
(`Grows.annotate`) or lies behind everything that is there (`Placed.annotate_image`).
-/

namespace MarkupText

open Text

def Mark.isImage : Mark → Bool
  | .image _ => true
  | _ => false

namespace Buffer

/-- The placeholders, in the order in which they were marked. -/
def images (b : Buffer) : List Span := b.spans.filter (·.mark.isImage)

/-- A newline stands behind the span. -/
def Broken (b : Buffer) (p : Span) : Prop := ∃ n, At b.text n '\n' ∧ p.stop ≤ n

/-- A newline stands between the spans. -/
def Apart (t : Text) (p q : Span) : Prop := ∃ n, At t n '\n' ∧ p.stop ≤ n ∧ n < q.start

/-- No span and no label ends behind `n`. -/
structure Below (b : Buffer) (n : Nat) : Prop where
  spans : ∀ a ∈ b.spans, a.start ≤ n ∧ a.stop ≤ n
  label : ∀ m ∈ b.labelEnd, m ≤ n

/-- How placeholders lie in a buffer. -/
structure Placed (b : Buffer) : Prop where
  below : b.Below b.size
  tight : ∀ p ∈ b.images, RangeRule.tight b.text p.start p.stop
  /-- A placeholder without a newline behind it was written after the last label. -/
  label : ∀ p ∈ b.images, ∀ n ∈ b.labelEnd, n ≤ p.start ∨ b.Broken p
  apart : b.images.Pairwise (Apart b.text)

variable {σ τ : Nat → Nat} {b c : Buffer} {p q : Span} {n start stop s e : Nat} {mark : Mark}

theorem mem_images : p ∈ b.images ↔ p ∈ b.spans ∧ p.mark.isImage = true := List.mem_filter

/-! ### Positions that move -/

theorem Moves.images (h : Moves σ τ b c) : c.images = b.images.map (·.move σ τ) := by
  rw [Buffer.images, h.spans, List.filter_map]
  rfl

theorem Broken.move (h : Moves σ τ b c) (hp : b.Broken p) : c.Broken (p.move σ τ) := by
  obtain ⟨n, hn, hle⟩ := hp
  exact ⟨σ n, (h.at_start hn (by decide)).1,
    Nat.le_trans (h.stop_mono hle) (h.stop_le_start n)⟩

theorem Apart.move (h : Moves σ τ b c) (hpq : Apart b.text p q) :
    Apart c.text (p.move σ τ) (q.move σ τ) := by
  obtain ⟨n, hn, hp, hq⟩ := hpq
  obtain ⟨hat, hstop⟩ := h.at_start hn (by decide)
  refine ⟨σ n, hat, Nat.le_trans (h.stop_mono hp) (h.stop_le_start n), ?_⟩
  have hlt : τ (n + 1) ≤ σ q.start := Nat.le_trans (h.stop_mono hq) (h.stop_le_start q.start)
  change τ (n + 1) = σ n + 1 at hstop
  change σ n < σ q.start
  omega

theorem Below.mono {m : Nat} (hb : b.Below n) (h : n ≤ m) : b.Below m where
  spans a ha := ⟨Nat.le_trans (hb.spans a ha).1 h, Nat.le_trans (hb.spans a ha).2 h⟩
  label k hk := Nat.le_trans (hb.label k hk) h

theorem Below.moves (h : Moves σ τ b c) (hb : b.Below n) : c.Below (σ n) where
  spans a ha := by
    rw [h.spans] at ha
    obtain ⟨a₀, ha₀, rfl⟩ := List.mem_map.1 ha
    obtain ⟨hstart, hstop⟩ := hb.spans a₀ ha₀
    exact ⟨h.start_mono hstart, Nat.le_trans (h.stop_le_start _) (h.start_mono hstop)⟩
  label m hm := by
    rw [h.labelEnd] at hm
    obtain ⟨m₀, hm₀, rfl⟩ := Option.map_eq_some_iff.1 hm
    exact Nat.le_trans (h.stop_le_start m₀) (h.start_mono (hb.label m₀ hm₀))

theorem Placed.moves (h : Moves σ τ b c) (hb : b.Placed) : c.Placed := by
  have hmem {p : Span} (hp : p ∈ c.images) : ∃ p₀ ∈ b.images, p₀.move σ τ = p := by
    rw [h.images] at hp
    exact List.mem_map.1 hp
  refine ⟨(hb.below.moves h).mono (h.start_le (Nat.le_refl _)), fun p hp => ?_, fun p hp n hn => ?_,
    ?_⟩
  · obtain ⟨p₀, hp₀, rfl⟩ := hmem hp
    exact ⟨h.lead (hb.tight p₀ hp₀).1, h.trail (hb.tight p₀ hp₀).2⟩
  · obtain ⟨p₀, hp₀, rfl⟩ := hmem hp
    rw [h.labelEnd] at hn
    obtain ⟨n₀, hn₀, rfl⟩ := Option.map_eq_some_iff.1 hn
    rcases hb.label p₀ hp₀ n₀ hn₀ with hle | hbroken
    · exact .inl (Nat.le_trans (h.stop_le_start n₀) (h.start_mono hle))
    · exact .inr (hbroken.move h)
  · rw [h.images]
    exact hb.apart.map _ fun _ _ => Apart.move h

/-! ### Regions and labels -/

theorem Below.closeRegion (hb : b.Below n) : b.closeRegion.2.Below n := by
  unfold Buffer.closeRegion
  split
  · exact hb
  · exact ⟨hb.spans, hb.label⟩

theorem Placed.of_regions (hb : b.Placed) (htext : c.text = b.text) (hspans : c.spans = b.spans)
    (hlabel : c.labelEnd = b.labelEnd) : c.Placed := by
  obtain ⟨text, spans, regions, labelEnd⟩ := c
  obtain rfl : text = b.text := htext
  obtain rfl : spans = b.spans := hspans
  obtain rfl : labelEnd = b.labelEnd := hlabel
  exact ⟨⟨hb.below.spans, hb.below.label⟩, hb.tight, hb.label, hb.apart⟩

theorem Placed.push (hb : b.Placed) (t : Text) : (b.push t).Placed := hb.moves (.push b t)

/-- The buffer `c` comes from `b` by writing text that holds no placeholders and marking it. -/
structure Grows (b c : Buffer) : Prop where
  placed : c.Placed
  images : c.images = b.images
  text : ∃ u, c.text = b.text ++ u

namespace Grows
variable {d : Buffer}

theorem refl (hb : b.Placed) : Grows b b := ⟨hb, rfl, [], (List.append_nil _).symm⟩

theorem trans (h₁ : Grows b c) (h₂ : Grows c d) : Grows b d := by
  obtain ⟨u, hu⟩ := h₁.text
  obtain ⟨v, hv⟩ := h₂.text
  exact ⟨h₂.placed, h₂.images.trans h₁.images, u ++ v, by rw [hv, hu, List.append_assoc]⟩

theorem push (hb : b.Placed) (t : Text) : Grows b (b.push t) := ⟨hb.push t, rfl, t, rfl⟩

theorem broken (h : Grows b c) (hbroken : ∀ p ∈ b.images, b.Broken p) :
    ∀ p ∈ c.images, c.Broken p := by
  obtain ⟨u, hu⟩ := h.text
  intro p hp
  obtain ⟨n, hn, hle⟩ := hbroken p (h.images ▸ hp)
  exact ⟨n, hu ▸ hn.append_right u, hle⟩

end Grows

theorem Placed.pushLabel (hb : b.Placed) (hbroken : ∀ p ∈ b.images, b.Broken p) (t : Text) :
    (b.pushLabel t).Placed := by
  have hpush := hb.push t
  refine ⟨⟨hpush.below.spans, ?_⟩, hpush.tight,
    fun p hp n _ => .inr ((hbroken p hp).move (.push b t)), hpush.apart⟩
  intro n hn
  exact Nat.le_of_eq (Option.some.inj hn).symm

/-! ### Ends of lines -/

theorem Placed.start_lt (hb : b.Placed) (hp : p ∈ b.images) : p.start < b.size := by
  obtain ⟨d, hat, -⟩ := (hb.tight p hp).1
  have := hat.boundary_end.le
  have := d.utf8Size_pos
  change p.start < b.text.size
  omega

theorem broken_push_newline (hb : b.Below b.size) (hp : p ∈ b.images) :
    (b.push ['\n']).Broken p :=
  ⟨b.size, ⟨b.text, [], rfl, rfl⟩, (hb.spans p (mem_images.1 hp).1).2⟩

theorem broken_of_atLineStart (hb : b.Placed) (hline : b.atLineStart = true) (hp : p ∈ b.images) :
    b.Broken p := by
  obtain ⟨m, d, hat, hd, hstop⟩ := (hb.tight p hp).2
  have hspace : ∀ c ∈ b.currentLine, c = ' ' := fun c hc =>
    eq_of_beq (List.all_eq_true.1 hline c hc)
  have hrow : b.text = b.text.rdropWhile (· != '\n') ++ b.currentLine :=
    (List.rdropWhile_append_rtakeWhile (p := (· != '\n'))).symm
  have hbefore : At (b.text.rdropWhile (· != '\n')) m d := by
    rw [hrow] at hat
    rcases hat.append_cases with h | ⟨k, -, h⟩
    · exact h
    · exact absurd (hspace d h.mem) hd.1
  have hne : b.text.rdropWhile (· != '\n') ≠ [] := List.ne_nil_of_mem hbefore.mem
  have hlast : (b.text.rdropWhile (· != '\n')).getLast hne = '\n' := by
    simpa using List.rdropWhile_last_not (· != '\n') b.text hne
  have hsplit := List.dropLast_append_getLast hne
  rw [hlast] at hsplit
  rw [← hsplit] at hbefore
  rcases hbefore.append_cases with h | ⟨k, -, h⟩
  · refine ⟨_, ⟨(b.text.rdropWhile (· != '\n')).dropLast, b.currentLine, ?_, rfl⟩, ?_⟩
    · conv_lhs => rw [hrow, ← hsplit]
      simp
    · rw [← hstop]
      exact h.boundary_end.le
  · exact absurd (List.mem_singleton.1 h.mem) hd.2

theorem broken_newline (hb : b.Placed) (hp : p ∈ b.newline.images) : b.newline.Broken p := by
  obtain ⟨σ, τ, hmoves⟩ := b.flow_trimSpaces.moves
  exact broken_push_newline (hb.moves hmoves).below hp

theorem broken_ensureNewline (hb : b.Placed) (hp : p ∈ b.ensureNewline.images) :
    b.ensureNewline.Broken p := by
  unfold ensureNewline at hp ⊢
  split at hp
  · rename_i hlabel
    -- the label is the last thing on the page, and no placeholder was written after it
    rcases hb.label p hp b.size (eq_of_beq hlabel) with hle | hbroken
    · have := hb.start_lt hp
      omega
    · rwa [if_pos hlabel]
  · rename_i hlabel
    rw [if_neg hlabel]
    split at hp
    · rename_i hline
      rw [if_pos hline]
      obtain ⟨σ, τ, hmoves⟩ := b.flow_trimSpaces.moves
      rw [hmoves.images] at hp
      obtain ⟨p₀, hp₀, rfl⟩ := List.mem_map.1 hp
      exact (broken_of_atLineStart hb hline hp₀).move hmoves
    · rename_i hline
      rw [if_neg hline]
      exact broken_newline hb hp

theorem broken_ensureParagraph (hb : b.Placed) (hp : p ∈ b.ensureParagraph.images) :
    b.ensureParagraph.Broken p := by
  rcases b.ensureParagraph_spec with ⟨heq, -⟩ | ⟨heq, -⟩
  · rw [heq] at hp ⊢
    exact broken_ensureNewline hb hp
  · rw [heq] at hp ⊢
    obtain ⟨n, hn, hle⟩ := broken_ensureNewline hb (show p ∈ b.ensureNewline.images from hp)
    exact ⟨n, hn.append_right _, hle⟩

theorem Broken.flow {t : Text} (h : Flow t b c) (hbroken : ∀ p ∈ b.images, b.Broken p) :
    ∀ p ∈ c.images, c.Broken p := by
  obtain ⟨σ, τ, hmoves⟩ := h.moves
  intro p hp
  rw [hmoves.images] at hp
  obtain ⟨p₀, hp₀, rfl⟩ := List.mem_map.1 hp
  exact (hbroken p₀ hp₀).move hmoves

theorem Placed.flow {t : Text} (h : Flow t b c) (hb : b.Placed) : c.Placed := by
  obtain ⟨σ, τ, hmoves⟩ := h.moves
  exact hb.moves hmoves

/-! ### Marks -/

theorem images_annotate (hmark : mark.isImage = false) :
    (b.annotate start stop mark).images = b.images := by
  unfold annotate
  split
  · simp [images, hmark]
  · rfl

theorem Grows.annotate (hb : b.Placed) (hmark : mark.isImage = false) (start stop : Nat) :
    Grows b (b.annotate start stop mark) := by
  refine ⟨?_, images_annotate hmark, [], by rw [text_annotate, List.append_nil]⟩
  unfold Buffer.annotate
  split
  swap
  · exact hb
  rename_i h
  have himages : Buffer.images { b with spans := b.spans ++ [⟨start, stop, mark⟩] } = b.images := by
    simp [Buffer.images, hmark]
  refine ⟨⟨fun a ha => ?_, hb.below.label⟩, himages ▸ hb.tight, himages ▸ hb.label,
    himages ▸ hb.apart⟩
  rcases List.mem_append.1 ha with ha | ha
  · exact hb.below.spans a ha
  · rw [List.mem_singleton.1 ha]
    exact ⟨Nat.le_trans (Nat.le_of_lt h.1) h.2, h.2⟩

/-- A placeholder may be marked behind all other positions, with a newline after the others. -/
theorem Placed.annotate_image (hb : b.Placed) (htight : RangeRule.tight b.text s e)
    (hbelow : b.Below s) (request : ImageRequest)
    (hapart : ∀ p ∈ b.images, Apart b.text p ⟨s, e, .image request⟩) :
    (b.annotate s e (.image request)).Placed := by
  unfold Buffer.annotate
  split
  swap
  · exact hb
  rename_i hlt
  have himages : images { b with spans := b.spans ++ [⟨s, e, .image request⟩] } =
      b.images ++ [⟨s, e, .image request⟩] := by
    simp [images, Mark.isImage]
  have hcases {p : Span} (hp : p ∈ images { b with spans := b.spans ++ [⟨s, e, .image request⟩] }) :
      p ∈ b.images ∨ p = ⟨s, e, .image request⟩ := by
    rw [himages] at hp
    exact (List.mem_append.1 hp).imp id List.mem_singleton.1
  refine ⟨⟨fun a ha => ?_, hb.below.label⟩, fun p hp => ?_, fun p hp n hn => ?_, ?_⟩
  · rcases List.mem_append.1 ha with ha | ha
    · exact hb.below.spans a ha
    · rw [List.mem_singleton.1 ha]
      exact ⟨Nat.le_trans (Nat.le_of_lt hlt.1) hlt.2, hlt.2⟩
  · rcases hcases hp with hp | rfl
    · exact hb.tight p hp
    · exact htight
  · rcases hcases hp with hp | rfl
    · exact hb.label p hp n hn
    · exact .inl (hbelow.label n hn)
  · rw [himages]
    exact List.pairwise_append.2 ⟨hb.apart, List.pairwise_singleton _ _, fun p hp q hq =>
      List.mem_singleton.1 hq ▸ hapart p hp⟩

theorem Grows.markVisible (hb : b.Placed) (hmark : mark.isImage = false) (start stop : Nat) :
    Grows b (b.markVisible start stop mark) := by
  unfold Buffer.markVisible
  split
  · exact .annotate hb hmark _ _
  · exact .refl hb

theorem Grows.colorize (hb : b.Placed) (start : Nat) (colors : ColorPair) :
    Grows b (b.colorize start colors) :=
  colorize_induct colors
    (fun _ start stop hc => hc.trans (.markVisible hc.placed rfl start stop)) (.refl hb) start

theorem Grows.openRegion (hb : b.Placed) : Grows b b.openRegion :=
  ⟨hb.of_regions rfl rfl rfl, rfl, [], (List.append_nil _).symm⟩

theorem Grows.closeRegion (hb : b.Placed) : Grows b b.closeRegion.2 where
  placed := hb.of_regions b.text_closeRegion b.spans_closeRegion
    (by unfold Buffer.closeRegion; split <;> rfl)
  images := by rw [Buffer.images, spans_closeRegion]; rfl
  text := ⟨[], by rw [text_closeRegion, List.append_nil]⟩

theorem Grows.endRegion (hb : b.Placed) (hmark : mark.isImage = false) :
    Grows b (b.endRegion mark) :=
  have hclosed := Grows.closeRegion hb
  hclosed.trans (.markVisible hclosed.placed hmark _ _)

theorem Grows.endColors (hb : b.Placed) (colors : ColorPair) : Grows b (b.endColors colors) :=
  have hclosed := Grows.closeRegion hb
  hclosed.trans (.colorize hclosed.placed _ colors)

end Buffer
end MarkupText
