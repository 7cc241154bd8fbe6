import MarkupText.Proofs.Buffer.Placeholders
import MarkupText.Proofs.Text.Rank

/-!
# Placeholders under edits

While a page is written, a placeholder stays over the characters that it stands for, and a newline
that ends its line stays behind it (`Buffer.Stays`). Text that is put behind everything else keeps
all placeholders so (`Carries.grows`), and so does flowing text (`Carries.flow`).
-/

namespace MarkupText

open Text

namespace Buffer
variable {b c d : Buffer} {a a' : Span} {u : Text} {p : Char → Bool}

/-- A newline stands behind the span, and no character with `p` in front of the newline. -/
def Ends (p : Char → Bool) (b : Buffer) (a : Span) : Prop :=
  ∃ n, At b.text n '\n' ∧ a.stop ≤ n ∧ rank p b.text n = rank p b.text a.stop

/-- The visible characters under a span. -/
def under (b : Buffer) (a : Span) : Text :=
  (b.text.visible.take (b.text.seen a.stop)).drop (b.text.seen a.start)

/-- The span `a'` of `c` stands for the characters for which `a` stands in `b`. -/
structure Stays (b c : Buffer) (a a' : Span) : Prop where
  mark : a'.mark = a.mark
  rank_start : ∀ {p : Char → Bool}, (∀ d, p d = true → Shown d) →
    rank p c.text a'.start = rank p b.text a.start
  rank_stop : ∀ {p : Char → Bool}, (∀ d, p d = true → Shown d) →
    rank p c.text a'.stop = rank p b.text a.stop
  ends : ∀ {p : Char → Bool}, (∀ d, p d = true → Shown d) → b.Ends p a → c.Ends p a'

/-- The buffer `c` comes from `b` by writing, with the placeholders as they were. -/
structure Carries (b c : Buffer) : Prop where
  visible : b.text.visible <+: c.text.visible
  count : ∀ {p : Char → Bool}, (∀ d, p d = true → Shown d) → b.text.countP p ≤ c.text.countP p
  images : ∃ f : Span → Span, c.images = b.images.map f ∧ ∀ a ∈ b.images, Stays b c a (f a)

theorem Stays.refl (a : Span) : Stays b b a a := ⟨rfl, fun _ => rfl, fun _ => rfl, fun _ => id⟩

theorem Stays.trans {a'' : Span} (h₁ : Stays b c a a') (h₂ : Stays c d a' a'') :
    Stays b d a a'' where
  mark := h₂.mark.trans h₁.mark
  rank_start hp := (h₂.rank_start hp).trans (h₁.rank_start hp)
  rank_stop hp := (h₂.rank_stop hp).trans (h₁.rank_stop hp)
  ends hp h := h₂.ends hp (h₁.ends hp h)

theorem Stays.under (h : Stays b c a a') (hvisible : b.text.visible <+: c.text.visible) :
    c.under a' = b.under a := by
  obtain ⟨v, hv⟩ := hvisible
  have hstart : c.text.seen a'.start = b.text.seen a.start := h.rank_start shown_of_visible
  have hstop : c.text.seen a'.stop = b.text.seen a.stop := h.rank_stop shown_of_visible
  unfold Buffer.under
  rw [hstart, hstop, ← hv, List.take_append_of_le_length (seen_le_length ..)]

namespace Carries

theorem refl (b : Buffer) : Carries b b :=
  ⟨List.prefix_refl _, fun _ => Nat.le_refl _, id, (List.map_id _).symm, fun a _ => .refl a⟩

theorem trans (h₁ : Carries b c) (h₂ : Carries c d) : Carries b d where
  visible := h₁.visible.trans h₂.visible
  count hp := Nat.le_trans (h₁.count hp) (h₂.count hp)
  images := by
    obtain ⟨f, hf, hstays⟩ := h₁.images
    obtain ⟨g, hg, hstays'⟩ := h₂.images
    refine ⟨g ∘ f, by rw [hg, hf, List.map_map], fun a ha => (hstays a ha).trans (hstays' _ ?_)⟩
    rw [hf]
    exact List.mem_map_of_mem ha

theorem exists_getElem? {j : Nat} (h : Carries b c) (ha : c.images[j]? = some a') :
    ∃ a, b.images[j]? = some a ∧ Stays b c a a' := by
  obtain ⟨f, hf, hstays⟩ := h.images
  rw [hf, List.getElem?_map] at ha
  obtain ⟨a, hget, rfl⟩ := Option.map_eq_some_iff.1 ha
  exact ⟨a, hget, hstays a (List.mem_of_getElem? hget)⟩

theorem exists_image (h : Carries b c) (ha : a' ∈ c.images) : ∃ a ∈ b.images, Stays b c a a' := by
  obtain ⟨j, hj⟩ := List.mem_iff_getElem?.1 ha
  obtain ⟨a, hget, hstays⟩ := h.exists_getElem? hj
  exact ⟨a, List.mem_of_getElem? hget, hstays⟩

theorem length_images (h : Carries b c) : c.images.length = b.images.length := by
  obtain ⟨f, hf, -⟩ := h.images
  rw [hf, List.length_map]

theorem marks (h : Carries b c) : c.images.map (·.mark) = b.images.map (·.mark) := by
  obtain ⟨f, hf, hstays⟩ := h.images
  rw [hf, List.map_map]
  exact List.map_congr_left fun a ha => (hstays a ha).mark

/-- Text may be put behind everything else. -/
theorem append (hb : b.Placed) (htext : c.text = b.text ++ u) (himages : c.images = b.images) :
    Carries b c where
  visible := ⟨u.visible, by rw [htext, visible_append]⟩
  count _ := by rw [htext, List.countP_append]; exact Nat.le_add_right ..
  images := by
    refine ⟨id, by rw [himages, List.map_id], fun a ha => ?_⟩
    obtain ⟨hstart, hstop⟩ := hb.below.spans a (mem_images.1 ha).1
    refine ⟨rfl, fun _ => ?_, fun _ => ?_, fun _ ⟨n, hn, hle, hrank⟩ => ⟨n, ?_, hle, ?_⟩⟩
    · rw [htext]
      exact rank_append_right hstart u
    · rw [htext]
      exact rank_append_right hstop u
    · rw [htext]
      exact hn.append_right u
    · rw [htext]
      exact (rank_append_right (Nat.le_of_lt hn.lt_size) u).trans
        (hrank.trans (rank_append_right hstop u).symm)

theorem grows (hb : b.Placed) (h : Grows b c) : Carries b c := by
  obtain ⟨u, htext⟩ := h.text
  exact append hb htext h.images

theorem flow (hb : b.Placed) (h : Flow u b c) : Carries b c := by
  have hrun : Run RangeRule.tight u b c := h.run
  obtain ⟨σ, τ, hmoves⟩ := h.moves
  refine ⟨⟨u, hrun.visible.symm⟩, fun {p} hp => ?_, ?_⟩
  · have hrank := hmoves.rank_start hp (Nat.le_refl b.size)
    rw [rank_of_size_le (Nat.le_refl b.size)] at hrank
    rw [← hrank]
    exact rank_le_countP ..
  · refine ⟨(·.move σ τ), hmoves.images, fun a ha => ?_⟩
    obtain ⟨hstart, hstop⟩ := hb.below.spans a (mem_images.1 ha).1
    refine ⟨rfl, fun hp => hmoves.rank_start hp hstart, fun hp => hmoves.rank_stop hp hstop, ?_⟩
    rintro p hp ⟨n, hn, hle, hrank⟩
    refine ⟨σ n, (hmoves.at_start hn (by decide)).1,
      Nat.le_trans (hmoves.stop_mono hle) (hmoves.stop_le_start n), ?_⟩
    exact (hmoves.rank_start hp (Nat.le_of_lt hn.lt_size)).trans
      (hrank.trans (hmoves.rank_stop hp hstop).symm)

end Carries
end Buffer
end MarkupText
