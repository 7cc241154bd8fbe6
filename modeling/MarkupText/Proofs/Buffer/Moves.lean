import MarkupText.Proofs.Buffer.Run
import MarkupText.Proofs.Text.Rank

/-!
# Where positions go

Flowing text moves the starts of spans and open regions by one function and the ends of spans and
labels by another (`Flow.moves`). Both keep the order of positions, the characters that start or end
at them and their ranks, and neither moves an end behind a start at the same place.
-/

namespace MarkupText

open Text

theorem movedStart_mono {pos removed inserted m n : Nat} (h : m ≤ n) :
    movedStart pos removed inserted m ≤ movedStart pos removed inserted n := by
  unfold movedStart
  repeat' split
  all_goals omega

theorem movedStop_mono {pos removed inserted m n : Nat} (h : m ≤ n) :
    movedStop pos removed inserted m ≤ movedStop pos removed inserted n := by
  unfold movedStop
  repeat' split
  all_goals omega

theorem movedStop_le_movedStart (pos removed inserted n : Nat) :
    movedStop pos removed inserted n ≤ movedStart pos removed inserted n := by
  unfold movedStop movedStart
  repeat' split
  all_goals omega

/-- A span with its ends moved. -/
def Span.move (σ τ : Nat → Nat) (a : Span) : Span := { a with start := σ a.start, stop := τ a.stop }

namespace Buffer

/-- The buffer `c` comes from `b` by moving starts by `σ` and ends by `τ`. -/
structure Moves (σ τ : Nat → Nat) (b c : Buffer) : Prop where
  spans : c.spans = b.spans.map (·.move σ τ)
  regions : c.regions = b.regions.map σ
  labelEnd : c.labelEnd = b.labelEnd.map τ
  start_mono : ∀ {m n}, m ≤ n → σ m ≤ σ n
  stop_mono : ∀ {m n}, m ≤ n → τ m ≤ τ n
  stop_le_start : ∀ n, τ n ≤ σ n
  start_le : ∀ {n}, n ≤ b.size → σ n ≤ c.size
  boundary : ∀ {n}, Boundary b.text n → Boundary c.text (σ n)
  rank_start : ∀ {p : Char → Bool}, (∀ c, p c = true → Shown c) → ∀ {n}, n ≤ b.size →
    rank p c.text (σ n) = rank p b.text n
  rank_stop : ∀ {p : Char → Bool}, (∀ c, p c = true → Shown c) → ∀ {n}, n ≤ b.size →
    rank p c.text (τ n) = rank p b.text n
  at_start : ∀ {n d}, At b.text n d → d ≠ ' ' →
    At c.text (σ n) d ∧ τ (n + d.utf8Size) = σ n + d.utf8Size

namespace Moves
variable {σ τ σ' τ' : Nat → Nat} {b c d : Buffer} {n : Nat}

theorem refl (b : Buffer) : Moves id id b b where
  spans := (List.map_id _).symm
  regions := (List.map_id _).symm
  labelEnd := Option.map_id_apply.symm
  start_mono := id
  stop_mono := id
  stop_le_start _ := Nat.le_refl _
  start_le := id
  boundary := id
  rank_start _ _ _ := rfl
  rank_stop _ _ _ := rfl
  at_start h _ := ⟨h, rfl⟩

theorem stop_le (h : Moves σ τ b c) (hn : n ≤ b.size) : τ n ≤ c.size :=
  Nat.le_trans (h.stop_le_start n) (h.start_le hn)

theorem trans (h₁ : Moves σ τ b c) (h₂ : Moves σ' τ' c d) : Moves (σ' ∘ σ) (τ' ∘ τ) b d where
  spans := by rw [h₂.spans, h₁.spans, List.map_map]; rfl
  regions := by rw [h₂.regions, h₁.regions, List.map_map]
  labelEnd := by rw [h₂.labelEnd, h₁.labelEnd, Option.map_map]
  start_mono h := h₂.start_mono (h₁.start_mono h)
  stop_mono h := h₂.stop_mono (h₁.stop_mono h)
  stop_le_start n :=
    Nat.le_trans (h₂.stop_mono (h₁.stop_le_start n)) (h₂.stop_le_start (σ n))
  start_le hn := h₂.start_le (h₁.start_le hn)
  boundary hn := h₂.boundary (h₁.boundary hn)
  rank_start hp _ hn := (h₂.rank_start hp (h₁.start_le hn)).trans (h₁.rank_start hp hn)
  rank_stop hp _ hn := (h₂.rank_stop hp (h₁.stop_le hn)).trans (h₁.rank_stop hp hn)
  at_start hat hd := by
    obtain ⟨hat₁, hstop₁⟩ := h₁.at_start hat hd
    obtain ⟨hat₂, hstop₂⟩ := h₂.at_start hat₁ hd
    exact ⟨hat₂, by rw [Function.comp_apply, hstop₁, hstop₂]; rfl⟩

theorem push (b : Buffer) (t : Text) : Moves id id b (b.push t) where
  spans := (List.map_id _).symm
  regions := (List.map_id _).symm
  labelEnd := Option.map_id_apply.symm
  start_mono := id
  stop_mono := id
  stop_le_start _ := Nat.le_refl _
  start_le hn := by rw [size_push]; exact Nat.le_add_right_of_le hn
  boundary hn := hn.append_right t
  rank_start _ _ hn := rank_append_right hn t
  rank_stop _ _ hn := rank_append_right hn t
  at_start h _ := ⟨h.append_right t, rfl⟩

theorem splice {l r i : Text} {k : Nat} (h : b.text = l ++ spaces k ++ r)
    (hi : ∀ c ∈ i, ¬ Shown c) : Moves (movedStart l.size k i.size) (movedStop l.size k i.size) b
      (b.splice l.size k i) := by
  have hs := splice_eq h i
  rw [size_spaces] at hs
  have hb : b.size = l.size + k + r.size := by
    rw [Buffer.size, h]
    simp only [size_append, size_spaces]
  have hrank {p : Char → Bool} (hp : ∀ c, p c = true → Shown c) :
      (∀ c ∈ spaces k, p c = false) ∧ ∀ c ∈ i, p c = false := by
    constructor <;> intro c hc <;> by_contra hpc
    · have := hp c (Bool.not_eq_false _ ▸ hpc)
      rw [List.eq_of_mem_replicate hc] at this
      exact absurd this (by decide)
    · exact hi c hc (hp c (Bool.not_eq_false _ ▸ hpc))
  rw [hs]
  exact
    { spans := rfl
      regions := rfl
      labelEnd := rfl
      start_mono := movedStart_mono
      stop_mono := movedStop_mono
      stop_le_start := movedStop_le_movedStart _ _ _
      start_le := by
        intro n hn
        rw [Buffer.size, size_append, size_append]
        unfold movedStart
        repeat' split
        all_goals omega
      boundary := by
        intro n hn
        have hmoved := (h ▸ hn).movedStart (i := i)
        rwa [size_spaces] at hmoved
      rank_start := by
        intro p hp n _
        have := rank_movedStart (l := l) (r := r) (hrank hp).1 (hrank hp).2 n
        rwa [size_spaces, ← h] at this
      rank_stop := by
        intro p hp n _
        have := rank_movedStop (l := l) (r := r) (hrank hp).1 (hrank hp).2 n
        rwa [size_spaces, ← h] at this
      at_start := fun hat hd => (h ▸ hat).edit hd }

theorem lead (h : Moves σ τ b c) (hn : Lead b.text n) : Lead c.text (σ n) := by
  obtain ⟨d, hat, hd⟩ := hn
  exact ⟨d, (h.at_start hat hd.1).1, hd⟩

theorem trail (h : Moves σ τ b c) (hn : Trail b.text n) : Trail c.text (τ n) := by
  obtain ⟨m, d, hat, hd, rfl⟩ := hn
  obtain ⟨hat', hstop⟩ := h.at_start hat hd.1
  exact ⟨σ m, d, hat', hd, hstop.symm⟩

end Moves

theorem Flow.moves {t : Text} {b c : Buffer} (h : Flow t b c) : ∃ σ τ, Moves σ τ b c := by
  induction h with
  | refl b => exact ⟨_, _, .refl b⟩
  | trans _ _ ih₁ ih₂ =>
    obtain ⟨σ, τ, h₁⟩ := ih₁
    obtain ⟨σ', τ', h₂⟩ := ih₂
    exact ⟨_, _, h₁.trans h₂⟩
  | push b t => exact ⟨_, _, .push b t⟩
  | splice h hi => exact ⟨_, _, .splice h hi⟩

end Buffer
end MarkupText
