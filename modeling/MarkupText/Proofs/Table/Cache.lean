import MarkupText.Table.Cache

/-!
# What a cache keeps

`Cache.Sound` says that every key is kept once, with a cell that it stands for; `Cache.Grown` says
that since an earlier state as many cells were kept as were not found. Finding a cell and keeping
one that was not found preserve both.
-/

namespace MarkupText.Cache

variable {κ : Type} {stands : κ → Cell → Prop} {light light' : κ → Prop} {c c₀ c₁ : Cache κ}
  {key : κ} {cell : Cell}

def keys (c : Cache κ) : List κ := c.entries.map (·.1)

/-- Every key is kept once, with a cell that it stands for. -/
structure Sound (stands : κ → Cell → Prop) (c : Cache κ) : Prop where
  nodup : c.keys.Nodup
  stands : ∀ e ∈ c.entries, stands e.1 e.2

/-- Since `c₀`, a cell was kept for each that was not found, under a key that is `light`. -/
structure Grown (light : κ → Prop) (c₀ c : Cache κ) : Prop where
  balance : c.misses + c₀.size = c₀.misses + c.size
  light : ∀ k ∈ c.keys, k ∈ c₀.keys ∨ light k

theorem Grown.refl (light : κ → Prop) (c : Cache κ) : Grown light c c := ⟨rfl, fun _ hk => .inl hk⟩

theorem Grown.trans (h₁ : Grown light c₀ c₁) (h₂ : Grown light c₁ c) : Grown light c₀ c := by
  refine ⟨?_, fun k hk => (h₂.light k hk).elim (h₁.light k) .inr⟩
  have := h₁.balance
  have := h₂.balance
  omega

theorem Grown.mono (h : Grown light c₀ c) (hle : ∀ k, light k → light' k) : Grown light' c₀ c :=
  ⟨h.balance, fun k hk => (h.light k hk).imp_right (hle k)⟩

variable [DecidableEq κ]

theorem Sound.find? (h : c.Sound stands) (hfind : c.find? key = some cell) : stands key cell := by
  obtain ⟨e, he, rfl⟩ := Option.map_eq_some_iff.1 hfind
  have hkey : e.1 = key := by simpa using List.find?_some he
  exact hkey ▸ h.stands e (List.mem_of_find?_eq_some he)

theorem not_mem_keys (h : c.find? key = none) : key ∉ c.keys := by
  intro hkey
  obtain ⟨e, he, rfl⟩ := List.mem_map.1 hkey
  have hnone := List.find?_eq_none.1 (Option.map_eq_none_iff.1 h) e he
  exact hnone (decide_eq_true rfl)

theorem entries_store (h : key ∉ c.keys) :
    (c.store key cell).entries = (key, cell) :: c.entries := by
  have hne : ∀ e ∈ c.entries, e.1 ≠ key := fun e he hkey => h (List.mem_map.2 ⟨e, he, hkey⟩)
  exact congrArg _ (List.filter_eq_self.2 fun e he => decide_eq_true (hne e he))

theorem Sound.store (h : c.Sound stands) (hkey : key ∉ c.keys) (hcell : stands key cell) :
    (c.store key cell).Sound stands := by
  refine ⟨?_, fun e he => ?_⟩
  · rw [keys, entries_store hkey]
    exact List.nodup_cons.2 ⟨hkey, h.nodup⟩
  · rw [entries_store hkey] at he
    rcases List.mem_cons.1 he with rfl | he
    · exact hcell
    · exact h.stands e he

/-- A cell is kept that was not found; others with lighter keys may have been kept meanwhile. -/
theorem Grown.store (h : Grown light { c with misses := c.misses + 1 } c₁) (hkey : key ∉ c₁.keys)
    (hlight : light key) : Grown light c (c₁.store key cell) := by
  refine ⟨?_, fun k hk => ?_⟩
  · have := h.balance
    rw [size, size] at *
    rw [entries_store hkey, List.length_cons]
    change c₁.misses + _ = _
    simp only at this
    omega
  · rw [keys, entries_store hkey] at hk
    rcases List.mem_cons.1 hk with rfl | hk
    · exact .inr hlight
    · exact h.light k hk

end MarkupText.Cache
