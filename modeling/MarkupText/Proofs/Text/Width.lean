import MarkupText.Text.Width

/-!
# Widths that add up

`cols` is the sum of the widths of the characters of a text. Where every character takes up its own
columns it is the width of the text (`width_eq_cols_of_plain`), so for printable ASCII
(`width_eq_cols`).
-/

namespace MarkupText.Text

variable {c : Char} {t : Text}

/-- The sum of the widths of the characters. -/
def cols : Text → Nat
  | [] => 0
  | c :: t => charWidth c + cols t

@[simp] theorem cols_nil : cols [] = 0 := rfl

@[simp] theorem cols_cons (c : Char) (t : Text) : cols (c :: t) = charWidth c + cols t := rfl

@[simp] theorem cols_append (s t : Text) : cols (s ++ t) = cols s + cols t := by
  induction s with
  | nil => exact (Nat.zero_add _).symm
  | cons c s ih => rw [List.cons_append, cols_cons, cols_cons, ih, Nat.add_assoc]

theorem charWidth_space : charWidth ' ' = 1 := by decide

@[simp] theorem cols_spaces (n : Nat) : cols (spaces n) = n := by
  induction n with
  | zero => rfl
  | succ n ih =>
    have hcons : spaces (n + 1) = ' ' :: spaces n := List.replicate_succ
    rw [hcons, cols_cons, ih, charWidth_space, Nat.add_comm]

/-- In front of characters that do so the character takes up its own columns. -/
def Plain (c : Char) : Prop := cellsBefore c {} = (↑(charWidth c), {})

instance (c : Char) : Decidable (Plain c) := inferInstanceAs (Decidable (_ = _))

theorem width_eq_cols_of_plain (h : ∀ c ∈ t, Plain c) : t.width = cols t := by
  have hmeasure : measure t = ((cols t : Int), {}) := by
    induction t with
    | nil => rfl
    | cons c t ih =>
      have hc : cellsBefore c {} = (↑(charWidth c), {}) := h c List.mem_cons_self
      have ht : measure t = ((cols t : Int), {}) := ih fun d hd => h d (List.mem_cons_of_mem _ hd)
      have hcons : measure (c :: t) = ((cellsBefore c (measure t).2).1 + (measure t).1,
        (cellsBefore c (measure t).2).2) := rfl
      rw [hcons, ht, hc, cols_cons, Int.natCast_add]
  rw [width, hmeasure]
  exact Int.toNat_natCast _

/-- The printable characters of ASCII, the space included. -/
def Printable (c : Char) : Prop := 0x20 ≤ c.toNat ∧ c.toNat < 0x7F

instance (c : Char) : Decidable (Printable c) := inferInstanceAs (Decidable (_ ∧ _))

theorem charWidth_of_printable (h : Printable c) : charWidth c = 1 := by
  obtain ⟨h₁, h₂⟩ := h
  have hcontrol : isControl c = false := by simp [isControl]; omega
  have hlow : c.toNat < 0xAD := by omega
  simp [charWidth, hcontrol, hlow]

theorem plain_of_printable (h : Printable c) : Plain c := by
  rw [Plain, charWidth_of_printable h]
  obtain ⟨h₁, h₂⟩ := h
  have hnewline : c ≠ '\n' := by rintro rfl; exact absurd h₁ (by decide)
  have hreturn : c ≠ '\r' := by rintro rfl; exact absurd h₁ (by decide)
  have hlow : c.toNat ≤ 0xA0 := by omega
  simp [cellsBefore, selectedWidth?, hlow, hnewline, hreturn]

theorem width_eq_cols (h : ∀ c ∈ t, Printable c) : t.width = cols t :=
  width_eq_cols_of_plain fun c hc => plain_of_printable (h c hc)

end MarkupText.Text
