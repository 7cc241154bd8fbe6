import MarkupText.Proofs.Text.Bytes
import MarkupText.Proofs.Tree.Outline
import Mathlib.Algebra.Group.Nat.Defs

/-!
# Codes that tell where they end

A code is `Delimited` if what is written can be read back whatever follows it. Words of 64 bits,
texts with a final byte 255, and lists behind the number of their entries are delimited. So are the
items of a signature in the places where they stand: what a node is is told by a first byte
(`SignatureItem.bytes`), and the number of its children comes next.
-/

namespace MarkupText

/-- A value that is admitted and what follows it can be read back from what is written. -/
structure Delimited {α β : Type} (ok : α → Prop) (code : α → List β) : Prop where
  inj : ∀ {a b r r'}, ok a → ok b → code a ++ r = code b ++ r' → a = b ∧ r = r'

namespace Delimited
variable {α α' β γ : Type} {ok : α → Prop} {ok' : α' → Prop} {code : α → List γ}
  {code' : α' → List γ} {as bs : List α} {r r' : List γ}

/-- A code for a part of a value, followed by a code for the rest. -/
theorem pair {f : β → α} {g : β → α'} (hcode : Delimited ok code) (hcode' : Delimited ok' code')
    (hinj : ∀ {x y}, f x = f y → g x = g y → x = y) :
    Delimited (fun x => ok (f x) ∧ ok' (g x)) fun x => code (f x) ++ code' (g x) where
  inj {x y r r'} hx hy h := by
    rw [List.append_assoc, List.append_assoc] at h
    obtain ⟨hf, h⟩ := hcode.inj hx.1 hy.1 h
    obtain ⟨hg, h⟩ := hcode'.inj hx.2 hy.2 h
    exact ⟨hinj hf hg, h⟩

/-- Codes for a number of values that is known, one after the other. -/
theorem flatMap (hcode : Delimited ok code) (hlen : as.length = bs.length) (has : ∀ a ∈ as, ok a)
    (hbs : ∀ b ∈ bs, ok b) (h : as.flatMap code ++ r = bs.flatMap code ++ r') :
    as = bs ∧ r = r' := by
  obtain ⟨heq, hr⟩ := forall₂_of_flatMap_append (R := Eq) hlen
    (fun a ha b hb _ _ hab => hcode.inj (has a ha) (hbs b hb) hab) h
  rw [List.forall₂_eq_eq_eq] at heq
  exact ⟨heq, hr⟩

end Delimited

/-! ### Words, texts and lists -/

/-- The lowest `n` bytes of a number, the lowest first. -/
def lowBytes : (n : Nat) → Nat → List UInt8
  | 0, _ => []
  | n + 1, k => UInt8.ofNat k :: lowBytes n (k / 256)

theorem delimited_lowBytes (n : Nat) : Delimited (· < 256 ^ n) (lowBytes n) := by
  constructor
  intro a b r r' ha hb h
  induction n generalizing a b with
  | zero => exact ⟨by omega, h⟩
  | succ n ih =>
    simp only [lowBytes, List.cons_append, List.cons.injEq] at h
    have hlow : a % 256 = b % 256 := by
      have := congrArg UInt8.toNat h.1
      rwa [UInt8.toNat_ofNat', UInt8.toNat_ofNat'] at this
    have hless {k : Nat} (hk : k < 256 ^ (n + 1)) : k / 256 < 256 ^ n :=
      Nat.div_lt_of_lt_mul (by rwa [Nat.pow_succ, Nat.mul_comm] at hk)
    obtain ⟨hhigh, h⟩ := ih (hless ha) (hless hb) h.2
    exact ⟨by omega, h⟩

/-- A number as a word of 64 bits. -/
def wordBytes (n : Nat) : List UInt8 := lowBytes 8 n

/-- The numbers that fit into a word. -/
def FitsWord (n : Nat) : Prop := n < 256 ^ 8

instance (n : Nat) : Decidable (FitsWord n) := inferInstanceAs (Decidable (_ < _))

theorem delimited_wordBytes : Delimited FitsWord wordBytes := delimited_lowBytes 8

/-- A text with the byte behind it that is in no text. -/
def textBytes (t : Text) : List UInt8 := t.bytes ++ [255]

theorem delimited_textBytes : Delimited (fun _ => True) textBytes where
  inj _ _ h := by
    simp only [textBytes, List.append_assoc, List.singleton_append] at h
    exact Text.bytes_append_inj h

/-- Attributes behind their number. -/
def Attributes.bytes (as : Attributes) : List UInt8 :=
  wordBytes as.length ++ as.flatMap fun (n, v) => textBytes n ++ textBytes v

theorem delimited_attributes :
    Delimited (fun as : Attributes => FitsWord as.length) Attributes.bytes where
  inj has hbs h := by
    simp only [Attributes.bytes, List.append_assoc] at h
    obtain ⟨hlen, h⟩ := delimited_wordBytes.inj has hbs h
    exact (delimited_textBytes.pair delimited_textBytes Prod.ext).flatMap hlen
      (fun _ _ => ⟨trivial, trivial⟩) (fun _ _ => ⟨trivial, trivial⟩) h

/-! ### Signatures -/

/-- What is hashed for an item. -/
def SignatureItem.bytes : SignatureItem → List UInt8
  | .document => [0]
  | .element name attributes => 1 :: (textBytes name ++ attributes.bytes)
  | .text t => 2 :: textBytes t
  | .comment => [3]
  | .again => [4]
  | .arity n => wordBytes n

/-- What is hashed for a signature. -/
def Signature.bytes (s : Signature) : List UInt8 := s.flatMap SignatureItem.bytes

end MarkupText
