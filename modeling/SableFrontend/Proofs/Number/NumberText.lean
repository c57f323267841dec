import SableFrontend.Number.Shortest
import SableFrontend.Proofs.Text.QuotedText

/-!
Texts of numbers. They are visible, whatever the number.
-/

namespace SableFrontend

namespace Text

theorem isPrintable_of_isDigit {c : Char} (h : c.isDigit = true) : isPrintable c = true := by
  have hrange : 48 ≤ c.toNat ∧ c.toNat ≤ 57 := by
    simpa [Char.isDigit, Char.le_def, UInt32.le_iff_toNat_le] using h
  have hlow : ' ' ≤ c := show 32 ≤ c.toNat by omega
  have hhigh : c ≤ '~' := show c.toNat ≤ 126 by omega
  have hascii : c.toNat < 128 := by omega
  simp [isPrintable, isAscii, hascii, hlow, hhigh]

theorem isPrintable_of_mem_toDigits {n : Nat} {c : Char} (h : c ∈ Nat.toDigits 10 n) :
    isPrintable c = true :=
  isPrintable_of_isDigit (Nat.isDigit_of_mem_toDigits (by decide) (by decide) h)

@[simp] theorem isVisible_natRepr (n : Nat) : isVisible n.repr = true := by
  rw [Nat.repr_eq_ofList_toDigits, isVisible_ofList]
  exact List.all_eq_true.2 fun _ => isPrintable_of_mem_toDigits

@[simp] theorem isVisible_intRepr (value : Int) : isVisible value.repr = true := by
  rw [Int.repr_eq_if]
  split
  · exact isVisible_natRepr _
  · rw [isVisible_append, isVisible_natRepr, Bool.and_true]
    rfl

end Text

namespace Binary64

theorem isVisible_exponentText (exponent : Int) : Text.isVisible (exponentText exponent) = true := by
  simp only [exponentText, Text.isVisible_append, Bool.and_eq_true]
  constructor
  · split <;> rfl
  · split
    · rw [Text.isVisible_append, Nat.toString_eq_repr, Text.isVisible_natRepr, Bool.and_true]
      rfl
    · exact Text.isVisible_natRepr _

theorem isVisible_positional {digits : List Char} (h : digits.all Text.isPrintable = true)
    (point : Int) : Text.isVisible (positional digits point) = true := by
  have hzeros : ∀ n, (List.replicate n '0').all Text.isPrintable = true := by
    intro n
    rw [List.all_replicate]
    split <;> rfl
  have hall : ∀ c ∈ digits, Text.isPrintable c = true := List.all_eq_true.1 h
  unfold positional
  split
  · simp [h, hzeros]
    rfl
  · split
    · have htake : (digits.take point.toNat).all Text.isPrintable = true :=
        List.all_eq_true.2 fun c hmem => hall c (List.mem_of_mem_take hmem)
      have hdrop : (digits.drop point.toNat).all Text.isPrintable = true :=
        List.all_eq_true.2 fun c hmem => hall c (List.mem_of_mem_drop hmem)
      simp only [Text.isVisible_append, Text.isVisible_ofList, htake, hdrop]
      rfl
    · simp [h, hzeros]
      rfl

theorem isVisible_scientific {digits : List Char} (h : digits.all Text.isPrintable = true)
    (exponent : Int) : Text.isVisible (scientific digits exponent) = true := by
  have hmark : Text.isVisible "e" = true ∧ Text.isVisible "." = true := ⟨rfl, rfl⟩
  unfold scientific
  split
  · rfl
  · simpa [hmark, isVisible_exponentText] using h
  · simpa [hmark, isVisible_exponentText] using h

theorem isVisible_text (x : Binary64) : Text.isVisible x.text = true := by
  have hsign : Text.isVisible (if x.negative then "-" else "") = true := by
    split <;> rfl
  rw [text, Text.isVisible_append, hsign, Bool.true_and]
  unfold magnitudeText
  split
  · rfl
  split
  · have hdigits : ((Nat.toDigits 10 (shortestDigits x.magnitude).1).reverse.dropWhile
        (· == '0')).reverse.all Text.isPrintable = true := by
      refine List.all_eq_true.2 fun c hmem => ?_
      have hmem := (List.dropWhile_sublist _).subset (List.mem_reverse.1 hmem)
      exact Text.isPrintable_of_mem_toDigits (List.mem_reverse.1 hmem)
    dsimp only
    split
    · exact isVisible_positional hdigits _
    · exact isVisible_scientific hdigits _
  · rfl

end Binary64

end SableFrontend
