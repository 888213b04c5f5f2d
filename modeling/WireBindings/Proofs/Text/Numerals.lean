import Mathlib.Data.Int.Notation
import WireBindings.Proofs.Text.Unambiguous

/-!
# Numerals

Decimal numerals determine their numbers: natural numbers are runs of digits that can be evaluated
again (`eq_of_toString`), and of the other integers only the negative ones begin with a sign. So an
integer is told from any other, up to where its digits end (`unambiguous_toString`).
-/

namespace WireBindings.Text

/-! ### Natural numbers -/

theorem toList_toString (n : ℕ) : (toString n).toList = Nat.toDigits 10 n := by
  rw [Nat.toString_eq_ofList_toDigits, String.toList_ofList]

/-- There is nothing but digits in a natural number. -/
theorem isDigit_toString (n : ℕ) : ∀ c ∈ (toString n).toList, c.isDigit := by
  intro c hc
  rw [toList_toString] at hc
  exact Nat.isDigit_of_mem_toDigits (by decide) (by decide) hc

/-- A natural number is determined by its digits, which can be evaluated. -/
theorem eq_of_toString {m n : ℕ} (h : (toString m).toList = (toString n).toList) : m = n := by
  rw [toList_toString, toList_toString] at h
  calc m = Nat.ofDigitChars 10 (Nat.toDigits 10 m) 0 := Nat.ofDigitChars_ten_toDigits.symm
    _ = Nat.ofDigitChars 10 (Nat.toDigits 10 n) 0 := by rw [h]
    _ = n := Nat.ofDigitChars_ten_toDigits

/-! ### Integers -/

/-- Numerals are made of digits and signs. -/
def isNumeralChar (c : Char) : Bool := c.isDigit || c == '-'

/-- No numeral goes on at the beginning of the rest. -/
def EndsNumeral (rest : List Char) : Prop := ∀ c ∈ rest.head?, ¬ isNumeralChar c

/-- It is the first character of the rest that ends a numeral. -/
theorem endsNumeral_cons {c : Char} (h : ¬ isNumeralChar c) (rest : List Char) :
    EndsNumeral (c :: rest) := by
  rintro _ ⟨⟩
  exact h

theorem toList_toString_ofNat (n : ℕ) :
    (toString (Int.ofNat n)).toList = (toString n).toList := rfl

/-- A negative integer is written as a sign and a natural number. -/
theorem toList_toString_negSucc (n : ℕ) :
    (toString (Int.negSucc n)).toList = '-' :: (toString (n + 1)).toList := by
  show ("-" ++ toString (n + 1)).toList = _
  rw [String.toList_append]
  rfl

/-- A natural number does not begin with a sign. -/
theorem toString_ne_sign {n : ℕ} {digits : List Char} : (toString n).toList ≠ '-' :: digits := by
  intro h
  exact absurd (isDigit_toString n '-' (h ▸ List.mem_cons_self)) (by decide)

/-- There is nothing but digits and signs in an integer. -/
theorem isNumeralChar_toString (value : ℤ) : ∀ c ∈ (toString value).toList, isNumeralChar c := by
  have hdigits (n : ℕ) : ∀ c ∈ (toString n).toList, isNumeralChar c := fun c hc =>
    Bool.or_eq_true_iff.mpr (.inl (isDigit_toString n c hc))
  cases value with
  | ofNat n => exact hdigits n
  | negSucc n =>
    rw [toList_toString_negSucc]
    exact List.forall_mem_cons.mpr ⟨rfl, hdigits (n + 1)⟩

/-- No numeral is empty. -/
theorem exists_toString_eq_cons (value : ℤ) :
    ∃ c digits, (toString value).toList = c :: digits := by
  cases value with
  | ofNat n =>
    rw [toList_toString_ofNat, toList_toString]
    exact List.exists_cons_of_ne_nil Nat.toDigits_ne_nil
  | negSucc n => exact ⟨_, _, toList_toString_negSucc n⟩

/-- An integer is determined by its numeral. -/
theorem int_eq_of_toString {value other : ℤ}
    (h : (toString value).toList = (toString other).toList) : value = other := by
  -- the sign tells the negative numbers from the others, and then the digits decide
  cases value with
  | ofNat n =>
    cases other with
    | ofNat m => exact congrArg Int.ofNat (eq_of_toString h)
    | negSucc m =>
      rw [toList_toString_negSucc] at h
      exact absurd h toString_ne_sign
  | negSucc n =>
    cases other with
    | ofNat m =>
      rw [toList_toString_negSucc] at h
      exact absurd h.symm toString_ne_sign
    | negSucc m =>
      rw [toList_toString_negSucc, toList_toString_negSucc] at h
      have hsucc : n + 1 = m + 1 := eq_of_toString (List.tail_eq_of_cons_eq h)
      rw [Nat.succ.inj hsucc]

/-- **An integer is told from any other** by its numeral, up to where that ends. -/
theorem unambiguous_toString (value : ℤ) :
    Unambiguous (toString : ℤ → String) (fun _ => True) EndsNumeral value := by
  -- both numerals are runs of one class of characters that ends with them
  intro other _ rest rest' hrest hrest' htext
  exact int_eq_of_toString (eq_of_runs (isNumeralChar_toString value)
    (isNumeralChar_toString other) hrest hrest' htext)

end WireBindings.Text
