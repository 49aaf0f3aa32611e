import ClassSandbox.Decimal.Natural
import Mathlib.Data.Nat.Digits.Defs

/-!
# Decimal numbers as sums

`readBelow` keeps a number below the bound with each digit that it takes. What it reads is the sum of the digits, each
with the power of ten of its place (`valueOf`), and it reads every text that `Writes` a number below the bound
(`readBelow_eq_ok_iff`).
-/

namespace ClassSandbox.Decimal

def digitValue (c : Char) : Nat := c.toNat - '0'.toNat

/-- The number that digits write, with the last one in the place of the ones. -/
def valueOf (digits : List Char) : Nat := Nat.ofDigits 10 (digits.map digitValue).reverse

@[simp]
theorem valueOf_nil : valueOf [] = 0 := rfl

theorem valueOf_cons (c : Char) (digits : List Char) :
    valueOf (c :: digits) = digitValue c * 10 ^ digits.length + valueOf digits := by
  rw [valueOf, List.map_cons, Nat.ofDigits_reverse_cons, List.length_map, valueOf]
  ring

/-- The text is one or more digits with this value, maybe behind a plus sign. -/
inductive Writes : List Char → Nat → Prop
  | plain {digits : List Char} :
    digits ≠ [] → (∀ c ∈ digits, c.isDigit = true) → Writes digits (valueOf digits)
  | plus {digits : List Char} :
    digits ≠ [] → (∀ c ∈ digits, c.isDigit = true) → Writes ('+' :: digits) (valueOf digits)

variable {bound number n : Nat} {text digits : List Char}

/-- The number so far moves up by a place with each digit. Once it is too large it stays so, and therefore no
text is refused too early. -/
theorem readDigits_eq_ok_iff (hnumber : number < bound) :
    readDigits bound number digits = .ok n ↔
      (∀ c ∈ digits, c.isDigit = true) ∧ n = number * 10 ^ digits.length + valueOf digits ∧ n < bound := by
  induction digits generalizing number with
  | nil =>
    constructor
    · rintro ⟨⟩
      exact ⟨by simp, by simp, hnumber⟩
    · rintro ⟨-, rfl, -⟩
      simp [readDigits]
  | cons c digits ih =>
    have hvalue : number * 10 ^ (c :: digits).length + valueOf (c :: digits) =
        (number * 10 + digitValue c) * 10 ^ digits.length + valueOf digits := by
      rw [valueOf_cons, List.length_cons]
      ring
    rw [hvalue, readDigits]
    cases hdigit : c.isDigit with
    | false => simp [hdigit]
    | true =>
      simp only [Bool.not_true, Bool.false_eq_true, if_false, List.forall_mem_cons, hdigit, true_and]
      change (if number * 10 + digitValue c < bound then readDigits bound (number * 10 + digitValue c) digits
        else .error .tooLarge) = .ok n ↔ _
      split
      · next hnext => exact ih hnext
      · next hnext =>
        simp only [reduceCtorEq, false_iff]
        rintro ⟨-, hn, hbound⟩
        have hplace : 0 < 10 ^ digits.length := Nat.pow_pos (Nat.succ_pos 9)
        have := Nat.le_mul_of_pos_right (number * 10 + digitValue c) hplace
        omega

theorem readBelow_plus (hne : digits ≠ []) : readBelow bound ('+' :: digits) = readDigits bound 0 digits := by
  cases digits with
  | nil => exact absurd rfl hne
  | cons c digits => rfl

theorem readBelow_plain (hne : digits ≠ []) (hhead : digits.head? ≠ some '+') :
    readBelow bound digits = readDigits bound 0 digits := by
  unfold readBelow
  split
  · exact absurd rfl hne
  · exact absurd rfl hhead
  · exact absurd rfl hhead
  · rfl

theorem head?_ne_plus (hdigits : ∀ c ∈ digits, c.isDigit = true) : digits.head? ≠ some '+' := by
  intro hhead
  exact absurd (hdigits '+' (List.mem_of_head? hhead)) (by decide)

theorem readBelow_eq_ok_iff (hbound : 0 < bound) : readBelow bound text = .ok n ↔ Writes text n ∧ n < bound := by
  have hread : ∀ {digits}, readDigits bound 0 digits = .ok n ↔
      (∀ c ∈ digits, c.isDigit = true) ∧ n = valueOf digits ∧ n < bound := by
    intro digits
    rw [readDigits_eq_ok_iff hbound, Nat.zero_mul, Nat.zero_add]
  constructor
  · intro h
    unfold readBelow at h
    split at h
    · cases h
    · cases h
    · next digits hne =>
      obtain ⟨hdigits, rfl, hlt⟩ := hread.1 h
      exact ⟨.plus (by rintro rfl; exact hne rfl) hdigits, hlt⟩
    · next hne _ _ =>
      obtain ⟨hdigits, rfl, hlt⟩ := hread.1 h
      exact ⟨.plain (by rintro rfl; exact hne rfl) hdigits, hlt⟩
  · rintro ⟨hwrites, hlt⟩
    cases hwrites with
    | plain hne hdigits =>
      rw [readBelow_plain hne (head?_ne_plus hdigits)]
      exact hread.2 ⟨hdigits, rfl, hlt⟩
    | plus hne hdigits =>
      rw [readBelow_plus hne]
      exact hread.2 ⟨hdigits, rfl, hlt⟩

end ClassSandbox.Decimal
