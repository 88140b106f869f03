-- SUMMARY: Numbers that reach a Python function as text: Terraform variables through the environment, and counters of a service.
import Mathlib
import ServerlessPatterns.Library.Python

/-!
# Numbers as text

A Terraform variable of type `number` may be a fraction. It reaches a function as the
text `tostring` makes of it, and `int` reads the text back only when it is that of an
integer. Otherwise the function falls back on its own default.
-/

namespace Configuration

/-- How Terraform and the services print numbers, as `int` reads them. -/
structure Numerals (py : Python) (tostring : ℚ → String) : Prop where
  number : ∀ x, py.parseInt (tostring x) = if x.den = 1 then some x.num else none
  count : ∀ n : Nat, py.parseInt (toString n) = some (n : Int)

/-- What a function makes of a variable that is at least one. -/
def readBack (default : Nat) (x : ℚ) : Nat := if x.den = 1 then x.num.toNat else default

variable {py : Python} {tostring : ℚ → String} {default : Nat} {x : ℚ}

theorem Numerals.readBack (h : Numerals py tostring) (hx : 1 ≤ x) :
    (py.parseInt (tostring x)).getD default = readBack default x := by
  rw [h.number]
  unfold Configuration.readBack
  split
  · have hnonneg : 0 ≤ x.num := Rat.num_nonneg.mpr (by linarith)
    rw [Option.getD_some, Int.toNat_of_nonneg hnonneg]
  · rfl

theorem readBack_pos (hdefault : 0 < default) (hx : 1 ≤ x) : 0 < readBack default x := by
  unfold readBack
  split
  · have hpos : 0 < x.num := Rat.num_pos.mpr (by linarith)
    omega
  · exact hdefault

theorem readBack_le {most : Nat} (hdefault : default ≤ most) (hx : x ≤ most) :
    readBack default x ≤ most := by
  unfold readBack
  split
  next hden =>
    have hnum : (x.num : ℚ) = x := by
      conv_rhs => rw [← Rat.num_div_den x, hden, Nat.cast_one, div_one]
    have hle : (x.num : ℚ) ≤ (most : Int) := by
      rw [hnum]
      exact_mod_cast hx
    have hint : x.num ≤ (most : Int) := by exact_mod_cast hle
    omega
  next => exact hdefault

@[simp] theorem readBack_natCast {n : Nat} : readBack default (n : ℚ) = n := by
  simp [readBack]

/-! ## A sample -/

theorem toInt?_fraction : "2.5".toInt? = none := by
  apply String.toInt?_eq_none
  rw [Bool.eq_false_iff]
  intro hint
  cases String.isInt_iff.mp hint with
  | inl hnat =>
      have hdot := (String.isNat_iff.mp hnat).2.1 '.' (by simp)
      revert hdot
      decide
  | inr hminus =>
      obtain ⟨t, ht, _⟩ := hminus
      have hfirst := congrArg (fun s => s.toList.head?) ht
      simp at hfirst

/-- The sample interpreter, with `int` on decimal numerals. -/
def decimal : Python := { Python.sample with parseInt := String.toInt? }

/-- Integers in decimal. All fractions are printed alike. -/
def sampleTostring (x : ℚ) : String := if x.den = 1 then toString x.num else "2.5"

theorem numerals_decimal : Numerals decimal sampleTostring where
  number x := by
    change (sampleTostring x).toInt? = _
    unfold sampleTostring
    split
    · exact Int.toInt?_repr x.num
    · exact toInt?_fraction
  count n := Nat.toInt?_repr n

end Configuration
