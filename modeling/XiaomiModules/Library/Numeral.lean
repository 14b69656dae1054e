import Mathlib.Data.Nat.Digits.Defs
import Mathlib.Tactic.IntervalCases
import XiaomiModules.Library.Text

/-!
# Numerals read in a base

A list of digits denotes a number in every base. Digits that are below a smaller base as well denote
the same number in both exactly when that number is below the smaller base; a digit that is not
makes the number at least as large.

## Main definitions

* `digit b`: the number of a decimal digit
* `value base ds`: the number of a list of digits, the most significant first
* `Sign`: the optional sign of a numeral

## Main results

* `foldl_value`: reading from the left computes the value
* `value_eq_value_iff`: when two bases agree
* `value_decimalNat`: the value of a decimal numeral
* `eq_zero_of_head?_decimalNat`: a decimal numeral starts with 0 only for 0
-/

namespace Numeral

open Text

/-- The number of a decimal digit. -/
def digit (b : UInt8) : ℕ := b.toNat - 48

/-- The number that a list of digits denotes in a base. -/
def value (base : ℕ) (ds : List UInt8) : ℕ := Nat.ofDigits base (ds.reverse.map digit)

variable {base small large : ℕ} {ds : List UInt8}

theorem value_snoc (base : ℕ) (ds : List UInt8) (d : UInt8) :
    value base (ds ++ [d]) = digit d + base * value base ds := by
  simp [value, Nat.ofDigits_cons]

/-- Reading the digits from the left, behind a number read before. -/
theorem foldl_value (base : ℕ) (ds : List UInt8) :
    ds.foldl (fun res d => res * base + digit d) 0 = value base ds := by
  induction ds using List.reverseRecOn with
  | nil => rfl
  | append_singleton ds d ih =>
    rw [List.foldl_append, List.foldl_cons, List.foldl_nil, ih, value_snoc, Nat.mul_comm,
      Nat.add_comm]

theorem value_le_value (h : small ≤ large) (ds : List UInt8) : value small ds ≤ value large ds :=
  Nat.ofDigits_monotone _ h

/-- A number is at least as large as each of its digits. -/
theorem digit_le_value (hbase : 0 < base) {d : UInt8} (hd : d ∈ ds) :
    digit d ≤ value base ds := by
  induction ds using List.reverseRecOn with
  | nil => exact absurd hd List.not_mem_nil
  | append_singleton ds e ih =>
    rw [value_snoc]
    rcases List.mem_append.mp hd with hd | hd
    · calc digit d ≤ value base ds := ih hd
        _ ≤ base * value base ds := Nat.le_mul_of_pos_left _ hbase
        _ ≤ digit e + base * value base ds := Nat.le_add_left _ _
    · rw [List.mem_singleton.mp hd]
      exact Nat.le_add_right _ _

/-- **Two bases** read the digits as the same number exactly where it is below both. -/
theorem value_eq_value_iff (hsmall : 0 < small) (hlt : small < large)
    (hds : ∀ d ∈ ds, digit d < small) :
    value small ds = value large ds ↔ value large ds < small := by
  rcases List.eq_nil_or_concat ds with rfl | ⟨ds, d, rfl⟩
  · exact iff_of_true rfl hsmall
  have hd : digit d < small := hds d (by simp)
  rw [List.concat_eq_append, value_snoc, value_snoc]
  constructor
  · -- the leading digits weigh more in the larger base, so they are zeros
    intro h
    have hle : small * value small ds ≤ small * value large ds :=
      Nat.mul_le_mul_left _ (value_le_value hlt.le ds)
    have hweight : small * value large ds + value large ds ≤ large * value large ds :=
      calc small * value large ds + value large ds = (small + 1) * value large ds :=
          (Nat.succ_mul _ _).symm
        _ ≤ large * value large ds := Nat.mul_le_mul_right _ hlt
    have hzero : value large ds = 0 := by omega
    rw [hzero]
    omega
  · -- a number below the smaller base has a single digit that is not 0
    intro h
    have hzero : value large ds = 0 := by
      by_contra hne
      have hweight : large ≤ large * value large ds := Nat.le_mul_of_pos_right _ (by omega)
      omega
    have hzero' : value small ds = 0 := Nat.le_zero.mp (hzero ▸ value_le_value hlt.le ds)
    rw [hzero, hzero', Nat.mul_zero, Nat.mul_zero]

/-! ## Signs -/

/-- The optional sign of a numeral. -/
inductive Sign
  | none
  | minus
  | plus
deriving DecidableEq

/-- The sign as it is written. -/
def Sign.chars : Sign → List UInt8
  | none => []
  | minus => [45]
  | plus => [43]

/-- The number that a sign makes of a magnitude. -/
def Sign.apply : Sign → ℕ → ℤ
  | minus, n => -n
  | _, n => n

theorem Sign.apply_inj (sign : Sign) {m n : ℕ} : sign.apply m = sign.apply n ↔ m = n := by
  cases sign <;> simp [apply]

@[simp] theorem Sign.natAbs_apply (sign : Sign) (n : ℕ) : (sign.apply n).natAbs = n := by
  cases sign <;> simp [apply]

/-! ## Decimal numerals -/

theorem value_decimalNat (n : ℕ) : value 10 (decimalNat n) = n := by
  have hdigit : ∀ res, ∀ c ∈ Nat.toDigits 10 n,
      res * 10 + digit c.toUInt8 = 10 * res + (c.toNat - '0'.toNat) := by
    intro res c hc
    have hd := Nat.isDigit_of_mem_toDigits (by decide) (by decide) hc
    rw [digit, toNat_toUInt8_of_isDigit hd, Nat.mul_comm]
    rfl
  calc value 10 (decimalNat n)
      = (decimalNat n).foldl (fun res d => res * 10 + digit d) 0 := (foldl_value 10 _).symm
    _ = (Nat.toDigits 10 n).foldl (fun res c => res * 10 + digit c.toUInt8) 0 := by
        rw [decimalNat, List.foldl_map]
    _ = (Nat.toDigits 10 n).foldl (fun res c => 10 * res + (c.toNat - '0'.toNat)) 0 :=
        List.foldl_ext _ _ _ fun res c hc => hdigit res c hc
    _ = Nat.ofDigitChars 10 (Nat.toDigits 10 n) 0 := Nat.ofDigitChars_eq_foldl.symm
    _ = n := Nat.ofDigitChars_ten_toDigits

/-- A decimal numeral starts with 0 only for 0. -/
theorem eq_zero_of_head?_decimalNat {n : ℕ} (h : (decimalNat n).head? = some 48) : n = 0 := by
  induction n using Nat.strongRecOn with
  | ind n ih =>
    rcases Nat.lt_or_ge n 10 with hn | hn
    · rw [decimalNat, Nat.toDigits_of_lt_base hn] at h
      interval_cases n
      all_goals first | rfl | exact absurd h (by decide)
    · -- the leading digit of a longer numeral is that of its tenth
      rw [decimalNat, Nat.toDigits_of_base_le (by decide) hn, List.map_append] at h
      change (decimalNat (n / 10) ++ _).head? = some 48 at h
      rw [List.head?_append_of_ne_nil _ (decimalNat_ne_nil _)] at h
      have hzero : n / 10 = 0 := ih (n / 10) (by omega) h
      omega

/-- A decimal numeral is a sign and the digits of the magnitude. -/
theorem exists_sign_decimal (z : ℤ) :
    ∃ sign : Sign, decimal z = sign.chars ++ decimalNat z.natAbs ∧ sign.apply z.natAbs = z := by
  cases z with
  | ofNat n => exact ⟨.none, rfl, rfl⟩
  | negSucc n => exact ⟨.minus, rfl, rfl⟩

end Numeral
