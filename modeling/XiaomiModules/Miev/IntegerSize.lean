import XiaomiModules.Miev.Event

/-!
# The size of an integer

`get_integer_size` counts the characters of a number by dividing it by 10 until one digit is left,
after making it positive. The least `long` has no positive counterpart: its negation is itself, and
the count stops at once.

## Main definitions

* `getIntegerSize`: the function

## Main results

* `countDigits_add_one`: the loop counts the digits of a number that is not negative
* `getIntegerSize_eq_iff`: the size is that of the numeral printed, except for the least number
-/

namespace XiaomiModules

open Text (decimal decimalNat length_decimalNat_of_lt length_decimalNat_of_le)

theorem toInt_div_ten (value : Int64) : (value / 10).toInt = value.toInt.tdiv 10 :=
  Int64.toInt_div_of_ne_right value 10 (by decide)

theorem toInt_div_ten_lt {value : Int64} (h : value ≥ 10) :
    (value / 10).toInt.toNat < value.toInt.toNat := by
  have hle : 10 ≤ value.toInt := Int64.le_iff_toInt_le.mp h
  rw [toInt_div_ten, Int.tdiv_eq_ediv_of_nonneg (by omega)]
  omega

/-- The loop of `get_integer_size`. -/
def countDigits (value : Int64) (size : ℕ) : ℕ :=
  if h : value ≥ 10 then countDigits (value / 10) (size + 1) else size
termination_by value.toInt.toNat
decreasing_by exact toInt_div_ten_lt h

/-- `get_integer_size(value)`; a negation wraps. -/
def getIntegerSize (value : Int64) : ℕ :=
  if value < 0 then countDigits (-value) 2 else countDigits value 1

/-- **The loop** counts the digits behind the first one. -/
theorem countDigits_add_one {value : Int64} (h : 0 ≤ value.toInt) (size : ℕ) :
    countDigits value size + 1 = size + (decimalNat value.toInt.toNat).length := by
  induction value, size using countDigits.induct with
  | case1 value size hten ih =>
    have hle : 10 ≤ value.toInt := Int64.le_iff_toInt_le.mp hten
    have hdiv : (value / 10).toInt = value.toInt / 10 := by
      rw [toInt_div_ten, Int.tdiv_eq_ediv_of_nonneg h]
    have hnat : (value / 10).toInt.toNat = value.toInt.toNat / 10 := by omega
    rw [countDigits, dif_pos hten, ih (by omega), hnat,
      length_decimalNat_of_le (n := value.toInt.toNat) (by omega)]
    omega
  | case2 value size hten =>
    have hlt : ¬ 10 ≤ value.toInt := fun hle => hten (Int64.le_iff_toInt_le.mpr hle)
    rw [countDigits, dif_neg hten, length_decimalNat_of_lt (by omega)]

theorem toInt_neg_of_ne {value : Int64} (hmin : value ≠ Int64.minValue) :
    (-value).toInt = -value.toInt := by
  have hne : value.toInt ≠ -2 ^ 63 := fun heq => hmin (Int64.toInt_inj.mp heq)
  have hlow := value.le_toInt
  have hhigh := value.toInt_lt
  rw [Int64.toInt_neg]
  exact Int.bmod_eq_of_le (by omega) (by omega)

/-- A number that is not negative has the size of its numeral. -/
theorem getIntegerSize_of_nonneg {value : Int64} (h : 0 ≤ value.toInt) :
    getIntegerSize value = (decimal value.toInt).length := by
  have hnot : ¬ value < 0 := fun hlt => (Int64.lt_iff_toInt_lt.mp hlt).not_ge h
  have hloop := countDigits_add_one h 1
  obtain ⟨n, hn⟩ := Int.eq_ofNat_of_zero_le h
  rw [hn, Int.toNat_natCast] at hloop
  rw [getIntegerSize, if_neg hnot, hn]
  change _ = (decimalNat n).length
  omega

/-- So has a negative number that can be negated. -/
theorem getIntegerSize_of_neg {value : Int64} (h : value.toInt < 0)
    (hmin : value ≠ Int64.minValue) : getIntegerSize value = (decimal value.toInt).length := by
  have hneg := toInt_neg_of_ne hmin
  have hpos : 0 ≤ (-value).toInt := by omega
  have hloop := countDigits_add_one hpos 2
  obtain ⟨n, hn⟩ := Int.eq_negSucc_of_lt_zero h
  have hnat : (-value).toInt.toNat = n + 1 := by omega
  rw [hnat] at hloop
  rw [getIntegerSize, if_pos (Int64.lt_iff_toInt_lt.mpr h), hn]
  change _ = (decimalNat (n + 1)).length + 1
  omega

/-- The least number stays negative, and is taken for a single digit. -/
theorem getIntegerSize_minValue : getIntegerSize Int64.minValue = 2 := by
  rw [getIntegerSize, if_pos (by decide), countDigits, dif_neg (by decide)]

/-- **The size of an integer** is the number of characters printed for it exactly if it is not the
least number. -/
theorem getIntegerSize_eq_iff (value : Int64) :
    getIntegerSize value = (decimal value.toInt).length ↔ value ≠ Int64.minValue := by
  constructor
  · rintro hsize rfl
    rw [getIntegerSize_minValue] at hsize
    exact absurd hsize (by decide)
  · intro hmin
    rcases le_or_gt 0 value.toInt with hpos | hneg
    · exact getIntegerSize_of_nonneg hpos
    · exact getIntegerSize_of_neg hneg hmin

/-- The least number has 20 characters. -/
theorem not_getIntegerSize_eq_minValue :
    ¬ ∀ value : Int64, getIntegerSize value = (decimal value.toInt).length := by
  intro h
  have hsize := h Int64.minValue
  rw [getIntegerSize_minValue] at hsize
  exact absurd hsize (by decide)

end XiaomiModules
