import XiaomiModules.Kernel.Numbers
import XiaomiModules.Thermal.CpuLimits

/-!
# The device temperature

The device temperature is the greatest of seven sources. Two are integers that user space writes;
the other five are decoded by `mi_thermal_parse_temp`: the battery, whose reading is printed
first, and the four sensor strings. The decoding guesses the unit of a reading from its magnitude:
thousandths of a degree from 1000 on, tenths from 100 on, and degrees below. What it makes of a
number is `degrees` of that number.

The battery reports tenths of a degree, and the guess is right for exactly 0 and the readings from
100 to 999.

## Main definitions

* `miThermalParseTemp`, `miThermalGetBatteryTemp`, `miThermalGetDeviceTemp`: the decoding, and
  the sources
* `degrees z`: what the decoding makes of a number
* `NearestDegree v r`: `r` is a nearest degree of `v` tenths

## Main results

* `toInt_miThermalParseTemp`, `toInt_miThermalGetBatteryTemp`: the decoding computes `degrees`
* `nearestDegree_iff`: when the battery temperature is decoded right
-/

namespace XiaomiModules

open Text (decimal)

/-! ## Decoding -/

/-- `DIV_ROUND_CLOSEST(x, divisor)` on `int`. -/
def divRoundClosest (x divisor : Int32) : Int32 :=
  if (0 < x ↔ 0 < divisor) then (x + divisor / 2) / divisor else (x - divisor / 2) / divisor

/-- `mi_thermal_parse_temp` behind the conversion: two values are reserved, and the unit is
guessed from the magnitude. -/
def rescaledTemp (temp : Int32) : Int32 :=
  if temp ≤ Int32.minValue ∨ temp = Int32.maxValue then Int32.minValue
  else if temp ≥ 1000 then divRoundClosest temp 1000
  else if temp ≥ 100 then divRoundClosest temp 10
  else temp

/-- `mi_thermal_parse_temp(buf)`. -/
def miThermalParseTemp (buf : Option CString) : Int32 :=
  match buf with
  | none => Int32.minValue
  | some buf =>
    if buf.chars = [] then Int32.minValue
    else
      match kstrtoint buf 0 with
      -- what cannot be converted counts as absent
      | .error _ => Int32.minValue
      | .ok temp => rescaledTemp temp

/-- The power supply named `battery`: the return value of `power_supply_get_property` for
`POWER_SUPPLY_PROP_TEMP`, and the value it stores. -/
structure PowerSupply where
  ret : ℤ
  intval : Int32
deriving DecidableEq

/-- `mi_thermal_get_battery_temp()`, with the battery, if there is one, and what stands in
`temp_buf` at the start. -/
def miThermalGetBatteryTemp (psy : Option PowerSupply) (tempBuf : List UInt8) : Int32 :=
  match psy with
  | none => Int32.minValue
  | some psy =>
    if psy.ret ≠ 0 then Int32.minValue
    else
      let tempBuf := (scnprintf tempBuf 0 16 (decimal psy.intval.toInt)).2
      miThermalParseTemp (some (.ofBytes tempBuf))

/-- What `mi_thermal_get_device_temp` reads. -/
structure Sources where
  battery : Option PowerSupply
  tempState : Int32
  displayThermTemp : Int32
  boardSensorTemp : CString
  boardSensorSecondTemp : CString
  boardSensorOtherTemp : CString
  ambientSensorTemp : CString

/-- `mi_thermal_get_device_temp()`. -/
def miThermalGetDeviceTemp (src : Sources) (tempBuf : List UInt8) : Int32 :=
  let temp := Int32.minValue
  let temp := max temp (miThermalGetBatteryTemp src.battery tempBuf)
  let temp := max temp src.tempState
  let temp := max temp src.displayThermTemp
  let temp := max temp (miThermalParseTemp (some src.boardSensorTemp))
  let temp := max temp (miThermalParseTemp (some src.boardSensorSecondTemp))
  let temp := max temp (miThermalParseTemp (some src.boardSensorOtherTemp))
  let temp := max temp (miThermalParseTemp (some src.ambientSensorTemp))
  temp

/-! ## What the decoding makes of a number -/

/-- The degrees that a number is decoded to. The rounding overflows just below the greatest
number of an `int`, and a number that is none of an `int`, or reserved, counts as the least. -/
def degrees (z : ℤ) : ℤ :=
  if z ≤ -2 ^ 31 ∨ 2 ^ 31 - 1 ≤ z then -2 ^ 31
  else if 2 ^ 31 - 500 ≤ z then -2147483
  else if 1000 ≤ z then (z + 500) / 1000
  else if 100 ≤ z then (z + 5) / 10
  else z

theorem le_degrees (z : ℤ) : -2 ^ 31 ≤ degrees z := by
  unfold degrees
  split_ifs
  all_goals omega

section Rounding

variable {x divisor : Int32}

/-- The rounding of a positive number, in 32 bits. -/
theorem toInt_divRoundClosest (hx : 0 < x.toInt) (hdivisor : 0 < divisor.toInt) :
    (divRoundClosest x divisor).toInt =
      ((x.toInt + divisor.toInt / 2).bmod (2 ^ 32)).tdiv divisor.toInt := by
  have hpos : 0 < x ↔ 0 < divisor :=
    iff_of_true (Int32.lt_iff_toInt_lt.mpr hx) (Int32.lt_iff_toInt_lt.mpr hdivisor)
  have hne : divisor ≠ -1 := by
    rintro rfl
    exact absurd hdivisor (by decide)
  have hhalf : (divisor / 2).toInt = divisor.toInt / 2 := by
    rw [Int32.toInt_div_of_ne_right _ _ (by decide)]
    exact Int.tdiv_eq_ediv_of_nonneg hdivisor.le
  rw [divRoundClosest, if_pos hpos, Int32.toInt_div_of_ne_right _ _ hne, Int32.toInt_add, hhalf]

/-- Within the range of an `int` the rounding is exact. -/
theorem toInt_divRoundClosest_of_lt (hx : 0 < x.toInt) (hdivisor : 0 < divisor.toInt)
    (h : x.toInt + divisor.toInt / 2 < 2 ^ 31) :
    (divRoundClosest x divisor).toInt = (x.toInt + divisor.toInt / 2) / divisor.toInt := by
  have hnonneg : 0 ≤ x.toInt + divisor.toInt / 2 := by omega
  rw [toInt_divRoundClosest hx hdivisor, Int.bmod_eq_of_le (by omega) (by omega),
    Int.tdiv_eq_ediv_of_nonneg hnonneg]

end Rounding

theorem toInt_rescaledTemp (temp : Int32) : (rescaledTemp temp).toInt = degrees temp.toInt := by
  have hthousand : temp ≥ 1000 ↔ 1000 ≤ temp.toInt := Int32.le_iff_toInt_le
  have hhundred : temp ≥ 100 ↔ 100 ≤ temp.toInt := Int32.le_iff_toInt_le
  -- the comparisons of the machine numbers are those of the integers
  have hreserved : (temp ≤ Int32.minValue ∨ temp = Int32.maxValue) ↔
      (temp.toInt ≤ -2 ^ 31 ∨ 2 ^ 31 - 1 ≤ temp.toInt) := by
    refine or_congr Int32.le_iff_toInt_le ?_
    rw [← Int32.toInt_inj]
    exact ⟨fun h => h.ge, fun h => le_antisymm temp.toInt_le h⟩
  unfold rescaledTemp degrees
  rw [if_congr hreserved rfl rfl]
  by_cases hres : temp.toInt ≤ -2 ^ 31 ∨ 2 ^ 31 - 1 ≤ temp.toInt
  · rw [if_pos hres, if_pos hres]
    rfl
  rw [if_neg hres, if_neg hres]
  by_cases htop : 2 ^ 31 - 500 ≤ temp.toInt
  · -- the sum wraps around to a negative number, and is divided towards zero
    have hwrap : (temp.toInt + 500).bmod (2 ^ 32) = temp.toInt + 500 - 2 ^ 32 := by
      rw [← Int.sub_bmod_right, Int.bmod_eq_of_le (by omega) (by omega)]
      rfl
    have hquotient : (-(temp.toInt + 500 - 2 ^ 32)) / 1000 = 2147483 := by omega
    rw [if_pos (hthousand.mpr (by omega)), if_pos htop,
      toInt_divRoundClosest (by omega) (by decide)]
    show ((temp.toInt + 500).bmod (2 ^ 32)).tdiv 1000 = -2147483
    rw [hwrap, ← neg_neg (temp.toInt + 500 - 2 ^ 32), Int.neg_tdiv,
      Int.tdiv_eq_ediv_of_nonneg (by omega), hquotient]
  rw [if_neg htop, if_congr hthousand rfl rfl, if_congr hhundred rfl rfl]
  split_ifs
  · exact toInt_divRoundClosest_of_lt (by omega) (by decide) (by simp; omega)
  · exact toInt_divRoundClosest_of_lt (by omega) (by decide) (by simp; omega)
  · rfl

/-- A number that is none of the reserved ones does not count as absent. -/
theorem degrees_ne {z : ℤ} (hmin : -2 ^ 31 < z) (hmax : z < 2 ^ 31 - 1) : degrees z ≠ -2 ^ 31 := by
  unfold degrees
  split_ifs
  all_goals omega

/-- A string that is converted counts for the degrees of its number. -/
theorem toInt_miThermalParseTemp_of_ok {buf : CString} {temp : Int32} (hne : buf.chars ≠ [])
    (h : kstrtoint buf 0 = .ok temp) :
    (miThermalParseTemp (some buf)).toInt = degrees temp.toInt := by
  rw [miThermalParseTemp, if_neg hne, h]
  exact toInt_rescaledTemp temp

/-- **Decoding a numeral**: every number counts for its degrees. -/
theorem toInt_miThermalParseTemp {buf : CString} {z : ℤ} (h : buf.chars = decimal z) :
    (miThermalParseTemp (some buf)).toInt = degrees z := by
  have hne : buf.chars ≠ [] := fun hnil => Text.decimal_ne_nil z (h.symm.trans hnil)
  by_cases hint : IsInt z
  · rw [toInt_miThermalParseTemp_of_ok hne ((kstrtoint_decimal h).trans (if_pos hint)),
      toInt_ofInt_eq_iff.mpr hint]
  · -- a number that is none of an `int` is not converted
    rw [miThermalParseTemp, if_neg hne, kstrtoint_decimal h, if_neg hint, degrees, if_pos]
    · rfl
    · rw [IsInt] at hint
      omega

/-- The battery counts for the degrees of its reading. -/
theorem toInt_miThermalGetBatteryTemp (v : Int32) (tempBuf : List UInt8) :
    (miThermalGetBatteryTemp (some ⟨0, v⟩) tempBuf).toInt = degrees v.toInt := by
  have hlen : (decimal v.toInt).length < 16 := by
    have hrange := isInt_toInt v
    rw [IsInt] at hrange
    exact (Text.length_decimal_le (k := 10) (by decide) (by omega)).trans_lt (by decide)
  rw [miThermalGetBatteryTemp]
  dsimp only
  rw [if_neg (not_not_intro rfl), ofBytes_scnprintf (by decide) (zero_notMem_decimal _) hlen]
  exact toInt_miThermalParseTemp rfl

/-! ## The battery temperature -/

/-- `r` degrees are nearest to `v` tenths of a degree. -/
def NearestDegree (v r : ℤ) : Prop := ∀ k : ℤ, |10 * r - v| ≤ |10 * k - v|

/-- A degree is nearest where it is at most five tenths off. -/
theorem nearestDegree_iff_abs_le {v r : ℤ} : NearestDegree v r ↔ |10 * r - v| ≤ 5 := by
  constructor
  · intro h
    have hround := h ((v + 5) / 10)
    have hfive : |10 * ((v + 5) / 10) - v| ≤ 5 := abs_le.mpr (by omega)
    exact hround.trans hfive
  · intro h k
    rcases eq_or_ne k r with rfl | hne
    · exact le_rfl
    · -- any other degree is at least ten tenths away
      have hr := abs_le.mp h
      exact h.trans (le_abs.mpr (by omega))

/-- What a reading in tenths is decoded to is nearest for 0 and from 100 to 999. -/
theorem nearestDegree_degrees_iff {z : ℤ} (hmin : -2 ^ 31 < z) (hmax : z < 2 ^ 31 - 1) :
    NearestDegree z (degrees z) ↔ z = 0 ∨ 100 ≤ z ∧ z < 1000 := by
  rw [nearestDegree_iff_abs_le, abs_le]
  unfold degrees
  split_ifs
  all_goals omega

/-- **The battery temperature** is a nearest degree of the reading exactly for 0 and the readings
from 100 to 999. -/
theorem nearestDegree_iff (tempBuf : List UInt8) {v : Int32} (hmin : v ≠ Int32.minValue)
    (hmax : v ≠ Int32.maxValue) :
    NearestDegree v.toInt (miThermalGetBatteryTemp (some ⟨0, v⟩) tempBuf).toInt ↔
      v = 0 ∨ 100 ≤ v ∧ v < 1000 := by
  have hlow : -2 ^ 31 < v.toInt :=
    lt_of_le_of_ne v.le_toInt fun h => hmin (Int32.toInt_inj.mp h.symm)
  have hhigh : v.toInt < 2 ^ 31 - 1 :=
    lt_of_le_of_ne v.toInt_le fun h => hmax (Int32.toInt_inj.mp h)
  have hzero : v = 0 ↔ v.toInt = 0 := Int32.toInt_inj.symm
  have hhundred : 100 ≤ v ↔ 100 ≤ v.toInt := Int32.le_iff_toInt_le
  have hthousand : v < 1000 ↔ v.toInt < 1000 := Int32.lt_iff_toInt_lt
  rw [toInt_miThermalGetBatteryTemp, nearestDegree_degrees_iff hlow hhigh, hzero, hhundred,
    hthousand]

/-- A reading of 25 degrees. -/
theorem nearestDegree_iff_room :
    NearestDegree (250 : Int32).toInt (miThermalGetBatteryTemp (some ⟨0, 250⟩) []).toInt ↔
      (250 : Int32) = 0 ∨ (100 : Int32) ≤ 250 ∧ (250 : Int32) < 1000 :=
  nearestDegree_iff [] (by decide) (by decide)

/-- A battery at 5 degrees counts for 50, above the hot temperature. -/
theorem not_nearestDegree_cold :
    ¬ ∀ (tempBuf : List UInt8) (v : Int32), v ≠ Int32.minValue → v ≠ Int32.maxValue →
      NearestDegree v.toInt (miThermalGetBatteryTemp (some ⟨0, v⟩) tempBuf).toInt := by
  intro h
  have hcold := nearestDegree_iff_abs_le.mp (h [] 50 (by decide) (by decide))
  rw [toInt_miThermalGetBatteryTemp] at hcold
  exact absurd hcold (by decide)

end XiaomiModules
