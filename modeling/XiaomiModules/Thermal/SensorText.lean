import XiaomiModules.Thermal.DeviceTemp

/-!
# Sensor text

A sensor attribute stores what is written to it, and the string is decoded later. The store cuts
trailing white space off and keeps leading white space, since it drops what `strim` returns. The
decoding then reads the string in base 0: a leading 0 makes the numeral octal, and leading white
space makes it no numeral at all. The first board sensor is read in base 10 when it is written,
and there a plus sign stops the reading.

So a numeral is read as it was written only where nothing stands before it and it has no leading 0,
up to the small numbers that every base writes alike.

## Main definitions

* `ThermalBuf`, `miStringStore`: a buffer of the module, and the store
* `SensorAttr`, `sensorStore`: the sensor attributes, and the store of each
* `NumeralWrite`: a write of a signed numeral between white space
* `ReadAsWritten attr value w`: the write is read as the number that was written

## Main results

* `NumeralWrite.chars_stored`: what a write of a numeral leaves in the buffer
* `readAsWritten_iff`: when a write is read as the number that was written
-/

namespace XiaomiModules

open Text (IsDigit decimal)
open Numeral (Sign digit value)

/-! ## The stores -/

/-- `MI_THERMAL_BUF_LEN`. -/
def miThermalBufLen : ℕ := 128

/-- A character buffer of `MI_THERMAL_BUF_LEN` bytes that holds a string. -/
structure ThermalBuf where
  bytes : List UInt8
  length_bytes : bytes.length = miThermalBufLen
  zero_mem_bytes : 0 ∈ bytes

/-- The string of the buffer. -/
def ThermalBuf.string (value : ThermalBuf) : CString := .ofBytes value.bytes

/-- The buffer after `memcpy(value, buf, len)` and `value[len] = '\0'`. -/
def copiedBytes (value : ThermalBuf) (buf : List UInt8) : List UInt8 :=
  let len := min buf.length (miThermalBufLen - 1)
  (buf.take len ++ value.bytes.drop len).set len 0

theorem length_copiedBytes (value : ThermalBuf) (buf : List UInt8) :
    (copiedBytes value buf).length = miThermalBufLen := by
  have hvalue := value.length_bytes
  rw [miThermalBufLen] at hvalue
  simp only [copiedBytes, miThermalBufLen, List.length_set, List.length_append, List.length_take,
    List.length_drop]
  omega

theorem zero_mem_copiedBytes (value : ThermalBuf) (buf : List UInt8) :
    0 ∈ copiedBytes value buf := by
  have hlen := length_copiedBytes value buf
  rw [copiedBytes, List.length_set] at hlen
  refine List.mem_set (hlen.symm ▸ ?_) 0
  exact (Nat.min_le_right _ _).trans_lt (by decide)

/-- `mi_string_store(value, buf, count)` for a write of the bytes `buf`; the pointer that `strim`
returns is dropped. -/
def miStringStore (value : ThermalBuf) (buf : List UInt8) : ℕ × ThermalBuf :=
  (buf.length,
    { bytes := (strim (copiedBytes value buf)).2
      length_bytes := (length_strim _).trans (length_copiedBytes value buf)
      zero_mem_bytes := zero_mem_strim (zero_mem_copiedBytes value buf) })

/-- `thermal_board_sensor_temp_store`: the return value, the buffer, and the local `temp`. -/
def thermalBoardSensorTempStore (value : ThermalBuf) (buf : List UInt8) :
    ℕ × ThermalBuf × Int32 :=
  let (_, value) := miStringStore value buf
  let temp := (simpleStrtol value.string 10).toInt32
  (buf.length, value, temp)

/-- `thermal_board_sensor_second_temp_store`. -/
def thermalBoardSensorSecondTempStore (value : ThermalBuf) (buf : List UInt8) : ℕ × ThermalBuf :=
  miStringStore value buf

/-- `thermal_board_sensor_other_temp_store`. -/
def thermalBoardSensorOtherTempStore (value : ThermalBuf) (buf : List UInt8) : ℕ × ThermalBuf :=
  miStringStore value buf

/-- `thermal_ambient_sensor_temp_store`. -/
def thermalAmbientSensorTempStore (value : ThermalBuf) (buf : List UInt8) : ℕ × ThermalBuf :=
  miStringStore value buf

/-- The sensor attributes. -/
inductive SensorAttr
  | boardSensorTemp
  | boardSensorSecondTemp
  | boardSensorOtherTemp
  | ambientSensorTemp
deriving DecidableEq

/-- The store of an attribute: the return value, the buffer, and the number it reads, if it
reads one. -/
def sensorStore (attr : SensorAttr) (value : ThermalBuf) (buf : List UInt8) :
    ℕ × ThermalBuf × Option Int32 :=
  match attr with
  | .boardSensorTemp =>
    let (ret, value, temp) := thermalBoardSensorTempStore value buf
    (ret, value, some temp)
  | .boardSensorSecondTemp =>
    let (ret, value) := thermalBoardSensorSecondTempStore value buf
    (ret, value, none)
  | .boardSensorOtherTemp =>
    let (ret, value) := thermalBoardSensorOtherTempStore value buf
    (ret, value, none)
  | .ambientSensorTemp =>
    let (ret, value) := thermalAmbientSensorTempStore value buf
    (ret, value, none)

/-- Every attribute stores alike. -/
theorem sensorStore_buf (attr : SensorAttr) (value : ThermalBuf) (buf : List UInt8) :
    (sensorStore attr value buf).2.1 = (miStringStore value buf).2 := by
  cases attr
  all_goals rfl

/-! ## Writes of numerals -/

/-- A write of a signed numeral of an `int` between white space, of at most 127 bytes. -/
structure NumeralWrite where
  lead : List UInt8
  sign : Sign
  digits : List UInt8
  trail : List UInt8
  isspace_lead : ∀ c ∈ lead, isspace c = true
  digits_ne_nil : digits ≠ []
  isDigit_digits : ∀ d ∈ digits, IsDigit d
  isspace_trail : ∀ c ∈ trail, isspace c = true
  length_le : (lead ++ (sign.chars ++ digits) ++ trail).length ≤ 127
  isInt_apply : IsInt (sign.apply (value 10 digits))

namespace NumeralWrite

variable (w : NumeralWrite)

/-- The bytes written. -/
def bytes : List UInt8 := w.lead ++ (w.sign.chars ++ w.digits) ++ w.trail

/-- The number written. -/
def number : ℤ := w.sign.apply (value 10 w.digits)

/-- The string that the write leaves in the buffer of an attribute. -/
def stored (attr : SensorAttr) (value : ThermalBuf) : CString :=
  (sensorStore attr value w.bytes).2.1.string

/-- The text without the trailing white space ends in a digit. -/
theorem rdropWhile_bytes : w.bytes.rdropWhile isspace = w.lead ++ (w.sign.chars ++ w.digits) := by
  refine rdropWhile_isspace (fun hne => ?_) w.isspace_trail
  have hlast : IsDigit ((w.lead ++ (w.sign.chars ++ w.digits)).getLast hne) := by
    rw [List.getLast_append_of_ne_nil _ (by simp [w.digits_ne_nil]),
      List.getLast_append_of_ne_nil _ w.digits_ne_nil]
    exact w.isDigit_digits _ (List.getLast_mem _)
  exact not_isspace_of_isDigit hlast

theorem zero_notMem_bytes : 0 ∉ w.bytes := by
  intro h
  simp only [bytes, List.mem_append] at h
  rcases h with (h | h | h) | h
  · exact absurd (w.isspace_lead 0 h) (by decide)
  · cases hsign : w.sign with
    | none | minus | plus =>
      rw [hsign] at h
      exact absurd h (by decide)
  · exact absurd (w.isDigit_digits 0 h) (by decide)
  · exact absurd (w.isspace_trail 0 h) (by decide)

/-- The whole write is copied, and terminated. -/
theorem ofBytes_copiedBytes (value : ThermalBuf) :
    CString.ofBytes (copiedBytes value w.bytes) = ⟨w.bytes, w.zero_notMem_bytes⟩ := by
  have hle : w.bytes.length ≤ 127 := w.length_le
  have hlen : min w.bytes.length (miThermalBufLen - 1) = w.bytes.length := Nat.min_eq_left hle
  have hvalue : w.bytes.length < (w.bytes ++ value.bytes.drop w.bytes.length).length := by
    rw [List.length_append, List.length_drop, value.length_bytes, miThermalBufLen]
    omega
  rw [copiedBytes, hlen, List.take_length, List.set_eq_take_append_cons_drop, if_pos hvalue,
    List.take_left, CString.ofBytes_append w.zero_notMem_bytes]

/-- **The store** keeps the leading white space. -/
theorem chars_stored (attr : SensorAttr) (value : ThermalBuf) :
    (w.stored attr value).chars = w.lead ++ (w.sign.chars ++ w.digits) := by
  rw [stored, sensorStore_buf, ThermalBuf.string, miStringStore,
    ofBytes_strim (zero_mem_copiedBytes value w.bytes), ofBytes_copiedBytes, rdropWhile_bytes]

/-- Without white space before it the numeral alone is stored. -/
theorem chars_stored_of_nil (h : w.lead = []) (attr : SensorAttr) (value : ThermalBuf) :
    (w.stored attr value).chars = w.sign.chars ++ w.digits := by
  rw [chars_stored, h, List.nil_append]

theorem natAbs_number : w.number.natAbs = value 10 w.digits := Sign.natAbs_apply _ _

theorem isInt_number : IsInt w.number := w.isInt_apply

/-- The first board sensor's store reads what it stored. -/
theorem temp_boardSensorTemp (value : ThermalBuf) :
    (sensorStore .boardSensorTemp value w.bytes).2.2 =
      some (simpleStrtol (w.stored .boardSensorTemp value) 10).toInt32 := rfl

theorem stored_ne_nil (attr : SensorAttr) (value : ThermalBuf) :
    (w.stored attr value).chars ≠ [] := by
  rw [chars_stored]
  simp [w.digits_ne_nil]

/-- A write that base 0 reads as its number counts for the degrees of the number. -/
theorem toInt_miThermalParseTemp_stored {attr : SensorAttr} {value : ThermalBuf}
    (h : kstrtoint (w.stored attr value) 0 = .ok (.ofInt w.number)) :
    (miThermalParseTemp (some (w.stored attr value))).toInt = degrees w.number := by
  rw [toInt_miThermalParseTemp_of_ok (w.stored_ne_nil attr value) h,
    toInt_ofInt_eq_iff.mpr w.isInt_number]

/-- The reading of the first board sensor's store is the number, but for a plus sign. -/
theorem simpleStrtol_stored_iff (h : w.lead = []) (attr : SensorAttr) (value : ThermalBuf) :
    (simpleStrtol (w.stored attr value) 10).toInt32 = .ofInt w.number ↔
      w.sign ≠ .plus ∨ w.number = 0 := by
  rw [simpleStrtol_signed (w.chars_stored_of_nil h attr value) w.digits_ne_nil w.isDigit_digits]
  by_cases hplus : w.sign = .plus
  · rw [if_pos hplus, or_iff_right (not_not_intro hplus), ← Int32.toInt_inj,
      toInt_ofInt_eq_iff.mpr w.isInt_number]
    exact eq_comm
  · rw [if_neg hplus]
    exact iff_of_true rfl (Or.inl hplus)

end NumeralWrite

/-- The write to an attribute is read as the number that was written: the surrounding white space
is dropped, base 0 gives the number, so does the base-10 reading of the store where it takes one,
and the sensor does not count as absent unless the number is reserved. -/
structure ReadAsWritten (attr : SensorAttr) (value : ThermalBuf) (w : NumeralWrite) : Prop where
  chars_eq : (w.stored attr value).chars = w.sign.chars ++ w.digits
  kstrtoint_eq : kstrtoint (w.stored attr value) 0 = .ok (.ofInt w.number)
  temp_eq : ∀ temp, (sensorStore attr value w.bytes).2.2 = some temp → temp = .ofInt w.number
  parse_ne : w.number ≠ Int32.minValue.toInt → w.number ≠ Int32.maxValue.toInt →
    miThermalParseTemp (some (w.stored attr value)) ≠ Int32.minValue

/-- **Sensor text** is read as the number that was written exactly where nothing stands before it,
it has no leading 0 or one octal digit, and its sign is no plus that the store reads. -/
theorem readAsWritten_iff (attr : SensorAttr) (value : ThermalBuf) (w : NumeralWrite) :
    ReadAsWritten attr value w ↔
      w.lead = [] ∧ (w.digits.head? ≠ some 48 ∨ w.number.natAbs ≤ 7) ∧
        (attr = .boardSensorTemp → w.sign ≠ .plus ∨ w.number = 0) := by
  have hread (hlead : w.lead = []) :
      kstrtoint (w.stored attr value) 0 = .ok (.ofInt w.number) ↔
        w.digits.head? ≠ some 48 ∨ w.number.natAbs ≤ 7 := by
    rw [w.natAbs_number]
    exact kstrtoint_eq_ok_iff (w.chars_stored_of_nil hlead attr value) w.digits_ne_nil
      w.isDigit_digits w.isInt_apply
  constructor
  · intro h
    -- what stands before the numeral is stored, so nothing stood there
    have hlead : w.lead = [] := by
      have hchars := (w.chars_stored attr value).symm.trans h.chars_eq
      simpa using hchars
    refine ⟨hlead, (hread hlead).mp h.kstrtoint_eq, ?_⟩
    rintro rfl
    exact (w.simpleStrtol_stored_iff hlead .boardSensorTemp value).mp
      (h.temp_eq _ (w.temp_boardSensorTemp value))
  · rintro ⟨hlead, hzero, hplus⟩
    have hchars := w.chars_stored_of_nil hlead attr value
    have hok := (hread hlead).mpr hzero
    refine ⟨hchars, hok, ?_, ?_⟩
    · cases attr with
      | boardSensorTemp =>
        intro temp htemp
        rw [w.temp_boardSensorTemp, Option.some.injEq] at htemp
        rw [← htemp]
        exact (w.simpleStrtol_stored_iff hlead .boardSensorTemp value).mpr (hplus rfl)
      | boardSensorSecondTemp | boardSensorOtherTemp | ambientSensorTemp => exact nofun
    · -- only the reserved numbers count as absent
      intro hmin hmax habsent
      have hdegrees : degrees w.number = -2 ^ 31 := by
        rw [← w.toInt_miThermalParseTemp_stored hok, habsent]
        rfl
      obtain ⟨hlow, hhigh⟩ := w.isInt_number
      refine degrees_ne (lt_of_le_of_ne hlow (Ne.symm hmin)) ?_ hdegrees
      exact lt_of_le_of_ne (Int.le_sub_one_of_lt hhigh) hmax

/-- The write `" 25"`: white space stands before the number. -/
def paddedWrite : NumeralWrite where
  lead := [32]
  sign := .none
  digits := [50, 53]
  trail := []
  isspace_lead := isspace_of_mem_blank
  digits_ne_nil := List.cons_ne_nil _ _
  isDigit_digits := by simp [IsDigit]
  isspace_trail := nofun
  length_le := by decide
  isInt_apply := by decide

/-- A buffer with the string `"0"`, as at the start. -/
def zeroBuf : ThermalBuf :=
  ⟨48 :: List.replicate 127 0, by rw [List.length_cons, List.length_replicate]; rfl, by simp⟩

/-- White space before a number makes the sensor count as absent. -/
theorem not_readAsWritten_paddedWrite :
    ¬ ∀ (attr : SensorAttr) (value : ThermalBuf) (w : NumeralWrite),
      ReadAsWritten attr value w := by
  intro h
  have hstored : paddedWrite.stored .ambientSensorTemp zeroBuf = ⟨[32, 50, 53], by decide⟩ :=
    CString.ext (paddedWrite.chars_stored .ambientSensorTemp zeroBuf)
  refine (h .ambientSensorTemp zeroBuf paddedWrite).parse_ne (by decide) (by decide) ?_
  rw [hstored]
  decide

end XiaomiModules
