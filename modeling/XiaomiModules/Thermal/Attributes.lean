import XiaomiModules.Kernel.Params
import XiaomiModules.TextBuffers

/-!
# Saving and restoring the attributes

Most attributes of mi_thermal_interface keep what is written to them in a variable of their own, an
integer or a string, and show it on a line. A write may be any bytes: an integer attribute keeps the
number they start with, and a string attribute the text that they start with, cut to the buffer and
trimmed at its end.

The line shown is a write, too, and one that leaves what was shown: the number has a sign and digits
only, and the newline that the show adds is trimmed off, or falls behind the end of the buffer. So
the attributes can be saved by reading them and restored by writing what was read, in any order.

## Main definitions

* `ThermalAttrs`: the variables of the attributes, where strings have no white space at their end
* `ThermalAttrs.thermalStore`, `ThermalAttrs.read`: a write to an attribute, and what is read of it
* `AttrContent`: what an attribute holds

## Main results

* `content_store`: a write changes the attribute that it is for
* `stored_read`: what is read of an attribute is stored as what it holds
* `content_after_restore`: the attributes after what was read of them has been written back
-/

namespace XiaomiModules

open Text (ascii decimal)

/-- The integer attributes, by the names of their files. -/
inductive IntAttr
  | tempState
  | balanceMode
  | modemLimit
  | wifiLimit
  | flashState
  | torchLevel
  | torchRealLevel
  | thermalMaxBrightness
  | displayThermTemp
  | voiceLimit
  | superHdr
  | cloudGame
  | dynamicTj
  | marketDownloadLimit
  | boardSensorTempComp
  | poorModemLimit
  | cpuNolimitTemp
  | ntnLimit
  | modemLevel
  | bootComplete
  | chargerTemp
  | powersaveMode
  | powerLevel
deriving DecidableEq

/-- The attributes that can be written and have a variable of their own. -/
inductive ThermalAttr
  | int (attr : IntAttr)
  | string (attr : ThermalString)
deriving DecidableEq

/-! ## Shows and stores -/

/-- `mi_int_show(value, buf)`, on the page that is shown. -/
def miIntShow (value : Int32) (page : List UInt8) : ℕ × List UInt8 :=
  scnprintf page 0 pageSize (decimal value.toInt ++ [10])

/-- `mi_int_store(value, buf, count)` for a write of the bytes `buf`. -/
def miIntStore (buf : List UInt8) : ℕ × Int32 :=
  (buf.length, (simpleStrtol (written buf) 10).toInt32)

/-- `mi_string_show(value, buf)`, on the page that is shown. -/
def miStringShow (value : ThermalBuf) (page : List UInt8) : ℕ × List UInt8 :=
  scnprintf page 0 pageSize (value.string.chars ++ [10])

/-- The string is one that `strim` leaves as it is. -/
def ThermalBuf.Trimmed (value : ThermalBuf) : Prop :=
  value.string.chars.rdropWhile isspace = value.string.chars

/-- The variables of the attributes. -/
structure ThermalAttrs where
  value : IntAttr → Int32
  buf : ThermalString → ThermalBuf
  trimmed : ∀ attr, (buf attr).Trimmed

/-- The text that a write leaves in a buffer. -/
def storedText (bytes : List UInt8) : List UInt8 :=
  (CString.ofBytes (bytes.take (miThermalBufLen - 1))).chars.rdropWhile isspace

/-- **The store of a string** leaves the text that the bytes start with, without the white space at
its end. -/
theorem chars_miStringStore (value : ThermalBuf) (bytes : List UInt8) :
    (miStringStore value bytes).2.string.chars = storedText bytes := by
  rw [ThermalBuf.string, miStringStore, ofBytes_strim (zero_mem_copiedBytes value bytes),
    storedText]
  congr 2
  set len := min bytes.length (miThermalBufLen - 1) with hlen
  have htake : bytes.take len = bytes.take (miThermalBufLen - 1) := by
    rw [hlen, Nat.min_comm, ← List.take_eq_take_min]
  have hfront : (bytes.take len).length = len := by
    rw [List.length_take, hlen]
    omega
  have hroom : len < (bytes.take len ++ value.bytes.drop len).length := by
    rw [List.length_append, hfront, List.length_drop, value.length_bytes, hlen, miThermalBufLen]
    omega
  rw [copiedBytes, ← hlen, List.set_eq_take_append_cons_drop, if_pos hroom,
    List.take_left' hfront, ofBytes_append_zero, htake]

theorem trimmed_miStringStore (value : ThermalBuf) (bytes : List UInt8) :
    (miStringStore value bytes).2.Trimmed := by
  rw [ThermalBuf.Trimmed, chars_miStringStore, storedText]
  exact List.rdropWhile_idempotent _ _

/-- The store of a string attribute. -/
def thermalStringStore (attr : ThermalString) (value : ThermalBuf) (buf : List UInt8) :
    ℕ × ThermalBuf :=
  match attr with
  | .boostBuf => miStringStore value buf
  | .sensor attr =>
    let (ret, value, _) := sensorStore attr value buf
    (ret, value)

/-- The store of the first board sensor reads the string, and makes no use of what it reads. -/
theorem thermalStringStore_eq (attr : ThermalString) (value : ThermalBuf) (buf : List UInt8) :
    thermalStringStore attr value buf = miStringStore value buf := by
  rcases attr with - | attr
  · rfl
  · cases attr
    all_goals rfl

theorem trimmed_thermalStringStore (attr : ThermalString) (value : ThermalBuf) (buf : List UInt8) :
    (thermalStringStore attr value buf).2.Trimmed := by
  rw [thermalStringStore_eq]
  exact trimmed_miStringStore value buf

namespace ThermalAttrs

/-- The variables as they are declared. -/
def initial : ThermalAttrs where
  value _ := 0
  buf _ := zeroBuf
  trimmed _ := by
    have hchars : zeroBuf.string.chars = [48] := rfl
    rw [ThermalBuf.Trimmed, hchars]
    decide

/-- A read of an attribute, on the page that is shown. -/
def thermalShow (s : ThermalAttrs) (attr : ThermalAttr) (page : List UInt8) : ℕ × List UInt8 :=
  match attr with
  | .int attr => miIntShow (s.value attr) page
  | .string attr => miStringShow (s.buf attr) page

/-- A write of the bytes `buf` to an attribute. -/
def thermalStore (s : ThermalAttrs) (attr : ThermalAttr) (buf : List UInt8) : ℕ × ThermalAttrs :=
  match attr with
  | .int attr =>
    let (ret, value) := miIntStore buf
    (ret, { s with value := Function.update s.value attr value })
  | .string attr =>
    let out := thermalStringStore attr (s.buf attr) buf
    (out.1,
      { s with
        buf := Function.update s.buf attr out.2
        trimmed := (Function.forall_update_iff s.buf fun _ value => value.Trimmed).mpr
          ⟨trimmed_thermalStringStore attr _ buf, fun attr _ => s.trimmed attr⟩ })

/-- What is read of an attribute. -/
def read (s : ThermalAttrs) (attr : ThermalAttr) : List UInt8 :=
  shown (s.thermalShow attr (List.replicate pageSize 0))

/-- The variables after a write. -/
def step (s : ThermalAttrs) (w : ThermalAttr × List UInt8) : ThermalAttrs :=
  (s.thermalStore w.1 w.2).2

end ThermalAttrs

/-! ## What the attributes hold -/

/-- What an attribute holds: a number or a text. -/
inductive AttrContent
  | number (value : Int32)
  | text (chars : List UInt8)
deriving DecidableEq

/-- The line that shows the content. -/
def AttrContent.line : AttrContent → List UInt8
  | .number value => decimal value.toInt ++ [10]
  | .text chars => chars ++ [10]

/-- What an attribute holds after a write, whatever it held before. -/
def ThermalAttr.stored (attr : ThermalAttr) (bytes : List UInt8) : AttrContent :=
  match attr with
  | .int _ => .number (simpleStrtol (written bytes) 10).toInt32
  | .string _ => .text (storedText bytes)

/-- What a write leaves in an attribute, if it is for it. -/
def ThermalAttr.storedIn (attr : ThermalAttr) (w : ThermalAttr × List UInt8) : Option AttrContent :=
  if w.1 = attr then some (attr.stored w.2) else none

namespace ThermalAttrs

variable (s : ThermalAttrs)

/-- What an attribute holds. -/
def content (s : ThermalAttrs) : ThermalAttr → AttrContent
  | .int attr => .number (s.value attr)
  | .string attr => .text (s.buf attr).string.chars

/-- **A write** changes the attribute that it is for. -/
theorem content_store (w : ThermalAttr × List UInt8) (attr : ThermalAttr) :
    (s.step w).content attr = (attr.storedIn w).getD (s.content attr) := by
  obtain ⟨attr', bytes⟩ := w
  rw [ThermalAttr.storedIn]
  split_ifs with heq
  · subst heq
    cases attr' with
    | int attr => simp [step, thermalStore, content, ThermalAttr.stored, miIntStore]
    | string attr =>
      simp [step, thermalStore, content, ThermalAttr.stored, thermalStringStore_eq,
        chars_miStringStore]
  · cases attr' with
    | int attr' =>
      cases attr with
      | int attr =>
        have hne : attr ≠ attr' := fun h => heq (congrArg _ h.symm)
        simp [step, thermalStore, content, Function.update_of_ne hne]
      | string attr => rfl
    | string attr' =>
      cases attr with
      | int attr => rfl
      | string attr =>
        have hne : attr ≠ attr' := fun h => heq (congrArg _ h.symm)
        simp [step, thermalStore, content, Function.update_of_ne hne]

theorem length_chars_lt (attr : ThermalString) :
    (s.buf attr).string.chars.length < miThermalBufLen :=
  (length_ofBytes_lt (s.buf attr).zero_mem_bytes).trans_eq (s.buf attr).length_bytes

theorem length_line_lt (attr : ThermalAttr) : (s.content attr).line.length < pageSize := by
  cases attr with
  | int attr =>
    have hlen : (decimal (s.value attr).toInt).length ≤ 11 := by
      have hrange := isInt_toInt (s.value attr)
      rw [IsInt] at hrange
      exact Text.length_decimal_le (k := 10) (by decide) (by omega)
    rw [content, AttrContent.line, List.length_append, List.length_singleton, pageSize]
    omega
  | string attr =>
    have hlen := s.length_chars_lt attr
    rw [miThermalBufLen] at hlen
    rw [content, AttrContent.line, List.length_append, List.length_singleton, pageSize]
    omega

/-- A read is the line of what the attribute holds. -/
theorem read_eq (attr : ThermalAttr) : s.read attr = (s.content attr).line := by
  have hline := shown_scnprintf (List.length_replicate (a := (0 : UInt8))) (s.length_line_lt attr)
  cases attr with
  | int attr => exact hline
  | string attr => exact hline

/-- **A line shown** is stored as what it shows. -/
theorem stored_read (attr : ThermalAttr) : attr.stored (s.read attr) = s.content attr := by
  rw [read_eq]
  cases attr with
  | int attr =>
    have hnul : 0 ∉ decimal (s.value attr).toInt ++ [10] := by
      rw [List.mem_append]
      exact not_or.mpr ⟨zero_notMem_decimal _, by decide⟩
    rw [content, ThermalAttr.stored, AttrContent.line, simpleStrtol_line (chars_written hnul),
      Int32.ofInt_toInt]
  | string attr =>
    have hlen := s.length_chars_lt attr
    have hnul := (s.buf attr).string.nul_notMem
    have htrim := s.trimmed attr
    rw [ThermalBuf.Trimmed] at htrim
    rw [content, ThermalAttr.stored, AttrContent.line, storedText]
    congr 1
    set chars := (s.buf attr).string.chars with hchars
    rcases Nat.lt_or_ge chars.length (miThermalBufLen - 1) with hlt | hge
    · -- the whole line is copied, and the newline is trimmed off
      have hall : (chars ++ [10]).take (miThermalBufLen - 1) = chars ++ [10] :=
        List.take_of_length_le (by rw [List.length_append, List.length_singleton]; omega)
      have hline : 0 ∉ chars ++ [10] := by simpa using hnul
      rw [hall, chars_ofBytes hline, List.rdropWhile_concat_pos _ _ _ (by decide), htrim]
    · -- the newline is behind the end of the buffer
      have hall : (chars ++ [10]).take (miThermalBufLen - 1) = chars :=
        List.take_left' (by omega)
      rw [hall, chars_ofBytes hnul, htrim]

/-- **Restoring**: where what was read of attributes is written back, in any order and whatever has
become of them since, they hold what they held, and the others hold what they do. -/
theorem content_after_restore (saved s : ThermalAttrs) (order : List ThermalAttr)
    (attr : ThermalAttr) :
    (Runs.after step s (order.map fun attr => (attr, saved.read attr))).content attr =
      if attr ∈ order then saved.content attr else s.content attr := by
  have hread : attr.storedIn (attr, saved.read attr) = some (saved.content attr) := by
    rw [ThermalAttr.storedIn, if_pos rfl, stored_read]
  have hother : ∀ attr', attr' ≠ attr → attr.storedIn (attr', saved.read attr') = none :=
    fun attr' hne => if_neg hne
  rw [Runs.after_eq_lastSet (f := fun s => content s attr) fun s w => s.content_store w attr,
    Runs.lastSet_map (fun attr => (attr, saved.read attr)) hread hother]

end ThermalAttrs

end XiaomiModules
