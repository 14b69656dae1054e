import XiaomiModules.Kernel.Memory
import XiaomiModules.Library.Runs
import XiaomiModules.PerfHelper.Text
import XiaomiModules.Thermal.SensorText

/-!
# The text buffers as bare arrays

A buffer of mi_thermal_interface or perf_helper is a `char` array, and nothing but its history says
that there is a string in it. Three functions store into such arrays: they copy bytes, write a
terminator behind them and trim the text in place. A copy from user space that faults returns before
the terminator is written, and what it leaves in the rest of its range is up to the kernel.

None of the three ever copies to the last byte of an array, so that byte stays 0 from the start, at
every byte written. It is what ends the string after a copy that faulted.

## Main definitions

* `Raw.miStringStore`, `Raw.perfHelperCopyUser`, `Raw.kdamondCpusetStore`: the stores on bare arrays
* `TextArray`, `TextArrays`: the arrays
* `TextEvent`, `TextArrays.perform`: stores and shows, and the uses of the array they make

## Main results

* `Raw.cells_miStringStore`, `Raw.perfHelperCopyUser_eq`, `Raw.kdamondCpusetStore_eq`: the stores
  leave what they leave in a buffer known to hold a string
* `TextArrays.terminated`: in every run, all uses are inside the arrays and every array holds a 0
-/

namespace XiaomiModules

open Text (ascii)
open Access (Run Use Terminated)

/-! ## The stores -/

namespace Raw

/-- `dst[len] = '\0'` and `strim(dst)`, after a copy. -/
def finish (copied : Run UInt8) (len : ℕ) : Run UInt8 :=
  (copied.andThen (Access.store len 0)).andThen strim

/-- `mi_string_store(value, buf, count)` for a write of the bytes `buf`. -/
def miStringStore (value buf : List UInt8) : ℕ × Run UInt8 :=
  let len := min buf.length (miThermalBufLen - 1)
  (buf.length, finish (memcpy (buf.take len) value) len)

/-- `copy_from_user(dst, buf, len)`: the number of bytes that were not copied, and the destination,
where a fault leaves `rest` from its position on. The kernel of today leaves zeros. -/
def copyFromUser (dst : List UInt8) (w : UserWrite) (rest : ℕ → UInt8) (len : ℕ) : ℕ × Run UInt8 :=
  match w.fault with
  | some j =>
    if j < len then
      (len - j, memcpy (w.bytes.take j ++ (List.range' j (len - j)).map rest) dst)
    else (0, memcpy (w.bytes.take len) dst)
  | none => (0, memcpy (w.bytes.take len) dst)

/-- `perf_helper_copy_user(dst, dst_size, buf, count)` on an array of the module. -/
def perfHelperCopyUser (dst : List UInt8) (dstSize : ℕ) (w : UserWrite) (rest : ℕ → UInt8) :
    ℤ × Run UInt8 :=
  let len := min w.bytes.length (dstSize - 1)
  if dstSize = 0 then (-EINVAL, ⟨dst, []⟩)
  else
    let (left, copied) := copyFromUser dst w rest len
    if left ≠ 0 then (-EFAULT, copied) else (w.bytes.length, finish copied len)

/-- `kdamond_cpuset_store(kobj, attr, buf, count)`, which logs what it stored. -/
def kdamondCpusetStore (cpuset buf : List UInt8) : ℤ × Run UInt8 :=
  let len := min buf.length (TextFile.kdamondCpuset.size - 1)
  (buf.length, (finish (memcpy (buf.take len) cpuset) len).andThen fun s => (printString s).2)

/-- What is copied of any number of bytes is less than the array. -/
theorem min_sub_one_lt {size : ℕ} (h : 0 < size) (count : ℕ) : min count (size - 1) < size :=
  (min_le_right _ _).trans_lt (Nat.sub_one_lt h.ne')

section Within

variable {size len : ℕ} {dst : List UInt8}

theorem within_finish {copied : Run UInt8} (h : copied.Within size (Terminated 0 size))
    (hlen : len < size) : (finish copied len).Within size (Terminated 0 size) :=
  (h.andThen fun _ hcells => hcells.store hlen fun _ => rfl).andThen fun _ => within_strim

theorem within_miStringStore (h : Terminated 0 miThermalBufLen dst) (buf : List UInt8) :
    (miStringStore dst buf).2.Within miThermalBufLen (Terminated 0 miThermalBufLen) := by
  have hlen := min_sub_one_lt h.size_pos buf.length
  exact within_finish (within_memcpy h ((List.length_take_le _ _).trans_lt hlen)) hlen

/-- A copy of less than the array, whether it faults or not, does not reach the last byte. -/
theorem within_copyFromUser (h : Terminated 0 size dst) (w : UserWrite) (rest : ℕ → UInt8)
    (hlen : len < size) :
    (copyFromUser dst w rest len).2.Within size (Terminated 0 size) := by
  have hwhole : (memcpy (w.bytes.take len) dst).Within size (Terminated 0 size) :=
    within_memcpy h ((List.length_take_le _ _).trans_lt hlen)
  unfold copyFromUser
  cases w.fault with
  | none => exact hwhole
  | some j =>
    dsimp only
    split_ifs with hj
    · refine within_memcpy h ?_
      rw [List.length_append, List.length_map, List.length_range', List.length_take]
      omega
    · exact hwhole

theorem within_perfHelperCopyUser (h : Terminated 0 size dst) (w : UserWrite)
    (rest : ℕ → UInt8) :
    (perfHelperCopyUser dst size w rest).2.Within size (Terminated 0 size) := by
  have hlen := min_sub_one_lt h.size_pos w.bytes.length
  have hcopied := within_copyFromUser h w rest hlen
  unfold perfHelperCopyUser
  dsimp only
  split_ifs with hzero hleft
  · exact absurd hzero h.size_pos.ne'
  · -- the copy faulted, and no terminator is written
    exact hcopied
  · exact within_finish hcopied hlen

theorem within_kdamondCpusetStore (h : Terminated 0 TextFile.kdamondCpuset.size dst)
    (buf : List UInt8) :
    (kdamondCpusetStore dst buf).2.Within TextFile.kdamondCpuset.size
      (Terminated 0 TextFile.kdamondCpuset.size) := by
  have hlen := min_sub_one_lt h.size_pos buf.length
  have hcopied := within_memcpy h ((List.length_take_le (min buf.length _) buf).trans_lt hlen)
  -- what is stored is logged
  have hlogged := (within_finish hcopied hlen).andThen
    fun cells (hcells : Terminated 0 _ cells) => within_printString hcells
  exact hlogged

end Within

/-! ## Buffers known to hold a string -/

theorem cells_finish (copied : Run UInt8) (len : ℕ) :
    (finish copied len).cells = (XiaomiModules.strim (copied.cells.set len 0)).2 :=
  cells_strim _

theorem cells_memcpy {src dst : List UInt8} (h : src.length ≤ dst.length) :
    (memcpy src dst).cells = src ++ dst.drop src.length := by
  have hcells := Access.cells_copy ((Nat.zero_add src.length).trans_le h)
  rwa [List.take_zero, List.nil_append, Nat.zero_add] at hcells

/-- Copying `len` bytes, where there are as many in both arrays. -/
theorem cells_memcpy_take {src dst : List UInt8} {len : ℕ} (hsrc : len ≤ src.length)
    (hdst : len ≤ dst.length) :
    (memcpy (src.take len) dst).cells = src.take len ++ dst.drop len := by
  have htake : (src.take len).length = len := List.length_take_of_le hsrc
  rw [cells_memcpy (htake.trans_le hdst), htake]

theorem cells_miStringStore (value : ThermalBuf) (buf : List UInt8) :
    (miStringStore value.bytes buf).2.cells = (XiaomiModules.miStringStore value buf).2.bytes := by
  have hle : min buf.length (miThermalBufLen - 1) ≤ value.bytes.length := by
    rw [value.length_bytes]
    exact (min_sub_one_lt (by decide) _).le
  rw [miStringStore]
  dsimp only
  rw [cells_finish, cells_memcpy_take (min_le_left _ _) hle]
  rfl

/-- With zeros for what is left, a copy from user space leaves what the kernel's leaves. -/
theorem copyFromUser_eq (w : UserWrite) {dst : List UInt8} {len : ℕ} (hsrc : len ≤ w.bytes.length)
    (hdst : len ≤ dst.length) :
    (copyFromUser dst w (fun _ => 0) len).1 = (XiaomiModules.copyFromUser dst w len).1 ∧
      (copyFromUser dst w (fun _ => 0) len).2.cells =
        (XiaomiModules.copyFromUser dst w len).2 := by
  have hwhole := cells_memcpy_take hsrc hdst
  unfold copyFromUser XiaomiModules.copyFromUser
  cases w.fault with
  | none => exact ⟨rfl, hwhole⟩
  | some j =>
    dsimp only
    split_ifs with hj
    · refine ⟨rfl, ?_⟩
      have hlen : (w.bytes.take j ++ (List.range' j (len - j)).map fun _ => (0 : UInt8)).length =
          len := by
        rw [List.length_append, List.length_map, List.length_range', List.length_take]
        omega
      dsimp only
      rw [cells_memcpy (hlen.trans_le hdst), hlen, List.map_const', List.length_range',
        List.append_assoc]
    · exact ⟨rfl, hwhole⟩

theorem perfHelperCopyUser_eq {size : ℕ} (b : TextBuf size) (w : UserWrite) :
    (perfHelperCopyUser b.bytes size w fun _ => 0).1 =
        (XiaomiModules.perfHelperCopyUser b.bytes w).1 ∧
      (perfHelperCopyUser b.bytes size w fun _ => 0).2.cells =
        (XiaomiModules.perfHelperCopyUser b.bytes w).2 := by
  have hdst : min w.bytes.length (size - 1) ≤ b.bytes.length := by
    rw [b.length_bytes]
    exact (min_sub_one_lt b.size_pos _).le
  obtain ⟨hleft, hcells⟩ := copyFromUser_eq w (min_le_left _ (size - 1)) hdst
  unfold perfHelperCopyUser XiaomiModules.perfHelperCopyUser
  dsimp only
  rw [b.length_bytes, hleft]
  split_ifs
  · exact ⟨rfl, rfl⟩
  · exact ⟨rfl, hcells⟩
  · refine ⟨rfl, ?_⟩
    dsimp only
    rw [cells_finish, hcells]

theorem kdamondCpusetStore_eq (b : TextBuf TextFile.kdamondCpuset.size) (buf : List UInt8) :
    (kdamondCpusetStore b.bytes buf).1 = (XiaomiModules.kdamondCpusetStore b.bytes buf).1 ∧
      (kdamondCpusetStore b.bytes buf).2.cells =
        (XiaomiModules.kdamondCpusetStore b.bytes buf).2 := by
  have hdst : min buf.length (TextFile.kdamondCpuset.size - 1) ≤ b.bytes.length := by
    rw [b.length_bytes]
    exact (min_sub_one_lt b.size_pos _).le
  refine ⟨rfl, ?_⟩
  unfold kdamondCpusetStore XiaomiModules.kdamondCpusetStore
  dsimp only [Run.andThen, printString]
  rw [cells_finish, cells_memcpy_take (min_le_left _ _) hdst, b.length_bytes]

end Raw

/-! ## The arrays -/

/-- The `char` arrays of mi_thermal_interface that are stored into. -/
inductive ThermalString
  | boostBuf
  | sensor (attr : SensorAttr)
deriving DecidableEq

/-- The arrays of the two modules. -/
inductive TextArray
  | thermal (value : ThermalString)
  | perfHelper (file : TextFile)
deriving DecidableEq

/-- `sizeof` the array. -/
def TextArray.size : TextArray → ℕ
  | .thermal _ => miThermalBufLen
  | .perfHelper file => file.size

/-- A store into an array, or a show of it. A write to a proc file brings what the kernel leaves
where copying it faults. -/
inductive TextEvent
  | thermalStore (value : ThermalString) (buf : List UInt8)
  | procWrite (file : ProcFile) (w : UserWrite) (rest : ℕ → UInt8)
  | cpusetStore (buf : List UInt8)
  | read (array : TextArray)

/-- The array that an event uses. -/
def TextEvent.array : TextEvent → TextArray
  | .thermalStore value _ => .thermal value
  | .procWrite file _ _ => .perfHelper (.proc file)
  | .cpusetStore _ => .perfHelper .kdamondCpuset
  | .read array => array

/-- What the arrays hold. -/
structure TextArrays where
  bytes : TextArray → List UInt8

namespace TextArrays

/-- A text at the start of an array, and zeros behind it. -/
def filled (array : TextArray) (text : List UInt8) : List UInt8 :=
  text ++ List.replicate (array.size - text.length) 0

/-- The arrays as they are declared. -/
def initial : TextArrays where
  bytes
    | .thermal value => filled (.thermal value) (ascii "0")
    | .perfHelper (.proc file) => filled (.perfHelper (.proc file)) []
    | .perfHelper .kdamondCpuset => filled (.perfHelper .kdamondCpuset) (ascii "0-7")

/-- The array of the event after it, and the uses it makes of the array. -/
def perform (s : TextArrays) : TextEvent → Run UInt8
  | .thermalStore value buf => (Raw.miStringStore (s.bytes (.thermal value)) buf).2
  | .procWrite file w rest =>
    (Raw.perfHelperCopyUser (s.bytes (.perfHelper (.proc file))) file.size w rest).2
  | .cpusetStore buf => (Raw.kdamondCpusetStore (s.bytes (.perfHelper .kdamondCpuset)) buf).2
  | .read array => (Raw.printString (s.bytes array)).2

/-- The arrays after an event. -/
def step (s : TextArrays) (e : TextEvent) : TextArrays :=
  ⟨Function.update s.bytes e.array (s.perform e).cells⟩

/-- The last byte of every array is 0. -/
def Ended (s : TextArrays) : Prop := ∀ array, Terminated 0 array.size (s.bytes array)

variable {s : TextArrays}

theorem terminated_filled {array : TextArray} {text : List UInt8} (h : text.length < array.size) :
    Terminated 0 array.size (filled array text) := by
  refine ⟨?_, ?_⟩
  · rw [filled, List.length_append, List.length_replicate]
    omega
  · rw [filled, List.getElem?_append_right (by omega), List.getElem?_replicate, if_pos (by omega)]

theorem ended_initial : initial.Ended := by
  intro array
  match array with
  | .thermal value => exact terminated_filled (show 1 < miThermalBufLen by decide)
  | .perfHelper (.proc file) => cases file <;> exact terminated_filled (by decide)
  | .perfHelper .kdamondCpuset => exact terminated_filled (by decide)

/-- **One event** stays inside its array, whose last byte is 0 after every use. -/
theorem Ended.within_perform (h : s.Ended) (e : TextEvent) :
    (s.perform e).Within e.array.size (Terminated 0 e.array.size) := by
  cases e with
  | thermalStore value buf => exact Raw.within_miStringStore (h (.thermal value)) buf
  | procWrite file w rest =>
    exact Raw.within_perfHelperCopyUser (h (.perfHelper (.proc file))) w rest
  | cpusetStore buf => exact Raw.within_kdamondCpusetStore (h (.perfHelper .kdamondCpuset)) buf
  | read array => exact Raw.within_printString (h array)

theorem Ended.step (h : s.Ended) (e : TextEvent) : (s.step e).Ended := by
  intro array
  dsimp only [TextArrays.step]
  by_cases heq : array = e.array
  · rw [heq, Function.update_self]
    exact (h.within_perform e).cells
  · rw [Function.update_of_ne heq]
    exact h array

/-- **Terminated arrays**: after every run of stores and shows, each array has its size and holds a
0; and every use that the next event makes is inside its array, and leaves a 0 in it. -/
theorem terminated (events : List TextEvent) :
    let s := Runs.after step initial events
    (∀ array, (s.bytes array).length = array.size ∧ 0 ∈ s.bytes array) ∧
      ∀ e : TextEvent, ∀ use ∈ (s.perform e).uses,
        use.index < e.array.size ∧ use.cells.length = e.array.size ∧ 0 ∈ use.cells := by
  intro s
  have hended : s.Ended := Runs.after_invariant (fun _ e h => h.step e) ended_initial events
  refine ⟨fun array => ⟨(hended array).length_eq, (hended array).mem⟩, fun e use huse => ?_⟩
  obtain ⟨hindex, hcells⟩ := (hended.within_perform e).uses use huse
  exact ⟨hindex, hcells.length_eq, hcells.mem⟩

end TextArrays

end XiaomiModules
