import XiaomiModules.Kernel.Numbers

/-!
# The text files of perf_helper

Four proc files and one sysfs file keep a text each. A write copies into the buffer itself, ends the
text and trims it. A copy that faults has stored the bytes before the fault, and zeros in the rest
of what it was asked for; the write then returns an error and leaves that in the buffer. And
trimming cuts white space off at the end only, since the pointer that `strim` returns is dropped.

The last byte of a buffer is never written but with a zero, so every buffer holds a text, whatever
was written before.

## Main definitions

* `TextBuf size`, `perfHelperCopyUser`, `kdamondCpusetStore`: a buffer, and the two functions that
  store into one
* `PerfHelper`, `TextFile`: the module's buffers, and the files that show them
* `PerfHelper.KeepsOnError`, `PerfHelper.StoresTrimmed`: what a write is to do

## Main results

* `TextBuf.copyUser_of_fault`, `TextBuf.copyUser_of_not_fault`: the text after a write
* `PerfHelper.keepsText_iff`: when a write that fails keeps the text
* `PerfHelper.storesTrimmed_iff`: when a write that succeeds stores the trimmed text
-/

namespace XiaomiModules

open Text (ascii decimalNat)

/-! ## Buffers -/

/-- A character buffer of `size` bytes, the last of which is 0. -/
structure TextBuf (size : ℕ) where
  bytes : List UInt8
  length_bytes : bytes.length = size
  last_bytes : bytes[size - 1]? = some 0

/-- The text of the buffer. -/
def TextBuf.text {size : ℕ} (b : TextBuf size) : List UInt8 := (CString.ofBytes b.bytes).chars

/-- The buffer with a text at its start and zeros behind it. -/
def TextBuf.ofText (text : List UInt8) (room : ℕ) : TextBuf (text.length + (room + 1)) where
  bytes := text ++ List.replicate (room + 1) 0
  length_bytes := by rw [List.length_append, List.length_replicate]
  last_bytes := by simp

/-- A write from user space: the bytes of the user's buffer, and the position at which copying them
faults. -/
structure UserWrite where
  bytes : List UInt8
  fault : Option ℕ

/-- `copy_from_user(dst, buf, len)`: the number of bytes that were not copied, and the destination.
A fault leaves the bytes before it in the destination, and zeros in the rest of the range. -/
def copyFromUser (dst : List UInt8) (w : UserWrite) (len : ℕ) : ℕ × List UInt8 :=
  match w.fault with
  | some j =>
    if j < len then
      (len - j, w.bytes.take j ++ (List.replicate (len - j) 0 ++ dst.drop len))
    else (0, w.bytes.take len ++ dst.drop len)
  | none => (0, w.bytes.take len ++ dst.drop len)

/-- `perf_helper_copy_user(dst, dst_size, buf, count)` on an array of the module. -/
def perfHelperCopyUser (dst : List UInt8) (w : UserWrite) : ℤ × List UInt8 :=
  let len := min w.bytes.length (dst.length - 1)
  if dst.length = 0 then (-EINVAL, dst)
  else
    let (left, dst) := copyFromUser dst w len
    if left ≠ 0 then (-EFAULT, dst)
    -- the pointer that `strim` returns is dropped
    else (w.bytes.length, (strim (dst.set len 0)).2)

/-- `kdamond_cpuset_store(kobj, attr, buf, count)` on the array it stores into. -/
def kdamondCpusetStore (cpuset : List UInt8) (buf : List UInt8) : ℤ × List UInt8 :=
  let len := min buf.length (cpuset.length - 1)
  (buf.length, (strim ((buf.take len ++ cpuset.drop len).set len 0)).2)

/-- The copy of the write into a buffer of `size` bytes faults at a position. -/
def UserWrite.FaultsAt (w : UserWrite) (size j : ℕ) : Prop :=
  w.fault = some j ∧ j < min w.bytes.length (size - 1)

instance (w : UserWrite) (size j : ℕ) : Decidable (w.FaultsAt size j) :=
  inferInstanceAs (Decidable (_ ∧ _))

/-- A text ends at the first zero. -/
theorem ofBytes_append_zero (chars tail : List UInt8) :
    CString.ofBytes (chars ++ 0 :: tail) = CString.ofBytes chars := by
  ext1
  show (chars ++ 0 :: tail).takeWhile (· ≠ 0) = chars.takeWhile (· ≠ 0)
  rw [List.takeWhile_append]
  split_ifs with hall
  · rw [List.takeWhile_cons_of_neg (by simp), List.append_nil]
    exact ((List.takeWhile_prefix _).eq_of_length hall).symm
  · rfl

/-- Trimming keeps the zeros of the buffer. -/
theorem getElem?_strim {buf : List UInt8} {i : ℕ} (h : buf[i]? = some 0) :
    (strim buf).2[i]? = some 0 := by
  unfold strim
  dsimp only
  split_ifs
  · exact h
  · rw [List.getElem?_set]
    split_ifs with heq hlt
    · rfl
    · rw [← heq] at h
      exact absurd (List.getElem?_eq_some_iff.mp h).1 hlt
    · exact h

section Store

variable {size : ℕ}

theorem TextBuf.size_pos (b : TextBuf size) : 0 < size := by
  obtain ⟨hlt, -⟩ := List.getElem?_eq_some_iff.mp b.last_bytes
  rw [b.length_bytes] at hlt
  omega

/-- Bytes stored in front of the last one leave a buffer of the size, with the last byte. -/
theorem TextBuf.stored (b : TextBuf size) {front : List UInt8} (h : front.length ≤ size - 1) :
    (front ++ b.bytes.drop front.length).length = size ∧
      (front ++ b.bytes.drop front.length)[size - 1]? = some 0 := by
  have hpos := b.size_pos
  constructor
  · rw [List.length_append, List.length_drop, b.length_bytes]
    omega
  · rw [List.getElem?_append_right h, List.getElem?_drop, Nat.add_sub_cancel' h]
    exact b.last_bytes

/-- The buffer with the text `front` stored in it, ended and trimmed. -/
def TextBuf.finish (b : TextBuf size) (front : List UInt8) (h : front.length ≤ size - 1) :
    TextBuf size where
  bytes := (strim ((front ++ b.bytes.drop front.length).set front.length 0)).2
  length_bytes := by rw [length_strim, List.length_set, (b.stored h).1]
  last_bytes := by
    refine getElem?_strim ?_
    rw [List.getElem?_set, (b.stored h).1, (b.stored h).2]
    split_ifs with heq hlt
    · rfl
    · exact absurd (h.trans_lt (Nat.sub_one_lt b.size_pos.ne')) hlt
    · rfl

/-- **What is stored**: the text up to its first zero, without the trailing white space. -/
theorem TextBuf.text_finish (b : TextBuf size) {front : List UInt8} (h : front.length ≤ size - 1) :
    (b.finish front h).text = (CString.ofBytes front).chars.rdropWhile isspace := by
  have hlt : front.length < (front ++ b.bytes.drop front.length).length := by
    rw [(b.stored h).1]
    exact h.trans_lt (Nat.sub_one_lt b.size_pos.ne')
  have hset : (front ++ b.bytes.drop front.length).set front.length 0 =
      front ++ 0 :: (front ++ b.bytes.drop front.length).drop (front.length + 1) := by
    rw [List.set_eq_take_append_cons_drop, if_pos hlt, List.take_left]
  rw [text, finish, ofBytes_strim (List.mem_set hlt 0), hset, ofBytes_append_zero]

/-- The buffer after a copy that faulted at `j`. -/
def TextBuf.faulted (b : TextBuf size) (w : UserWrite) (j : ℕ) (h : w.FaultsAt size j) :
    TextBuf size where
  bytes := w.bytes.take j ++ (List.replicate (min w.bytes.length (size - 1) - j) 0 ++
    b.bytes.drop (min w.bytes.length (size - 1)))
  length_bytes := by
    have hj := h.2
    have hpos := b.size_pos
    simp only [List.length_append, List.length_take, List.length_replicate, List.length_drop,
      b.length_bytes]
    omega
  last_bytes := by
    have hj := h.2
    rw [List.getElem?_append_right (by rw [List.length_take]; omega),
      List.getElem?_append_right (by rw [List.length_take, List.length_replicate]; omega),
      List.getElem?_drop, ← b.last_bytes, List.length_take, List.length_replicate]
    congr 1
    omega

/-- A copy that faults leaves the bytes before the fault as the text. -/
theorem TextBuf.text_faulted (b : TextBuf size) {w : UserWrite} {j : ℕ} (h : w.FaultsAt size j) :
    (b.faulted w j h).text = (CString.ofBytes (w.bytes.take j)).chars := by
  obtain ⟨n, hn⟩ := Nat.exists_eq_succ_of_ne_zero (Nat.sub_ne_zero_of_lt h.2)
  have hbytes : (b.faulted w j h).bytes =
      w.bytes.take j ++ 0 :: (List.replicate n 0 ++
        b.bytes.drop (min w.bytes.length (size - 1))) := by
    simp only [faulted, hn, List.replicate_succ, List.cons_append]
  rw [text, hbytes, ofBytes_append_zero]

/-- **A copy** either faults, and returns an error, or stores what fits of the bytes. -/
theorem perfHelperCopyUser_cases (b : TextBuf size) (w : UserWrite) :
    (∃ j, ∃ h : w.FaultsAt size j,
      perfHelperCopyUser b.bytes w = (-EFAULT, (b.faulted w j h).bytes)) ∨
    (∀ j, ¬ w.FaultsAt size j) ∧ ∃ h : (w.bytes.take (size - 1)).length ≤ size - 1,
      perfHelperCopyUser b.bytes w =
        ((w.bytes.length : ℤ), (b.finish (w.bytes.take (size - 1)) h).bytes) := by
  have hpos := b.size_pos
  have hfront : (w.bytes.take (size - 1)).length = min w.bytes.length (size - 1) := by
    rw [List.length_take, min_comm]
  have htake : w.bytes.take (min w.bytes.length (size - 1)) = w.bytes.take (size - 1) := by
    rw [List.take_eq_take_iff]
    omega
  -- a copy that does not fault goes on to end and trim the text
  have hdone : copyFromUser b.bytes w (min w.bytes.length (size - 1)) =
      (0, w.bytes.take (size - 1) ++ b.bytes.drop (w.bytes.take (size - 1)).length) →
      perfHelperCopyUser b.bytes w = ((w.bytes.length : ℤ),
        (b.finish (w.bytes.take (size - 1)) (hfront.trans_le (min_le_right _ _))).bytes) := by
    intro hcopy
    simp only [perfHelperCopyUser, b.length_bytes, if_neg hpos.ne', hcopy, TextBuf.finish, hfront]
    rfl
  cases hfault : w.fault with
  | none =>
    refine Or.inr ⟨fun j h => ?_, _, hdone ?_⟩
    · exact absurd (hfault.symm.trans h.1) nofun
    · rw [copyFromUser, hfault, htake, hfront]
  | some j =>
    by_cases hj : j < min w.bytes.length (size - 1)
    · refine Or.inl ⟨j, ⟨hfault, hj⟩, ?_⟩
      have hleft : min w.bytes.length (size - 1) - j ≠ 0 := Nat.sub_ne_zero_of_lt hj
      simp only [perfHelperCopyUser, b.length_bytes, if_neg hpos.ne', copyFromUser, hfault,
        if_pos hj, if_pos hleft, TextBuf.faulted]
    · -- the fault lies behind what is copied
      refine Or.inr ⟨fun k h => ?_, _, hdone ?_⟩
      · obtain rfl := Option.some.inj (hfault.symm.trans h.1)
        exact hj h.2
      · rw [copyFromUser, hfault]
        dsimp only
        rw [if_neg hj, htake, hfront]

/-- The buffer after `perf_helper_copy_user`, with its return value. -/
def TextBuf.copyUser (b : TextBuf size) (w : UserWrite) : ℤ × TextBuf size :=
  ((perfHelperCopyUser b.bytes w).1,
    { bytes := (perfHelperCopyUser b.bytes w).2
      length_bytes := by
        rcases perfHelperCopyUser_cases b w with ⟨j, h, heq⟩ | ⟨-, h, heq⟩
        · rw [heq, TextBuf.length_bytes]
        · rw [heq, TextBuf.length_bytes]
      last_bytes := by
        rcases perfHelperCopyUser_cases b w with ⟨j, h, heq⟩ | ⟨-, h, heq⟩
        · rw [heq, TextBuf.last_bytes]
        · rw [heq, TextBuf.last_bytes] })

theorem TextBuf.copyUser_fst (b : TextBuf size) (w : UserWrite) :
    (b.copyUser w).1 = (perfHelperCopyUser b.bytes w).1 := rfl

theorem TextBuf.bytes_copyUser (b : TextBuf size) (w : UserWrite) :
    (b.copyUser w).2.bytes = (perfHelperCopyUser b.bytes w).2 := rfl

theorem TextBuf.copyUser_of_fault (b : TextBuf size) {w : UserWrite} {j : ℕ}
    (h : w.FaultsAt size j) :
    (b.copyUser w).1 = -EFAULT ∧
      (b.copyUser w).2.text = (CString.ofBytes (w.bytes.take j)).chars := by
  rcases perfHelperCopyUser_cases b w with ⟨k, hk, heq⟩ | ⟨hnone, -⟩
  · obtain rfl := Option.some.inj (h.1.symm.trans hk.1)
    refine ⟨by rw [b.copyUser_fst, heq], ?_⟩
    rw [← b.text_faulted hk, text, text, b.bytes_copyUser, heq]
  · exact absurd h (hnone j)

theorem TextBuf.copyUser_of_not_fault (b : TextBuf size) {w : UserWrite}
    (h : ∀ j, ¬ w.FaultsAt size j) :
    (b.copyUser w).1 = w.bytes.length ∧ (b.copyUser w).2.text =
      (CString.ofBytes (w.bytes.take (size - 1))).chars.rdropWhile isspace := by
  rcases perfHelperCopyUser_cases b w with ⟨j, hj, -⟩ | ⟨-, hfront, heq⟩
  · exact absurd hj (h j)
  · refine ⟨by rw [b.copyUser_fst, heq], ?_⟩
    rw [← b.text_finish hfront, text, text, b.bytes_copyUser, heq]

/-- The other store finishes the text in the same way. -/
theorem kdamondCpusetStore_eq (b : TextBuf size) (buf : List UInt8) :
    ∃ h : (buf.take (size - 1)).length ≤ size - 1, kdamondCpusetStore b.bytes buf =
      ((buf.length : ℤ), (b.finish (buf.take (size - 1)) h).bytes) := by
  have hfront : (buf.take (size - 1)).length = min buf.length (size - 1) := by
    rw [List.length_take, min_comm]
  have htake : buf.take (min buf.length (size - 1)) = buf.take (size - 1) := by
    rw [List.take_eq_take_iff]
    omega
  refine ⟨hfront.trans_le (min_le_right _ _), ?_⟩
  simp only [kdamondCpusetStore, b.length_bytes, htake, TextBuf.finish, hfront]

/-- The buffer after `kdamond_cpuset_store`, with its return value. -/
def TextBuf.storeCpuset (b : TextBuf size) (buf : List UInt8) : ℤ × TextBuf size :=
  ((kdamondCpusetStore b.bytes buf).1,
    { bytes := (kdamondCpusetStore b.bytes buf).2
      length_bytes := by
        obtain ⟨h, heq⟩ := kdamondCpusetStore_eq b buf
        rw [heq, TextBuf.length_bytes]
      last_bytes := by
        obtain ⟨h, heq⟩ := kdamondCpusetStore_eq b buf
        rw [heq, TextBuf.last_bytes] })

theorem TextBuf.bytes_storeCpuset (b : TextBuf size) (buf : List UInt8) :
    (b.storeCpuset buf).2.bytes = (kdamondCpusetStore b.bytes buf).2 := rfl

theorem TextBuf.text_storeCpuset (b : TextBuf size) (buf : List UInt8) :
    (b.storeCpuset buf).2.text =
      (CString.ofBytes (buf.take (size - 1))).chars.rdropWhile isspace := by
  obtain ⟨h, heq⟩ := kdamondCpusetStore_eq b buf
  rw [← b.text_finish h, text, text, b.bytes_storeCpuset, heq]

end Store

/-! ## The module -/

/-- `PERF_HELPER_BUF_SIZE`. -/
def perfHelperBufSize : ℕ := 1024

/-- `PERF_HELPER_LOG_SIZE`. -/
def perfHelperLogSize : ℕ := pageSize * 4

/-- The buffers of the module, and `reclaim_count`. -/
structure PerfHelper where
  perflockRecordsBuff : TextBuf perfHelperLogSize
  perflockExceptionBuff : TextBuf perfHelperLogSize
  mimdLogBuff : TextBuf perfHelperLogSize
  reclaimBuff : TextBuf perfHelperBufSize
  kdamondCpuset : TextBuf 64
  reclaimCount : UInt64

/-- The proc files that keep a text. -/
inductive ProcFile
  | perflockRecords
  | perflockException
  | mimdlog
  | globalReclaim
deriving DecidableEq

/-- The files that keep a text. -/
inductive TextFile
  | proc (file : ProcFile)
  | kdamondCpuset
deriving DecidableEq

/-- The size of the buffer of a proc file. -/
def ProcFile.size : ProcFile → ℕ
  | .perflockRecords | .perflockException | .mimdlog => perfHelperLogSize
  | .globalReclaim => perfHelperBufSize

/-- The size of the buffer of a file. -/
def TextFile.size : TextFile → ℕ
  | .proc file => file.size
  | .kdamondCpuset => 64

namespace PerfHelper

/-- `perflock_records_write`. -/
def perflockRecordsWrite (s : PerfHelper) (w : UserWrite) : ℤ × PerfHelper :=
  let (ret, buff) := s.perflockRecordsBuff.copyUser w
  (ret, { s with perflockRecordsBuff := buff })

/-- `perflock_exception_write`; a long write is only reported. -/
def perflockExceptionWrite (s : PerfHelper) (w : UserWrite) : ℤ × PerfHelper :=
  let (ret, buff) := s.perflockExceptionBuff.copyUser w
  (ret, { s with perflockExceptionBuff := buff })

/-- `mimdlog_write`. -/
def mimdlogWrite (s : PerfHelper) (w : UserWrite) : ℤ × PerfHelper :=
  let (ret, buff) := s.mimdLogBuff.copyUser w
  (ret, { s with mimdLogBuff := buff })

/-- `global_reclaim_write`. -/
def globalReclaimWrite (s : PerfHelper) (w : UserWrite) : ℤ × PerfHelper :=
  let (ret, buff) := s.reclaimBuff.copyUser w
  (ret, { s with
    reclaimBuff := buff
    reclaimCount := if ret > 0 then s.reclaimCount + 1 else s.reclaimCount })

/-- `kdamond_cpuset_store`. Sysfs copies the bytes before it calls the store. -/
def kdamondCpusetWrite (s : PerfHelper) (w : UserWrite) : ℤ × PerfHelper :=
  if w.fault.any (· < w.bytes.length) then (-EFAULT, s)
  else
    let (ret, cpuset) := s.kdamondCpuset.storeCpuset w.bytes
    (ret, { s with kdamondCpuset := cpuset })

/-- `perflock_records_show`. -/
def perflockRecordsShow (s : PerfHelper) : List UInt8 := s.perflockRecordsBuff.text ++ [10]

/-- `perflock_exception_show`. -/
def perflockExceptionShow (s : PerfHelper) : List UInt8 := s.perflockExceptionBuff.text ++ [10]

/-- `mimdlog_show`. -/
def mimdlogShow (s : PerfHelper) : List UInt8 := s.mimdLogBuff.text ++ [10]

/-- `global_reclaim_show`. -/
def globalReclaimShow (s : PerfHelper) : List UInt8 :=
  ascii "reclaimed=" ++ decimalNat s.reclaimCount.toNat ++ [10] ++ s.reclaimBuff.text ++ [10]

/-- `kdamond_cpuset_show`. -/
def kdamondCpusetShow (s : PerfHelper) : List UInt8 := s.kdamondCpuset.text ++ [10]

/-- A write to a file. -/
def write (s : PerfHelper) : TextFile → UserWrite → ℤ × PerfHelper
  | .proc .perflockRecords, w => s.perflockRecordsWrite w
  | .proc .perflockException, w => s.perflockExceptionWrite w
  | .proc .mimdlog, w => s.mimdlogWrite w
  | .proc .globalReclaim, w => s.globalReclaimWrite w
  | .kdamondCpuset, w => s.kdamondCpusetWrite w

/-- What a file shows. -/
def shown (s : PerfHelper) : TextFile → List UInt8
  | .proc .perflockRecords => s.perflockRecordsShow
  | .proc .perflockException => s.perflockExceptionShow
  | .proc .mimdlog => s.mimdlogShow
  | .proc .globalReclaim => s.globalReclaimShow
  | .kdamondCpuset => s.kdamondCpusetShow

/-- The text of a file. -/
def text (s : PerfHelper) : TextFile → List UInt8
  | .proc .perflockRecords => s.perflockRecordsBuff.text
  | .proc .perflockException => s.perflockExceptionBuff.text
  | .proc .mimdlog => s.mimdLogBuff.text
  | .proc .globalReclaim => s.reclaimBuff.text
  | .kdamondCpuset => s.kdamondCpuset.text

/-- The line that a file shows before its text, if it shows one. -/
def header (s : PerfHelper) : TextFile → List UInt8
  | .proc .globalReclaim => ascii "reclaimed=" ++ decimalNat s.reclaimCount.toNat ++ [10]
  | _ => []

theorem shown_eq (s : PerfHelper) (file : TextFile) :
    s.shown file = s.header file ++ s.text file ++ [10] := by
  rcases file with (_ | _ | _ | _) | _
  all_goals rfl

variable {s : PerfHelper} {w : UserWrite}

/-- A write to a proc file that faults leaves the bytes before the fault as its text. -/
theorem write_of_fault {file : ProcFile} {j : ℕ} (h : w.FaultsAt file.size j) :
    (s.write (.proc file) w).1 = -EFAULT ∧
      (s.write (.proc file) w).2.text (.proc file) = (CString.ofBytes (w.bytes.take j)).chars ∧
      (s.write (.proc file) w).2.reclaimCount = s.reclaimCount := by
  cases file with
  | perflockRecords =>
    obtain ⟨hret, htext⟩ := s.perflockRecordsBuff.copyUser_of_fault h
    exact ⟨hret, htext, rfl⟩
  | perflockException =>
    obtain ⟨hret, htext⟩ := s.perflockExceptionBuff.copyUser_of_fault h
    exact ⟨hret, htext, rfl⟩
  | mimdlog =>
    obtain ⟨hret, htext⟩ := s.mimdLogBuff.copyUser_of_fault h
    exact ⟨hret, htext, rfl⟩
  | globalReclaim =>
    obtain ⟨hret, htext⟩ := s.reclaimBuff.copyUser_of_fault h
    have hnot : ¬ (s.reclaimBuff.copyUser w).1 > 0 := by
      rw [hret]
      decide
    exact ⟨hret, htext, if_neg hnot⟩

/-- Any other write to a proc file returns its length, and leaves the text that fits. -/
theorem write_of_not_fault {file : ProcFile} (h : ∀ j, ¬ w.FaultsAt file.size j) :
    (s.write (.proc file) w).1 = w.bytes.length ∧
      (s.write (.proc file) w).2.text (.proc file) =
        (CString.ofBytes (w.bytes.take (file.size - 1))).chars.rdropWhile isspace := by
  cases file with
  | perflockRecords => exact s.perflockRecordsBuff.copyUser_of_not_fault h
  | perflockException => exact s.perflockExceptionBuff.copyUser_of_not_fault h
  | mimdlog => exact s.mimdLogBuff.copyUser_of_not_fault h
  | globalReclaim => exact s.reclaimBuff.copyUser_of_not_fault h

/-! ## Writes that fault -/

/-- A write that returns an error leaves the text and `reclaim_count` as they were. -/
def KeepsOnError (s : PerfHelper) (file : ProcFile) (w : UserWrite) : Prop :=
  (s.write (.proc file) w).1 < 0 →
    (s.write (.proc file) w).2.text (.proc file) = s.text (.proc file) ∧
      (s.write (.proc file) w).2.reclaimCount = s.reclaimCount

/-- **Writes that fault**: a write keeps the old text on an error exactly if the bytes before its
fault, where it has one, spell the old text. -/
theorem keepsText_iff (s : PerfHelper) (file : ProcFile) (w : UserWrite) :
    KeepsOnError s file w ↔
      ∀ j, w.FaultsAt file.size j →
        (CString.ofBytes (w.bytes.take j)).chars = s.text (.proc file) := by
  constructor
  · intro h j hfault
    obtain ⟨hret, htext, -⟩ := write_of_fault (s := s) hfault
    rw [← htext]
    exact (h (hret.trans_lt (neg_errno_lt_zero EFAULT))).1
  · intro h hret
    -- only a fault returns an error
    have hexists : ∃ j, w.FaultsAt file.size j := by
      by_contra hnone
      rw [(write_of_not_fault (not_exists.mp hnone)).1] at hret
      exact absurd hret (Int.natCast_nonneg _).not_gt
    obtain ⟨j, hfault⟩ := hexists
    obtain ⟨-, htext, hcount⟩ := write_of_fault (s := s) hfault
    exact ⟨htext.trans (h j hfault), hcount⟩

/-- The module when it is loaded. -/
def initial : PerfHelper where
  perflockRecordsBuff := .ofText [] 16383
  perflockExceptionBuff := .ofText [] 16383
  mimdLogBuff := .ofText [] 16383
  reclaimBuff := .ofText [] 1023
  kdamondCpuset := .ofText (ascii "0-7") 60
  reclaimCount := 0

/-- A write of two bytes that faults at the second. -/
def tornWrite : UserWrite := ⟨ascii "ab", some 1⟩

/-- The first byte is left as the text. -/
theorem not_keepsText_tornWrite :
    ¬ ∀ (s : PerfHelper) (file : ProcFile) (w : UserWrite), KeepsOnError s file w := by
  intro h
  have hfault : tornWrite.FaultsAt ProcFile.mimdlog.size 1 := by decide
  obtain ⟨hret, htext, -⟩ := write_of_fault (s := initial) hfault
  have hneg := hret.trans_lt (neg_errno_lt_zero EFAULT)
  have hkept := (h initial .mimdlog tornWrite hneg).1
  rw [htext] at hkept
  exact absurd hkept (by decide)

/-! ## Trimming -/

/-- The text without the white space at its two ends. -/
def trimmed (chars : List UInt8) : List UInt8 := (chars.rdropWhile isspace).dropWhile isspace

/-- Cutting the end off is enough where the text does not start with white space, or has nothing
else. -/
theorem rdropWhile_eq_trimmed_iff (chars : List UInt8) :
    chars.rdropWhile isspace = trimmed chars ↔
      (∀ c ∈ chars.head?, isspace c = false) ∨ ∀ c ∈ chars, isspace c = true := by
  rw [trimmed, eq_comm, List.dropWhile_eq_self_iff, ← List.rdropWhile_eq_nil_iff]
  obtain ⟨tail, htail⟩ := List.rdropWhile_prefix isspace chars
  -- what is kept starts like the whole, unless nothing is
  cases hkept : chars.rdropWhile isspace with
  | nil => exact iff_of_true (fun hpos => absurd hpos (Nat.lt_irrefl 0)) (Or.inr rfl)
  | cons c kept =>
    rw [← htail, hkept, or_iff_left (List.cons_ne_nil c kept)]
    simp

/-- **A write that succeeds** leaves the bytes that fit, without the white space at their end. -/
theorem text_write {file : TextFile} (hret : 0 ≤ (s.write file w).1) (hnul : 0 ∉ w.bytes) :
    (s.write file w).2.text file = (w.bytes.take (file.size - 1)).rdropWhile isspace := by
  have hchars : (CString.ofBytes (w.bytes.take (file.size - 1))).chars =
      w.bytes.take (file.size - 1) := chars_ofBytes fun hmem => hnul (List.mem_of_mem_take hmem)
  cases file with
  | proc file =>
    have hnone : ∀ j, ¬ w.FaultsAt file.size j := by
      intro j hfault
      rw [(write_of_fault hfault).1] at hret
      exact absurd hret (neg_errno_lt_zero EFAULT).not_ge
    rw [(write_of_not_fault hnone).2]
    exact congrArg (List.rdropWhile isspace) hchars
  | kdamondCpuset =>
    change 0 ≤ (s.kdamondCpusetWrite w).1 at hret
    change (s.kdamondCpusetWrite w).2.kdamondCpuset.text = _
    unfold kdamondCpusetWrite at hret ⊢
    split_ifs at hret ⊢ with hfault
    · exact absurd hret (neg_errno_lt_zero EFAULT).not_ge
    · exact (s.kdamondCpuset.text_storeCpuset w.bytes).trans
        (congrArg (List.rdropWhile isspace) hchars)

/-- A write that does not fault succeeds. -/
theorem write_nonneg (s : PerfHelper) (file : TextFile) (bytes : List UInt8) :
    0 ≤ (s.write file ⟨bytes, none⟩).1 := by
  cases file with
  | proc file =>
    have hnone : ∀ j, ¬ (⟨bytes, none⟩ : UserWrite).FaultsAt file.size j := fun j h => nomatch h.1
    rw [(write_of_not_fault hnone).1]
    exact Int.natCast_nonneg _
  | kdamondCpuset => exact Int.natCast_nonneg bytes.length

/-- A write that succeeds stores the trimmed text: the file then shows the first bytes that fit,
without the white space at their ends, and goes on showing that text when it is written back. -/
structure StoresTrimmed (s : PerfHelper) (file : TextFile) (w : UserWrite) : Prop where
  shown_eq : (s.write file w).2.shown file = (s.write file w).2.header file ++
    trimmed (w.bytes.take (file.size - 1)) ++ [10]
  text_again : ((s.write file w).2.write file ⟨(s.write file w).2.text file, none⟩).2.text file =
    (s.write file w).2.text file

/-- Writing the text of a write back leaves it as it is. -/
theorem text_write_text {file : TextFile} (hret : 0 ≤ (s.write file w).1) (hnul : 0 ∉ w.bytes) :
    ((s.write file w).2.write file ⟨(s.write file w).2.text file, none⟩).2.text file =
      (s.write file w).2.text file := by
  have htext := text_write hret hnul
  have hfront : (s.write file w).2.text file <+: w.bytes.take (file.size - 1) :=
    htext ▸ List.rdropWhile_prefix _ _
  have hnul' : 0 ∉ (s.write file w).2.text file :=
    fun hmem => hnul (List.mem_of_mem_take (hfront.mem hmem))
  have hfits : ((s.write file w).2.text file).length ≤ file.size - 1 :=
    hfront.length_le.trans (List.length_take_le _ _)
  -- the text has no zero and fits, so it is stored whole again
  have hagain := text_write (w := ⟨(s.write file w).2.text file, none⟩)
    (write_nonneg (s.write file w).2 file _) hnul'
  rw [hagain, List.take_of_length_le hfits, htext]
  exact List.rdropWhile_idempotent isspace _

/-- **Trimming**: a write of a text that succeeds stores the trimmed text exactly if the bytes that
fit do not start with white space, or are nothing else. -/
theorem storesTrimmed_iff (s : PerfHelper) (file : TextFile) (w : UserWrite) (hnul : 0 ∉ w.bytes)
    (hret : 0 ≤ (s.write file w).1) :
    StoresTrimmed s file w ↔
      (∀ c ∈ (w.bytes.take (file.size - 1)).head?, isspace c = false) ∨
        ∀ c ∈ w.bytes.take (file.size - 1), isspace c = true := by
  rw [← rdropWhile_eq_trimmed_iff, ← text_write hret hnul]
  constructor
  · intro h
    have hshown := h.shown_eq
    rw [PerfHelper.shown_eq] at hshown
    exact List.append_cancel_left (List.append_cancel_right hshown)
  · intro h
    exact ⟨by rw [PerfHelper.shown_eq, h], text_write_text hret hnul⟩

/-- A write with white space at its end only stores the trimmed text. -/
theorem storesTrimmed_iff_line : StoresTrimmed initial .kdamondCpuset ⟨ascii "0-3\n", none⟩ := by
  have hhead : ((ascii "0-3\n").take 63).head? = some 48 := by decide
  refine (storesTrimmed_iff initial .kdamondCpuset ⟨ascii "0-3\n", none⟩ (by decide)
    (write_nonneg _ _ _)).mpr (Or.inl fun c hc => ?_)
  obtain rfl := Option.some.inj (hhead.symm.trans hc)
  decide

/-- The space before a word is kept. -/
theorem not_storesTrimmed_padded :
    ¬ ∀ (s : PerfHelper) (file : TextFile) (w : UserWrite), 0 ∉ w.bytes →
      0 ≤ (s.write file w).1 → StoresTrimmed s file w := by
  intro h
  have hnul : 0 ∉ ascii " 0-3" := by decide
  have hret := write_nonneg initial .kdamondCpuset (ascii " 0-3")
  have htext := text_write hret hnul
  have hshown := (h initial .kdamondCpuset _ hnul hret).shown_eq
  rw [PerfHelper.shown_eq, htext] at hshown
  have hsame := List.append_cancel_left (List.append_cancel_right hshown)
  exact absurd hsame (by decide)

end PerfHelper

end XiaomiModules
