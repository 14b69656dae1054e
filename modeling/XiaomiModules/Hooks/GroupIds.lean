import XiaomiModules.Kernel.Params
import XiaomiModules.TextBuffers

/-!
# The group ids of miloadtrace

A write to task_grp_id or user_grp_id is copied to an array on the stack, terminated, and read as a
number that is only logged. Nothing has been stored to the array before, so it holds whatever the
stack held. The terminator stands behind the bytes copied and not at the end of the array, and the
reading stops there at the latest. What follows it is never looked at, and so what is returned and
logged depends on the write alone.

## Main definitions

* `Raw.simpleStrtol`: the reading of a number on a bare array
* `grpIdWrite`: a write to one of the files, on an array that holds anything

## Main results

* `Raw.fst_simpleStrtol`: the number is that of the string
* `grpIdWrite_eq`: what a write uses, returns and logs
-/

namespace XiaomiModules

open Text (ascii decimal)
open Access (Run Use)

/-! ## Reading a number -/

/-- The bytes at which the reading of a decimal number goes on. -/
def isDecimal (c : UInt8) : Bool := (digitValue c).any (· < 10)

/-- `simple_strtol(s, NULL, 10)` on a bare array. -/
def Raw.simpleStrtol (s : List UInt8) : Int64 × List (Use UInt8) :=
  match s with
  | 45 :: digits =>
    (-(simpleStrtoul digits 10).toInt64, ⟨0, s⟩ :: (Access.scanFrom isDecimal s 1 digits).2)
  -- the first byte is looked at once for the sign, and again for a digit
  | _ => ((simpleStrtoul s 10).toInt64, ⟨0, s⟩ :: (Access.scan isDecimal s).2)

/-- A number ends in front of a 0. -/
theorem fst_parseInteger_takeWhile (base res : ℕ) (s : List UInt8) :
    (parseInteger base res (s.takeWhile (· ≠ 0))).1 = (parseInteger base res s).1 := by
  induction s generalizing res with
  | nil => rfl
  | cons c s ih =>
    by_cases hc : c = 0
    · subst hc
      rfl
    · rw [List.takeWhile_cons_of_pos (by simpa using hc), parseInteger, parseInteger]
      cases digitValue c with
      | none => rfl
      | some val =>
        dsimp only
        split_ifs
        · exact ih _
        · rfl

theorem simpleStrtoul_takeWhile (s : List UInt8) :
    simpleStrtoul (s.takeWhile (· ≠ 0)) 10 = simpleStrtoul s 10 := by
  rw [simpleStrtoul, simpleStrtoul, parseIntegerFixupRadix_ten, parseIntegerFixupRadix_ten]
  dsimp only
  rw [fst_parseInteger_takeWhile]

/-- The number is that of the string at the start of the array. -/
theorem Raw.fst_simpleStrtol (s : List UInt8) :
    (Raw.simpleStrtol s).1 = XiaomiModules.simpleStrtol (.ofBytes s) 10 := by
  have hchars : (CString.ofBytes s).chars = s.takeWhile (· ≠ 0) := rfl
  unfold Raw.simpleStrtol
  split
  · rename_i digits
    rw [← simpleStrtoul_takeWhile]
    rfl
  · rename_i hminus
    rw [← simpleStrtoul_takeWhile, XiaomiModules.simpleStrtol, hchars]
    split
    · -- the string starts as the array does
      rename_i digits hstring
      obtain ⟨tail, htail⟩ := List.takeWhile_prefix (l := s) fun c => decide (c ≠ 0)
      rw [hstring, List.cons_append] at htail
      exact absurd htail.symm (hminus _)
    · rfl

/-- Nothing behind a 0 is used. -/
theorem Raw.index_le_of_mem_simpleStrtol {s : List UInt8} {k : ℕ} {use : Use UInt8}
    (hstop : s[k]? = some 0) (h : use ∈ (Raw.simpleStrtol s).2) : use.index ≤ k := by
  have hzero : isDecimal 0 = false := rfl
  unfold Raw.simpleStrtol at h
  split at h
  · rename_i digits
    cases k with
    | zero => exact absurd hstop (by simp)
    | succ k =>
      rcases List.mem_cons.mp h with rfl | h
      · exact Nat.zero_le _
      · rw [List.getElem?_cons_succ] at hstop
        have hle := Access.index_le_of_mem_scanFrom hzero hstop h
        omega
  · rcases List.mem_cons.mp h with rfl | h
    · exact Nat.zero_le _
    · have hle := Access.index_le_of_mem_scanFrom hzero hstop h
      omega

/-! ## The files -/

/-- The size of the array. -/
def grpIdBufSize : ℕ := 32

/-- The array on the stack, which holds anything. -/
structure GrpIdBuf where
  bytes : List UInt8
  length_bytes : bytes.length = grpIdBufSize

/-- What a write leads to: the return value, the line logged, if any, and the uses of the array. -/
structure GrpIdOutcome where
  ret : ℤ
  logged : List UInt8
  uses : List (Use UInt8)

/-- A write to one of the files, which logs its number under a name where `flw_debug` is set; where
copying the bytes faults, the kernel leaves `rest`. -/
def grpIdWrite (name : List UInt8) (debug : Bool) (buf : GrpIdBuf) (w : UserWrite)
    (rest : ℕ → UInt8) : GrpIdOutcome :=
  let count := w.bytes.length
  if grpIdBufSize ≤ count then ⟨-EINVAL, [], []⟩
  else
    let (left, copied) := Raw.copyFromUser buf.bytes w rest count
    if left ≠ 0 then ⟨-EFAULT, [], copied.uses⟩
    else
      let ended := copied.andThen (Access.store count 0)
      let (id, read) := Raw.simpleStrtol ended.cells
      ⟨count,
        if debug then ascii "traced " ++ name ++ ascii " " ++ decimal id.toInt ++ ascii "\n"
        else [],
        ended.uses ++ read⟩

/-- `task_grp_id_write(file, ubuf, count, ppos)`. -/
def taskGrpIdWrite : Bool → GrpIdBuf → UserWrite → (ℕ → UInt8) → GrpIdOutcome :=
  grpIdWrite (ascii "pid")

/-- `user_grp_id_write(file, ubuf, count, ppos)`. -/
def userGrpIdWrite : Bool → GrpIdBuf → UserWrite → (ℕ → UInt8) → GrpIdOutcome :=
  grpIdWrite (ascii "uid")

/-- Copying all bytes of the write faults. -/
def UserWrite.faults (w : UserWrite) : Bool := w.fault.any (· < w.bytes.length)

/-- What a write returns and logs, as a function of the write alone. -/
def grpIdResult (name : List UInt8) (debug : Bool) (w : UserWrite) : ℤ × List UInt8 :=
  if grpIdBufSize ≤ w.bytes.length then (-EINVAL, [])
  else if w.faults then (-EFAULT, [])
  else
    (w.bytes.length,
      if debug then
        let id := simpleStrtol (written w.bytes) 10
        ascii "traced " ++ name ++ ascii " " ++ decimal id.toInt ++ ascii "\n"
      else [])

section Copy

variable (dst : List UInt8) {w : UserWrite} (rest : ℕ → UInt8)

/-- A copy that faults uses no cell behind its range, and returns what is left. -/
theorem copyFromUser_of_faults (h : w.faults = true) :
    (Raw.copyFromUser dst w rest w.bytes.length).1 ≠ 0 ∧
      ∀ use ∈ (Raw.copyFromUser dst w rest w.bytes.length).2.uses,
        use.index < w.bytes.length := by
  obtain ⟨j, hj, hlt⟩ := (Option.any_eq_true _ _).mp h
  have hlt : j < w.bytes.length := of_decide_eq_true hlt
  rw [Raw.copyFromUser, hj]
  dsimp only
  rw [if_pos hlt]
  refine ⟨by dsimp only; omega, fun use huse => ?_⟩
  have hindex := Access.index_lt_of_mem_copy huse
  rw [List.length_append, List.length_map, List.length_range', List.length_take] at hindex
  omega

theorem copyFromUser_of_not_faults (h : w.faults = false) :
    Raw.copyFromUser dst w rest w.bytes.length = (0, Raw.memcpy w.bytes dst) := by
  unfold UserWrite.faults at h
  unfold Raw.copyFromUser
  cases hfault : w.fault with
  | none => simp
  | some j =>
    rw [hfault, Option.any_some, decide_eq_false_iff_not] at h
    simp [h]

/-- All bytes of the write are copied, and terminated. -/
def terminatedCopy (dst : List UInt8) (w : UserWrite) : Run UInt8 :=
  (Raw.memcpy w.bytes dst).andThen (Access.store w.bytes.length 0)

theorem cells_terminatedCopy (h : w.bytes.length < dst.length) :
    (terminatedCopy dst w).cells = w.bytes ++ 0 :: dst.drop (w.bytes.length + 1) := by
  show (Raw.memcpy w.bytes dst).cells.set _ 0 = _
  rw [Raw.cells_memcpy h.le, List.set_append_right _ _ le_rfl, Nat.sub_self,
    ← List.cons_getElem_drop_succ (h := h), List.set_cons_zero]

/-- The string is that of the bytes, whatever follows the terminator. -/
theorem ofBytes_terminatedCopy (h : w.bytes.length < dst.length) :
    CString.ofBytes (terminatedCopy dst w).cells = written w.bytes := by
  rw [cells_terminatedCopy dst h, written, ofBytes_append_zero, ofBytes_append_zero]

/-- Nothing behind the terminator is written, nor read for the number. -/
theorem index_le_of_mem_terminatedCopy (h : w.bytes.length < dst.length) {use : Use UInt8}
    (huse : use ∈ (terminatedCopy dst w).uses ++
      (Raw.simpleStrtol (terminatedCopy dst w).cells).2) : use.index ≤ w.bytes.length := by
  have hstop : (terminatedCopy dst w).cells[w.bytes.length]? = some 0 := by
    rw [cells_terminatedCopy dst h, List.getElem?_append_right le_rfl, Nat.sub_self,
      List.getElem?_cons_zero]
  rcases List.mem_append.mp huse with huse | huse
  · rcases List.mem_append.mp huse with huse | huse
    · have hcopy := Access.index_lt_of_mem_copy huse
      omega
    · rw [List.mem_singleton.mp huse]
  · exact Raw.index_le_of_mem_simpleStrtol hstop huse

end Copy

/-- **A write** uses the cells up to its terminator, inside the array, and what it returns and logs
depends neither on what the array held, nor on what the kernel leaves where copying faults. -/
theorem grpIdWrite_eq (name : List UInt8) (debug : Bool) (buf : GrpIdBuf) (w : UserWrite)
    (rest : ℕ → UInt8) :
    let out := grpIdWrite name debug buf w rest
    (out.ret, out.logged) = grpIdResult name debug w ∧
      ∀ use ∈ out.uses, use.index ≤ w.bytes.length ∧ use.index < grpIdBufSize := by
  intro out
  rcases Nat.lt_or_ge w.bytes.length grpIdBufSize with hlt | hge
  · have hnot : ¬ grpIdBufSize ≤ w.bytes.length := Nat.not_le.mpr hlt
    cases hfaults : w.faults with
    | true =>
      obtain ⟨hleft, huses⟩ := copyFromUser_of_faults buf.bytes rest hfaults
      have hout :
          out = ⟨-EFAULT, [], (Raw.copyFromUser buf.bytes w rest w.bytes.length).2.uses⟩ := by
        show grpIdWrite name debug buf w rest = _
        rw [grpIdWrite, if_neg hnot]
        dsimp only
        rw [if_pos hleft]
      rw [hout, grpIdResult, if_neg hnot, if_pos hfaults]
      refine ⟨rfl, fun use huse => ?_⟩
      have hindex := huses use huse
      exact ⟨hindex.le, hindex.trans hlt⟩
    | false =>
      have hroom : w.bytes.length < buf.bytes.length := buf.length_bytes.symm ▸ hlt
      have hout : out = ⟨w.bytes.length,
          if debug then ascii "traced " ++ name ++ ascii " " ++
            decimal (Raw.simpleStrtol (terminatedCopy buf.bytes w).cells).1.toInt ++ ascii "\n"
          else [],
          (terminatedCopy buf.bytes w).uses ++
            (Raw.simpleStrtol (terminatedCopy buf.bytes w).cells).2⟩ := by
        show grpIdWrite name debug buf w rest = _
        rw [grpIdWrite, if_neg hnot, copyFromUser_of_not_faults buf.bytes rest hfaults]
        rfl
      rw [hout, grpIdResult, if_neg hnot, hfaults, Raw.fst_simpleStrtol,
        ofBytes_terminatedCopy buf.bytes hroom]
      refine ⟨rfl, fun use huse => ?_⟩
      have hindex := index_le_of_mem_terminatedCopy buf.bytes hroom huse
      exact ⟨hindex, hindex.trans_lt hlt⟩
  · have hout : out = ⟨-EINVAL, [], []⟩ := if_pos hge
    rw [hout, grpIdResult, if_pos hge]
    exact ⟨rfl, fun _ h => absurd h List.not_mem_nil⟩

end XiaomiModules
