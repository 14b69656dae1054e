import XiaomiModules.Library.Runs
import XiaomiModules.PerfHelper.Text

/-!
# The files of perf_helper over runs

User space writes the five files in any order, and counts up `reclaim_count` besides. What a write
leaves in its file depends on the write alone, whether it succeeds or faults, so a file shows the
last write that stored a text, behind the number of the writes counted where it shows that.

A file that shows its text alone can be saved by reading it and restored by writing what was read:
the newline is trimmed off, or falls behind the end of the buffer, and so is white space at the end
of the text, which only a fault leaves there. What `global_reclaim` shows before its text becomes a
part of its text.

## Main definitions

* `HelperEvent`, `PerfHelper.step`: a write to a file or to `mimdtrigger`, and the module after it
* `TextFile.stored`: the text that a write leaves in a file
* `HelperEvent.counts`: the event is counted in `reclaim_count`
* `PerfHelper.restored`: the text that writing back what a file shows leaves

## Main results

* `text_write_stored`, `text_write_of_ne`: a write to a file
* `shown_after`: what a file shows after a run
* `text_after_restore`: the texts after what was shown has been written back
-/

namespace XiaomiModules

open Text (ascii decimalNat)

/-! ## Writes -/

/-- The position at which the copy of the write into a buffer of `size` bytes faults. -/
def UserWrite.faultAt (w : UserWrite) (size : ℕ) : Option ℕ :=
  w.fault.filter fun j => j < min w.bytes.length (size - 1)

theorem UserWrite.faultAt_eq_some_iff {w : UserWrite} {size j : ℕ} :
    w.faultAt size = some j ↔ w.FaultsAt size j := by
  rw [faultAt, Option.filter_eq_some_iff, decide_eq_true_iff]
  rfl

theorem UserWrite.not_faultsAt {w : UserWrite} {size : ℕ} (h : w.faultAt size = none) (j : ℕ) :
    ¬ w.FaultsAt size j := by
  intro hfault
  rw [← faultAt_eq_some_iff, h] at hfault
  cases hfault

/-- The text that a write leaves in a file, if it stores one. -/
def TextFile.stored (file : TextFile) (w : UserWrite) : Option (List UInt8) :=
  let whole := (CString.ofBytes (w.bytes.take (file.size - 1))).chars.rdropWhile isspace
  match file with
  -- a copy that faults leaves the bytes before the fault
  | .proc file => (w.faultAt file.size).elim whole fun j => (CString.ofBytes (w.bytes.take j)).chars
  -- sysfs copies the bytes before it calls the store
  | .kdamondCpuset => if w.fault.any (· < w.bytes.length) then none else some whole

/-- A write to a file, or a call of `mimdtrigger_store`. -/
inductive HelperEvent
  | write (file : TextFile) (w : UserWrite)
  | trigger (buf : List UInt8)

/-- The event is counted in `reclaim_count`: a write to `global_reclaim` that copies something and
does not fault, or any write to `mimdtrigger`. -/
def HelperEvent.counts : HelperEvent → Bool
  | .write (.proc .globalReclaim) w =>
    0 < w.bytes.length ∧ w.faultAt (ProcFile.size .globalReclaim) = none
  | .write _ _ => false
  | .trigger _ => true

/-- The text that an event leaves in a file, if it stores one. -/
def HelperEvent.storedIn (file : TextFile) : HelperEvent → Option (List UInt8)
  | .write file' w => if file' = file then file.stored w else none
  | .trigger _ => none

namespace PerfHelper

/-- `mimdtrigger_store`. -/
def mimdtriggerStore (s : PerfHelper) (buf : List UInt8) : ℤ × PerfHelper :=
  (buf.length, { s with reclaimCount := s.reclaimCount + 1 })

/-- `mimdtrigger_show`. -/
def mimdtriggerShow (s : PerfHelper) : List UInt8 := decimalNat s.reclaimCount.toNat ++ [10]

/-- The module after an event. -/
def step (s : PerfHelper) : HelperEvent → PerfHelper
  | .write file w => (s.write file w).2
  | .trigger buf => (s.mimdtriggerStore buf).2

variable (s : PerfHelper)

/-- **A write** leaves in its file what it stores. -/
theorem text_write_stored (file : TextFile) (w : UserWrite) :
    (s.write file w).2.text file = (file.stored w).getD (s.text file) := by
  cases file with
  | proc file =>
    rw [TextFile.stored]
    cases hfault : w.faultAt file.size with
    | some j => exact (write_of_fault (UserWrite.faultAt_eq_some_iff.mp hfault)).2.1
    | none => exact (write_of_not_fault (UserWrite.not_faultsAt hfault)).2
  | kdamondCpuset =>
    show (s.kdamondCpusetWrite w).2.kdamondCpuset.text = _
    rw [kdamondCpusetWrite, TextFile.stored]
    split_ifs
    · rfl
    · exact s.kdamondCpuset.text_storeCpuset w.bytes

/-- A write to `kdamond_cpuset` changes its buffer alone. -/
theorem exists_kdamondCpusetWrite (w : UserWrite) :
    ∃ cpuset, (s.kdamondCpusetWrite w).2 = { s with kdamondCpuset := cpuset } := by
  rw [kdamondCpusetWrite]
  split_ifs
  · exact ⟨s.kdamondCpuset, rfl⟩
  · exact ⟨_, rfl⟩

/-- The other files are left alone. -/
theorem text_write_of_ne {file file' : TextFile} (h : file' ≠ file) (w : UserWrite) :
    (s.write file' w).2.text file = s.text file := by
  cases file' with
  | proc file' =>
    -- each of the writes updates one buffer of the record
    rcases file with (_ | _ | _ | _) | _
    all_goals
      cases file'
      all_goals first
        | exact absurd rfl h
        | rfl
  | kdamondCpuset =>
    obtain ⟨cpuset, hwrite⟩ := s.exists_kdamondCpusetWrite w
    rw [write, hwrite]
    rcases file with (_ | _ | _ | _) | _
    all_goals first
      | exact absurd rfl h
      | rfl

theorem text_step (e : HelperEvent) (file : TextFile) :
    (s.step e).text file = (e.storedIn file).getD (s.text file) := by
  cases e with
  | write file' w =>
    rw [step, HelperEvent.storedIn]
    split_ifs with heq
    · subst heq
      exact s.text_write_stored file' w
    · exact s.text_write_of_ne heq w
  | trigger buf =>
    rcases file with (_ | _ | _ | _) | _
    all_goals rfl

/-- A write to `global_reclaim` is counted where it returns a positive number. -/
theorem counts_write_globalReclaim (w : UserWrite) :
    (HelperEvent.write (.proc .globalReclaim) w).counts = true ↔
      0 < (s.write (.proc .globalReclaim) w).1 := by
  rw [HelperEvent.counts, decide_eq_true_iff]
  cases hfault : w.faultAt (ProcFile.size .globalReclaim) with
  | some j =>
    rw [(write_of_fault (UserWrite.faultAt_eq_some_iff.mp hfault)).1]
    exact iff_of_false (fun h => Option.some_ne_none j h.2)
      (neg_errno_lt_zero EFAULT).not_gt
  | none =>
    rw [(write_of_not_fault (UserWrite.not_faultsAt hfault)).1, Int.natCast_pos]
    exact and_iff_left rfl

theorem reclaimCount_step (e : HelperEvent) :
    (s.step e).reclaimCount = if e.counts then s.reclaimCount + 1 else s.reclaimCount := by
  cases e with
  | write file w =>
    cases file with
    | proc file =>
      cases file with
      | globalReclaim => exact if_congr (s.counts_write_globalReclaim w).symm rfl rfl
      | perflockRecords | perflockException | mimdlog => rfl
    | kdamondCpuset =>
      obtain ⟨cpuset, hwrite⟩ := s.exists_kdamondCpusetWrite w
      rw [step, write, hwrite]
      rfl
  | trigger buf => rfl

/-! ## Runs -/

/-- A file holds the last text that was stored in it. -/
theorem text_after (events : List HelperEvent) (file : TextFile) :
    (Runs.after step s events).text file =
      Runs.lastSet (HelperEvent.storedIn file) (s.text file) events :=
  Runs.after_eq_lastSet (f := fun s => text s file) (fun s e => s.text_step e file) s events

/-- The events counted are counted. -/
theorem reclaimCount_after (events : List HelperEvent) :
    (Runs.after step s events).reclaimCount =
      s.reclaimCount + .ofNat (events.countP HelperEvent.counts) := by
  induction events using List.reverseRecOn with
  | nil => exact (UInt64.add_zero _).symm
  | append_singleton events e ih =>
    rw [Runs.after_snoc, reclaimCount_step, ih, List.countP_append, List.countP_singleton]
    split_ifs
    · rw [UInt64.ofNat_add, ← UInt64.add_assoc]
      rfl
    · rw [Nat.add_zero]

/-- The line before the text of a file, by the number in `reclaim_count`. -/
def headerOf (count : UInt64) : TextFile → List UInt8
  | .proc .globalReclaim => ascii "reclaimed=" ++ decimalNat count.toNat ++ [10]
  | _ => []

theorem header_eq (file : TextFile) : s.header file = headerOf s.reclaimCount file := by
  rcases file with (_ | _ | _ | _) | _
  all_goals rfl

/-- **What a file shows** after a run: the number of the writes counted where it shows that, and the
last text that was stored in it. -/
theorem shown_after (events : List HelperEvent) (file : TextFile) :
    (Runs.after step s events).shown file =
      headerOf (s.reclaimCount + .ofNat (events.countP HelperEvent.counts)) file ++
        Runs.lastSet (HelperEvent.storedIn file) (s.text file) events ++ [10] := by
  rw [shown_eq, header_eq, reclaimCount_after, text_after]

/-- The same number is shown by `mimdtrigger`. -/
theorem mimdtriggerShow_after (events : List HelperEvent) :
    (Runs.after step s events).mimdtriggerShow =
      decimalNat (s.reclaimCount + .ofNat (events.countP HelperEvent.counts)).toNat ++ [10] := by
  rw [mimdtriggerShow, reclaimCount_after]

/-! ## Saving and restoring -/

theorem zero_notMem_text (file : TextFile) : 0 ∉ s.text file := by
  rcases file with (_ | _ | _ | _) | _
  all_goals exact CString.nul_notMem _

theorem zero_notMem_shown (file : TextFile) : 0 ∉ s.shown file := by
  have hheader : 0 ∉ s.header file := by
    rcases file with (_ | _ | _ | _) | _
    case proc.globalReclaim =>
      simp only [header, List.mem_append, not_or]
      exact ⟨⟨by decide, zero_notMem_decimalNat _⟩, by decide⟩
    all_goals exact List.not_mem_nil
  rw [shown_eq, List.mem_append, List.mem_append, not_or, not_or]
  exact ⟨⟨hheader, s.zero_notMem_text file⟩, by decide⟩

/-- A newline at the end is trimmed off or does not fit. -/
theorem rdropWhile_take_concat (chars : List UInt8) (n : ℕ) :
    ((chars ++ [10]).take n).rdropWhile isspace = (chars.take n).rdropWhile isspace := by
  rcases Nat.lt_or_ge chars.length n with hlt | hge
  · have hline : (chars ++ [10]).length ≤ n := by
      rw [List.length_append, List.length_singleton]
      exact hlt
    rw [List.take_of_length_le hline, List.take_of_length_le hlt.le]
    exact List.rdropWhile_concat_pos _ _ _ (by decide)
  · rw [List.take_append_of_le_length hge]

theorem length_text_lt (file : TextFile) : (s.text file).length < file.size := by
  have hbuf {size : ℕ} (b : TextBuf size) : b.text.length < size :=
    (length_ofBytes_lt (List.mem_of_getElem? b.last_bytes)).trans_eq b.length_bytes
  rcases file with (_ | _ | _ | _) | _
  all_goals exact hbuf _

/-- The text that writing back what a file shows leaves: the text that it shows, without the white
space at its end, and in `global_reclaim` what is shown before it, too. -/
def restored (file : TextFile) : List UInt8 :=
  if file = .proc .globalReclaim then
    ((s.header file ++ s.text file).take (file.size - 1)).rdropWhile isspace
  else (s.text file).rdropWhile isspace

theorem restored_eq (file : TextFile) : s.restored file =
    ((s.header file ++ s.text file).take (file.size - 1)).rdropWhile isspace := by
  rw [restored]
  split_ifs with h
  · rfl
  · have hheader : s.header file = [] := by
      rcases file with (_ | _ | _ | _) | _
      case proc.globalReclaim => exact absurd rfl h
      all_goals rfl
    have hfits : (s.text file).length ≤ file.size - 1 :=
      Nat.le_sub_one_of_lt (s.length_text_lt file)
    rw [hheader, List.nil_append, List.take_of_length_le hfits]

theorem stored_shown (file : TextFile) :
    file.stored ⟨s.shown file, none⟩ = some (s.restored file) := by
  have hnul : 0 ∉ (s.shown file).take (file.size - 1) := fun hmem =>
    s.zero_notMem_shown file (List.mem_of_mem_take hmem)
  have hwhole : (CString.ofBytes ((s.shown file).take (file.size - 1))).chars.rdropWhile isspace =
      s.restored file := by
    rw [chars_ofBytes hnul, shown_eq, rdropWhile_take_concat, restored_eq]
  rw [← hwhole]
  rcases file with file | _
  all_goals rfl

/-- **Restoring**: what files showed can be written back in any order, and whatever has become of
them since; each then holds the text restored of it, and the others hold what they do. -/
theorem text_after_restore (saved : PerfHelper) (order : List TextFile) (file : TextFile) :
    (Runs.after step s (order.map fun file => .write file ⟨saved.shown file, none⟩)).text file =
      if file ∈ order then saved.restored file else s.text file := by
  have hshown : HelperEvent.storedIn file (.write file ⟨saved.shown file, none⟩) =
      some (saved.restored file) := (if_pos rfl).trans (saved.stored_shown file)
  have hother : ∀ file', file' ≠ file →
      HelperEvent.storedIn file (.write file' ⟨saved.shown file', none⟩) = none :=
    fun file' hne => if_neg hne
  rw [text_after]
  exact Runs.lastSet_map (fun file => HelperEvent.write file ⟨saved.shown file, none⟩) hshown hother
    (s.text file) order

end PerfHelper

end XiaomiModules
