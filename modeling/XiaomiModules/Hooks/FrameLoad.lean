import Mathlib.Logic.Function.Basic
import XiaomiModules.Kernel.Params
import XiaomiModules.Library.Runs
import XiaomiModules.Library.Word

/-!
# The frame rate and the frequencies of miloadtrace

The frame rate `update_frame_fps` is written by an application through `/dev/mi_frameload` and by
the administrator as a parameter; a rate of 0 counts only from the latter. Where no rate is
asked for, the divisor of a period follows from it.

The greatest frequency of each CPU is raised whenever cpufreq changes the limits of its policy, and
is a parameter as well. `mi_minfreq` is set as a parameter only.

## Main definitions

* `FrameLoad`: the variables
* `miFrameIoctl`, `setUpdateFps`, `getUpdateFps`, `findCalDivisor`: the frame rate
* `updateFreqRecord`, `cpuGovLimits`, `initGrpFreqRecord`: the frequencies
* `FrameEvent`, `FrameLoad.step`: what happens to the variables

## Main results

* `updateFrameFps_after_eq_iff`: the frame rate after a run
* `setUpdateFps_getUpdateFps`: the text of the parameter restores the frame rate
* `isGreatest_miMaxfreq`: the greatest frequency of a CPU after a run
-/

namespace XiaomiModules

open Text (ascii decimalNat)

/-- `MILOAD_MAX_CPUS`. -/
def miloadMaxCpus : ℕ := 8

/-- `struct mi_load_data`. -/
structure MiLoadData where
  cmd : UInt32
  pid : Int32
  fps : UInt32
  period : UInt64
  predPeriod : UInt64

/-- `sizeof(struct mi_load_data)`. -/
def sizeofMiLoadData : ℕ := 32

/-- `cpu` and `cur` of a `struct cpufreq_policy`. -/
structure GovPolicy where
  cpu : UInt32
  cur : UInt32

/-- The variables of the frame load. -/
structure FrameLoad where
  updateFrameFps : UInt32
  skipWaltResult : Bool
  miMaxfreq : Fin miloadMaxCpus → UInt32
  miMinfreq : Fin miloadMaxCpus → UInt32

/-- The variables as they are initialized. -/
def FrameLoad.start : FrameLoad := ⟨60, false, fun _ => 0, fun _ => 0⟩

/-! ## The functions -/

/-- `mi_frame_ioctl(file, buf, size, ppos)`, where `user` is what `copy_from_user` finds at
`buf`. -/
def miFrameIoctl (s : FrameLoad) (user : Option MiLoadData) (size : ℕ) : ℤ × FrameLoad :=
  if size ≠ sizeofMiLoadData then (-EINVAL, s)
  else match user with
    | none => (-EFAULT, s)
    | some data =>
      (sizeofMiLoadData,
        { s with updateFrameFps := if data.fps ≠ 0 then data.fps else s.updateFrameFps })

/-- `set_update_fps(val, kp)`. The parameter itself is a `uint`, which is set in the same way. -/
def setUpdateFps (s : FrameLoad) (val : CString) : ℤ × FrameLoad :=
  match kstrtouint val 0 with
  | .error ret => (ret, s)
  | .ok fps => (0, { s with updateFrameFps := fps })

/-- `get_update_fps(buf, kp)`, which prints what the parameter shows. -/
def getUpdateFps (s : FrameLoad) (buf : List UInt8) : ℕ × List UInt8 :=
  scnprintf buf 0 pageSize (unsignedLine s.updateFrameFps)

/-- `find_cal_divisor(fps)`. -/
def findCalDivisor (s : FrameLoad) (fps : UInt32) : ℕ :=
  let fps := if fps = 0 then if s.updateFrameFps ≠ 0 then s.updateFrameFps else 60 else fps
  if 120 ≤ fps then 2 else if 90 ≤ fps then 3 else if 60 ≤ fps then 4 else 6

/-- `skip_walt_window_update()`. -/
def skipWaltWindowUpdate (s : FrameLoad) : FrameLoad := { s with skipWaltResult := true }

/-- The text of `all_group_show`. -/
def allGroupShow (s : FrameLoad) : List UInt8 :=
  ascii "miloadtrace reconstructed\n" ++ (ascii "fps=" ++ decimalNat s.updateFrameFps.toNat ++
    ascii " skip_walt=" ++ decimalNat s.skipWaltResult.toNat ++ ascii "\n")

/-- `update_freq_record(cpu, freq)`. -/
def updateFreqRecord (s : FrameLoad) (cpu freq : UInt32) : FrameLoad :=
  if h : cpu.toNat < miloadMaxCpus then
    { s with
      miMaxfreq := Function.update s.miMaxfreq ⟨cpu.toNat, h⟩
        (max (s.miMaxfreq ⟨cpu.toNat, h⟩) freq) }
  else s

/-- `cpu_gov_limits(policy)`. -/
def cpuGovLimits (s : FrameLoad) : Option GovPolicy → FrameLoad
  | some policy => if policy.cur ≠ 0 then updateFreqRecord s policy.cpu policy.cur else s
  | none => s

/-- `init_grp_freq_record()`. -/
def initGrpFreqRecord (s : FrameLoad) : FrameLoad :=
  { s with miMaxfreq := fun _ => 0, miMinfreq := fun _ => 0 }

/-! ## Runs -/

/-- What happens to the variables. A write of an array parameter sets its elements one by one. -/
inductive FrameEvent
  | write (user : Option MiLoadData) (size : ℕ)
  | setUpdateFps (val : CString)
  | skipWaltWindowUpdate
  | cpuGovLimits (policy : Option GovPolicy)
  | initGrpFreqRecord
  | setMaxfreq (cpu : Fin miloadMaxCpus) (freq : UInt32)
  | setMinfreq (cpu : Fin miloadMaxCpus) (freq : UInt32)

/-- One event. -/
def FrameLoad.step (s : FrameLoad) : FrameEvent → FrameLoad
  | .write user size => (miFrameIoctl s user size).2
  | .setUpdateFps val => (XiaomiModules.setUpdateFps s val).2
  | .skipWaltWindowUpdate => XiaomiModules.skipWaltWindowUpdate s
  | .cpuGovLimits policy => XiaomiModules.cpuGovLimits s policy
  | .initGrpFreqRecord => XiaomiModules.initGrpFreqRecord s
  | .setMaxfreq cpu freq => { s with miMaxfreq := Function.update s.miMaxfreq cpu freq }
  | .setMinfreq cpu freq => { s with miMinfreq := Function.update s.miMinfreq cpu freq }

/-! ## The frame rate -/

/-- The frame rate that an event stores. -/
def FrameEvent.rate : FrameEvent → Option UInt32
  | .write (some data) size =>
    if size = sizeofMiLoadData ∧ data.fps ≠ 0 then some data.fps else none
  | .setUpdateFps val => (kstrtouint val 0).toOption
  | _ => none

theorem updateFrameFps_updateFreqRecord (s : FrameLoad) (cpu freq : UInt32) :
    (updateFreqRecord s cpu freq).updateFrameFps = s.updateFrameFps := by
  unfold updateFreqRecord
  split_ifs <;> rfl

theorem updateFrameFps_step (s : FrameLoad) (e : FrameEvent) :
    (s.step e).updateFrameFps = e.rate.getD s.updateFrameFps := by
  cases e with
  | write user size =>
    simp only [FrameLoad.step, miFrameIoctl]
    cases user with
    | none => split_ifs <;> rfl
    | some data =>
      rw [FrameEvent.rate]
      by_cases hsize : size = sizeofMiLoadData <;> by_cases hfps : data.fps = 0 <;>
        simp [hsize, hfps]
  | setUpdateFps val =>
    simp only [FrameLoad.step, setUpdateFps, FrameEvent.rate]
    cases kstrtouint val 0 <;> rfl
  | cpuGovLimits policy =>
    cases policy with
    | none => rfl
    | some policy =>
      simp only [FrameLoad.step, cpuGovLimits]
      split_ifs
      · exact updateFrameFps_updateFreqRecord s policy.cpu policy.cur
      · rfl
  | _ => rfl

/-- **The frame rate after a run** is the one that the last event storing one has stored. -/
theorem updateFrameFps_after_eq_iff (events : List FrameEvent) (fps : UInt32) :
    (Runs.after FrameLoad.step .start events).updateFrameFps = fps ↔
      (∃ pre e post, events = pre ++ e :: post ∧ e.rate = some fps ∧ ∀ b ∈ post, b.rate = none) ∨
      (∀ e ∈ events, e.rate = none) ∧ fps = 60 := by
  have hsets : ∀ (s : FrameLoad) (e : FrameEvent), e.rate ≠ none →
      some (s.step e).updateFrameFps = e.rate := by
    intro s e he
    obtain ⟨v, hv⟩ := Option.ne_none_iff_exists'.mp he
    rw [updateFrameFps_step, hv]
    rfl
  have hkeeps : ∀ (s : FrameLoad) (e : FrameEvent), ¬ e.rate ≠ none →
      some (s.step e).updateFrameFps = some s.updateFrameFps := by
    intro s e he
    rw [updateFrameFps_step, not_not.mp he]
    rfl
  have hlast := Runs.after_eq_iff_last (f := fun s : FrameLoad => some s.updateFrameFps) hsets
    hkeeps .start events (some fps)
  rw [Option.some_inj] at hlast
  rw [hlast]
  refine or_congr ?_ (and_congr (forall₂_congr fun e _ => not_not) ?_)
  · refine exists₃_congr fun pre e post => and_congr_right fun _ => ?_
    constructor
    · rintro ⟨-, hrate, hpost⟩
      exact ⟨hrate, fun b hb => not_not.mp (hpost b hb)⟩
    · rintro ⟨hrate, hpost⟩
      exact ⟨hrate ▸ Option.some_ne_none fps, hrate, fun b hb => not_not.mpr (hpost b hb)⟩
  · exact Option.some_inj.trans eq_comm

/-- **Saving and restoring**: what is read of the parameter and written to it at any later time
stores the frame rate of before, and nothing else. -/
theorem setUpdateFps_getUpdateFps (s t : FrameLoad) {page : List UInt8}
    (hpage : page.length = pageSize) :
    setUpdateFps t (written (shown (getUpdateFps s page))) =
      (0, { t with updateFrameFps := s.updateFrameFps }) := by
  have hlen : (unsignedLine s.updateFrameFps).length < pageSize :=
    (length_unsignedLine_le _).trans_lt (by decide)
  have hread : kstrtouint (written (shown (getUpdateFps s page))) 0 = .ok s.updateFrameFps := by
    refine kstrtouint_unsignedLine ?_
    rw [getUpdateFps, shown_scnprintf hpage hlen, chars_written (zero_notMem_unsignedLine _)]
  rw [setUpdateFps, hread]

/-- What is read before a load with other settings restores the rate of 60. -/
theorem setUpdateFps_getUpdateFps_start :
    setUpdateFps { FrameLoad.start with updateFrameFps := 144, skipWaltResult := true }
        (written (shown (getUpdateFps .start (List.replicate pageSize 0)))) =
      (0, { FrameLoad.start with updateFrameFps := 60, skipWaltResult := true }) :=
  setUpdateFps_getUpdateFps _ _ List.length_replicate

/-- The text of `all_group` tells the frame rate and whether WALT's window is skipped. -/
theorem allGroupShow_inj {s t : FrameLoad} :
    allGroupShow s = allGroupShow t ↔
      s.updateFrameFps = t.updateFrameFps ∧ s.skipWaltResult = t.skipWaltResult := by
  constructor
  · intro h
    have hrate := List.append_cancel_left h
    simp only [List.append_assoc] at hrate
    have hdigits := List.append_cancel_left hrate
    -- a blank ends the first number
    have hstop : ∀ rest, Text.Stops Text.IsDigit (ascii " skip_walt=" ++ rest) :=
      fun rest => Text.stops_cons (by decide)
    obtain ⟨hfps, hrest⟩ := Text.append_inj_of_stops (fun _ => Text.isDigit_of_mem_decimalNat)
      (fun _ => Text.isDigit_of_mem_decimalNat) (hstop _) (hstop _) hdigits
    have hskip := Text.decimalNat_injective
      (List.append_cancel_right (List.append_cancel_left hrest))
    refine ⟨UInt32.toNat_inj.mp (Text.decimalNat_injective hfps), ?_⟩
    revert hskip
    cases s.skipWaltResult <;> cases t.skipWaltResult <;> decide
  · rintro ⟨hfps, hskip⟩
    rw [allGroupShow, allGroupShow, hfps, hskip]

/-- A divisor is never greater for a higher rate. -/
theorem findCalDivisor_anti (s : FrameLoad) {fps fps' : UInt32} (h : fps ≠ 0) (hle : fps ≤ fps') :
    findCalDivisor s fps' ≤ findCalDivisor s fps := by
  have h' : fps' ≠ 0 := by
    rintro rfl
    exact h (UInt32.le_zero_iff.mp hle)
  simp only [findCalDivisor, if_neg h, if_neg h', UInt32.le_iff_toNat_le,
    UInt32.reduceToNat] at hle ⊢
  split_ifs <;> omega

/-! ## The frequencies -/

/-- The value that an event sets the greatest frequency of a CPU to. -/
def FrameEvent.setsMaxfreq (cpu : Fin miloadMaxCpus) : FrameEvent → Option UInt32
  | .initGrpFreqRecord => some 0
  | .setMaxfreq other freq => if other = cpu then some freq else none
  | _ => none

/-- The frequency of a CPU that an event records. -/
def FrameEvent.recordsMaxfreq (cpu : Fin miloadMaxCpus) : FrameEvent → Option UInt32
  | .cpuGovLimits (some policy) =>
    if policy.cpu.toNat = cpu ∧ policy.cur ≠ 0 then some policy.cur else none
  | _ => none

theorem miMaxfreq_updateFreqRecord (s : FrameLoad) (cpu : Fin miloadMaxCpus) (c freq : UInt32) :
    (updateFreqRecord s c freq).miMaxfreq cpu =
      if c.toNat = cpu then max (s.miMaxfreq cpu) freq else s.miMaxfreq cpu := by
  unfold updateFreqRecord
  by_cases hc : c.toNat = cpu
  · have hlt : c.toNat < miloadMaxCpus := hc ▸ cpu.isLt
    have hself : (⟨c.toNat, hlt⟩ : Fin miloadMaxCpus) = cpu := Fin.ext hc
    rw [dif_pos hlt, if_pos hc, hself]
    exact Function.update_self _ _ _
  · rw [if_neg hc]
    split_ifs with hlt
    · exact Function.update_of_ne (fun heq => hc (congrArg Fin.val heq).symm) _ _
    · rfl

theorem miMaxfreq_miFrameIoctl (s : FrameLoad) (user : Option MiLoadData) (size : ℕ) :
    (miFrameIoctl s user size).2.miMaxfreq = s.miMaxfreq := by
  unfold miFrameIoctl
  cases user <;> split_ifs <;> rfl

/-- **What an event does** to the greatest frequency of a CPU. -/
theorem miMaxfreq_step (s : FrameLoad) (e : FrameEvent) (cpu : Fin miloadMaxCpus) :
    (s.step e).miMaxfreq cpu =
      match e.setsMaxfreq cpu, e.recordsMaxfreq cpu with
      | some freq, _ => freq
      | none, some freq => max (s.miMaxfreq cpu) freq
      | none, none => s.miMaxfreq cpu := by
  cases e with
  | write user size => exact congrFun (miMaxfreq_miFrameIoctl s user size) cpu
  | setUpdateFps val =>
    simp only [FrameLoad.step, setUpdateFps, FrameEvent.setsMaxfreq, FrameEvent.recordsMaxfreq]
    cases kstrtouint val 0 <;> rfl
  | cpuGovLimits policy =>
    cases policy with
    | none => rfl
    | some policy =>
      simp only [FrameLoad.step, cpuGovLimits, FrameEvent.setsMaxfreq, FrameEvent.recordsMaxfreq]
      by_cases hcur : policy.cur = 0
      · simp [hcur]
      · rw [if_pos hcur, miMaxfreq_updateFreqRecord]
        by_cases hcpu : policy.cpu.toNat = cpu <;> simp [hcpu, hcur]
  | setMaxfreq other freq =>
    simp only [FrameLoad.step, FrameEvent.setsMaxfreq, FrameEvent.recordsMaxfreq]
    by_cases hcpu : other = cpu
    · subst hcpu
      simp
    · simp [hcpu, Function.update_of_ne (Ne.symm hcpu)]
  | _ => rfl

/-- **The greatest frequency** of a CPU after a run is the greatest that cpufreq has reported for it
since it was last set, or what it was set to. -/
theorem isGreatest_miMaxfreq (events : List FrameEvent) (cpu : Fin miloadMaxCpus) :
    IsGreatest
      {freq | Runs.Since (FrameEvent.setsMaxfreq cpu) (FrameEvent.recordsMaxfreq cpu) 0 events freq}
      ((Runs.after FrameLoad.step .start events).miMaxfreq cpu) := by
  refine Runs.isGreatest_after (f := fun s : FrameLoad => s.miMaxfreq cpu) ?_ ?_ ?_ .start events
  · intro s e freq hsets
    rw [miMaxfreq_step, hsets]
  · intro s e freq hsets hrecords
    rw [miMaxfreq_step, hsets, hrecords]
  · intro s e hsets hrecords
    rw [miMaxfreq_step, hsets, hrecords]

end XiaomiModules
