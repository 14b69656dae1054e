import XiaomiModules.Library.Approach
import XiaomiModules.Thermal.Selection

/-!
# The step limiter

Below the hot temperature a call may raise the level by at most `cpu_limits_max_step`. The limiter
sits inside the search, so the fallback level, taken when the whole table lies above the raised
request, is not limited. Its bound is a 32-bit sum, so a large step can wrap and make the level
fall instead.

Repeated identical calls move the level as `Approach.approach` does: the target is the level
without a limiter.

## Main definitions

* `levelOf`: the level of the device that serves a CPU
* `repeatedCalls`: the devices after a number of identical calls
* `settledLevel`: the level a call chooses without a step limit

## Main results

* `cpufreqState_le_add_iff`: one call keeps the step exactly when it does not fall back too far
* `levelOf_repeatedCalls`: repeated calls are repeated moves towards the target
* `settles_repeatedCalls_iff`: repeated calls settle exactly when the bound does not wrap
-/

namespace XiaomiModules

variable {params : CpuLimits} {devs : List CpufreqDevice} {cdev : CpufreqDevice} {req : Request}

/-! ## One call -/

/-- **The step, exactly**: one call below the hot temperature leaves the device within the step if
and only if cpu_limits is off, or the last level is within the step, or some table entry is at or
below the raised request and the kernel does not answer `-ENODEV` to an update to its level. -/
theorem cpufreqState_le_add_iff {cdev' : CpufreqDevice}
    (hdev : deviceOf req.cpu devs = some cdev) (hmax : req.maxFreq ≠ 0)
    (hstep : params.maxStep ≠ 0) (hcool : req.deviceTemp < params.hotTemp.toInt32)
    (hafter : deviceOf req.cpu (cpuLimitsSetLevel params devs req).state = some cdev') :
    cdev'.cpufreqState ≤ cdev.cpufreqState + params.maxStep.toNat ↔
      params.enable = false ∨ cdev.maxLevel ≤ cdev.cpufreqState + params.maxStep.toNat ∨
        (∃ frequency ∈ cdev.freqTable, frequency ≤ raisedFreq params cdev req) ∧
          (req.answer ≠ -ENODEV ∨
            cdev.cpufreqState = levelsAbove params cdev req ∧ ¬ StepCut params cdev req) := by
  rw [deviceOf_cpuLimitsSetLevel params req hdev] at hafter
  obtain rfl := Option.some.inj hafter
  by_cases henable : params.enable = true
  · have hoff : params.enable ≠ false := by simp [henable]
    rw [if_pos henable, cpufreqState_setDeviceLevel, or_iff_right hoff, exists_le_raisedFreq_iff]
    by_cases hfound : levelsAbove params cdev req ≤ cdev.maxLevel
    · have hbound : limitedLevel params cdev req ≤
          cdev.cpufreqState + params.maxStep.toNat := by
        rw [limitedLevel, if_pos ⟨hstep, hcool⟩]
        exact (min_le_right _ _).trans (Nat.mod_le _ _)
      rw [← eq_limitedLevel_iff hfound, chosenLevel_of_found hmax hfound]
      split_ifs with hbounced
      · -- a bounce goes on to the last level, like the fallback
        refine ⟨Or.inl, fun h => h.resolve_right ?_⟩
        rintro ⟨-, hanswer | hstay⟩
        · exact hanswer hbounced.2.2.2
        · exact hbounced.2.2.1 hstay
      · refine iff_of_true hbound (Or.inr ⟨hfound, ?_⟩)
        by_contra hboth
        rw [not_or, not_not] at hboth
        exact hbounced ⟨hmax, hfound, hboth.2, hboth.1⟩
    · -- the fallback is not limited
      rw [if_neg fun hbounced => hfound hbounced.2.1, chosenLevel, if_neg hmax, if_neg hfound]
      exact ⟨Or.inl, fun h => h.resolve_right fun h' => hfound h'.1⟩
  · -- with cpu_limits off the level stays
    rw [if_neg henable]
    exact iff_of_true (Nat.le_add_right _ _) (Or.inl (Bool.eq_false_iff.mpr henable))

section Fallback

/-- A policy with three frequencies. -/
def threeFrequencies : CpufreqPolicy := ⟨0, [0], [1000000, 2000000, 3000000], by decide⟩

/-- Its device after initialisation. -/
def threeLevelDevice : CpufreqDevice := initCpufreqDevice 0 threeFrequencies (by decide)

/-- A cool request below every frequency, whose updates succeed. -/
def lowRequest : Request := ⟨0, 500000, 30, 0, 0⟩

/-- The equivalence for the low request with the default parameters. -/
theorem cpufreqState_le_add_iff_lowRequest :
    ∃ cdev', deviceOf 0 (cpuLimitsSetLevel { } [threeLevelDevice] lowRequest).state = some cdev' ∧
      (cdev'.cpufreqState ≤ threeLevelDevice.cpufreqState + 1 ↔
        ({ } : CpuLimits).enable = false ∨
          threeLevelDevice.maxLevel ≤ threeLevelDevice.cpufreqState + 1 ∨
          (∃ frequency ∈ threeLevelDevice.freqTable,
            frequency ≤ raisedFreq { } threeLevelDevice lowRequest) ∧
          (lowRequest.answer ≠ -ENODEV ∨
            threeLevelDevice.cpufreqState = levelsAbove { } threeLevelDevice lowRequest ∧
              ¬ StepCut { } threeLevelDevice lowRequest)) := by
  have hdev : deviceOf lowRequest.cpu [threeLevelDevice] = some threeLevelDevice := rfl
  have hafter : deviceOf lowRequest.cpu
      (cpuLimitsSetLevel { } [threeLevelDevice] lowRequest).state =
        some (setDeviceLevel { } threeLevelDevice lowRequest).state :=
    deviceOf_cpuLimitsSetLevel_of_enable _ _ rfl hdev
  exact ⟨_, hafter, cpufreqState_le_add_iff hdev (by decide) (by decide) (by decide) hafter⟩

/-- Without a floor the low request finds no entry, and the device goes from level 0 to level 2
with a step limit of 1. -/
theorem cpufreqState_fallback_lowRequest :
    ∃ cdev', deviceOf 0
        (cpuLimitsSetLevel { floorPct := 0 } [threeLevelDevice] lowRequest).state = some cdev' ∧
      ¬ cdev'.cpufreqState ≤
        threeLevelDevice.cpufreqState + (({ floorPct := 0 } : CpuLimits).maxStep).toNat := by
  have hdev : deviceOf lowRequest.cpu [threeLevelDevice] = some threeLevelDevice := rfl
  exact ⟨_, deviceOf_cpuLimitsSetLevel_of_enable _ _ rfl hdev, by decide⟩

end Fallback

/-! ## Repeated calls -/

/-- The parameters without a step limit. -/
def CpuLimits.unlimited (params : CpuLimits) : CpuLimits := { params with maxStep := 0 }

/-- The level of the device that serves a CPU. -/
def levelOf (cpu : ℕ) (devs : List CpufreqDevice) : ℕ :=
  ((deviceOf cpu devs).map (·.cpufreqState)).getD 0

/-- The devices after `n` calls with the same request; the kernel's answers to the two updates of
each call are its own. -/
def repeatedCalls (params : CpuLimits) (devs : List CpufreqDevice) (req : Request)
    (answers : ℕ → ℤ × ℤ) : ℕ → List CpufreqDevice
  | 0 => devs
  | n + 1 =>
    (cpuLimitsSetLevel params (repeatedCalls params devs req answers n)
      (req.answered (answers n))).state

/-- The level a call chooses without a step limit. -/
def settledLevel (params : CpuLimits) (devs : List CpufreqDevice) (req : Request) : ℕ :=
  levelOf req.cpu (cpuLimitsSetLevel params.unlimited devs
    (req.answered (0, 0))).state

section Repeated

variable {answers : ℕ → ℤ × ℤ}

/-- What a call selects depends on the device's table only. -/
theorem levelsAbove_congr {cdev' : CpufreqDevice} (htable : cdev'.freqTable = cdev.freqTable) :
    levelsAbove params cdev' req = levelsAbove params cdev req := by
  have hmax : cdev'.maxFrequency = cdev.maxFrequency := by
    simp only [CpufreqDevice.maxFrequency, CpufreqDevice.frequency, htable]
  unfold levelsAbove raisedFreq floorFreq
  rw [hmax, htable]

theorem levelOf_of_some {cpu : ℕ} (h : deviceOf cpu devs = some cdev) :
    levelOf cpu devs = cdev.cpufreqState := by
  rw [levelOf, h]
  rfl

theorem settledLevel_of_off (hdev : deviceOf req.cpu devs = some cdev)
    (henable : params.enable = false) : settledLevel params devs req = cdev.cpufreqState := by
  have hoff : params.unlimited.enable = false := henable
  rw [settledLevel, cpuLimitsSetLevel_of_off hoff, levelOf_of_some hdev]

/-- The level without a step limit: the level found, or the last. -/
theorem settledLevel_eq (hdev : deviceOf req.cpu devs = some cdev) (hmax : req.maxFreq ≠ 0)
    (henable : params.enable = true) :
    settledLevel params devs req = min (levelsAbove params cdev req) cdev.maxLevel := by
  have hafter : deviceOf req.cpu
      (cpuLimitsSetLevel params.unlimited devs (req.answered (0, 0))).state =
        some (setDeviceLevel params.unlimited cdev (req.answered (0, 0))).state :=
    deviceOf_cpuLimitsSetLevel_of_enable params.unlimited (req.answered (0, 0)) henable hdev
  have hcut : ¬ StepCut params.unlimited cdev (req.answered (0, 0)) := fun h => h.1.1 rfl
  rw [settledLevel, levelOf_of_some hafter,
    setDeviceLevel_of_not_bounced (not_bounced (neg_errno_lt_zero ENODEV).ne'),
    cpufreqState_cpufreqSetLevel (chosenLevel_le _ _ _)]
  exact chosenLevel_of_not_cut hmax hcut

/-- After any number of calls the CPU is served by a device with the same table. -/
theorem deviceOf_repeatedCalls (params : CpuLimits) (answers : ℕ → ℤ × ℤ)
    (hdev : deviceOf req.cpu devs = some cdev) (n : ℕ) :
    ∃ cdev', deviceOf req.cpu (repeatedCalls params devs req answers n) = some cdev' ∧
      cdev'.freqTable = cdev.freqTable ∧ cdev'.maxLevel = cdev.maxLevel := by
  induction n with
  | zero => exact ⟨cdev, hdev, rfl, rfl⟩
  | succ n ih =>
    obtain ⟨before, hbefore, htable, hmax⟩ := ih
    refine ⟨_, deviceOf_cpuLimitsSetLevel params
      (req.answered (answers n)) hbefore, ?_⟩
    split_ifs
    · obtain ⟨htable', hmax', -⟩ := setDeviceLevel_frame params before
        (req.answered (answers n))
      exact ⟨htable'.trans htable, hmax'.trans hmax⟩
    · exact ⟨htable, hmax⟩

/-- With cpu_limits off, calls change nothing. -/
theorem levelOf_repeatedCalls_of_off (answers : ℕ → ℤ × ℤ)
    (hdev : deviceOf req.cpu devs = some cdev)
    (henable : params.enable = false) (n : ℕ) :
    levelOf req.cpu (repeatedCalls params devs req answers n) = cdev.cpufreqState := by
  induction n with
  | zero => exact levelOf_of_some hdev
  | succ n ih =>
    rw [repeatedCalls, cpuLimitsSetLevel_of_off henable]
    exact ih

/-- One of the repeated calls moves the device to the chosen level. -/
theorem levelOf_repeatedCalls_succ (hdev : deviceOf req.cpu devs = some cdev)
    (hmax : req.maxFreq ≠ 0) (henable : params.enable = true)
    (hlim : Limited params req) (hanswers : ∀ n, (answers n).1 ≠ -ENODEV) (n : ℕ) :
    levelOf req.cpu (repeatedCalls params devs req answers (n + 1)) =
      if levelsAbove params cdev req ≤ cdev.maxLevel then
        Approach.approach (2 ^ 32) (levelsAbove params cdev req) params.maxStep.toNat
          (levelOf req.cpu (repeatedCalls params devs req answers n))
      else cdev.maxLevel := by
  obtain ⟨before, hbefore, htable, hlast⟩ := deviceOf_repeatedCalls params answers hdev n
  have hafter : deviceOf req.cpu (repeatedCalls params devs req answers (n + 1)) =
      some (setDeviceLevel params before (req.answered (answers n))).state :=
    deviceOf_cpuLimitsSetLevel_of_enable params (req.answered (answers n)) henable hbefore
  rw [levelOf_of_some hafter, setDeviceLevel_of_not_bounced (not_bounced (hanswers n)),
    cpufreqState_cpufreqSetLevel (chosenLevel_le _ _ _), levelOf_of_some hbefore,
    ← levelsAbove_congr htable, ← hlast]
  show (if req.maxFreq = 0 then 0 else if levelsAbove params before req ≤ before.maxLevel then
    (if Limited params req then _ else _) else _) = _
  rw [if_neg hmax, if_pos hlim]
  rfl

/-- From below or above, without the fallback, repeated calls are repeated moves towards the
level found. -/
theorem levelOf_repeatedCalls (hdev : deviceOf req.cpu devs = some cdev)
    (hmax : req.maxFreq ≠ 0) (henable : params.enable = true) (hlim : Limited params req)
    (hanswers : ∀ n, (answers n).1 ≠ -ENODEV)
    (hfound : levelsAbove params cdev req ≤ cdev.maxLevel) (n : ℕ) :
    levelOf req.cpu (repeatedCalls params devs req answers n) =
      (Approach.approach (2 ^ 32) (levelsAbove params cdev req) params.maxStep.toNat)^[n]
        cdev.cpufreqState := by
  induction n with
  | zero => exact levelOf_of_some hdev
  | succ n ih =>
    rw [levelOf_repeatedCalls_succ hdev hmax henable hlim hanswers, if_pos hfound, ih,
      Function.iterate_succ_apply']

/-- **Settling, exactly**: repeated identical calls below the hot temperature settle at the level
of an unlimited call if and only if cpu_limits is off, or the whole table lies above the raised
request, or the bound of the limiter does not wrap at that level nor, from above it, at the
start. -/
theorem settles_repeatedCalls_iff (hdev : deviceOf req.cpu devs = some cdev)
    (hmax : req.maxFreq ≠ 0) (hstep : params.maxStep ≠ 0)
    (hcool : req.deviceTemp < params.hotTemp.toInt32)
    (hanswers : ∀ n, (answers n).1 ≠ -ENODEV) :
    Approach.Settles (fun n => levelOf req.cpu (repeatedCalls params devs req answers n))
        (settledLevel params devs req)
        (Approach.moves (settledLevel params devs req) params.maxStep.toNat cdev.cpufreqState) ↔
      params.enable = false ∨
        (∀ frequency ∈ cdev.freqTable, raisedFreq params cdev req < frequency) ∨
        levelsAbove params cdev req + params.maxStep.toNat < 2 ^ 32 ∧
          (cdev.cpufreqState ≤ levelsAbove params cdev req ∨
            levelsAbove params cdev req ≤ stepLimit params cdev) := by
  have hpos : 0 < params.maxStep.toNat :=
    Nat.pos_of_ne_zero fun hzero => hstep (UInt32.toNat_inj.mp hzero)
  by_cases henable : params.enable = true
  · have hoff : params.enable ≠ false := by simp [henable]
    rw [settledLevel_eq hdev hmax henable, forall_raisedFreq_lt_iff, or_iff_right hoff]
    by_cases hfound : levelsAbove params cdev req ≤ cdev.maxLevel
    · -- the calls are repeated moves towards the level found
      have hlevels := levelOf_repeatedCalls hdev hmax henable ⟨hstep, hcool⟩ hanswers hfound
      rw [or_iff_right hfound.not_gt, min_eq_left hfound]
      simp only [hlevels]
      exact Approach.settles_approach_iff hpos params.maxStep.toNat_lt _ _
    · -- every call takes the fallback level, so the level is the last from the first call on
      have hnot := not_le.mp hfound
      refine iff_of_true ?_ (Or.inl hnot)
      rw [min_eq_right hnot.le]
      have hlevels : ∀ n, levelOf req.cpu (repeatedCalls params devs req answers (n + 1)) =
          cdev.maxLevel := fun n => by
        rw [levelOf_repeatedCalls_succ hdev hmax henable ⟨hstep, hcool⟩ hanswers, if_neg hfound]
      exact ⟨fun n => by simp [hlevels], ⟨1, le_max_left _ _, hlevels 0⟩, fun n _ => hlevels n⟩
  · -- with cpu_limits off the level stays, and is the settled one
    have hoff := Bool.eq_false_iff.mpr henable
    refine iff_of_true ?_ (Or.inl hoff)
    have hlevels := levelOf_repeatedCalls_of_off answers hdev hoff
    rw [settledLevel_of_off hdev hoff]
    exact ⟨fun n => by simp [hlevels], ⟨0, Nat.zero_le _, hlevels 0⟩, fun n _ => hlevels (n + 1)⟩

end Repeated

section Wrap

/-- The greatest step, without a floor. -/
def greatestStep : CpuLimits := { floorPct := 0, maxStep := 0xFFFFFFFF }

/-- A cool request that the middle frequency meets. -/
def middleRequest : Request := ⟨0, 2000000, 30, 0, 0⟩

/-- The equivalence for the middle request with the default parameters. -/
theorem settles_repeatedCalls_iff_middleRequest :
    Approach.Settles
        (fun n => levelOf 0
          (repeatedCalls { } [threeLevelDevice] middleRequest (fun _ => (0, 0)) n))
        (settledLevel { } [threeLevelDevice] middleRequest)
        (Approach.moves (settledLevel { } [threeLevelDevice] middleRequest) 1 0) ↔
      ({ } : CpuLimits).enable = false ∨
        (∀ frequency ∈ threeLevelDevice.freqTable,
          raisedFreq { } threeLevelDevice middleRequest < frequency) ∨
        levelsAbove { } threeLevelDevice middleRequest + 1 < 2 ^ 32 ∧
          (0 ≤ levelsAbove { } threeLevelDevice middleRequest ∨
            levelsAbove { } threeLevelDevice middleRequest ≤ stepLimit { } threeLevelDevice) := by
  have hdev : deviceOf middleRequest.cpu [threeLevelDevice] = some threeLevelDevice := rfl
  exact settles_repeatedCalls_iff hdev (by decide) (by decide) (by decide)
    fun _ => (neg_errno_lt_zero ENODEV).ne'

/-- With the greatest step the level reaches its target in one call and leaves it in the next. -/
theorem not_settles_greatestStep :
    ¬ Approach.Settles
        (fun n => levelOf 0
          (repeatedCalls greatestStep [threeLevelDevice] middleRequest (fun _ => (0, 0)) n))
        (settledLevel greatestStep [threeLevelDevice] middleRequest)
        (Approach.moves (settledLevel greatestStep [threeLevelDevice] middleRequest)
          greatestStep.maxStep.toNat threeLevelDevice.cpufreqState) := by
  intro h
  exact absurd (h.stays 1 (by decide)) (by decide)

end Wrap

end XiaomiModules
