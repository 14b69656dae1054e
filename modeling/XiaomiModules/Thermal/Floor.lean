import XiaomiModules.Thermal.Selection

/-!
# The floor under the caps

The documented minimum cap is a percentage of the cluster's maximum frequency. A call raises the
request to it, but then rounds down to a table entry: where no entry lies between the floor and
the raised request, the cap programmed falls below the floor. A call that finds the device
already at its level leaves whatever value stands in the request.

## Main definitions

* `minimumCap`: the documented minimum
* `FloorKept`: when a call leaves at least the minimum standing

## Main results

* `minimumCap_le_frequency_iff`, `minimumCap_le_frequency_of_cut`: what a move to the chosen level
  leaves standing
* `minimumCap_le_value_iff`: after a successful call at least the minimum stands exactly when
  `FloorKept`
-/

namespace XiaomiModules

variable (params : CpuLimits) (cdev : CpufreqDevice) (req : Request)

/-- The documented minimum cap: a percentage of the cluster's maximum frequency, rounded down. -/
def minimumCap : ℕ :=
  cdev.maxFrequency.toNat *
    min (cpuLimitsEffectiveFloorPct params req.deviceTemp).toNat 100 / 100

/-- The step limiter cuts in; or the device stands at its level already, with at least the minimum
in its request; or it has to move, and the whole table lies above the raised request or some entry
lies between the minimum and the raised request. -/
def FloorKept : Prop :=
  StepCut params cdev req ∨
    if cdev.cpufreqState = min (levelsAbove params cdev req) cdev.maxLevel then
      minimumCap params cdev req ≤ cdev.qosReq.value.toNat
    else
      (∀ frequency ∈ cdev.freqTable, raisedFreq params cdev req < frequency) ∨
        ∃ frequency ∈ cdev.freqTable, minimumCap params cdev req ≤ frequency.toNat ∧
          frequency ≤ raisedFreq params cdev req

variable {params cdev req}

theorem minimumCap_le_iff (value : UInt32) :
    minimumCap params cdev req ≤ value.toNat ↔ floorFreq params cdev req ≤ value := by
  rw [minimumCap, ← toNat_floorFreq]
  rfl

theorem floorFreq_le_raisedFreq : floorFreq params cdev req ≤ raisedFreq params cdev req := by
  rw [raisedFreq_eq_max]
  exact le_max_right _ _

/-- Some entry lies between the minimum and the raised request exactly when the entry found is
not below the minimum. -/
theorem exists_between_iff (hfound : levelsAbove params cdev req ≤ cdev.maxLevel) :
    (∃ frequency ∈ cdev.freqTable, minimumCap params cdev req ≤ frequency.toNat ∧
        frequency ≤ raisedFreq params cdev req) ↔
      floorFreq params cdev req ≤ cdev.frequency (levelsAbove params cdev req) hfound := by
  simp only [minimumCap_le_iff]
  have hlt : levelsAbove params cdev req < cdev.freqTable.length := by
    rw [cdev.length_freqTable]
    exact Nat.lt_succ_of_le hfound
  exact Descending.exists_mem_between_iff cdev.nonIncreasing_freqTable hlt

/-- What a successful move to the chosen level leaves standing. -/
theorem minimumCap_le_frequency_iff (hmax : req.maxFreq ≠ 0) (hcut : ¬ StepCut params cdev req) :
    minimumCap params cdev req ≤
        (cdev.frequency (chosenLevel params cdev req) (chosenLevel_le params cdev req)).toNat ↔
      (∀ frequency ∈ cdev.freqTable, raisedFreq params cdev req < frequency) ∨
        ∃ frequency ∈ cdev.freqTable, minimumCap params cdev req ≤ frequency.toNat ∧
          frequency ≤ raisedFreq params cdev req := by
  have hlevel := chosenLevel_of_not_cut hmax hcut
  rw [minimumCap_le_iff, forall_raisedFreq_lt_iff]
  by_cases hfound : levelsAbove params cdev req ≤ cdev.maxLevel
  · have heq : chosenLevel params cdev req = levelsAbove params cdev req := by
      rw [hlevel, min_eq_left hfound]
    rw [exists_between_iff hfound]
    simp only [heq, hfound.not_gt, false_or]
  · -- the last level is above the raised request, as the whole table is
    have hnot := not_le.mp hfound
    refine iff_of_true ?_ (Or.inl hnot)
    refine floorFreq_le_raisedFreq.trans (le_of_lt ?_)
    rw [raisedFreq_lt_frequency_iff, hlevel]
    exact (min_le_right _ _).trans_lt hnot

/-- What a successful move that the limiter cut leaves standing. -/
theorem minimumCap_le_frequency_of_cut (hmax : req.maxFreq ≠ 0)
    (hcut : StepCut params cdev req) :
    minimumCap params cdev req ≤
      (cdev.frequency (chosenLevel params cdev req) (chosenLevel_le params cdev req)).toNat := by
  rw [minimumCap_le_iff]
  -- the limiter stops before the level found, at a frequency above the raised request
  refine floorFreq_le_raisedFreq.trans (le_of_lt ?_)
  rw [raisedFreq_lt_frequency_iff, chosenLevel_of_cut hmax hcut]
  exact hcut.2.1

/-- **The floor, exactly**: after a call that found the CPU's device and whose updates succeed, at
least the documented minimum stands in the device's request if and only if `FloorKept`. -/
theorem minimumCap_le_value_iff {devs : List CpufreqDevice} {cdev' : CpufreqDevice}
    (henable : params.enable = true) (hdev : deviceOf req.cpu devs = some cdev)
    (hmax : req.maxFreq ≠ 0) (hanswer : 0 ≤ req.answer) (hfallback : 0 ≤ req.fallbackAnswer)
    (hafter : deviceOf req.cpu (cpuLimitsSetLevel params devs req).state = some cdev') :
    minimumCap params cdev req ≤ cdev'.qosReq.value.toNat ↔ FloorKept params cdev req := by
  rw [deviceOf_cpuLimitsSetLevel_of_enable params req henable hdev,
    setDeviceLevel_of_not_bounced (not_bounced (ne_ENODEV_of_nonneg hanswer))] at hafter
  obtain rfl := Option.some.inj hafter
  have hsuccess : 0 ≤ chosenAnswer params cdev req := chosenAnswer_nonneg hanswer hfallback
  have hle := chosenLevel_le params cdev req
  by_cases hcut : StepCut params cdev req
  · have hmove : cdev.cpufreqState ≠ chosenLevel params cdev req := by
      rw [chosenLevel_of_cut hmax hcut]
      exact cpufreqState_ne_stepLimit hcut.1.1
    rw [value_cpufreqSetLevel hle hmove hsuccess]
    exact iff_of_true (minimumCap_le_frequency_of_cut hmax hcut) (Or.inl hcut)
  · rw [FloorKept, or_iff_right hcut, ← chosenLevel_of_not_cut hmax hcut]
    split_ifs with hstay
    · -- no update is made, and the old value stays
      rw [cpufreqSetLevel_of_eq hstay]
    · rw [value_cpufreqSetLevel hle hstay hsuccess]
      exact minimumCap_le_frequency_iff hmax hcut

section TwoFrequencies

/-- A cool request for half a gigahertz whose updates succeed. -/
def coolRequest : Request := ⟨0, 500000, 30, 0, 0⟩

/-- The equivalence for the cool request. -/
theorem minimumCap_le_value_iff_coolRequest :
    ∃ cdev', deviceOf 0 (cpuLimitsSetLevel { } [twoLevelDevice] coolRequest).state = some cdev' ∧
      (minimumCap { } twoLevelDevice coolRequest ≤ cdev'.qosReq.value.toNat ↔
        FloorKept { } twoLevelDevice coolRequest) := by
  have hdev : deviceOf coolRequest.cpu [twoLevelDevice] = some twoLevelDevice := rfl
  have hafter : deviceOf coolRequest.cpu
      (cpuLimitsSetLevel { } [twoLevelDevice] coolRequest).state =
        some (setDeviceLevel { } twoLevelDevice coolRequest).state :=
    deviceOf_cpuLimitsSetLevel_of_enable _ _ rfl hdev
  exact ⟨_, hafter,
    minimumCap_le_value_iff rfl hdev (by decide) (by decide) (by decide) hafter⟩

/-- The raised request of 1.84 GHz is rounded down to 1 GHz. -/
theorem value_lt_minimumCap_coolRequest :
    ∃ cdev', deviceOf 0 (cpuLimitsSetLevel { } [twoLevelDevice] coolRequest).state = some cdev' ∧
      cdev'.qosReq.value.toNat < minimumCap { } twoLevelDevice coolRequest := by
  have hdev : deviceOf coolRequest.cpu [twoLevelDevice] = some twoLevelDevice := rfl
  exact ⟨_, deviceOf_cpuLimitsSetLevel_of_enable _ _ rfl hdev, by decide⟩

end TwoFrequencies

end XiaomiModules
