import Mathlib.Order.Bounds.Defs
import XiaomiModules.Thermal.Reachable

/-!
# The frequency a call selects

Where the valid frequencies of a policy are distinct and none is 0, the table of its device lists
them in falling order. With the step limiter inactive, a call then programs the greatest of them
that the raised request admits, or the smallest where it admits none. A call that finds the device
at its level makes no update, but that frequency stands already.

## Main definitions

* `askedFreq`: the raised request, as a natural number
* `Selected`: the frequency that a policy's entries and a raised request determine

## Main results

* `toNat_raisedFreq`: the raised request is computed without overflow
* `selected_frequency`: the chosen level has the selected frequency
* `selected_value`: after a call the selected frequency stands in the request
-/

namespace XiaomiModules

/-- The greater of the request and the percentage of the policy's maximum frequency, rounded
down. -/
def askedFreq (params : CpuLimits) (policy : CpufreqPolicy) (req : Request) : ℕ :=
  max req.maxFreq.toNat ((policyMax policy).toNat *
    min (cpuLimitsEffectiveFloorPct params req.deviceTemp).toNat 100 / 100)

/-- The value is the greatest entry that is not above the bound, or the smallest entry where all
are above it. -/
structure Selected (entries : List UInt32) (bound : ℕ) (value : UInt32) : Prop where
  greatest : (∃ frequency ∈ entries, frequency.toNat ≤ bound) →
    IsGreatest {frequency | frequency ∈ entries ∧ frequency.toNat ≤ bound} value
  least : (∀ frequency ∈ entries, bound < frequency.toNat) →
    IsLeast {frequency | frequency ∈ entries} value

section Device

variable {params : CpuLimits} {cdev : CpufreqDevice} {req : Request}

/-- Where no valid frequency is 0 or repeated, the table lists them all. -/
theorem CpufreqDevice.Built.mem_freqTable_iff_of_nodup (h : cdev.Built)
    (hzero : 0 ∉ validEntries cdev.policy.freqTable)
    (hnodup : (validEntries cdev.policy.freqTable).Nodup) {frequency : UInt32} :
    frequency ∈ cdev.freqTable ↔ frequency ∈ validEntries cdev.policy.freqTable := by
  refine ⟨fun hmem => ?_, h.mem_freqTable hzero⟩
  obtain ⟨level, hle, rfl⟩ := mem_freqTable_iff.mp hmem
  -- the distinct frequencies are as many as the entries, so no level is left for a zero
  rw [h.frequency_mem_validEntries_iff hzero, distinctCount_of_nodup hzero hnodup,
    h.countValidEntries_eq]
  exact Nat.lt_succ_of_le hle

/-- The raised request is computed without overflow. -/
theorem CpufreqDevice.Built.toNat_raisedFreq (h : cdev.Built) :
    (raisedFreq params cdev req).toNat = askedFreq params cdev.policy req := by
  rw [raisedFreq_eq_max, Word.toNat_max, toNat_floorFreq, h.maxFrequency_eq, askedFreq]

/-- Without the step limiter, the chosen level has the selected frequency. -/
theorem selected_frequency (hbuilt : cdev.Built)
    (hzero : 0 ∉ validEntries cdev.policy.freqTable)
    (hnodup : (validEntries cdev.policy.freqTable).Nodup) (hmax : req.maxFreq ≠ 0)
    (hoff : ¬ Limited params req) :
    Selected (validEntries cdev.policy.freqTable) (askedFreq params cdev.policy req)
      (cdev.frequency (chosenLevel params cdev req) (chosenLevel_le params cdev req)) := by
  have htable : ∀ {frequency}, frequency ∈ cdev.freqTable ↔ frequency ∈ validEntries _ :=
    hbuilt.mem_freqTable_iff_of_nodup hzero hnodup
  have hlevel := chosenLevel_of_not_cut hmax fun hcut : StepCut params cdev req => hoff hcut.1
  have hmem := htable.mp (mem_freqTable_iff.mpr ⟨_, chosenLevel_le params cdev req, rfl⟩)
  rw [← hbuilt.toNat_raisedFreq]
  constructor
  · rintro ⟨frequency, hvalid, hle⟩
    -- the search stops at the first entry that the raised request admits
    have hfound : levelsAbove params cdev req ≤ cdev.maxLevel :=
      (exists_le_raisedFreq_iff params cdev req).mp ⟨frequency, htable.mpr hvalid, hle⟩
    have heq : chosenLevel params cdev req = levelsAbove params cdev req := by
      rw [hlevel, min_eq_left hfound]
    refine ⟨⟨hmem, ?_⟩, ?_⟩
    · show cdev.frequency _ _ ≤ raisedFreq params cdev req
      rw [← not_lt, raisedFreq_lt_frequency_iff, not_lt]
      exact heq.ge
    · rintro other ⟨hother, hle'⟩
      have hlt : levelsAbove params cdev req < cdev.freqTable.length :=
        (Nat.lt_succ_of_le hfound).trans_eq cdev.length_freqTable.symm
      have hgreatest := Descending.le_getElem_above cdev.nonIncreasing_freqTable
        (htable.mpr hother) hle' hlt
      simp only [heq]
      exact hgreatest
  · intro habove
    -- no entry is admitted, so the last level is taken, whose entry is the smallest
    have hnot : cdev.maxLevel < levelsAbove params cdev req :=
      forall_raisedFreq_lt_iff.mp fun frequency h => habove frequency (htable.mp h)
    have heq : chosenLevel params cdev req = cdev.maxLevel := by
      rw [hlevel, min_eq_right hnot.le]
    refine ⟨hmem, ?_⟩
    intro other hother
    obtain ⟨level, hlast, rfl⟩ := mem_freqTable_iff.mp (htable.mpr hother)
    simp only [heq]
    exact frequency_anti hlast le_rfl

end Device

/-- **The selected frequency**: in every state that calls with successful updates lead to, a
further such call that is not a release, with cpu_limits on and the step limiter inactive, leaves
the selected frequency standing in the request of the device it finds, where the valid frequencies
of the device's policy are distinct and none is 0. -/
theorem selected_value {probes : List CpuProbe} {calls : List Call}
    (hcalls : ∀ c ∈ calls, c.UpdatesSucceed) {c : Call} (hc : c.UpdatesSucceed)
    (henable : c.params.enable = true) (hmax : c.req.maxFreq ≠ 0)
    (hoff : ¬ Limited c.params c.req) {cdev cdev' : CpufreqDevice}
    (hdev : deviceOf c.req.cpu
      (Runs.after callStep (miThermalInitCpufreq 0 [] probes).devs calls) = some cdev)
    (hzero : 0 ∉ validEntries cdev.policy.freqTable)
    (hnodup : (validEntries cdev.policy.freqTable).Nodup)
    (hafter : deviceOf c.req.cpu (callStep
      (Runs.after callStep (miThermalInitCpufreq 0 [] probes).devs calls) c) = some cdev') :
    Selected (validEntries cdev.policy.freqTable) (askedFreq c.params cdev.policy c.req)
        cdev'.qosReq.value ∧
      (raisedFreq c.params cdev c.req).toNat = askedFreq c.params cdev.policy c.req := by
  have hmem := mem_of_deviceOf hdev
  have hbuilt := built_of_mem_after probes calls cdev hmem
  have hsync := synced_of_mem_after probes hcalls cdev hmem
  -- the call stops at the device, whose request follows its level through succeeding updates
  rw [callStep, deviceOf_cpuLimitsSetLevel_of_enable c.params c.req henable hdev] at hafter
  obtain rfl := Option.some.inj hafter
  have hvalue : (setDeviceLevel c.params cdev c.req).state.qosReq.value =
      cdev.frequency _ (chosenLevel_le c.params cdev c.req) :=
    (synced_setDeviceLevel hsync hc.1 hc.2).trans
      (cap_setDeviceLevel (ne_ENODEV_of_nonneg hc.1))
  rw [hvalue]
  exact ⟨selected_frequency hbuilt hzero hnodup hmax hoff, hbuilt.toNat_raisedFreq⟩

section Hot

/-- A hot request for half a gigahertz whose updates succeed. -/
def hotCall : Call := ⟨{ }, 0, 500000, 50, 0, 0⟩

/-- The same with cpu_limits off. -/
def offCall : Call := { hotCall with params := { enable := false } }

/-- The same with updates that fail with `-EINVAL`. -/
def failedHotCall : Call := { hotCall with req := hotCall.req.answered (-EINVAL, -EINVAL) }

/-- A cap, its release, a call that finds cpu_limits off, and a cap on a cool device. -/
def earlierCalls : List Call :=
  [hotCall, ⟨{ }, ⟨0, 0, 30, 0, 0⟩⟩, offCall, ⟨{ }, ⟨0, 500000, 30, 0, 0⟩⟩]

/-- The result for the hot request behind the earlier calls, the last of which left the device at
level 1. -/
theorem selected_value_earlierCalls :
    ∃ cdev cdev',
      (deviceOf 0 (Runs.after callStep (miThermalInitCpufreq 0 [] [twoLevelProbe]).devs
          earlierCalls) = some cdev ∧ cdev.cpufreqState = 1) ∧
      deviceOf 0 (callStep (Runs.after callStep
        (miThermalInitCpufreq 0 [] [twoLevelProbe]).devs earlierCalls) hotCall) = some cdev' ∧
      (Selected (validEntries cdev.policy.freqTable)
          (askedFreq hotCall.params cdev.policy hotCall.req) cdev'.qosReq.value ∧
        (raisedFreq hotCall.params cdev hotCall.req).toNat =
          askedFreq hotCall.params cdev.policy hotCall.req) := by
  have hdev : deviceOf hotCall.req.cpu (Runs.after callStep
      (miThermalInitCpufreq 0 [] [twoLevelProbe]).devs earlierCalls) =
        some { twoLevelDevice.recorded 1 le_rfl with qosReq := ⟨0, 1000000⟩ } := by decide
  have hafter := deviceOf_cpuLimitsSetLevel_of_enable hotCall.params hotCall.req rfl hdev
  have hearlier : ∀ c ∈ earlierCalls, c.UpdatesSucceed := by decide
  exact ⟨_, _, ⟨hdev, rfl⟩, hafter, selected_value hearlier (by decide) rfl (by decide) (by decide)
    hdev (by decide) (by decide) hafter⟩

/-- With cpu_limits off, and after an update that failed, the hot request leaves the maximum
standing. -/
theorem not_selected_hotCall :
    (∃ cdev', deviceOf 0 (callStep (miThermalInitCpufreq 0 [] [twoLevelProbe]).devs offCall) =
        some cdev' ∧
      ¬ Selected (validEntries twoFrequencies.freqTable)
        (askedFreq offCall.params twoFrequencies offCall.req) cdev'.qosReq.value) ∧
    ∃ cdev', deviceOf 0 (callStep (Runs.after callStep
        (miThermalInitCpufreq 0 [] [twoLevelProbe]).devs [failedHotCall]) hotCall) = some cdev' ∧
      ¬ Selected (validEntries twoFrequencies.freqTable)
        (askedFreq hotCall.params twoFrequencies hotCall.req) cdev'.qosReq.value := by
  have hadmitted : ∃ frequency ∈ validEntries twoFrequencies.freqTable,
      frequency.toNat ≤ 1700000 := by decide
  constructor
  · refine ⟨twoLevelDevice, rfl, fun h => ?_⟩
    exact absurd (h.greatest hadmitted).1.2 (by decide)
  · refine ⟨twoLevelDevice.recorded 1 le_rfl, by decide, fun h => ?_⟩
    exact absurd (h.greatest hadmitted).1.2 (by decide)

end Hot

end XiaomiModules
