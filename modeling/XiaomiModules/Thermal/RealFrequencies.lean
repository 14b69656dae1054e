import XiaomiModules.Thermal.Reachable

/-!
# Real frequencies

A policy whose table repeats a frequency has more valid entries than distinct frequencies, and the
table of its device ends in zeros. The search never passes the first of them, since every request
admits 0; so a call programs 0 exactly when no valid frequency is admitted and the step limiter
does not stop it before, or when the kernel answers `-ENODEV` and the call goes on to the last
level.

## Main definitions

* `CpufreqDevice.Real`: a valid frequency of the policy stands in the request
* `PlacesZero`: the call leaves 0 standing
* `OnlyReal`: no request of the list is left with 0 by the call

## Main results

* `distinctCount_le_levelsAbove_iff`: when the search passes every real frequency
* `real_setDeviceLevel_iff`: a call keeps a real frequency standing exactly when it places no zero
* `real_iff_onlyReal`: over every run
-/

namespace XiaomiModules

/-- A valid frequency of the policy stands in the request. -/
def CpufreqDevice.Real (cdev : CpufreqDevice) : Prop :=
  cdev.qosReq.value ∈ validEntries cdev.policy.freqTable

/-- The table repeats a frequency and the call is not a release; and no valid frequency is at or
below the raised request, the step limiter does not stop before the first zero, the device does not
stand there, and the update succeeds; or the kernel answers `-ENODEV`, and the update to the last
level is made and succeeds. -/
def PlacesZero (params : CpuLimits) (cdev : CpufreqDevice) (req : Request) : Prop :=
  distinctCount cdev.policy.freqTable ≤ cdev.maxLevel ∧ req.maxFreq ≠ 0 ∧
    if Bounced params cdev req then
      limitedLevel params cdev req ≠ cdev.maxLevel ∧ 0 ≤ req.fallbackAnswer
    else
      (∀ frequency ∈ validEntries cdev.policy.freqTable,
          raisedFreq params cdev req < frequency) ∧
        ¬ (Limited params req ∧ stepLimit params cdev < distinctCount cdev.policy.freqTable) ∧
        cdev.cpufreqState ≠ distinctCount cdev.policy.freqTable ∧ 0 ≤ req.answer

/-! ## Levels -/

section Device

variable {params : CpuLimits} {cdev : CpufreqDevice} {req : Request} {level : ℕ} {answer : ℤ}

/-- The search passes every real frequency exactly when the raised request admits none. -/
theorem distinctCount_le_levelsAbove_iff (hbuilt : cdev.Built)
    (hzero : 0 ∉ validEntries cdev.policy.freqTable) :
    distinctCount cdev.policy.freqTable ≤ levelsAbove params cdev req ↔
      ∀ frequency ∈ validEntries cdev.policy.freqTable,
        raisedFreq params cdev req < frequency := by
  have hcount : distinctCount cdev.policy.freqTable ≤ cdev.maxLevel + 1 := by
    rw [← hbuilt.countValidEntries_eq]
    exact distinctCount_le _
  constructor
  · intro hle frequency hmem
    -- the frequency is that of a level among the real ones
    obtain ⟨level, h, rfl⟩ := mem_freqTable_iff.mp (hbuilt.mem_freqTable hzero hmem)
    rw [hbuilt.frequency_mem_validEntries_iff hzero] at hmem
    rw [raisedFreq_lt_frequency_iff]
    exact hmem.trans_le hle
  · intro habove
    by_contra hlt
    -- the entry the search stops at would be a real frequency that is admitted
    have hlt' := not_le.mp hlt
    have h : levelsAbove params cdev req ≤ cdev.maxLevel :=
      Nat.le_of_lt_succ (hlt'.trans_le hcount)
    have hreal := (hbuilt.frequency_mem_validEntries_iff hzero h).mpr hlt'
    exact lt_irrefl _ ((raisedFreq_lt_frequency_iff h).mp (habove _ hreal))

/-- With zeros in the table the search stops at the first of them at the latest. -/
theorem levelsAbove_le_distinctCount (hbuilt : cdev.Built)
    (hrepeat : distinctCount cdev.policy.freqTable ≤ cdev.maxLevel) :
    levelsAbove params cdev req ≤ distinctCount cdev.policy.freqTable := by
  rw [← not_lt, ← raisedFreq_lt_frequency_iff hrepeat]
  intro hlt
  -- the entry there is 0, which is above nothing
  have hfreq : cdev.frequency _ hrepeat = 0 := by
    by_contra hne
    exact lt_irrefl _ ((hbuilt.frequency_ne_zero_iff hrepeat).mp hne)
  rw [hfreq] at hlt
  exact absurd hlt (Nat.not_lt_zero _)

/-- The level after the step limiter is a real one, unless the raised request admits no valid
frequency and the limiter does not stop before the first zero. -/
theorem limitedLevel_lt_distinctCount_iff (hbuilt : cdev.Built)
    (hzero : 0 ∉ validEntries cdev.policy.freqTable)
    (hrepeat : distinctCount cdev.policy.freqTable ≤ cdev.maxLevel) :
    limitedLevel params cdev req < distinctCount cdev.policy.freqTable ↔
      ¬ ((∀ frequency ∈ validEntries cdev.policy.freqTable,
          raisedFreq params cdev req < frequency) ∧
        ¬ (Limited params req ∧
          stepLimit params cdev < distinctCount cdev.policy.freqTable)) := by
  have habove : levelsAbove params cdev req ≤ distinctCount cdev.policy.freqTable :=
    levelsAbove_le_distinctCount hbuilt hrepeat
  rw [← distinctCount_le_levelsAbove_iff hbuilt hzero, not_and_or, not_le, not_not, limitedLevel]
  split_ifs with hlim
  · rw [min_lt_iff, and_iff_right hlim]
  · rw [or_iff_left fun h => hlim h.1]

/-- Moving a device keeps a real frequency standing, unless an update to a zero succeeds. -/
theorem real_cpufreqSetLevel_iff (hbuilt : cdev.Built)
    (hzero : 0 ∉ validEntries cdev.policy.freqTable) (hreal : cdev.Real)
    (hle : level ≤ cdev.maxLevel) :
    (cpufreqSetLevel cdev level answer).state.Real ↔
      cdev.cpufreqState = level ∨ answer < 0 ∨ level < distinctCount cdev.policy.freqTable := by
  by_cases hstay : cdev.cpufreqState = level
  · rw [cpufreqSetLevel_of_eq hstay]
    exact iff_of_true hreal (Or.inl hstay)
  rw [or_iff_right hstay]
  by_cases hanswer : answer < 0
  · rw [cpufreqSetLevel_of_neg hle hstay hanswer]
    exact iff_of_true hreal (Or.inl hanswer)
  · rw [or_iff_right hanswer, ← hbuilt.frequency_mem_validEntries_iff hzero hle,
      CpufreqDevice.Real, value_cpufreqSetLevel hle hstay (not_lt.mp hanswer),
      (cpufreqSetLevel_frame cdev level answer).2.2.1]

/-- Going on to the last level keeps a real frequency standing, unless the device is not there yet
and the update to a zero succeeds. -/
theorem real_setDeviceLevel_bounced_iff (hbuilt : cdev.Built)
    (hzero : 0 ∉ validEntries cdev.policy.freqTable) (hreal : cdev.Real)
    (hbounced : Bounced params cdev req) :
    (setDeviceLevel params cdev req).state.Real ↔
      chosenLevel params cdev req = cdev.maxLevel ∨ req.fallbackAnswer < 0 ∨
        cdev.maxLevel < distinctCount cdev.policy.freqTable := by
  have hle := chosenLevel_le params cdev req
  have hbuilt' : (cdev.recorded _ hle).Built := hbuilt
  have hmax : cdev.maxLevel ≤ (cdev.recorded _ hle).maxLevel := le_rfl
  rw [(setDeviceLevel_of_bounced_eq hbounced hle).2,
    real_cpufreqSetLevel_iff hbuilt' hzero hreal hmax]
  rfl

/-- Without zeros in the table every call keeps a real frequency standing. -/
theorem real_setDeviceLevel (hbuilt : cdev.Built)
    (hzero : 0 ∉ validEntries cdev.policy.freqTable) (hreal : cdev.Real)
    (hall : cdev.maxLevel < distinctCount cdev.policy.freqTable) :
    (setDeviceLevel params cdev req).state.Real := by
  have hle := chosenLevel_le params cdev req
  by_cases hbounced : Bounced params cdev req
  · exact (real_setDeviceLevel_bounced_iff hbuilt hzero hreal hbounced).mpr
      (Or.inr (Or.inr hall))
  · rw [setDeviceLevel_of_not_bounced hbounced]
    exact (real_cpufreqSetLevel_iff hbuilt hzero hreal hle).mpr
      (Or.inr (Or.inr (hle.trans_lt hall)))

/-- **One device**: a call keeps a real frequency standing exactly when it places no zero. -/
theorem real_setDeviceLevel_iff (hbuilt : cdev.Built)
    (hzero : 0 ∉ validEntries cdev.policy.freqTable) (hreal : cdev.Real) :
    (setDeviceLevel params cdev req).state.Real ↔ ¬ PlacesZero params cdev req := by
  have hle := chosenLevel_le params cdev req
  -- where every entry is distinct the table has no zero at its end
  by_cases hrepeat : distinctCount cdev.policy.freqTable ≤ cdev.maxLevel
  swap
  · exact iff_of_true (real_setDeviceLevel hbuilt hzero hreal (not_le.mp hrepeat))
      fun h => hrepeat h.1
  have habove : levelsAbove params cdev req ≤ distinctCount cdev.policy.freqTable :=
    levelsAbove_le_distinctCount hbuilt hrepeat
  have hfound := habove.trans hrepeat
  by_cases hmax : req.maxFreq = 0
  · -- a release moves to the first level, whose frequency is real
    rw [setDeviceLevel_of_release hmax, real_cpufreqSetLevel_iff hbuilt hzero hreal (Nat.zero_le _)]
    exact iff_of_true (Or.inr (Or.inr (distinctCount_pos hzero hreal))) fun h => h.2.1 hmax
  have hlevel := chosenLevel_of_found hmax hfound
  rw [PlacesZero, and_iff_right hrepeat, and_iff_right hmax]
  by_cases hbounced : Bounced params cdev req
  · -- the call goes on to the last level, which is a zero
    rw [if_pos hbounced, real_setDeviceLevel_bounced_iff hbuilt hzero hreal hbounced,
      or_iff_left hrepeat.not_gt, not_and_or, not_not, not_le, hlevel]
  · have hanswer : chosenAnswer params cdev req = req.answer :=
      if_neg fun h => h.2.not_ge hfound
    rw [if_neg hbounced, setDeviceLevel_of_not_bounced hbounced,
      real_cpufreqSetLevel_iff hbuilt hzero hreal hle, hanswer, hlevel, ← and_assoc, not_and_or,
      ← limitedLevel_lt_distinctCount_iff hbuilt hzero hrepeat, not_and_or, not_not, not_le]
    by_cases hlt : limitedLevel params cdev req < distinctCount cdev.policy.freqTable
    · exact iff_of_true (Or.inr (Or.inr hlt)) (Or.inl hlt)
    · -- a level that is not real is that of the first zero
      have heq : limitedLevel params cdev req = distinctCount cdev.policy.freqTable :=
        le_antisymm ((limitedLevel_le _ _ _).trans habove) (not_lt.mp hlt)
      rw [heq, or_iff_left (lt_irrefl _), or_iff_right (lt_irrefl _)]

end Device

/-! ## Runs -/

/-- The call leaves no request of the list with 0. -/
def OnlyReal (devs : List CpufreqDevice) (c : Call) : Prop :=
  c.params.enable = true → ∀ cdev, deviceOf c.req.cpu devs = some cdev →
    ¬ PlacesZero c.params cdev c.req

/-- Every device has the table filled from its policy, none of whose valid frequencies is 0, and a
valid frequency standing in its request. -/
def AllReal (devs : List CpufreqDevice) : Prop :=
  ∀ cdev ∈ devs, cdev.Built ∧ 0 ∉ validEntries cdev.policy.freqTable ∧ cdev.Real

/-- **One call**: from devices with real frequencies standing, a call leaves real frequencies
standing exactly when it places no zero. -/
theorem real_callStep_iff {devs : List CpufreqDevice} (h : AllReal devs) (c : Call) :
    (∀ cdev ∈ callStep devs c, cdev.Real) ↔ OnlyReal devs c := by
  rcases callStep_cases devs c with ⟨hstay, hstep⟩ | ⟨cdev, pre, post, henable, hdev, hdevs, hstep⟩
  · rw [hstep]
    refine iff_of_true (fun cdev hmem => (h cdev hmem).2.2) fun henable cdev hdev => ?_
    rcases hstay with hoff | hnone
    · exact absurd henable (Bool.eq_false_iff.mp hoff)
    · exact absurd (hnone.symm.trans hdev) (Option.some_ne_none cdev).symm
  · obtain ⟨hbuilt, hzero, hreal⟩ := h cdev (mem_of_deviceOf hdev)
    have hbody : (setDeviceLevel c.params cdev c.req).state.Real ↔ OnlyReal devs c := by
      rw [real_setDeviceLevel_iff hbuilt hzero hreal]
      constructor
      · intro hnot _ other hother
        obtain rfl := Option.some.inj (hdev.symm.trans hother)
        exact hnot
      · exact fun honly => honly henable cdev hdev
    rw [← hbody]
    constructor
    · intro hall
      exact hall _ (by simp [hstep])
    · intro hbody'
      refine forall_mem_callStep (fun other hmem => (h other hmem).2.2) ?_
      intro other _ hother
      obtain rfl := Option.some.inj (hdev.symm.trans hother)
      exact hbody'

/-- A call that leaves real frequencies standing keeps the rest as well. -/
theorem AllReal.callStep {devs : List CpufreqDevice} (h : AllReal devs) {c : Call}
    (hreal : ∀ cdev ∈ callStep devs c, cdev.Real) : AllReal (callStep devs c) := by
  have hrest : ∀ cdev ∈ XiaomiModules.callStep devs c,
      cdev.Built ∧ 0 ∉ validEntries cdev.policy.freqTable := by
    refine forall_mem_callStep (fun cdev hmem => ⟨(h cdev hmem).1, (h cdev hmem).2.1⟩) ?_
    intro cdev _ hdev
    obtain ⟨hbuilt, hzero, -⟩ := h cdev (mem_of_deviceOf hdev)
    refine ⟨hbuilt.setDeviceLevel c.params c.req, ?_⟩
    rw [(setDeviceLevel_frame c.params cdev c.req).2.2.1]
    exact hzero
  intro cdev hmem
  exact ⟨(hrest cdev hmem).1, (hrest cdev hmem).2, hreal cdev hmem⟩

/-- A fresh device has the greatest valid frequency of its policy standing. -/
theorem CpufreqDevice.Fresh.real {cdev : CpufreqDevice} (h : cdev.Fresh)
    (hzero : 0 ∉ validEntries cdev.policy.freqTable) : cdev.Real := by
  have hvalue : cdev.qosReq.value = cdev.cap := h.synced
  rw [Real, hvalue, cap, h.built.frequency_mem_validEntries_iff hzero, h.cpufreqState_eq]
  obtain ⟨frequency, hmem⟩ : ∃ frequency, frequency ∈ validEntries cdev.policy.freqTable := by
    apply List.exists_mem_of_length_pos
    show 0 < countValidEntries _
    rw [h.built.countValidEntries_eq]
    exact Nat.succ_pos _
  exact distinctCount_pos hzero hmem

/-- **Only real frequencies, exactly**: where no policy has a valid frequency 0, through every run
of calls after an initialisation every value ever left standing in a request is a valid frequency of
its policy if and only if no call of the run places a zero. -/
theorem real_iff_onlyReal {probes : List CpuProbe}
    (hzero : ∀ probe ∈ probes, ∀ policy, probe.policy = some policy →
      0 ∉ validEntries policy.freqTable) (calls : List Call) :
    (∀ pre, pre <+: calls →
        ∀ cdev ∈ Runs.after callStep (miThermalInitCpufreq 0 [] probes).devs pre,
          cdev.qosReq.value ∈ validEntries cdev.policy.freqTable) ↔
      Runs.Along callStep OnlyReal (miThermalInitCpufreq 0 [] probes).devs calls := by
  have hstart : AllReal (miThermalInitCpufreq 0 [] probes).devs := by
    intro cdev hmem
    obtain ⟨hfresh, probe, hprobe, hpolicy⟩ :=
      (mem_miThermalInitCpufreq hmem).resolve_left List.not_mem_nil
    have hzero' := hzero probe hprobe cdev.policy hpolicy
    exact ⟨hfresh.built, hzero', hfresh.real hzero'⟩
  refine (Runs.forall_prefix_iff
    (I := fun devs : List CpufreqDevice => ∀ cdev ∈ devs, cdev.Real)).trans ?_
  refine (and_iff_right fun cdev hmem => (hstart cdev hmem).2.2).trans ?_
  refine Runs.along_iff_along (I := AllReal) ?_ (fun devs c h => real_callStep_iff h c) hstart calls
  intro devs c h honly
  exact h.callStep ((real_callStep_iff h c).mpr honly)

section Repeated

/-- A CPU whose policy lists its one frequency twice. -/
def repeatedProbe : CpuProbe := ⟨0, some ⟨0, [0], [1000000, 1000000], by decide⟩, true, true, 1⟩

/-- A hot request for half of that frequency, whose updates succeed. -/
def halfCall : Call := ⟨{ }, 0, 500000, 50, 0, 0⟩

/-- The result for the request on the repeated frequency. -/
theorem real_iff_onlyReal_halfCall :
    (∀ pre, pre <+: [halfCall] →
        ∀ cdev ∈ Runs.after callStep (miThermalInitCpufreq 0 [] [repeatedProbe]).devs pre,
          cdev.qosReq.value ∈ validEntries cdev.policy.freqTable) ↔
      Runs.Along callStep OnlyReal (miThermalInitCpufreq 0 [] [repeatedProbe]).devs [halfCall] := by
  refine real_iff_onlyReal ?_ [halfCall]
  intro probe hprobe policy hpolicy
  obtain rfl := List.mem_singleton.mp hprobe
  obtain rfl := Option.some.inj hpolicy
  decide

/-- The request is moved to the second level, and a maximum of 0 is programmed. -/
theorem not_real_halfCall :
    let devs := callStep (miThermalInitCpufreq 0 [] [repeatedProbe]).devs halfCall
    0 ∉ validEntries [1000000, 1000000] ∧ 0 < countValidEntries [1000000, 1000000] ∧
      devs.map (·.qosReq.value) = [0] := by
  decide

end Repeated

end XiaomiModules
