import XiaomiModules.Thermal.CpuLimits

/-!
# The level a request selects

The search stops at the number of table entries above the raised request, since the table never
rises; the step limiter takes the smaller of that and its own bound. Where the whole table lies
above the raised request the search finds nothing and the last level is taken. A call moves the
first device that covers the CPU to that level and changes nothing else.

## Main definitions

* `CpufreqDevice.cap`: the frequency of the current level
* `levelsAbove`: how many table entries exceed the raised request
* `limitedLevel`, `chosenLevel`: the level after the step limiter, and the level a call moves to
* `StepCut`: the step limiter replaces the level found
* `Bounced`: the kernel answers `-ENODEV` to the update to a level the search found
* `deviceOf`: the device a CPU is served by

## Main results

* `searchLevel_eq`: what the search finds
* `chosenLevel_of_cut`, `chosenLevel_of_not_cut`: the chosen level where the step limiter cuts in,
  and where it does not
* `setDeviceLevel_of_not_bounced`, `setDeviceLevel_of_bounced`: a call moves the device to the
  chosen level, and on to the last one where the kernel answers `-ENODEV` to that
* `setListLevel_append`, `deviceOf_cpuLimitsSetLevel`: the walk changes the first match only
-/

namespace XiaomiModules

/-! ## Caps -/

/-- The frequency of the current level. -/
def CpufreqDevice.cap (cdev : CpufreqDevice) : UInt32 :=
  cdev.frequency cdev.cpufreqState cdev.cpufreqState_le

/-- The value standing in the request is the frequency of the current level. -/
def CpufreqDevice.Synced (cdev : CpufreqDevice) : Prop := cdev.qosReq.value = cdev.cap

instance (cdev : CpufreqDevice) : Decidable cdev.Synced := inferInstanceAs (Decidable (_ = _))

/-- The frequencies of the levels are the entries of the table. -/
theorem mem_freqTable_iff {cdev : CpufreqDevice} {frequency : UInt32} :
    frequency ∈ cdev.freqTable ↔ ∃ level h, cdev.frequency level h = frequency := by
  rw [List.mem_iff_getElem]
  constructor
  · rintro ⟨level, h, rfl⟩
    exact ⟨level, Nat.le_of_lt_succ (h.trans_eq cdev.length_freqTable), rfl⟩
  · rintro ⟨level, h, rfl⟩
    exact ⟨level, (Nat.lt_succ_of_le h).trans_eq cdev.length_freqTable.symm, rfl⟩

/-- A higher level is no higher a frequency. -/
theorem frequency_anti {cdev : CpufreqDevice} {level level' : ℕ} (hle : level ≤ level')
    (h : level' ≤ cdev.maxLevel) : cdev.frequency level' h ≤ cdev.frequency level (hle.trans h) :=
  Descending.getElem_anti cdev.nonIncreasing_freqTable hle _

/-- The cap of a device with the same table. -/
theorem cap_eq_frequency {cdev cdev' : CpufreqDevice} (htable : cdev'.freqTable = cdev.freqTable)
    {level : ℕ} (hlevel : cdev'.cpufreqState = level) (hle : level ≤ cdev.maxLevel) :
    cdev'.cap = cdev.frequency level hle := by
  simp only [CpufreqDevice.cap, CpufreqDevice.frequency, htable, hlevel]

/-- A level at least as high of the same table has a cap at most as high. -/
theorem cap_anti {cdev₁ cdev₂ : CpufreqDevice} (htable : cdev₁.freqTable = cdev₂.freqTable)
    (hlevel : cdev₂.cpufreqState ≤ cdev₁.cpufreqState) : cdev₁.cap ≤ cdev₂.cap := by
  -- the last level is read off the length of the table
  have hlast : cdev₁.maxLevel = cdev₂.maxLevel := by
    have hlen := congrArg List.length htable
    rw [cdev₁.length_freqTable, cdev₂.length_freqTable] at hlen
    exact Nat.succ.inj hlen
  have hle : cdev₁.cpufreqState ≤ cdev₂.maxLevel := hlast ▸ cdev₁.cpufreqState_le
  rw [cap_eq_frequency htable rfl hle]
  exact frequency_anti hlevel hle

/-! ## Moving a device -/

section Move

variable {cdev : CpufreqDevice} {level : ℕ} {answer : ℤ}

/-- A device at the level stays as it is. -/
theorem cpufreqSetLevel_of_eq (h : cdev.cpufreqState = level) :
    cpufreqSetLevel cdev level answer = ⟨0, cdev, []⟩ := by
  have hle : ¬ level > cdev.maxLevel := not_lt.mpr (h ▸ cdev.cpufreqState_le)
  rw [cpufreqSetLevel, dif_neg hle, if_pos h]

/-- A device at another level is moved, and its request is updated with the new frequency. -/
theorem cpufreqSetLevel_of_ne (hle : level ≤ cdev.maxLevel) (h : cdev.cpufreqState ≠ level) :
    cpufreqSetLevel cdev level answer =
      ⟨answer,
        { cdev with
          cpufreqState := level
          cpufreqState_le := hle
          qosReq := (freqQosUpdateRequest cdev.qosReq (cdev.frequency level hle) answer).2 },
        [cdev.frequency level hle]⟩ := by
  rw [cpufreqSetLevel, dif_neg (not_lt.mpr hle), if_neg h]
  rfl

/-- Moving a device changes its level and the value of its request only. -/
theorem cpufreqSetLevel_frame (cdev : CpufreqDevice) (level : ℕ) (answer : ℤ) :
    (cpufreqSetLevel cdev level answer).state.freqTable = cdev.freqTable ∧
      (cpufreqSetLevel cdev level answer).state.maxLevel = cdev.maxLevel ∧
      (cpufreqSetLevel cdev level answer).state.policy = cdev.policy ∧
      (cpufreqSetLevel cdev level answer).state.qosReq.cpu = cdev.qosReq.cpu := by
  unfold cpufreqSetLevel
  split_ifs
  · exact ⟨rfl, rfl, rfl, rfl⟩
  · exact ⟨rfl, rfl, rfl, rfl⟩
  · refine ⟨rfl, rfl, rfl, ?_⟩
    show (freqQosUpdateRequest _ _ _).2.cpu = _
    unfold freqQosUpdateRequest
    split_ifs <;> rfl

theorem cpufreqState_cpufreqSetLevel (hle : level ≤ cdev.maxLevel) :
    (cpufreqSetLevel cdev level answer).state.cpufreqState = level := by
  by_cases h : cdev.cpufreqState = level
  · rw [cpufreqSetLevel_of_eq h, h]
  · rw [cpufreqSetLevel_of_ne hle h]

/-- A successful update leaves the new frequency standing. -/
theorem value_cpufreqSetLevel (hle : level ≤ cdev.maxLevel) (h : cdev.cpufreqState ≠ level)
    (hanswer : 0 ≤ answer) :
    (cpufreqSetLevel cdev level answer).state.qosReq.value = cdev.frequency level hle := by
  rw [cpufreqSetLevel_of_ne hle h]
  simp [freqQosUpdateRequest, hanswer.not_gt]

/-- A successful move leaves the cap of the new level standing. -/
theorem synced_cpufreqSetLevel (hle : level ≤ cdev.maxLevel) (hsync : cdev.Synced)
    (hanswer : 0 ≤ answer) : (cpufreqSetLevel cdev level answer).state.Synced := by
  by_cases h : cdev.cpufreqState = level
  · rw [cpufreqSetLevel_of_eq h]
    exact hsync
  · rw [CpufreqDevice.Synced, value_cpufreqSetLevel hle h hanswer, cpufreqSetLevel_of_ne hle h]
    rfl

end Move

/-! ## The search -/

section Search

variable (params : CpuLimits) (cdev : CpufreqDevice) (req : Request)

theorem raisedFreq_eq_max :
    raisedFreq params cdev req = max req.maxFreq (floorFreq params cdev req) := by
  rw [raisedFreq, max_def]
  split_ifs with hlt hle hle
  · rfl
  · exact absurd hlt.le hle
  · exact le_antisymm hle (not_lt.mp hlt)
  · rfl

/-- The floor is the percentage of the greatest frequency, rounded down. -/
theorem toNat_floorFreq :
    (floorFreq params cdev req).toNat =
      cdev.maxFrequency.toNat *
        min (cpuLimitsEffectiveFloorPct params req.deviceTemp).toNat 100 / 100 := by
  rw [floorFreq, multFrac_toNat _ (min_le_right _ _), Word.toNat_min]
  rfl

/-- How many table entries exceed the raised request. -/
def levelsAbove : ℕ := Descending.above (raisedFreq params cdev req) cdev.freqTable

/-- The level after the step limiter. -/
def limitedLevel : ℕ :=
  if Limited params req then min (levelsAbove params cdev req) (stepLimit params cdev)
  else levelsAbove params cdev req

/-- The level a call moves the device to. -/
def chosenLevel : ℕ :=
  if req.maxFreq = 0 then 0
  else if levelsAbove params cdev req ≤ cdev.maxLevel then limitedLevel params cdev req
  else cdev.maxLevel

/-- The step limiter replaces the level the search found. -/
def StepCut : Prop :=
  Limited params req ∧ stepLimit params cdev < levelsAbove params cdev req ∧
    levelsAbove params cdev req ≤ cdev.maxLevel

instance : Decidable (StepCut params cdev req) := inferInstanceAs (Decidable (_ ∧ _))

/-- The kernel's answer to the update to the chosen level. -/
def chosenAnswer : ℤ :=
  if req.maxFreq ≠ 0 ∧ cdev.maxLevel < levelsAbove params cdev req then req.fallbackAnswer
  else req.answer

theorem limitedLevel_le : limitedLevel params cdev req ≤ levelsAbove params cdev req := by
  unfold limitedLevel
  split_ifs
  · exact min_le_left _ _
  · exact le_rfl

theorem chosenLevel_le : chosenLevel params cdev req ≤ cdev.maxLevel := by
  unfold chosenLevel
  split_ifs with h0 hfound
  · exact Nat.zero_le _
  · exact (limitedLevel_le params cdev req).trans hfound
  · exact le_rfl

/-- Some entry is at or below the raised request exactly when not all levels are above it. -/
theorem exists_le_raisedFreq_iff :
    (∃ frequency ∈ cdev.freqTable, frequency ≤ raisedFreq params cdev req) ↔
      levelsAbove params cdev req ≤ cdev.maxLevel := by
  rw [Descending.exists_mem_le_iff cdev.nonIncreasing_freqTable, cdev.length_freqTable,
    Nat.lt_succ_iff]
  rfl

/-- **What the search finds**: the first level at or below the raised request, after the step
limiter. -/
theorem searchLevel_eq :
    searchLevel params cdev req =
      if levelsAbove params cdev req ≤ cdev.maxLevel then some (limitedLevel params cdev req)
      else none := by
  have hsearch : cdev.freqTable.findIdx? (· ≤ raisedFreq params cdev req) =
      if levelsAbove params cdev req ≤ cdev.maxLevel then some (levelsAbove params cdev req)
      else none := by
    rw [Descending.findIdx?_le cdev.nonIncreasing_freqTable, cdev.length_freqTable]
    exact if_congr Nat.lt_succ_iff rfl rfl
  rw [searchLevel, hsearch]
  split_ifs with hfound
  · -- the limiter takes the smaller of the level found and its own bound
    rw [Option.map_some, limitedLevel]
    refine congrArg some ?_
    by_cases hlim : Limited params req
    · by_cases hcut : levelsAbove params cdev req > stepLimit params cdev
      · rw [if_pos ⟨hlim, hcut⟩, if_pos hlim, min_eq_right hcut.le]
      · rw [if_neg fun h => hcut h.2, if_pos hlim, min_eq_left (not_lt.mp hcut)]
    · rw [if_neg fun h => hlim h.1, if_neg hlim]
  · rfl

variable {params cdev req}

/-- A level's frequency exceeds the raised request exactly when the search passes it. -/
theorem raisedFreq_lt_frequency_iff {level : ℕ} (h : level ≤ cdev.maxLevel) :
    raisedFreq params cdev req < cdev.frequency level h ↔ level < levelsAbove params cdev req :=
  Descending.lt_getElem_iff cdev.nonIncreasing_freqTable _

/-- The whole table lies above the raised request exactly when every level does. -/
theorem forall_raisedFreq_lt_iff :
    (∀ frequency ∈ cdev.freqTable, raisedFreq params cdev req < frequency) ↔
      cdev.maxLevel < levelsAbove params cdev req := by
  rw [← not_le, ← exists_le_raisedFreq_iff]
  push Not
  rfl

/-- The bound of the step limiter is never the current level. -/
theorem cpufreqState_ne_stepLimit (hstep : params.maxStep ≠ 0) :
    cdev.cpufreqState ≠ stepLimit params cdev := by
  have hpos : params.maxStep.toNat ≠ 0 := fun hzero => hstep (UInt32.toNat_inj.mp hzero)
  have hstate := cdev.cpufreqState_le.trans_lt cdev.maxLevel_lt
  have hword := params.maxStep.toNat_lt
  -- a step of less than a full turn of 32 bits never comes back to the same level
  unfold stepLimit
  omega

/-- The level after the step limiter is the current one exactly when the search stops there and
the limiter does not cut in. -/
theorem eq_limitedLevel_iff (hfound : levelsAbove params cdev req ≤ cdev.maxLevel) :
    cdev.cpufreqState = limitedLevel params cdev req ↔
      cdev.cpufreqState = levelsAbove params cdev req ∧ ¬ StepCut params cdev req := by
  by_cases hcut : StepCut params cdev req
  · -- a limiter that cuts in always moves the device
    rw [limitedLevel, if_pos hcut.1, min_eq_right hcut.2.1.le]
    exact iff_of_false (cpufreqState_ne_stepLimit hcut.1.1) fun h => h.2 hcut
  · have hlevel : limitedLevel params cdev req = levelsAbove params cdev req := by
      unfold limitedLevel
      split_ifs with hlim
      · exact min_eq_left (not_lt.mp fun hlt => hcut ⟨hlim, hlt, hfound⟩)
      · rfl
    rw [hlevel, and_iff_left hcut]

/-- Where the step limiter cuts in, its bound is the chosen level. -/
theorem chosenLevel_of_cut (hmax : req.maxFreq ≠ 0) (hcut : StepCut params cdev req) :
    chosenLevel params cdev req = stepLimit params cdev := by
  obtain ⟨hlim, hlt, hfound⟩ := hcut
  rw [chosenLevel, if_neg hmax, if_pos hfound, limitedLevel, if_pos hlim, min_eq_right hlt.le]

/-- Elsewhere the chosen level is the one found, or the last. -/
theorem chosenLevel_of_not_cut (hmax : req.maxFreq ≠ 0) (hcut : ¬ StepCut params cdev req) :
    chosenLevel params cdev req = min (levelsAbove params cdev req) cdev.maxLevel := by
  rw [chosenLevel, if_neg hmax]
  split_ifs with hfound
  · rw [min_eq_left hfound, limitedLevel]
    split_ifs with hlim
    · exact min_eq_left (not_lt.mp fun hlt => hcut ⟨hlim, hlt, hfound⟩)
    · rfl
  · exact (min_eq_right (not_le.mp hfound).le).symm

/-! ## What a call does to the device -/

/-- A release moves the device to level 0. -/
theorem setDeviceLevel_of_release (h : req.maxFreq = 0) :
    setDeviceLevel params cdev req = cpufreqSetLevel cdev 0 req.answer := by
  rw [setDeviceLevel, if_pos h]

/-- Where the whole table lies above the raised request, the fallback level is taken. -/
theorem setDeviceLevel_of_not_found (h : req.maxFreq ≠ 0)
    (hnot : cdev.maxLevel < levelsAbove params cdev req) :
    setDeviceLevel params cdev req = cpufreqSetLevel cdev cdev.maxLevel req.fallbackAnswer := by
  rw [setDeviceLevel, if_neg h, searchLevel_eq, if_neg (not_le.mpr hnot)]
  rfl

/-- The kernel answers `-ENODEV` to the update to a level the search found, which the call takes
for a search that found nothing. -/
def Bounced (params : CpuLimits) (cdev : CpufreqDevice) (req : Request) : Prop :=
  req.maxFreq ≠ 0 ∧ levelsAbove params cdev req ≤ cdev.maxLevel ∧
    cdev.cpufreqState ≠ limitedLevel params cdev req ∧ req.answer = -ENODEV

instance (params : CpuLimits) (cdev : CpufreqDevice) (req : Request) :
    Decidable (Bounced params cdev req) := inferInstanceAs (Decidable (_ ∧ _))

theorem not_bounced (h : req.answer ≠ -ENODEV) : ¬ Bounced params cdev req :=
  fun hbounced => h hbounced.2.2.2

/-- The chosen level where the search finds one. -/
theorem chosenLevel_of_found (h : req.maxFreq ≠ 0)
    (hfound : levelsAbove params cdev req ≤ cdev.maxLevel) :
    chosenLevel params cdev req = limitedLevel params cdev req := by
  rw [chosenLevel, if_neg h, if_pos hfound]

/-- What a call does where the search finds a level. -/
theorem setDeviceLevel_of_found (h : req.maxFreq ≠ 0)
    (hfound : levelsAbove params cdev req ≤ cdev.maxLevel) :
    let moved := cpufreqSetLevel cdev (limitedLevel params cdev req) req.answer
    let fallback := cpufreqSetLevel moved.state moved.state.maxLevel req.fallbackAnswer
    setDeviceLevel params cdev req =
      if Bounced params cdev req then
        { fallback with attempts := moved.attempts ++ fallback.attempts }
      else moved := by
  intro moved fallback
  have hle := (limitedLevel_le params cdev req).trans hfound
  -- the call tells a bounce from a search that found nothing by the return value alone
  have hret : moved.ret = -ENODEV ↔ Bounced params cdev req := by
    show (cpufreqSetLevel _ _ _).ret = _ ↔ _
    by_cases heq : cdev.cpufreqState = limitedLevel params cdev req
    · rw [cpufreqSetLevel_of_eq heq]
      exact iff_of_false (neg_errno_lt_zero ENODEV).ne'
        fun hbounced => hbounced.2.2.1 heq
    · rw [cpufreqSetLevel_of_ne hle heq]
      exact ⟨fun hanswer => ⟨h, hfound, heq, hanswer⟩, fun hbounced => hbounced.2.2.2⟩
  rw [setDeviceLevel, if_neg h, searchLevel_eq, if_pos hfound]
  exact if_congr hret rfl rfl

/-- **The chosen level**: unless the kernel bounces the update, a call moves the device to the
chosen level. -/
theorem setDeviceLevel_of_not_bounced (hbounced : ¬ Bounced params cdev req) :
    setDeviceLevel params cdev req =
      cpufreqSetLevel cdev (chosenLevel params cdev req) (chosenAnswer params cdev req) := by
  -- a release, a level found, or the fallback
  by_cases h : req.maxFreq = 0
  · rw [setDeviceLevel_of_release h, chosenLevel, if_pos h, chosenAnswer,
      if_neg fun hnot => hnot.1 h]
  by_cases hfound : levelsAbove params cdev req ≤ cdev.maxLevel
  · rw [setDeviceLevel_of_found h hfound, if_neg hbounced, chosenLevel_of_found h hfound,
      chosenAnswer, if_neg fun hnot => hnot.2.not_ge hfound]
  · have hnot := not_le.mp hfound
    rw [setDeviceLevel_of_not_found h hnot, chosenLevel, if_neg h, if_neg hfound, chosenAnswer,
      if_pos ⟨h, hnot⟩]

/-- After a bounce the device is moved on to the fallback level. -/
theorem setDeviceLevel_of_bounced (hbounced : Bounced params cdev req) :
    let moved := cpufreqSetLevel cdev (chosenLevel params cdev req) (-ENODEV)
    let fallback := cpufreqSetLevel moved.state moved.state.maxLevel req.fallbackAnswer
    setDeviceLevel params cdev req =
      { fallback with attempts := moved.attempts ++ fallback.attempts } := by
  obtain ⟨h, hfound, -, hanswer⟩ := id hbounced
  rw [setDeviceLevel_of_found h hfound, if_pos hbounced, chosenLevel_of_found h hfound, hanswer]

theorem chosenAnswer_nonneg (hanswer : 0 ≤ req.answer) (hfallback : 0 ≤ req.fallbackAnswer) :
    0 ≤ chosenAnswer params cdev req := by
  unfold chosenAnswer
  split_ifs
  · exact hfallback
  · exact hanswer

theorem ne_ENODEV_of_nonneg {answer : ℤ} (h : 0 ≤ answer) : answer ≠ -ENODEV :=
  (lt_of_lt_of_le (by decide) h).ne'

/-- A call whose updates succeed leaves the cap of the new level standing. -/
theorem synced_setDeviceLevel (hsync : cdev.Synced) (hanswer : 0 ≤ req.answer)
    (hfallback : 0 ≤ req.fallbackAnswer) : (setDeviceLevel params cdev req).state.Synced := by
  rw [setDeviceLevel_of_not_bounced (not_bounced (ne_ENODEV_of_nonneg hanswer))]
  exact synced_cpufreqSetLevel (chosenLevel_le _ _ _) hsync (chosenAnswer_nonneg hanswer hfallback)

/-- The cap after a call is the frequency of the chosen level. -/
theorem cap_setDeviceLevel (h : req.answer ≠ -ENODEV) :
    (setDeviceLevel params cdev req).state.cap =
      cdev.frequency (chosenLevel params cdev req) (chosenLevel_le _ _ _) := by
  rw [setDeviceLevel_of_not_bounced (not_bounced h)]
  exact cap_eq_frequency (cpufreqSetLevel_frame _ _ _).1
    (cpufreqState_cpufreqSetLevel (chosenLevel_le _ _ _)) _

/-- The level after a call, whatever the kernel answers. -/
theorem cpufreqState_setDeviceLevel (params : CpuLimits) (cdev : CpufreqDevice) (req : Request) :
    (setDeviceLevel params cdev req).state.cpufreqState =
      if Bounced params cdev req then cdev.maxLevel else chosenLevel params cdev req := by
  split_ifs with hbounced
  · rw [setDeviceLevel_of_bounced hbounced]
    exact (cpufreqState_cpufreqSetLevel le_rfl).trans (cpufreqSetLevel_frame _ _ _).2.1
  · rw [setDeviceLevel_of_not_bounced hbounced]
    exact cpufreqState_cpufreqSetLevel (chosenLevel_le _ _ _)

/-- A call changes the level and the value of the request only. -/
theorem setDeviceLevel_frame (params : CpuLimits) (cdev : CpufreqDevice) (req : Request) :
    (setDeviceLevel params cdev req).state.freqTable = cdev.freqTable ∧
      (setDeviceLevel params cdev req).state.maxLevel = cdev.maxLevel ∧
      (setDeviceLevel params cdev req).state.policy = cdev.policy ∧
      (setDeviceLevel params cdev req).state.qosReq.cpu = cdev.qosReq.cpu := by
  by_cases hbounced : Bounced params cdev req
  · rw [setDeviceLevel_of_bounced hbounced]
    obtain ⟨htable, hmax, hpolicy, hcpu⟩ :=
      cpufreqSetLevel_frame cdev (chosenLevel params cdev req) (-ENODEV)
    obtain ⟨htable', hmax', hpolicy', hcpu'⟩ := cpufreqSetLevel_frame
      (cpufreqSetLevel cdev (chosenLevel params cdev req) (-ENODEV)).state
      (cpufreqSetLevel cdev (chosenLevel params cdev req) (-ENODEV)).state.maxLevel
      req.fallbackAnswer
    exact ⟨htable'.trans htable, hmax'.trans hmax, hpolicy'.trans hpolicy, hcpu'.trans hcpu⟩
  · rw [setDeviceLevel_of_not_bounced hbounced]
    exact cpufreqSetLevel_frame _ _ _

end Search

/-! ## The walk over the devices -/

section Walk

variable {params : CpuLimits} {req : Request} {devs : List CpufreqDevice} {cdev : CpufreqDevice}

/-- The device the walk stops at for a CPU. -/
def deviceOf (cpu : ℕ) (devs : List CpufreqDevice) : Option CpufreqDevice :=
  devs.find? (cpu ∈ ·.policy.relatedCpus)

/-- A device found lies behind devices that do not cover the CPU. -/
theorem deviceOf_eq_some_iff {cpu : ℕ} :
    deviceOf cpu devs = some cdev ↔
      cpu ∈ cdev.policy.relatedCpus ∧ ∃ pre post, devs = pre ++ cdev :: post ∧
        ∀ other ∈ pre, cpu ∉ other.policy.relatedCpus := by
  simp [deviceOf, List.find?_eq_some_iff_append]

/-- **The walk** runs the body for the first device that covers the CPU, and for no other. -/
theorem setListLevel_append {pre post : List CpufreqDevice}
    (hpre : ∀ other ∈ pre, req.cpu ∉ other.policy.relatedCpus)
    (h : req.cpu ∈ cdev.policy.relatedCpus) :
    setListLevel params req (pre ++ cdev :: post) =
      { setDeviceLevel params cdev req with
        state := pre ++ (setDeviceLevel params cdev req).state :: post } := by
  induction pre with
  | nil =>
    rw [List.nil_append, setListLevel, if_pos h]
    rfl
  | cons other pre ih =>
    rw [List.forall_mem_cons] at hpre
    rw [List.cons_append, setListLevel, if_neg hpre.1, ih hpre.2]
    rfl

theorem setListLevel_of_none (h : deviceOf req.cpu devs = none) :
    setListLevel params req devs = ⟨-ENODEV, devs, []⟩ := by
  induction devs with
  | nil => rfl
  | cons other devs ih =>
    rw [deviceOf, List.find?_eq_none] at h
    have hother : req.cpu ∉ other.policy.relatedCpus := by
      simpa using h other List.mem_cons_self
    have hdevs : deviceOf req.cpu devs = none := by
      rw [deviceOf, List.find?_eq_none]
      exact fun d hd => h d (List.mem_cons_of_mem _ hd)
    rw [setListLevel, if_neg hother, ih hdevs]

/-- With cpu_limits off a call does nothing. -/
theorem cpuLimitsSetLevel_of_off (h : params.enable = false) :
    cpuLimitsSetLevel params devs req = ⟨0, devs, []⟩ :=
  if_pos (Bool.eq_false_iff.mp h)

/-- With cpu_limits on, a call runs the body for the first device that covers the CPU. -/
theorem cpuLimitsSetLevel_append {pre post : List CpufreqDevice} (henable : params.enable = true)
    (hpre : ∀ other ∈ pre, req.cpu ∉ other.policy.relatedCpus)
    (h : req.cpu ∈ cdev.policy.relatedCpus) :
    cpuLimitsSetLevel params (pre ++ cdev :: post) req =
      { setDeviceLevel params cdev req with
        state := pre ++ (setDeviceLevel params cdev req).state :: post } := by
  rw [cpuLimitsSetLevel, if_neg (not_not.mpr henable), setListLevel_append hpre h]

theorem cpuLimitsSetLevel_of_none (henable : params.enable = true)
    (h : deviceOf req.cpu devs = none) :
    cpuLimitsSetLevel params devs req = ⟨-ENODEV, devs, []⟩ := by
  rw [cpuLimitsSetLevel, if_neg (not_not.mpr henable), setListLevel_of_none h]

/-- A call rewrites the device that serves the CPU, which still serves it afterwards. -/
theorem deviceOf_cpuLimitsSetLevel (params : CpuLimits) (req : Request)
    (h : deviceOf req.cpu devs = some cdev) :
    deviceOf req.cpu (cpuLimitsSetLevel params devs req).state =
      some (if params.enable then (setDeviceLevel params cdev req).state else cdev) := by
  by_cases henable : params.enable = true
  · obtain ⟨hcpu, pre, post, rfl, hpre⟩ := deviceOf_eq_some_iff.mp h
    rw [cpuLimitsSetLevel_append henable hpre hcpu, if_pos henable]
    refine deviceOf_eq_some_iff.mpr ⟨?_, pre, post, rfl, hpre⟩
    rw [(setDeviceLevel_frame params cdev req).2.2.1]
    exact hcpu
  · rw [cpuLimitsSetLevel_of_off (Bool.eq_false_iff.mpr henable), if_neg henable]
    exact h

/-- With cpu_limits on, a call rewrites the device that serves the CPU, if there is one. -/
theorem state_cpuLimitsSetLevel (henable : params.enable = true) (devs : List CpufreqDevice)
    (req : Request) :
    (deviceOf req.cpu devs = none ∧ (cpuLimitsSetLevel params devs req).state = devs) ∨
      ∃ cdev pre post, deviceOf req.cpu devs = some cdev ∧ devs = pre ++ cdev :: post ∧
        req.cpu ∈ cdev.policy.relatedCpus ∧ (∀ other ∈ pre, req.cpu ∉ other.policy.relatedCpus) ∧
        (cpuLimitsSetLevel params devs req).state =
          pre ++ (setDeviceLevel params cdev req).state :: post := by
  cases hdev : deviceOf req.cpu devs with
  | none => exact Or.inl ⟨rfl, by rw [cpuLimitsSetLevel_of_none henable hdev]⟩
  | some cdev =>
    obtain ⟨hcpu, pre, post, rfl, hpre⟩ := deviceOf_eq_some_iff.mp hdev
    refine Or.inr ⟨cdev, pre, post, rfl, rfl, hcpu, hpre, ?_⟩
    rw [cpuLimitsSetLevel_append henable hpre hcpu]

theorem deviceOf_cpuLimitsSetLevel_of_enable (params : CpuLimits) (req : Request)
    (henable : params.enable = true) (h : deviceOf req.cpu devs = some cdev) :
    deviceOf req.cpu (cpuLimitsSetLevel params devs req).state =
      some (setDeviceLevel params cdev req).state := by
  rw [deviceOf_cpuLimitsSetLevel params req h, if_pos henable]

end Walk

end XiaomiModules
