import XiaomiModules.Library.Runs
import XiaomiModules.Thermal.InitCpufreq

/-!
# Recorded levels and programmed caps

`cpufreq_set_level` records the new level before it updates the request and keeps it when the
update fails. From then on the level says one cap and the request holds another, and a call for the
recorded level returns 0 without an update.

After a `-ENODEV` the call goes on to the last level. The record then agrees with the request if
that second update succeeds, or if it fails for a device that started at the last level.

## Main definitions

* `callStep`: the devices after a call
* `KeptAt`, `Kept`: what a call is to keep, for the device it stops at and for the list
* `SafeAt`, `Safe`: no update fails that would have changed something
* `NeverDrifts`: every call of a run keeps what it is to keep

## Main results

* `keptAt_iff`: a call keeps the record of its device exactly when it is safe there
* `kept_iff`: the same for the list
* `neverDrifts_iff`: a run never drifts exactly when every call of it is safe
-/

namespace XiaomiModules

/-! ## One device -/

section Device

variable {params : CpuLimits} {cdev : CpufreqDevice} {req : Request} {level : ℕ} {answer : ℤ}

/-- What a call is to keep, for the device it stops at: the request holds the cap of the recorded
level, and a call that fails leaves the level and, repeated, tries the update again. -/
structure KeptAt (params : CpuLimits) (cdev : CpufreqDevice) (req : Request) : Prop where
  synced : (setDeviceLevel params cdev req).state.Synced
  unchanged : (setDeviceLevel params cdev req).ret < 0 →
    (setDeviceLevel params cdev req).state.cpufreqState = cdev.cpufreqState
  retried : (setDeviceLevel params cdev req).ret < 0 →
    (setDeviceLevel params cdev req).attempts ≠ [] →
    ∀ answers, (setDeviceLevel params (setDeviceLevel params cdev req).state
      (req.answered answers)).attempts ≠ []

/-- The call is safe for the device: it makes no update or its update succeeds; and after a
`-ENODEV` the update to the last level succeeds, or the device started at that level, or the level
found was the last one and has the cap the device started with. -/
def SafeAt (params : CpuLimits) (cdev : CpufreqDevice) (req : Request) : Prop :=
  if Bounced params cdev req then
    if chosenLevel params cdev req = cdev.maxLevel then cdev.cap = cdev.frequency _ le_rfl
    else 0 ≤ req.fallbackAnswer ∨ cdev.cpufreqState = cdev.maxLevel
  else cdev.cpufreqState = chosenLevel params cdev req ∨ 0 ≤ chosenAnswer params cdev req

instance (params : CpuLimits) (cdev : CpufreqDevice) (req : Request) :
    Decidable (SafeAt params cdev req) := by
  unfold SafeAt
  infer_instance

/-- The device with another level recorded, and the request as it was. -/
def CpufreqDevice.recorded (cdev : CpufreqDevice) (level : ℕ) (h : level ≤ cdev.maxLevel) :
    CpufreqDevice :=
  { cdev with cpufreqState := level, cpufreqState_le := h }

/-- Recording a level over a recorded one that is the level of the start comes back to the
start. -/
theorem recorded_recorded_self (hle : level ≤ cdev.maxLevel) {level' : ℕ}
    (h : level' ≤ (cdev.recorded level hle).maxLevel) (hself : cdev.cpufreqState = level') :
    (cdev.recorded level hle).recorded level' h = cdev := by
  subst hself
  rfl

/-- The record agrees with the request exactly where the recorded level has the cap of the
start. -/
theorem synced_recorded_iff (hsync : cdev.Synced) (hle : level ≤ cdev.maxLevel) :
    (cdev.recorded level hle).Synced ↔ cdev.cap = cdev.frequency level hle := by
  have hvalue : cdev.qosReq.value = cdev.cap := hsync
  rw [← hvalue]
  rfl

/-- A failed update leaves the request, but not the level. -/
theorem cpufreqSetLevel_of_neg (hle : level ≤ cdev.maxLevel) (h : cdev.cpufreqState ≠ level)
    (hanswer : answer < 0) :
    cpufreqSetLevel cdev level answer =
      ⟨answer, cdev.recorded level hle, [cdev.frequency level hle]⟩ := by
  rw [cpufreqSetLevel_of_ne hle h]
  simp only [freqQosUpdateRequest, if_pos hanswer, CpufreqDevice.recorded]

/-- An update is tried exactly where the level is not the recorded one. -/
theorem attempts_cpufreqSetLevel_ne_nil_iff (hle : level ≤ cdev.maxLevel) :
    (cpufreqSetLevel cdev level answer).attempts ≠ [] ↔ cdev.cpufreqState ≠ level := by
  constructor
  · intro hattempts h
    rw [cpufreqSetLevel_of_eq h] at hattempts
    exact hattempts rfl
  · intro h
    rw [cpufreqSetLevel_of_ne hle h]
    exact List.cons_ne_nil _ _

/-- A call tries an update exactly where the chosen level is not the recorded one. -/
theorem attempts_setDeviceLevel_ne_nil_iff :
    (setDeviceLevel params cdev req).attempts ≠ [] ↔
      cdev.cpufreqState ≠ chosenLevel params cdev req := by
  by_cases hbounced : Bounced params cdev req
  · rw [setDeviceLevel_of_bounced hbounced]
    obtain ⟨hmax, hfound, hne, -⟩ := hbounced
    rw [← chosenLevel_of_found hmax hfound] at hne
    refine iff_of_true ?_ hne
    apply List.append_ne_nil_of_left_ne_nil
    exact (attempts_cpufreqSetLevel_ne_nil_iff (chosenLevel_le _ _ _)).mpr hne
  · rw [setDeviceLevel_of_not_bounced hbounced]
    exact attempts_cpufreqSetLevel_ne_nil_iff (chosenLevel_le _ _ _)

/-- A call whose update succeeds leaves the cap of the new level standing, whatever stood
before. -/
theorem synced_cpufreqSetLevel_of_ne (hle : level ≤ cdev.maxLevel) (h : cdev.cpufreqState ≠ level)
    (hanswer : 0 ≤ answer) : (cpufreqSetLevel cdev level answer).state.Synced := by
  rw [CpufreqDevice.Synced, value_cpufreqSetLevel hle h hanswer, cpufreqSetLevel_of_ne hle h]
  rfl

/-- Without a bounce, a call keeps the record exactly where it stays or its update succeeds. -/
theorem keptAt_iff_of_not_bounced (hsync : cdev.Synced) (hbounced : ¬ Bounced params cdev req) :
    KeptAt params cdev req ↔
      cdev.cpufreqState = chosenLevel params cdev req ∨ 0 ≤ chosenAnswer params cdev req := by
  have hcall := setDeviceLevel_of_not_bounced hbounced
  have hle := chosenLevel_le params cdev req
  by_cases hstay : cdev.cpufreqState = chosenLevel params cdev req
  · rw [cpufreqSetLevel_of_eq hstay] at hcall
    refine iff_of_true ⟨?_, ?_, ?_⟩ (Or.inl hstay)
    · rw [hcall]
      exact hsync
    · intro _
      rw [hcall]
    · intro hret
      rw [hcall] at hret
      exact absurd hret (lt_irrefl _)
  · -- the level moves, and is recorded whatever the kernel answers
    rw [or_iff_right hstay]
    constructor
    · intro hkept
      by_contra hanswer
      rw [cpufreqSetLevel_of_neg hle hstay (not_le.mp hanswer)] at hcall
      have hunchanged := hkept.unchanged
      rw [hcall] at hunchanged
      exact hstay (hunchanged (not_le.mp hanswer)).symm
    · intro hanswer
      have hret : ¬ (setDeviceLevel params cdev req).ret < 0 := by
        rw [hcall, cpufreqSetLevel_of_ne hle hstay]
        exact hanswer.not_gt
      refine ⟨?_, fun h => absurd h hret, fun h => absurd h hret⟩
      rw [hcall]
      exact synced_cpufreqSetLevel_of_ne hle hstay hanswer

/-- After a bounce the call goes on to the last level, from the device with the chosen level
recorded. -/
theorem setDeviceLevel_of_bounced_eq (hbounced : Bounced params cdev req)
    (hle : chosenLevel params cdev req ≤ cdev.maxLevel) :
    (setDeviceLevel params cdev req).ret =
        (cpufreqSetLevel (cdev.recorded _ hle) cdev.maxLevel req.fallbackAnswer).ret ∧
      (setDeviceLevel params cdev req).state =
        (cpufreqSetLevel (cdev.recorded _ hle) cdev.maxLevel req.fallbackAnswer).state := by
  have hcall := setDeviceLevel_of_bounced hbounced
  have hne : cdev.cpufreqState ≠ chosenLevel params cdev req := by
    rw [chosenLevel_of_found hbounced.1 hbounced.2.1]
    exact hbounced.2.2.1
  rw [cpufreqSetLevel_of_neg hle hne (by decide)] at hcall
  rw [hcall]
  exact ⟨rfl, rfl⟩

/-- After a bounce to the last level, a call keeps the record exactly where that level has the cap
of the start: no second update is made. -/
theorem keptAt_iff_of_bounced_last (hsync : cdev.Synced) (hbounced : Bounced params cdev req)
    (hlast : chosenLevel params cdev req = cdev.maxLevel) :
    KeptAt params cdev req ↔ cdev.cap = cdev.frequency _ le_rfl := by
  have hle := chosenLevel_le params cdev req
  have hstay : (cdev.recorded _ hle).cpufreqState = cdev.maxLevel := hlast
  obtain ⟨hret, hstate⟩ := setDeviceLevel_of_bounced_eq hbounced hle
  rw [cpufreqSetLevel_of_eq hstay] at hret hstate
  have hok : ¬ (setDeviceLevel params cdev req).ret < 0 := hret.not_lt
  have hsynced : (setDeviceLevel params cdev req).state.Synced ↔
      cdev.cap = cdev.frequency _ le_rfl := by
    rw [hstate, synced_recorded_iff hsync hle]
    simp only [hlast]
  rw [← hsynced]
  exact ⟨KeptAt.synced, fun h => ⟨h, fun h' => absurd h' hok, fun h' => absurd h' hok⟩⟩

/-- After a bounce to another level, a call keeps the record exactly where the second update
succeeds or the device started at the last level. -/
theorem keptAt_iff_of_bounced_ne (hsync : cdev.Synced) (hbounced : Bounced params cdev req)
    (hlast : chosenLevel params cdev req ≠ cdev.maxLevel) :
    KeptAt params cdev req ↔ 0 ≤ req.fallbackAnswer ∨ cdev.cpufreqState = cdev.maxLevel := by
  have hle := chosenLevel_le params cdev req
  have hmove : (cdev.recorded _ hle).cpufreqState ≠ cdev.maxLevel := hlast
  have hmax : cdev.maxLevel ≤ (cdev.recorded _ hle).maxLevel := le_rfl
  obtain ⟨hret, hstate⟩ := setDeviceLevel_of_bounced_eq hbounced hle
  by_cases hanswer : 0 ≤ req.fallbackAnswer
  · rw [cpufreqSetLevel_of_ne hmax hmove] at hret
    have hok : ¬ (setDeviceLevel params cdev req).ret < 0 := hret.trans_ge hanswer |>.not_gt
    refine iff_of_true ⟨?_, fun h => absurd h hok, fun h => absurd h hok⟩ (Or.inl hanswer)
    rw [hstate]
    exact synced_cpufreqSetLevel_of_ne hmax hmove hanswer
  · have hneg := not_le.mp hanswer
    rw [or_iff_right hanswer]
    rw [cpufreqSetLevel_of_neg hmax hmove hneg] at hret hstate
    constructor
    · intro hkept
      have hunchanged := hkept.unchanged (hret.trans_lt hneg)
      rw [hstate] at hunchanged
      exact hunchanged.symm
    · intro hstart
      -- both updates failed and the level is back where it was
      rw [recorded_recorded_self hle hmax hstart] at hstate
      refine ⟨?_, ?_, ?_⟩
      · rw [hstate]
        exact hsync
      · intro _
        rw [hstate]
      · intro _ hattempts answers
        rw [hstate]
        rw [attempts_setDeviceLevel_ne_nil_iff] at hattempts ⊢
        exact hattempts

/-- **One device, exactly**: from a device whose request holds the cap of its level, a call keeps
the record if and only if it is safe. -/
theorem keptAt_iff (hsync : cdev.Synced) : KeptAt params cdev req ↔ SafeAt params cdev req := by
  rw [SafeAt]
  split_ifs with hbounced hlast
  · exact keptAt_iff_of_bounced_last hsync hbounced hlast
  · exact keptAt_iff_of_bounced_ne hsync hbounced hlast
  · exact keptAt_iff_of_not_bounced hsync hbounced

end Device

/-! ## The devices of a run -/

/-- The devices after a call. -/
def callStep (devs : List CpufreqDevice) (c : Call) : List CpufreqDevice :=
  (cpuLimitsSetLevel c.params devs c.req).state

/-- What a call is to keep: every request holds the cap of its device's recorded level, and a call
that fails leaves every level and, repeated, tries the update again. -/
structure Kept (devs : List CpufreqDevice) (c : Call) : Prop where
  synced : ∀ cdev ∈ callStep devs c, cdev.Synced
  unchanged : (cpuLimitsSetLevel c.params devs c.req).ret < 0 →
    (callStep devs c).map (·.cpufreqState) = devs.map (·.cpufreqState)
  retried : (cpuLimitsSetLevel c.params devs c.req).ret < 0 →
    (cpuLimitsSetLevel c.params devs c.req).attempts ≠ [] →
    ∀ answers, (cpuLimitsSetLevel c.params (callStep devs c) (c.req.answered answers)).attempts ≠ []

/-- The call is safe: cpu_limits is off, or no device covers the CPU, or the call is safe for the
first one that does. -/
def Safe (devs : List CpufreqDevice) (c : Call) : Prop :=
  c.params.enable = true → ∀ cdev, deviceOf c.req.cpu devs = some cdev → SafeAt c.params cdev c.req

/-- Every request holds the cap of its device's recorded level. -/
def AllSynced (devs : List CpufreqDevice) : Prop := ∀ cdev ∈ devs, cdev.Synced

section List

variable {devs : List CpufreqDevice} {c : Call}

section Stop

variable {pre post : List CpufreqDevice} {cdev : CpufreqDevice}

/-- A call rewrites the device it stops at. -/
theorem callStep_append (henable : c.params.enable = true)
    (hpre : ∀ other ∈ pre, c.req.cpu ∉ other.policy.relatedCpus)
    (hcpu : c.req.cpu ∈ cdev.policy.relatedCpus) :
    callStep (pre ++ cdev :: post) c =
      pre ++ (setDeviceLevel c.params cdev c.req).state :: post := by
  have hcall : cpuLimitsSetLevel c.params (pre ++ cdev :: post) c.req = _ :=
    cpuLimitsSetLevel_append henable hpre hcpu
  rw [callStep, hcall]

/-- The repeated call stops at the same place of the list. -/
theorem attempts_callStep_append (henable : c.params.enable = true)
    (hpre : ∀ other ∈ pre, c.req.cpu ∉ other.policy.relatedCpus)
    (hcpu : c.req.cpu ∈ cdev.policy.relatedCpus) (answers : ℤ × ℤ) :
    (cpuLimitsSetLevel c.params (callStep (pre ++ cdev :: post) c)
        (c.req.answered answers)).attempts =
      (setDeviceLevel c.params (setDeviceLevel c.params cdev c.req).state
        (c.req.answered answers)).attempts := by
  have hcpu' : c.req.cpu ∈ (setDeviceLevel c.params cdev c.req).state.policy.relatedCpus := by
    rw [(setDeviceLevel_frame c.params cdev c.req).2.2.1]
    exact hcpu
  have hrepeated : cpuLimitsSetLevel c.params
      (pre ++ (setDeviceLevel c.params cdev c.req).state :: post) (c.req.answered answers) = _ :=
    cpuLimitsSetLevel_append henable hpre hcpu'
  rw [callStep_append henable hpre hcpu, hrepeated]

/-- A call that stops at a device keeps the list exactly where it keeps that device. -/
theorem kept_append_iff (h : AllSynced (pre ++ cdev :: post)) (henable : c.params.enable = true)
    (hpre : ∀ other ∈ pre, c.req.cpu ∉ other.policy.relatedCpus)
    (hcpu : c.req.cpu ∈ cdev.policy.relatedCpus) :
    Kept (pre ++ cdev :: post) c ↔ KeptAt c.params cdev c.req := by
  have hcall : cpuLimitsSetLevel c.params (pre ++ cdev :: post) c.req = _ :=
    cpuLimitsSetLevel_append henable hpre hcpu
  have hstep : callStep (pre ++ cdev :: post) c = _ := callStep_append henable hpre hcpu
  have hagain (answers : ℤ × ℤ) : (cpuLimitsSetLevel c.params (callStep (pre ++ cdev :: post) c)
      (c.req.answered answers)).attempts = _ := attempts_callStep_append henable hpre hcpu answers
  -- the call changes the device found and no other
  have hlevels : (callStep (pre ++ cdev :: post) c).map (·.cpufreqState) =
        (pre ++ cdev :: post).map (·.cpufreqState) ↔
      (setDeviceLevel c.params cdev c.req).state.cpufreqState = cdev.cpufreqState := by
    rw [hstep]
    simp
  constructor
  · rintro ⟨hsynced, hunchanged, hretried⟩
    rw [hcall, hlevels] at hunchanged
    rw [hcall] at hretried
    refine ⟨?_, hunchanged, ?_⟩
    · apply hsynced
      rw [hstep]
      simp
    · intro hret hattempts answers
      rw [← hagain]
      exact hretried hret hattempts answers
  · rintro ⟨hsynced, hunchanged, hretried⟩
    refine ⟨?_, ?_, ?_⟩
    · intro other hother
      rw [hstep, List.mem_append, List.mem_cons] at hother
      rcases hother with hother | rfl | hother
      · exact h other (List.mem_append_left _ hother)
      · exact hsynced
      · exact h other (List.mem_append_right _ (List.mem_cons_of_mem _ hother))
    · rw [hcall, hlevels]
      exact hunchanged
    · rw [hcall]
      intro hret hattempts answers
      rw [hagain]
      exact hretried hret hattempts answers

end Stop

/-- **One call, exactly**: from devices whose requests hold the caps of their levels, a call keeps
the record if and only if it is safe. -/
theorem kept_iff (h : AllSynced devs) : Kept devs c ↔ Safe devs c := by
  by_cases henable : c.params.enable = true
  · cases hdev : deviceOf c.req.cpu devs with
    | none =>
      -- no device has the CPU, so nothing is asked for
      have hcall := cpuLimitsSetLevel_of_none henable hdev
      have hstep : callStep devs c = devs := by rw [callStep, hcall]
      refine iff_of_true ⟨?_, ?_, ?_⟩ fun _ cdev hsome => by simp [hdev] at hsome
      · rw [hstep]
        exact h
      · intro _
        rw [hstep]
      · intro _ hattempts
        rw [hcall] at hattempts
        exact absurd rfl hattempts
    | some cdev =>
      obtain ⟨hcpu, pre, post, rfl, hpre⟩ := deviceOf_eq_some_iff.mp hdev
      rw [kept_append_iff h henable hpre hcpu, keptAt_iff (h cdev (by simp))]
      constructor
      · intro hsafe _ other hother
        obtain rfl := Option.some.inj (hdev.symm.trans hother)
        exact hsafe
      · intro hsafe
        exact hsafe henable cdev hdev
  · -- with cpu_limits off the call changes nothing
    have hcall : cpuLimitsSetLevel c.params devs c.req = ⟨0, devs, []⟩ :=
      cpuLimitsSetLevel_of_off (Bool.eq_false_iff.mpr henable)
    have hstep : callStep devs c = devs := by rw [callStep, hcall]
    refine iff_of_true ⟨?_, ?_, ?_⟩ fun hon => absurd hon henable
    · rw [hstep]
      exact h
    · intro _
      rw [hstep]
    · intro hret
      rw [hcall] at hret
      exact absurd hret (lt_irrefl _)

/-- After an initialisation every request holds the cap of its device's level. -/
theorem allSynced_miThermalInitCpufreq (ret : ℤ) (probes : List CpuProbe) :
    AllSynced (miThermalInitCpufreq ret [] probes).devs := by
  intro cdev hcdev
  rcases mem_miThermalInitCpufreq hcdev with hnil | ⟨hfresh, -⟩
  · exact absurd hnil List.not_mem_nil
  · exact hfresh.synced

/-- The devices and the calls made on them never drift: the requests hold the caps of the recorded
levels at the start and after every call, and every call keeps what it is to keep. -/
def NeverDrifts (devs : List CpufreqDevice) (calls : List Call) : Prop :=
  AllSynced devs ∧ Runs.Along callStep Kept devs calls

/-- **The record, exactly**: after an initialisation, a run of calls never drifts if and only if
every call of the run is safe. -/
theorem neverDrifts_iff (probes : List CpuProbe) (calls : List Call) :
    NeverDrifts (miThermalInitCpufreq 0 [] probes).devs calls ↔
      Runs.Along callStep Safe (miThermalInitCpufreq 0 [] probes).devs calls := by
  have hstart := allSynced_miThermalInitCpufreq 0 probes
  rw [NeverDrifts, and_iff_right hstart]
  refine Runs.along_iff_along (I := AllSynced) ?_ ?_ hstart calls
  · intro devs c h hsafe
    exact ((kept_iff h).mpr hsafe).synced
  · intro devs c h
    exact kept_iff h

end List

section Failed

/-- A CPU with two frequencies, for which every kernel call succeeds. -/
def twoLevelProbe : CpuProbe := ⟨0, some twoFrequencies, true, true, 1⟩

/-- A request below both frequencies, whose update fails with `-EINVAL`. -/
def failedRequest : Request := ⟨0, 500000, 30, -EINVAL, -EINVAL⟩

/-- One failed update and the run has drifted: the error leaves level 1 recorded with the maximum
still standing, and the same request then succeeds without an update. -/
theorem not_neverDrifts_failedRequest :
    let devs := (miThermalInitCpufreq 0 [] [twoLevelProbe]).devs
    let failed := cpuLimitsSetLevel { } devs failedRequest
    let repeated := cpuLimitsSetLevel { } failed.state (failedRequest.answered (0, 0))
    ¬ NeverDrifts devs [⟨{ }, failedRequest⟩] ∧ failed.ret = -EINVAL ∧
      failed.state.map (·.cpufreqState) = [1] ∧
      failed.state.map (·.qosReq.value) = [2000000] ∧
      repeated.ret = 0 ∧ repeated.attempts = [] := by
  intro devs failed repeated
  refine ⟨?_, by decide, by decide, by decide, by decide, by decide⟩
  rintro ⟨-, hkept, -⟩
  have hlevels := hkept.unchanged (by decide)
  exact absurd hlevels (by decide)

end Failed

end XiaomiModules
