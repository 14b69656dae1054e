import XiaomiModules.Thermal.LimitsStore
import XiaomiModules.Thermal.Reachable

/-!
# The switch of cpu_limits

`cpu_limits_enable` can be written at any time. `cpu_limits_store` tests it, and so does
`cpu_limits_set_level`; either of them drops a release as well as a cap. The test of the store and
the call it makes are two steps, so the switch can be written between them.

While the switch is off no request changes. So a cap outlives the switch exactly when the switch is
turned off over it.

## Main definitions

* `Switched`, `Switched.step`: the parameters, the devices and the stores past their test
* `Switched.Lifts`: a release still lifts the cap of a policy
* `Switched.NoneOutlives`: no cap outlives the switch
* `Switched.TurnedOffUncapped`: the switch is not turned off over a cap

## Main results

* `Switched.step_store`: the two steps of a store do what `cpuLimitsStore` does
* `Switched.after_of_off`: while the switch stays off, the devices do not change
* `Switched.noneOutlives_iff`: when no cap outlives the switch in a run
-/

namespace XiaomiModules

/-- The module parameters, the devices, and the calls that the stores past their own test are about
to make. -/
structure Switched where
  params : CpuLimits
  devs : List CpufreqDevice
  stores : List Request

/-- What happens next: the switch or another parameter is written, `cpu_limits_set_level` is called,
or a store tests the switch, or goes on to its call. -/
inductive SwitchEvent
  | setEnable (value : Bool)
  | setParams (params : CpuLimits)
  | setLevel (req : Request)
  | store (w : LimitsWrite)
  | storeCall (i : ℕ)

/-- The request is for no cap, and its update succeeds. -/
def Request.IsRelease (req : Request) : Prop := req.maxFreq = 0 ∧ 0 ≤ req.answer

/-- The policy has a cap below its maximum. -/
def Capped (policy : CpufreqPolicy) (devs : List CpufreqDevice) : Prop :=
  policyCap policy devs ≠ some (policyMax policy)

instance (policy : CpufreqPolicy) (devs : List CpufreqDevice) : Decidable (Capped policy devs) :=
  inferInstanceAs (Decidable (_ ≠ _))

/-- Every device is at level 0, with the maximum of its policy standing in its request. -/
def AllReleased (devs : List CpufreqDevice) : Prop :=
  ∀ d ∈ devs, d.cpufreqState = 0 ∧ d.qosReq.value = policyMax d.policy

/-- No policy with a CPU to name is capped. -/
def NoneCapped (devs : List CpufreqDevice) : Prop :=
  ∀ d ∈ devs, d.policy.relatedCpus ≠ [] → ¬ Capped d.policy devs

instance (devs : List CpufreqDevice) : Decidable (NoneCapped devs) :=
  inferInstanceAs (Decidable (∀ _ ∈ _, _))

namespace Switched

/-- The module after `mi_thermal_interface_init`, which builds no device where the switch is off. -/
def start (params : CpuLimits) (probes : List CpuProbe) : Switched where
  params
  devs := if params.enable then (miThermalInitCpufreq 0 [] probes).devs else []
  stores := []

/-- A call of `cpu_limits_set_level`. -/
def call (s : Switched) (req : Request) : Switched :=
  { s with devs := (cpuLimitsSetLevel s.params s.devs req).state }

/-- One event. -/
def step (s : Switched) : SwitchEvent → Switched
  | .setEnable value => { s with params := { s.params with enable := value } }
  | .setParams params => { s with params := { params with enable := s.params.enable } }
  | .setLevel req => s.call req
  | .store w =>
    match scanCpuLimits w.string with
    | none => s
    | some (cpu, freq) =>
      if ¬ s.params.enable then s else { s with stores := w.request cpu freq :: s.stores }
  | .storeCall i =>
    match s.stores[i]? with
    | none => s
    | some req => { s.call req with stores := s.stores.eraseIdx i }

/-- **The two steps of a store**, one after the other, do what `cpuLimitsStore` does. -/
theorem step_store (s : Switched) (w : LimitsWrite) (h : s.stores = []) :
    ((s.step (.store w)).step (.storeCall 0)).devs = (cpuLimitsStore s.params s.devs w).devs := by
  unfold cpuLimitsStore
  cases hscan : scanCpuLimits w.string with
  | none => simp [step, hscan, h]
  | some numbers =>
    by_cases henable : s.params.enable = true
    · simp [step, hscan, h, henable, call]
    · simp [step, hscan, h, henable]

/-- A release for the CPU lifts the cap of the policy, be it asked for by a call or by a write. -/
structure Lifts (s : Switched) (policy : CpufreqPolicy) (cpu : ℕ) : Prop where
  call : ∀ req : Request, req.cpu = cpu → req.IsRelease → ¬ Capped policy (s.call req).devs
  store : ∀ (w : LimitsWrite) (cpu' : UInt32), scanCpuLimits w.string = some (cpu', 0) →
    cpu'.toNat = cpu → 0 ≤ w.answers.1 → ¬ Capped policy (cpuLimitsStore s.params s.devs w).devs

/-- No cap outlives the switch: while it is off every device is released, or a release for any CPU
of a capped policy still lifts its cap. -/
def NoneOutlives (s : Switched) : Prop :=
  s.params.enable = false → AllReleased s.devs ∨
    ∀ d ∈ s.devs, Capped d.policy s.devs → ∀ cpu ∈ d.policy.relatedCpus, s.Lifts d.policy cpu

/-- The event does not turn the switch off over a cap. -/
def TurnedOffUncapped (s : Switched) (e : SwitchEvent) : Prop :=
  e = .setEnable false → NoneCapped s.devs

end Switched

/-! ## Released devices -/

/-- Where every request on a policy holds its maximum, the policy is not capped. -/
theorem not_capped_of_value_eq {policy : CpufreqPolicy} {devs : List CpufreqDevice}
    {d : CpufreqDevice} (hd : d ∈ devs) (hpolicy : d.policy = policy)
    (h : ∀ e ∈ devs, e.policy = policy → e.qosReq.value = policyMax policy) :
    ¬ Capped policy devs := by
  have hvalues : ∀ value ∈ (devs.filter (·.policy = policy)).map (·.qosReq.value),
      value = policyMax policy := by
    intro value hvalue
    obtain ⟨e, he, rfl⟩ := List.mem_map.mp hvalue
    obtain ⟨hmem, hsame⟩ := List.mem_filter.mp he
    exact h e hmem (of_decide_eq_true hsame)
  refine not_not.mpr (List.min?_eq_some_iff.mpr ⟨?_, fun value hvalue => ?_⟩)
  · have hfilter : d ∈ devs.filter (·.policy = policy) :=
      List.mem_filter.mpr ⟨hd, decide_eq_true hpolicy⟩
    exact List.mem_map.mpr ⟨d, hfilter, h d hd hpolicy⟩
  · exact (hvalues value hvalue).ge

theorem AllReleased.noneCapped {devs : List CpufreqDevice} (h : AllReleased devs) :
    NoneCapped devs := by
  intro d hd _
  refine not_capped_of_value_eq hd rfl fun e he hsame => ?_
  rw [← hsame]
  exact (h e he).2

namespace Switched

variable {s : Switched}

/-- With the switch off a call changes nothing. -/
theorem call_of_off (hoff : s.params.enable = false) (req : Request) : s.call req = s := by
  rw [call, cpuLimitsSetLevel_of_off hoff]

/-- **The switch off**: no cap outlives it exactly where there is none. -/
theorem noneOutlives_iff_noneCapped :
    s.NoneOutlives ↔ (s.params.enable = false → NoneCapped s.devs) := by
  refine imp_congr_right fun hoff => ?_
  constructor
  · rintro (hreleased | hlifts)
    · exact hreleased.noneCapped
    · intro d hd hcpus hcapped
      obtain ⟨cpu, hcpu⟩ := List.exists_mem_of_ne_nil _ hcpus
      -- the release is dropped
      have hlifted := (hlifts d hd hcapped cpu hcpu).call ⟨cpu, 0, 0, 0, 0⟩ rfl ⟨rfl, le_rfl⟩
      rw [call_of_off hoff] at hlifted
      exact hlifted hcapped
  · intro hnone
    right
    intro d hd hcapped cpu hcpu
    exact absurd hcapped (hnone d hd (List.ne_nil_of_mem hcpu))

/-- What an event does to the switch and the devices. -/
theorem step_cases (s : Switched) (e : SwitchEvent) :
    (∃ value, e = .setEnable value ∧ (s.step e).params.enable = value ∧
      (s.step e).devs = s.devs) ∨
    (∀ value, e ≠ .setEnable value) ∧ (s.step e).params.enable = s.params.enable ∧
      ((s.step e).devs = s.devs ∨ ∃ req, (s.step e).devs = (s.call req).devs) := by
  cases e with
  | setEnable value => exact Or.inl ⟨value, rfl, rfl, rfl⟩
  | setParams params => exact Or.inr ⟨nofun, rfl, Or.inl rfl⟩
  | setLevel req => exact Or.inr ⟨nofun, rfl, Or.inr ⟨req, rfl⟩⟩
  | store w =>
    refine Or.inr ⟨nofun, ?_⟩
    cases hscan : scanCpuLimits w.string with
    | none => simp [step, hscan]
    | some numbers =>
      simp only [step, hscan]
      split_ifs
      · exact ⟨rfl, Or.inl rfl⟩
      · exact ⟨rfl, Or.inl rfl⟩
  | storeCall i =>
    refine Or.inr ⟨nofun, ?_⟩
    cases hreq : s.stores[i]? with
    | none => simp [step, hreq]
    | some req =>
      simp only [step, hreq]
      exact ⟨rfl, Or.inr ⟨req, rfl⟩⟩

/-- While the switch is off, an event that does not write it leaves the devices alone. -/
theorem devs_step_of_off (hoff : s.params.enable = false) {e : SwitchEvent}
    (he : ∀ value, e ≠ .setEnable value) :
    (s.step e).params.enable = false ∧ (s.step e).devs = s.devs := by
  rcases step_cases s e with ⟨value, rfl, -⟩ | ⟨-, henable, hdevs | ⟨req, hdevs⟩⟩
  · exact absurd rfl (he value)
  · exact ⟨henable.trans hoff, hdevs⟩
  · rw [call_of_off hoff] at hdevs
    exact ⟨henable.trans hoff, hdevs⟩

/-- **The switch stays off**: until it is turned on again, nothing lifts a cap. -/
theorem after_of_off (hoff : s.params.enable = false) {events : List SwitchEvent}
    (hevents : ∀ e ∈ events, ∀ value, e ≠ .setEnable value) :
    (Runs.after step s events).devs = s.devs := by
  induction events generalizing s with
  | nil => rfl
  | cons e events ih =>
    rw [List.forall_mem_cons] at hevents
    obtain ⟨hoff', hdevs⟩ := devs_step_of_off hoff hevents.1
    exact (ih hoff' hevents.2).trans hdevs

/-- **One event**: a cap comes to outlive the switch exactly where the switch is turned off over
it. -/
theorem noneOutlives_step_iff (h : s.NoneOutlives) (e : SwitchEvent) :
    (s.step e).NoneOutlives ↔ s.TurnedOffUncapped e := by
  rw [noneOutlives_iff_noneCapped] at h ⊢
  rcases step_cases s e with ⟨value, rfl, henable, hdevs⟩ | ⟨he, henable, hchange⟩
  · rw [henable, hdevs]
    cases value with
    | false => exact ⟨fun hnone _ => hnone rfl, fun hnone _ => hnone rfl⟩
    | true => exact iff_of_true nofun nofun
  · refine iff_of_true (fun hoff => ?_) fun heq => absurd heq (he false)
    rw [henable] at hoff
    rw [(devs_step_of_off hoff he).2]
    exact h hoff

theorem noneOutlives_start (params : CpuLimits) (probes : List CpuProbe) :
    (start params probes).NoneOutlives := by
  intro hoff
  left
  intro d hd
  have henable : params.enable = false := hoff
  rw [start, henable, if_neg Bool.false_ne_true] at hd
  exact absurd hd List.not_mem_nil

/-- **Caps and the switch**: in a run of calls, stores and parameter writes after the module is
loaded, no cap outlives the switch in any state exactly if the switch is never turned off over a
cap. -/
theorem noneOutlives_iff (params : CpuLimits) (probes : List CpuProbe)
    (events : List SwitchEvent) :
    (∀ pre, pre <+: events → (Runs.after step (start params probes) pre).NoneOutlives) ↔
      Runs.Along step TurnedOffUncapped (start params probes) events :=
  Runs.forall_prefix_iff_along (I := fun _ => True) (P := NoneOutlives) (fun _ _ _ _ _ => trivial)
    (fun _ e _ h => noneOutlives_step_iff h e) trivial (noneOutlives_start params probes) events

section CappedOff

/-- The kernel's answers for one CPU whose device is built. -/
def oneProbe : CpuProbe := ⟨0, some twoFrequencies, true, true, 0⟩

/-- The cluster is capped, and the switch turned off. -/
theorem not_noneOutlives_cappedOff :
    ¬ ∀ (params : CpuLimits) (probes : List CpuProbe) (events : List SwitchEvent),
      (Runs.after step (start params probes) events).NoneOutlives := by
  intro h
  have hcapped := noneOutlives_iff_noneCapped.mp
    (h {} [oneProbe] [.setLevel ⟨0, 1000000, 20, 0, 0⟩, .setEnable false]) rfl
  exact absurd hcapped (by decide)

end CappedOff

end Switched

end XiaomiModules
