import XiaomiModules.Library.Runs
import XiaomiModules.Thermal.InitCpufreq

/-!
# The caps of a cluster

A cluster is a cpufreq policy. The module keeps one request for each of its CPUs, and the cap of
the cluster is the smallest value standing in them. Every call that names a CPU of the cluster
stops at the same device, the first of the cluster in the list, so the other devices stay at level
0 and never hold the cluster down.

## Main definitions

* `policyCap`, `policyMax`: the cap the requests impose, and the maximum frequency
* `ClusterRun`, `ClusterRun.step`: the devices, with the frequency last selected for each policy
* `Clustered`: what the list order and the partition establish

## Main results

* `Clustered.policyCap_eq`: the cap is the cap of the cluster's first device
* `ClusterRun.Tracked.start`, `ClusterRun.Tracked.step`: the invariants of a run
* `ClusterRun.Tracked.release`, `ClusterRun.Tracked.frame`: releases, and calls for other clusters
* `policyCap_eq_selected`: the last call for a cluster decides its cap, after every run
-/

namespace XiaomiModules

/-- The smallest value in the module's requests on the policy. -/
def policyCap (policy : CpufreqPolicy) (devs : List CpufreqDevice) : Option UInt32 :=
  ((devs.filter (·.policy = policy)).map (·.qosReq.value)).min?

/-- The maximum frequency of the policy. -/
def policyMax (policy : CpufreqPolicy) : UInt32 := (validEntries policy.freqTable).max?.getD 0

/-- cpu_limits is on, and the updates of the call succeed. -/
def Call.Succeeds (c : Call) : Prop :=
  c.params.enable = true ∧ 0 ≤ c.req.answer ∧ 0 ≤ c.req.fallbackAnswer

instance (c : Call) : Decidable c.Succeeds := inferInstanceAs (Decidable (_ ∧ _))

/-- The frequency a call selects for the device it stops at. -/
def Call.selectedFreq (c : Call) (cdev : CpufreqDevice) : UInt32 :=
  cdev.frequency (chosenLevel c.params cdev c.req) (chosenLevel_le _ _ _)

/-- The devices, and for each policy the frequency selected by the last call that named one of its
CPUs. -/
structure ClusterRun where
  devs : List CpufreqDevice
  selected : CpufreqPolicy → Option UInt32

namespace ClusterRun

/-- The devices before any call. -/
def start (devs : List CpufreqDevice) : ClusterRun := ⟨devs, fun _ => none⟩

/-- One call. -/
def step (s : ClusterRun) (c : Call) : ClusterRun where
  devs := (cpuLimitsSetLevel c.params s.devs c.req).state
  selected policy :=
    if c.req.cpu ∈ policy.relatedCpus then (deviceOf c.req.cpu s.devs).map c.selectedFreq
    else s.selected policy

end ClusterRun

/-- What holds of the list through every run of successful calls: the policies share no CPU, two
devices of a policy have the same table, the later of them is at level 0, and every request holds
the cap of its device. -/
structure Clustered (devs : List CpufreqDevice) : Prop where
  disjoint : ∀ d ∈ devs, ∀ e ∈ devs, ∀ cpu ∈ d.policy.relatedCpus,
    cpu ∈ e.policy.relatedCpus → d.policy = e.policy
  freqTable_eq : ∀ d ∈ devs, d.freqTable =
    fillFreqTable d.policy.freqTable (countValidEntries d.policy.freqTable) uintMax
  released : devs.Pairwise fun d e => d.policy = e.policy → e.cpufreqState = 0
  synced : ∀ d ∈ devs, d.Synced

/-- The first device of a policy. -/
def firstOf (policy : CpufreqPolicy) (devs : List CpufreqDevice) : Option CpufreqDevice :=
  devs.find? (·.policy = policy)

theorem firstOf_eq_some_iff {policy : CpufreqPolicy} {devs : List CpufreqDevice}
    {d : CpufreqDevice} :
    firstOf policy devs = some d ↔
      d.policy = policy ∧ ∃ pre post, devs = pre ++ d :: post ∧
        ∀ other ∈ pre, other.policy ≠ policy := by
  simp [firstOf, List.find?_eq_some_iff_append]

theorem exists_firstOf {devs : List CpufreqDevice} {d : CpufreqDevice} (h : d ∈ devs) :
    ∃ e, firstOf d.policy devs = some e := by
  have hsome : (firstOf d.policy devs).isSome := by
    rw [firstOf, List.find?_isSome]
    exact ⟨d, h, by simp⟩
  exact Option.isSome_iff_exists.mp hsome

/-- **The cap of a cluster** is the cap of its first device. -/
theorem Clustered.policyCap_eq {devs : List CpufreqDevice} (h : Clustered devs)
    {policy : CpufreqPolicy} {d : CpufreqDevice} (hfirst : firstOf policy devs = some d) :
    policyCap policy devs = some d.cap := by
  obtain ⟨rfl, pre, post, rfl, hpre⟩ := firstOf_eq_some_iff.mp hfirst
  have hfilter : (pre ++ d :: post).filter (·.policy = d.policy) =
      d :: post.filter (·.policy = d.policy) := by
    have hnone : pre.filter (·.policy = d.policy) = [] := by
      simpa [List.filter_eq_nil_iff] using hpre
    rw [List.filter_append, hnone, List.nil_append, List.filter_cons_of_pos (by simp)]
  have hd : d ∈ pre ++ d :: post := by simp
  have hvalue : d.qosReq.value = d.cap := h.synced d hd
  rw [policyCap, hfilter, List.min?_eq_some_iff, List.map_cons, hvalue]
  refine ⟨List.mem_cons_self, List.forall_mem_cons.mpr ⟨le_rfl, ?_⟩⟩
  intro value hmem
  obtain ⟨e, he, rfl⟩ := List.mem_map.mp hmem
  obtain ⟨hpost, hpolicy⟩ := List.mem_filter.mp he
  have he' : e ∈ pre ++ d :: post := by simp [hpost]
  have hsame : e.policy = d.policy := by simpa using hpolicy
  -- the other devices of the cluster stand behind the first one, at level 0
  have hreleased : e.cpufreqState = 0 :=
    (List.pairwise_cons.mp (List.pairwise_append.mp h.released).2.1).1 e hpost hsame.symm
  have hvalue' : e.qosReq.value = e.cap := h.synced e he'
  rw [hvalue']
  refine cap_anti ?_ (hreleased.le.trans (Nat.zero_le _))
  rw [h.freqTable_eq d hd, h.freqTable_eq e he', hsame]

/-! ## One call -/

section Replace

variable {pre post : List CpufreqDevice} {d d' : CpufreqDevice}

/-- Rewriting the first device of a policy keeps the list clustered. -/
theorem Clustered.replace (h : Clustered (pre ++ d :: post)) (hpolicy : d'.policy = d.policy)
    (htable : d'.freqTable = d.freqTable) (hsync : d'.Synced)
    (hpre : ∀ other ∈ pre, other.policy ≠ d.policy) : Clustered (pre ++ d' :: post) := by
  have hd : d ∈ pre ++ d :: post := by simp
  have hmem : ∀ e ∈ pre ++ d' :: post, e = d' ∨ e ∈ pre ++ d :: post := by
    intro e he
    simp only [List.mem_append, List.mem_cons] at he ⊢
    tauto
  refine ⟨?_, ?_, ?_, ?_⟩
  · -- the policies of the list are the same
    have hold : ∀ e ∈ pre ++ d' :: post, ∃ f ∈ pre ++ d :: post, f.policy = e.policy := by
      intro e he
      rcases hmem e he with rfl | he
      · exact ⟨d, hd, hpolicy.symm⟩
      · exact ⟨e, he, rfl⟩
    intro e he f hf cpu hcpu hcpu'
    obtain ⟨e', he', hee⟩ := hold e he
    obtain ⟨f', hf', hff⟩ := hold f hf
    rw [← hee] at hcpu ⊢
    rw [← hff] at hcpu' ⊢
    exact h.disjoint e' he' f' hf' cpu hcpu hcpu'
  · -- the table still comes from the policy
    intro e he
    rcases hmem e he with rfl | he
    · rw [htable, hpolicy]
      exact h.freqTable_eq d hd
    · exact h.freqTable_eq e he
  · -- the device rewritten is the first of its policy, so none before it asks for level 0
    obtain ⟨hpre', hpost, hcross⟩ := List.pairwise_append.mp h.released
    rw [List.pairwise_cons] at hpost
    refine List.pairwise_append.mpr ⟨hpre', List.pairwise_cons.mpr ⟨?_, hpost.2⟩, ?_⟩
    · intro e he hsame
      exact hpost.1 e he (hpolicy.symm.trans hsame)
    · intro e he f hf hsame
      rcases List.mem_cons.mp hf with rfl | hf
      · exact absurd (hsame.trans hpolicy) (hpre e he)
      · exact hcross e he f (List.mem_cons_of_mem _ hf) hsame
  · intro e he
    rcases hmem e he with rfl | he
    · exact hsync
    · exact h.synced e he

/-- The first devices after rewriting the first device of a policy. -/
theorem firstOf_replace (hpolicy : d'.policy = d.policy)
    (hpre : ∀ other ∈ pre, other.policy ≠ d.policy) (policy : CpufreqPolicy) :
    firstOf policy (pre ++ d' :: post) =
      if policy = d.policy then some d' else firstOf policy (pre ++ d :: post) := by
  split_ifs with heq
  · exact firstOf_eq_some_iff.mpr ⟨hpolicy.trans heq.symm, pre, post, rfl, heq ▸ hpre⟩
  · have hne : ¬ d.policy = policy := fun h => heq h.symm
    have hne' : ¬ d'.policy = policy := fun h => hne (hpolicy.symm.trans h)
    simp [firstOf, List.find?_append, hne, hne']

end Replace

/-- The device at which a call stops is the first of its policy. -/
theorem ne_policy_of_notMem {pre : List CpufreqDevice} {d : CpufreqDevice} {cpu : ℕ}
    (hcpu : cpu ∈ d.policy.relatedCpus) (hpre : ∀ other ∈ pre, cpu ∉ other.policy.relatedCpus) :
    ∀ other ∈ pre, other.policy ≠ d.policy := by
  intro other hmem hsame
  exact hpre other hmem (hsame ▸ hcpu)

theorem ClusterRun.selected_step_of_mem {s : ClusterRun} {c : Call} {policy : CpufreqPolicy}
    (h : c.req.cpu ∈ policy.relatedCpus) :
    (s.step c).selected policy = (deviceOf c.req.cpu s.devs).map c.selectedFreq := if_pos h

theorem ClusterRun.selected_step_of_notMem {s : ClusterRun} {c : Call} {policy : CpufreqPolicy}
    (h : c.req.cpu ∉ policy.relatedCpus) :
    (s.step c).selected policy = s.selected policy := if_neg h

/-- A run keeps the list clustered and, for each policy, the cap of its first device at the
frequency last selected, or at the maximum where none was. -/
structure ClusterRun.Tracked (s : ClusterRun) : Prop where
  clustered : Clustered s.devs
  cap_eq : ∀ policy d, firstOf policy s.devs = some d →
    d.cap = (s.selected policy).getD (policyMax policy)

/-- **A successful call** keeps the invariants of the run. -/
theorem ClusterRun.Tracked.step {s : ClusterRun} (h : s.Tracked) {c : Call} (hc : c.Succeeds) :
    (s.step c).Tracked := by
  obtain ⟨henable, hanswer, hfallback⟩ := hc
  rcases state_cpuLimitsSetLevel henable s.devs c.req with
    ⟨hnone, hstate⟩ | ⟨cdev, pre, post, hdev, hdevs, hcpu, hpre, hstate⟩
  · have hdevs : (s.step c).devs = s.devs := hstate
    refine ⟨hdevs ▸ h.clustered, fun policy d hfirst => ?_⟩
    rw [hdevs] at hfirst
    -- no device serves the CPU, so the policy of a device does not name it
    have hnot : c.req.cpu ∉ policy.relatedCpus := by
      obtain ⟨rfl, pre, post, hsplit, -⟩ := firstOf_eq_some_iff.mp hfirst
      rw [deviceOf, List.find?_eq_none] at hnone
      simpa using hnone d (by simp [hsplit])
    rw [ClusterRun.selected_step_of_notMem hnot]
    exact h.cap_eq policy d hfirst
  · obtain ⟨htable, -, hpolicy, -⟩ := setDeviceLevel_frame c.params cdev c.req
    have hfirsts := ne_policy_of_notMem hcpu hpre
    have hclustered : Clustered (pre ++ cdev :: post) := hdevs ▸ h.clustered
    have hmem : cdev ∈ pre ++ cdev :: post := by simp
    have hsync : (setDeviceLevel c.params cdev c.req).state.Synced :=
      synced_setDeviceLevel (hclustered.synced cdev hmem) hanswer hfallback
    have hdevs' : (s.step c).devs = pre ++ (setDeviceLevel c.params cdev c.req).state :: post :=
      hstate
    refine ⟨hdevs' ▸ hclustered.replace hpolicy htable hsync hfirsts, fun policy d hfirst => ?_⟩
    rw [hdevs', firstOf_replace hpolicy hfirsts] at hfirst
    by_cases heq : policy = cdev.policy
    · -- the call's own policy: the device rewritten is its first
      rw [if_pos heq] at hfirst
      obtain rfl := Option.some.inj hfirst
      rw [ClusterRun.selected_step_of_mem (heq ▸ hcpu), hdev]
      exact cap_setDeviceLevel (ne_ENODEV_of_nonneg hanswer)
    · -- another policy shares no CPU with the call's
      rw [if_neg heq, ← hdevs] at hfirst
      have hnot : c.req.cpu ∉ policy.relatedCpus := by
        intro hin
        obtain ⟨rfl, pre', post', hsplit, -⟩ := firstOf_eq_some_iff.mp hfirst
        exact heq (h.clustered.disjoint d (by simp [hsplit]) cdev (by simp [hdevs]) _ hin hcpu)
      rw [ClusterRun.selected_step_of_notMem hnot]
      exact h.cap_eq policy d hfirst

/-! ## Runs -/

/-- The policies of the possible CPUs partition them: two policies with a common CPU are one. -/
def Partitioned (probes : List CpuProbe) : Prop :=
  ∀ probe ∈ probes, ∀ other ∈ probes, ∀ p q, probe.policy = some p → other.policy = some q →
    ∀ cpu ∈ p.relatedCpus, cpu ∈ q.relatedCpus → p = q

/-- The greatest valid frequency, as the fill loop finds it. -/
theorem findNextMax_uintMax_eq {policy : CpufreqPolicy}
    (h : 0 < countValidEntries policy.freqTable) :
    findNextMax policy.freqTable uintMax = policyMax policy := by
  rw [policyMax, max?_validEntries h]
  rfl

theorem CpufreqDevice.Fresh.cap_eq {d : CpufreqDevice} (h : d.Fresh) :
    d.cap = policyMax d.policy := by
  have hvalue : d.qosReq.value = d.cap := h.synced
  obtain ⟨cpu, hpos, heq⟩ := h
  rw [← hvalue, heq]
  exact findNextMax_uintMax_eq hpos

/-- The invariants hold after an initialisation, complete or stopped early. -/
theorem ClusterRun.Tracked.start {probes : List CpuProbe} (h : Partitioned probes) (ret : ℤ) :
    (ClusterRun.start (miThermalInitCpufreq ret [] probes).devs).Tracked := by
  have hmem : ∀ d ∈ (miThermalInitCpufreq ret [] probes).devs,
      d.Fresh ∧ ∃ probe ∈ probes, probe.policy = some d.policy := by
    intro d hd
    exact (mem_miThermalInitCpufreq hd).resolve_left List.not_mem_nil
  -- every device is fresh, and its policy is one of the partition
  refine ⟨⟨?_, ?_, ?_, ?_⟩, ?_⟩
  · intro d hd e he cpu hcpu hcpu'
    obtain ⟨-, probe, hprobe, hpolicy⟩ := hmem d hd
    obtain ⟨-, other, hother, hpolicy'⟩ := hmem e he
    exact h probe hprobe other hother _ _ hpolicy hpolicy' cpu hcpu hcpu'
  · exact fun d hd => (hmem d hd).1.built
  · refine List.pairwise_of_forall_mem_list ?_
    intro d hd e he hsame
    exact (hmem e he).1.cpufreqState_eq
  · exact fun d hd => (hmem d hd).1.synced
  · intro policy d hfirst
    obtain ⟨rfl, pre, post, hsplit, -⟩ := firstOf_eq_some_iff.mp hfirst
    have hd : d ∈ (miThermalInitCpufreq ret [] probes).devs := by
      have hdevs : (miThermalInitCpufreq ret [] probes).devs = pre ++ d :: post := hsplit
      simp [hdevs]
    exact (hmem d hd).1.cap_eq

/-- Successful calls keep the invariants after every run. -/
theorem ClusterRun.Tracked.after {s : ClusterRun} (h : s.Tracked) {calls : List Call}
    (hcalls : ∀ c ∈ calls, c.Succeeds) : (Runs.after ClusterRun.step s calls).Tracked := by
  induction calls generalizing s with
  | nil => exact h
  | cons c calls ih =>
    rw [List.forall_mem_cons] at hcalls
    exact ih (h.step hcalls.1) hcalls.2

/-- In a tracked run the cap of a represented policy is the frequency last selected. -/
theorem ClusterRun.Tracked.policyCap_eq {s : ClusterRun} (h : s.Tracked) {d : CpufreqDevice}
    (hd : d ∈ s.devs) :
    policyCap d.policy s.devs = some ((s.selected d.policy).getD (policyMax d.policy)) := by
  obtain ⟨e, hfirst⟩ := exists_firstOf hd
  rw [h.clustered.policyCap_eq hfirst, h.cap_eq d.policy e hfirst]

/-! ## Releases -/

/-- The call releases the policy: it asks for no cap, or for at least the maximum frequency. -/
def Call.Releases (c : Call) (policy : CpufreqPolicy) : Prop :=
  c.req.maxFreq = 0 ∨ policyMax policy ≤ c.req.maxFreq

/-- A device has the maximum frequency of its policy at level 0. -/
theorem CpufreqDevice.Built.maxFrequency_eq {d : CpufreqDevice} (h : d.Built) :
    d.maxFrequency = policyMax d.policy := by
  have hpos : 0 < countValidEntries d.policy.freqTable := by
    rw [h.countValidEntries_eq]
    exact Nat.succ_pos _
  have hhead := CpufreqDevice.head_fillFreqTable d.policy.freqTable hpos uintMax
  rw [← h, findNextMax_uintMax_eq hpos] at hhead
  refine Option.some.inj (Eq.trans ?_ hhead)
  exact (List.getElem?_eq_getElem _).symm

/-- A release selects level 0. -/
theorem chosenLevel_of_releases {c : Call} {d : CpufreqDevice}
    (hmax : d.maxFrequency = policyMax d.policy) (h : c.Releases d.policy) :
    chosenLevel c.params d c.req = 0 := by
  by_cases h0 : c.req.maxFreq = 0
  · rw [chosenLevel, if_pos h0]
  · have hle : d.frequency 0 (Nat.zero_le _) ≤ raisedFreq c.params d c.req := by
      rw [raisedFreq_eq_max]
      exact (hmax.le.trans (h.resolve_left h0)).trans (le_max_left _ _)
    have habove : levelsAbove c.params d c.req = 0 := by
      rw [← not_lt, raisedFreq_lt_frequency_iff, not_lt] at hle
      exact Nat.le_zero.mp hle
    have hlevel := limitedLevel_le c.params d c.req
    rw [chosenLevel, if_neg h0, if_pos (habove.le.trans (Nat.zero_le _))]
    omega

/-- A call keeps the policies of the list. -/
theorem exists_mem_step {s : ClusterRun} {c : Call} (hc : c.Succeeds) {d : CpufreqDevice}
    (hd : d ∈ s.devs) : ∃ d' ∈ (s.step c).devs, d'.policy = d.policy := by
  rcases state_cpuLimitsSetLevel hc.1 s.devs c.req with
    ⟨-, hstate⟩ | ⟨cdev, pre, post, -, hdevs, -, -, hstate⟩
  · have hdevs : (s.step c).devs = s.devs := hstate
    exact ⟨d, by rwa [hdevs], rfl⟩
  · have hdevs' : (s.step c).devs = pre ++ (setDeviceLevel c.params cdev c.req).state :: post :=
      hstate
    rw [hdevs'] at *
    rw [hdevs, List.mem_append, List.mem_cons] at hd
    rcases hd with hd | rfl | hd
    · exact ⟨d, by simp [hd], rfl⟩
    · exact ⟨_, by simp, (setDeviceLevel_frame c.params d c.req).2.2.1⟩
    · exact ⟨d, by simp [hd], rfl⟩

/-- A call that names a CPU of the policy stops at a device of the policy. -/
theorem Clustered.deviceOf_eq {devs : List CpufreqDevice} (h : Clustered devs) {d : CpufreqDevice}
    (hd : d ∈ devs) {cpu : ℕ} (hcpu : cpu ∈ d.policy.relatedCpus) :
    ∃ cdev ∈ devs, deviceOf cpu devs = some cdev ∧ cdev.policy = d.policy := by
  have hsome : (deviceOf cpu devs).isSome := by
    rw [deviceOf, List.find?_isSome]
    exact ⟨d, hd, by simpa using hcpu⟩
  obtain ⟨cdev, hdev⟩ := Option.isSome_iff_exists.mp hsome
  obtain ⟨hcpu', pre, post, rfl, -⟩ := deviceOf_eq_some_iff.mp hdev
  have hmem : cdev ∈ pre ++ cdev :: post := by simp
  exact ⟨cdev, hmem, hdev, h.disjoint cdev hmem d hd cpu hcpu' hcpu⟩

/-- A release through any CPU of a policy lifts its cap. -/
theorem ClusterRun.Tracked.release {s : ClusterRun} (h : s.Tracked) {c : Call} (hc : c.Succeeds)
    {d : CpufreqDevice} (hd : d ∈ s.devs) (hcpu : c.req.cpu ∈ d.policy.relatedCpus)
    (hrelease : c.Releases d.policy) :
    policyCap d.policy (s.step c).devs = some (policyMax d.policy) := by
  obtain ⟨d', hd', hpolicy⟩ := exists_mem_step hc hd
  obtain ⟨cdev, hmem, hdev, hsame⟩ := h.clustered.deviceOf_eq hd hcpu
  have hbuilt : cdev.Built := h.clustered.freqTable_eq cdev hmem
  have hmax := hbuilt.maxFrequency_eq
  have hlevel := chosenLevel_of_releases hmax (hsame.symm ▸ hrelease)
  have hfreq : c.selectedFreq cdev = policyMax d.policy := by
    rw [← hsame, ← hmax]
    simp only [Call.selectedFreq, CpufreqDevice.maxFrequency, hlevel]
  rw [← hpolicy, (h.step hc).policyCap_eq hd', hpolicy, selected_step_of_mem hcpu, hdev,
    Option.map_some, hfreq]
  rfl

/-- A call leaves the caps of the policies it does not name alone. -/
theorem ClusterRun.Tracked.frame {s : ClusterRun} (h : s.Tracked) {c : Call} (hc : c.Succeeds)
    {d : CpufreqDevice} (hd : d ∈ s.devs) (hcpu : c.req.cpu ∉ d.policy.relatedCpus) :
    policyCap d.policy (s.step c).devs = policyCap d.policy s.devs := by
  obtain ⟨d', hd', hpolicy⟩ := exists_mem_step hc hd
  rw [h.policyCap_eq hd, ← hpolicy, (h.step hc).policyCap_eq hd', hpolicy,
    selected_step_of_notMem hcpu]

/-- **The last request wins**: after every run of successful calls on the devices of an
initialisation, complete or stopped early, at most one device of a policy is above level 0, and the
cap of the policy is the frequency selected by the last call that named one of its CPUs, or its
maximum where none did. A release through any of its CPUs lifts the cap, and a call leaves the
caps of the other policies alone. -/
theorem policyCap_eq_selected {probes : List CpuProbe} (h : Partitioned probes)
    {calls : List Call} (hcalls : ∀ c ∈ calls, c.Succeeds) :
    let s := Runs.after ClusterRun.step (.start (miThermalInitCpufreq 0 [] probes).devs) calls
    (s.devs.Pairwise fun d e => d.policy = e.policy → d.cpufreqState = 0 ∨ e.cpufreqState = 0) ∧
      ∀ d ∈ s.devs,
        policyCap d.policy s.devs = some ((s.selected d.policy).getD (policyMax d.policy)) ∧
        ∀ c : Call, c.Succeeds →
          (c.req.cpu ∈ d.policy.relatedCpus → c.Releases d.policy →
            policyCap d.policy (s.step c).devs = some (policyMax d.policy)) ∧
          (c.req.cpu ∉ d.policy.relatedCpus →
            policyCap d.policy (s.step c).devs = policyCap d.policy s.devs) := by
  intro s
  have hs : s.Tracked := (ClusterRun.Tracked.start h 0).after hcalls
  refine ⟨hs.clustered.released.imp fun hreleased hsame => Or.inr (hreleased hsame), ?_⟩
  intro d hd
  refine ⟨hs.policyCap_eq hd, fun c hc => ⟨?_, ?_⟩⟩
  · exact fun hcpu hrelease => hs.release hc hd hcpu hrelease
  · exact fun hcpu => hs.frame hc hd hcpu

section Pair

/-- A policy of two CPUs. -/
def pairPolicy : CpufreqPolicy := { twoFrequencies with relatedCpus := [0, 1] }

/-- Its two CPUs, for which every kernel call succeeds. -/
def pairProbes : List CpuProbe :=
  [⟨0, some pairPolicy, true, true, 1⟩, ⟨1, some pairPolicy, true, true, 0⟩]

theorem partitioned_pairProbes : Partitioned pairProbes := by
  intro probe hprobe other hother p q hp hq
  simp only [pairProbes, List.mem_cons, List.not_mem_nil, or_false] at hprobe hother
  rcases hprobe with rfl | rfl <;> rcases hother with rfl | rfl <;>
    exact fun _ _ _ => (Option.some.inj hp).symm.trans (Option.some.inj hq)

/-- The result for a cap through one CPU and another through its sibling. -/
theorem policyCap_eq_selected_pair :
    let s := Runs.after ClusterRun.step (.start (miThermalInitCpufreq 0 [] pairProbes).devs)
      [⟨{ }, 0, 500000, 30, 1, 0⟩, ⟨{ }, 1, 2000000, 30, 0, 0⟩]
    (s.devs.Pairwise fun d e => d.policy = e.policy → d.cpufreqState = 0 ∨ e.cpufreqState = 0) ∧
      ∀ d ∈ s.devs,
        policyCap d.policy s.devs = some ((s.selected d.policy).getD (policyMax d.policy)) ∧
        ∀ c : Call, c.Succeeds →
          (c.req.cpu ∈ d.policy.relatedCpus → c.Releases d.policy →
            policyCap d.policy (s.step c).devs = some (policyMax d.policy)) ∧
          (c.req.cpu ∉ d.policy.relatedCpus →
            policyCap d.policy (s.step c).devs = policyCap d.policy s.devs) :=
  policyCap_eq_selected partitioned_pairProbes (by decide)

end Pair

end XiaomiModules
