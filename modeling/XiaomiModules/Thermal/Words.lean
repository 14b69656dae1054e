import XiaomiModules.Thermal.Reachable

/-!
# The devices as plain words

A `CpufreqDevice` cannot be built with a level outside its table. `struct cpufreq_device` can: its
fields are words that nothing ties together, the levels are computed in 32 bits, and nothing checks
an index of `freq_table`. Here the same functions are run on the bare words, and record the entries
they use and whether they warn. On the words of a
device they do what the functions on devices do, so no run from an initialisation leaves a table.

## Main definitions

* `Words.Device`, `CpufreqDevice.words`: the bare fields, and those of a device
* `Words.cpufreqSetLevel`, `Words.setDeviceLevel`, `Words.cpuLimitsSetLevel`,
  `Words.miThermalInitCpufreq`: the functions on them
* `Words.Outcome.Safe`: no warning, and every entry used is in the table

## Main results

* `Words.setDeviceLevel_words`, `Words.after_words`: the words of devices behave as the devices
* `Words.level_safe`: every run from an initialisation is safe
-/

namespace XiaomiModules

namespace Words

/-- `struct cpufreq_device`, as the source declares it. -/
structure Device where
  id : ℕ
  cpufreqState : UInt32
  maxLevel : UInt32
  freqTable : List UInt32
  policy : CpufreqPolicy
  qosReq : FreqQosRequest
deriving DecidableEq

/-- A use of an entry of `freq_table`: the index, and the `max_level` of the device. -/
structure Access where
  level : ℕ
  maxLevel : UInt32
deriving DecidableEq

/-- The index is at most `max_level`. -/
def Access.InTable (access : Access) : Prop := access.level ≤ access.maxLevel.toNat

instance (access : Access) : Decidable access.InTable := inferInstanceAs (Decidable (_ ≤ _))

/-- What a call leads to, with the entries it used and whether it took the `WARN_ON` branch. -/
structure Outcome (S : Type) extends XiaomiModules.Outcome S where
  accesses : List Access
  warned : Bool
deriving DecidableEq

/-- The `WARN_ON` branch is not taken, and every index used is at most `max_level`. -/
structure Outcome.Safe {S : Type} (out : Outcome S) : Prop where
  warned : out.warned = false
  accesses : ∀ access ∈ out.accesses, access.InTable

/-- The outcome is the one given, and is reached safely. -/
structure Outcome.Matches {S : Type} (out : Outcome S) (expected : XiaomiModules.Outcome S) : Prop
    extends out.Safe where
  outcome : out.toOutcome = expected

/-- `freq_table[level].frequency`; what lies behind the table is of no account. -/
def Device.entry (cdev : Device) (level : ℕ) : UInt32 := cdev.freqTable.getD level 0

/-- A use of an entry of the device. -/
def Device.access (cdev : Device) (level : ℕ) : Access := ⟨level, cdev.maxLevel⟩

/-- `cpufreq_set_level(cdev, state)`. -/
def cpufreqSetLevel (cdev : Device) (state : ℕ) (answer : ℤ) : Outcome Device :=
  if state > cdev.maxLevel.toNat then ⟨⟨-EINVAL, cdev, []⟩, [], true⟩
  else if cdev.cpufreqState.toNat = state then ⟨⟨0, cdev, []⟩, [], false⟩
  else
    let frequency := cdev.entry state
    let (ret, qosReq) := freqQosUpdateRequest cdev.qosReq frequency answer
    ⟨⟨ret, { cdev with cpufreqState := UInt32.ofNat state, qosReq }, [frequency]⟩,
      [cdev.access state], false⟩

/-- The requested frequency, raised to the floor. -/
def raisedFreq (params : CpuLimits) (cdev : Device) (req : Request) : UInt32 :=
  let floorFreq :=
    multFrac (cdev.entry 0) (min (cpuLimitsEffectiveFloorPct params req.deviceTemp) 100) 100
  if req.maxFreq < floorFreq then floorFreq else req.maxFreq

/-- The level passed on where the search stops at a level. -/
def stepped (params : CpuLimits) (cdev : Device) (req : Request) (level : UInt32) : UInt32 :=
  if params.maxStep ≠ 0 ∧ req.deviceTemp < params.hotTemp.toInt32 ∧
      level > cdev.cpufreqState + params.maxStep then
    cdev.cpufreqState + params.maxStep
  else level

/-- The loop of `cpu_limits_set_level` from `level` on, with the level it passes on and the entries
it used. -/
def search (params : CpuLimits) (cdev : Device) (req : Request) (maxFreq : UInt32) :
    ℕ → UInt32 → Option UInt32 × List Access
  | 0, _ => (none, [])
  | fuel + 1, level =>
    if level ≤ cdev.maxLevel then
      let targetFreq := cdev.entry level.toNat
      if maxFreq ≥ targetFreq then
        (some (stepped params cdev req level), [cdev.access level.toNat])
      else
        let (found, accesses) := search params cdev req maxFreq fuel (level + 1)
        (found, cdev.access level.toNat :: accesses)
    else (none, [])

/-- The end of `cpu_limits_set_level`: a return value of `-ENODEV` leads to the fallback level. -/
def fallBack (out : Outcome Device) (answer : ℤ) : Outcome Device :=
  if out.ret = -ENODEV then
    let fallback := cpufreqSetLevel out.state out.state.maxLevel.toNat answer
    ⟨⟨fallback.ret, fallback.state, out.attempts ++ fallback.attempts⟩,
      out.accesses ++ fallback.accesses, out.warned || fallback.warned⟩
  else out

/-- The body of `cpu_limits_set_level` for the device it found. -/
def setDeviceLevel (params : CpuLimits) (cdev : Device) (req : Request) : Outcome Device :=
  if req.maxFreq = 0 then cpufreqSetLevel cdev 0 req.answer
  else
    -- `max_level + 1` turns are enough for the loop, see `search_words`
    let (found, accesses) :=
      search params cdev req (raisedFreq params cdev req) (cdev.maxLevel.toNat + 1) 0
    let out : Outcome Device :=
      match found with
      | some level => cpufreqSetLevel cdev level.toNat req.answer
      | none => ⟨⟨-ENODEV, cdev, []⟩, [], false⟩
    fallBack { out with accesses := cdev.access 0 :: accesses ++ out.accesses } req.fallbackAnswer

/-- The walk over `cpufreq_dev_list`. -/
def setListLevel (params : CpuLimits) (req : Request) : List Device → Outcome (List Device)
  | [] => ⟨⟨-ENODEV, [], []⟩, [], false⟩
  | cdev :: devs =>
    if req.cpu ∈ cdev.policy.relatedCpus then
      let out := setDeviceLevel params cdev req
      ⟨⟨out.ret, out.state :: devs, out.attempts⟩, out.accesses, out.warned⟩
    else
      let out := setListLevel params req devs
      ⟨⟨out.ret, cdev :: out.state, out.attempts⟩, out.accesses, out.warned⟩

/-- `cpu_limits_set_level(cpu, max_freq)`. -/
def cpuLimitsSetLevel (params : CpuLimits) (devs : List Device) (req : Request) :
    Outcome (List Device) :=
  if ¬ params.enable then ⟨⟨0, devs, []⟩, [], false⟩ else setListLevel params req devs

/-- The devices after a call. -/
def callStep (devs : List Device) (c : Call) : List Device :=
  (cpuLimitsSetLevel c.params devs c.req).state

/-! ## Building the devices -/

/-- The loop of `mi_thermal_init_cpufreq` that fills the table allocated, from the index `i` on. -/
def fillTable (policyTable : List UInt32) (maxLevel : UInt32) :
    ℕ → UInt32 → UInt32 → List UInt32 → List UInt32 × List Access
  | 0, _, _, table => (table, [])
  | fuel + 1, i, freq, table =>
    if i ≤ maxLevel then
      let freq := findNextMax policyTable freq
      let (table, accesses) :=
        fillTable policyTable maxLevel fuel (i + 1) freq (table.set i.toNat freq)
      (table, ⟨i.toNat, maxLevel⟩ :: accesses)
    else (table, [])

/-- The device of a CPU as `mi_thermal_init_cpufreq` builds it, with the entries used for its table
and for its request. What `kmalloc_array` leaves in the table is given by `heap`. -/
def initCpufreqDevice (heap : ℕ → UInt32) (cpu : ℕ) (policy : CpufreqPolicy) :
    Device × List Access :=
  let count := UInt32.ofNat (countValidEntries policy.freqTable)
  let maxLevel := count - 1
  let (freqTable, accesses) := fillTable policy.freqTable maxLevel (maxLevel.toNat + 1) 0 uintMax
    ((List.range count.toNat).map heap)
  let cpufreqDev : Device :=
    { id := policy.cpu
      cpufreqState := 0
      maxLevel
      freqTable
      policy
      qosReq := ⟨cpu, freqTable.getD 0 0⟩ }
  (cpufreqDev, accesses ++ [cpufreqDev.access 0])

/-- The body of the loop for one CPU: the value of `ret`, the device if it was added, and the
entries used. -/
def initCpu (heap : ℕ → UInt32) (probe : CpuProbe) : ℤ × Option Device × List Access :=
  match probe.policy with
  | none => (-ESRCH, none, [])
  | some policy =>
    if UInt32.ofNat (countValidEntries policy.freqTable) = 0 then (-ENODEV, none, [])
    else if ¬ probe.deviceAllocated then (-ENOMEM, none, [])
    else if ¬ probe.tableAllocated then (-ENOMEM, none, [])
    else
      let (cpufreqDev, accesses) := initCpufreqDevice heap probe.cpu policy
      if probe.answer < 0 then (probe.answer, none, accesses)
      else (probe.answer, some cpufreqDev, accesses)

/-- What the initialisation leads to: its return value, the list, and the entries used. -/
structure InitOutcome where
  ret : ℤ
  devs : List Device
  accesses : List Access

/-- `mi_thermal_init_cpufreq()` from the CPU reached. -/
def miThermalInitCpufreq (heap : ℕ → UInt32) (ret : ℤ) (devs : List Device) :
    List CpuProbe → InitOutcome
  | [] => ⟨ret, devs, []⟩
  | probe :: probes =>
    match initCpu heap probe with
    | (ret, none, accesses) => ⟨ret, devs, accesses⟩
    | (ret, some cpufreqDev, accesses) =>
      let out := miThermalInitCpufreq heap ret (cpufreqDev :: devs) probes
      { out with accesses := accesses ++ out.accesses }

end Words

/-! ## The words of a device -/

/-- The bare fields of a device. -/
def CpufreqDevice.words (cdev : CpufreqDevice) : Words.Device where
  id := cdev.id
  cpufreqState := UInt32.ofNat cdev.cpufreqState
  maxLevel := UInt32.ofNat cdev.maxLevel
  freqTable := cdev.freqTable
  policy := cdev.policy
  qosReq := cdev.qosReq

/-- The outcome with its state given as words. -/
def Outcome.map {S T : Type} (f : S → T) (out : Outcome S) : Outcome T :=
  ⟨out.ret, f out.state, out.attempts⟩

namespace Words

variable {params : CpuLimits} {cdev : CpufreqDevice} {req : Request}

/-- An outcome that uses no entry is safe. -/
theorem Outcome.matches_of_unused {S : Type} (expected : XiaomiModules.Outcome S) :
    (⟨expected, [], false⟩ : Outcome S).Matches expected :=
  ⟨⟨rfl, fun _ h => absurd h List.not_mem_nil⟩, rfl⟩

@[simp]
theorem toNat_maxLevel_words (cdev : CpufreqDevice) : cdev.words.maxLevel.toNat = cdev.maxLevel :=
  UInt32.toNat_ofNat_of_lt' cdev.maxLevel_lt

@[simp]
theorem toNat_cpufreqState_words (cdev : CpufreqDevice) :
    cdev.words.cpufreqState.toNat = cdev.cpufreqState :=
  UInt32.toNat_ofNat_of_lt' (cdev.cpufreqState_le.trans_lt cdev.maxLevel_lt)

theorem inTable_access {level : ℕ} : (cdev.words.access level).InTable ↔ level ≤ cdev.maxLevel := by
  rw [Access.InTable, Device.access, toNat_maxLevel_words]

theorem entry_words {level : ℕ} (hle : level ≤ cdev.maxLevel) :
    cdev.words.entry level = cdev.frequency level hle := by
  have hlt : level < cdev.freqTable.length := cdev.length_freqTable ▸ Nat.lt_succ_of_le hle
  exact (List.getElem_eq_getD 0 (h := hlt)).symm

theorem raisedFreq_words (params : CpuLimits) (cdev : CpufreqDevice) (req : Request) :
    raisedFreq params cdev.words req = XiaomiModules.raisedFreq params cdev req := by
  rw [raisedFreq, entry_words (Nat.zero_le _)]
  rfl

/-- **Moving the words** of a device to a level of its table moves the device, safely. -/
theorem cpufreqSetLevel_words {level : ℕ} (hle : level ≤ cdev.maxLevel) (answer : ℤ) :
    (cpufreqSetLevel cdev.words level answer).Matches
      ((XiaomiModules.cpufreqSetLevel cdev level answer).map CpufreqDevice.words) := by
  unfold cpufreqSetLevel XiaomiModules.cpufreqSetLevel
  rw [toNat_maxLevel_words, toNat_cpufreqState_words, if_neg hle.not_gt, dif_neg hle.not_gt]
  split_ifs with heq
  · exact Outcome.matches_of_unused _
  · rw [entry_words hle]
    exact ⟨⟨rfl, List.forall_mem_singleton.mpr (inTable_access.mpr hle)⟩, rfl⟩

/-- The step limiter computes in words what it computes in numbers. -/
theorem toNat_stepped {level : ℕ} (hle : level ≤ cdev.maxLevel) :
    (stepped params cdev.words req (UInt32.ofNat level)).toNat =
      if Limited params req ∧ level > stepLimit params cdev then stepLimit params cdev
      else level := by
  have hlevel : (UInt32.ofNat level).toNat = level :=
    UInt32.toNat_ofNat_of_lt' (hle.trans_lt cdev.maxLevel_lt)
  have hlimit : (cdev.words.cpufreqState + params.maxStep).toNat = stepLimit params cdev := by
    rw [UInt32.toNat_add, toNat_cpufreqState_words, stepLimit]
  have hcut : (params.maxStep ≠ 0 ∧ req.deviceTemp < params.hotTemp.toInt32 ∧
      UInt32.ofNat level > cdev.words.cpufreqState + params.maxStep) ↔
        Limited params req ∧ level > stepLimit params cdev := by
    rw [gt_iff_lt, UInt32.lt_iff_toNat_lt, hlevel, hlimit, ← and_assoc]
    rfl
  rw [stepped, apply_ite UInt32.toNat, hlimit, hlevel]
  exact if_congr hcut rfl rfl

/-- The loop finds what the search of the table finds from its level on, and uses no entry behind
the table. -/
theorem search_words (params : CpuLimits) (req : Request) (maxFreq : UInt32) {fuel level : ℕ}
    (h : level + fuel = cdev.maxLevel + 1) :
    (search params cdev.words req maxFreq fuel (UInt32.ofNat level)).1.map UInt32.toNat =
        ((cdev.freqTable.drop level).findIdx? (· ≤ maxFreq)).map (fun k =>
          if Limited params req ∧ level + k > stepLimit params cdev then stepLimit params cdev
          else level + k) ∧
      ∀ access ∈ (search params cdev.words req maxFreq fuel (UInt32.ofNat level)).2,
        access.InTable := by
  induction fuel generalizing level with
  | zero =>
    have hdrop : cdev.freqTable.drop level = [] :=
      List.drop_eq_nil_of_le (cdev.length_freqTable.trans h.symm).le
    rw [hdrop]
    exact ⟨rfl, fun _ hmem => absurd hmem List.not_mem_nil⟩
  | succ fuel ih =>
    have hle : level ≤ cdev.maxLevel := by omega
    have hlt : level < cdev.freqTable.length := cdev.length_freqTable ▸ Nat.lt_succ_of_le hle
    -- the counter does not wrap, since the levels are bounded by a word
    have hlevel : (UInt32.ofNat level).toNat = level :=
      UInt32.toNat_ofNat_of_lt' (hle.trans_lt cdev.maxLevel_lt)
    have hturn : UInt32.ofNat level ≤ cdev.words.maxLevel := by
      rw [UInt32.le_iff_toNat_le, hlevel, toNat_maxLevel_words]
      exact hle
    have hnext : UInt32.ofNat level + 1 = UInt32.ofNat (level + 1) :=
      (UInt32.ofNat_add level 1).symm
    have hsum : level + 1 + fuel = cdev.maxLevel + 1 := by omega
    obtain ⟨hfound, haccesses⟩ := ih hsum
    rw [search, if_pos hturn, hlevel, entry_words hle, List.drop_eq_getElem_cons hlt,
      List.findIdx?_cons, hnext]
    by_cases hadmit : cdev.frequency level hle ≤ maxFreq
    · -- the loop stops here
      have hadmit' : cdev.freqTable[level] ≤ maxFreq := hadmit
      simp only [ge_iff_le, hadmit, hadmit', if_true, decide_true]
      exact ⟨congrArg some (toNat_stepped hle),
        List.forall_mem_singleton.mpr (inTable_access.mpr hle)⟩
    · -- the loop goes on to the next entry
      have hadmit' : ¬ cdev.freqTable[level] ≤ maxFreq := hadmit
      simp only [ge_iff_le, hadmit, hadmit', if_false, decide_false, Bool.false_eq_true]
      refine ⟨hfound.trans ?_, List.forall_mem_cons.mpr ⟨inTable_access.mpr hle, haccesses⟩⟩
      simp only [Option.map_map, Function.comp_def, Nat.add_assoc, Nat.add_comm 1]

/-- The search of the words finds the level that the search of the device finds. -/
theorem search_words_zero (params : CpuLimits) (cdev : CpufreqDevice) (req : Request) :
    let result := search params cdev.words req (XiaomiModules.raisedFreq params cdev req)
      (cdev.maxLevel + 1) 0
    result.1.map UInt32.toNat = searchLevel params cdev req ∧
      ∀ access ∈ result.2, access.InTable := by
  obtain ⟨hfound, haccesses⟩ := search_words params req
    (XiaomiModules.raisedFreq params cdev req) (Nat.zero_add (cdev.maxLevel + 1))
  refine ⟨hfound.trans ?_, haccesses⟩
  simp only [List.drop_zero, Nat.zero_add]
  rfl

theorem le_of_searchLevel {level : ℕ} (h : searchLevel params cdev req = some level) :
    level ≤ cdev.maxLevel := by
  rw [searchLevel_eq] at h
  split_ifs at h with hfound
  obtain rfl := Option.some.inj h
  exact (limitedLevel_le params cdev req).trans hfound

/-- Entries of the table used before leave a safe outcome safe. -/
theorem Outcome.Matches.prepend {out : Outcome Device} {expected : XiaomiModules.Outcome Device}
    (h : out.Matches expected) {accesses : List Access}
    (haccesses : ∀ access ∈ accesses, access.InTable) :
    ({ out with accesses := accesses ++ out.accesses } : Outcome Device).Matches expected :=
  ⟨⟨h.warned, List.forall_mem_append.mpr ⟨haccesses, h.accesses⟩⟩, h.outcome⟩

/-- The fallback of the words is the fallback of the device. -/
theorem fallBack_words {out : Outcome Device} {ref : XiaomiModules.Outcome CpufreqDevice}
    (h : out.Matches (ref.map CpufreqDevice.words)) (answer : ℤ) :
    (fallBack out answer).Matches (XiaomiModules.Outcome.map CpufreqDevice.words
      (if ref.ret = -ENODEV then
        let fallback := XiaomiModules.cpufreqSetLevel ref.state ref.state.maxLevel answer
        { fallback with attempts := ref.attempts ++ fallback.attempts }
      else ref)) := by
  obtain ⟨⟨hwarned, haccesses⟩, houtcome⟩ := h
  obtain ⟨base, accesses, warned⟩ := out
  obtain rfl : base = ref.map CpufreqDevice.words := houtcome
  have hlevel : (ref.map CpufreqDevice.words).state.maxLevel.toNat = ref.state.maxLevel :=
    toNat_maxLevel_words _
  unfold fallBack
  by_cases hret : ref.ret = -ENODEV
  · rw [if_pos hret, if_pos (show (ref.map CpufreqDevice.words).ret = -ENODEV from hret), hlevel]
    obtain ⟨⟨hwarned', haccesses'⟩, houtcome'⟩ :=
      cpufreqSetLevel_words (le_refl ref.state.maxLevel) answer
    refine ⟨⟨Bool.or_eq_false_iff.mpr ⟨hwarned, hwarned'⟩,
      List.forall_mem_append.mpr ⟨haccesses, haccesses'⟩⟩, ?_⟩
    exact congrArg (fun fallback : XiaomiModules.Outcome Device =>
      (⟨fallback.ret, fallback.state, ref.attempts ++ fallback.attempts⟩ :
        XiaomiModules.Outcome Device)) houtcome'
  · rw [if_neg hret, if_neg (show (ref.map CpufreqDevice.words).ret ≠ -ENODEV from hret)]
    exact ⟨⟨hwarned, haccesses⟩, rfl⟩

/-- **The body on words** does what the body does on the device, safely. -/
theorem setDeviceLevel_words (params : CpuLimits) (cdev : CpufreqDevice) (req : Request) :
    (setDeviceLevel params cdev.words req).Matches
      ((XiaomiModules.setDeviceLevel params cdev req).map CpufreqDevice.words) := by
  by_cases hmax : req.maxFreq = 0
  · rw [setDeviceLevel, if_pos hmax, setDeviceLevel_of_release hmax]
    exact cpufreqSetLevel_words (Nat.zero_le _) _
  rw [setDeviceLevel, if_neg hmax, raisedFreq_words, toNat_maxLevel_words,
    XiaomiModules.setDeviceLevel, if_neg hmax]
  have hfirst : (cdev.words.access 0).InTable := inTable_access.mpr (Nat.zero_le _)
  have hle : ∀ level, searchLevel params cdev req = some level → level ≤ cdev.maxLevel :=
    fun level => le_of_searchLevel
  obtain ⟨hsearch, haccesses⟩ := search_words_zero params cdev req
  rw [← hsearch] at hle ⊢
  generalize search params cdev.words req (XiaomiModules.raisedFreq params cdev req)
    (cdev.maxLevel + 1) 0 = result at hle haccesses ⊢
  obtain ⟨found, accesses⟩ := result
  have hused := List.forall_mem_cons.mpr ⟨hfirst, haccesses⟩
  refine fallBack_words (Outcome.Matches.prepend ?_ hused) req.fallbackAnswer
  -- the level found is passed on, if there is one
  cases found with
  | none => exact Outcome.matches_of_unused _
  | some level => exact cpufreqSetLevel_words (hle level.toNat rfl) req.answer

/-! ## Calls and runs -/

theorem setListLevel_words (params : CpuLimits) (req : Request) (devs : List CpufreqDevice) :
    (setListLevel params req (devs.map CpufreqDevice.words)).Matches
      ((XiaomiModules.setListLevel params req devs).map (List.map CpufreqDevice.words)) := by
  induction devs with
  | nil => exact Outcome.matches_of_unused _
  | cons cdev devs ih =>
    rw [List.map_cons, setListLevel, XiaomiModules.setListLevel]
    by_cases hcpu : req.cpu ∈ cdev.policy.relatedCpus
    · rw [if_pos hcpu, if_pos (show req.cpu ∈ cdev.words.policy.relatedCpus from hcpu)]
      obtain ⟨hsafe, houtcome⟩ := setDeviceLevel_words params cdev req
      exact ⟨⟨hsafe.warned, hsafe.accesses⟩, congrArg (XiaomiModules.Outcome.map
        (· :: devs.map CpufreqDevice.words)) houtcome⟩
    · rw [if_neg hcpu, if_neg (show req.cpu ∉ cdev.words.policy.relatedCpus from hcpu)]
      obtain ⟨hsafe, houtcome⟩ := ih
      exact ⟨⟨hsafe.warned, hsafe.accesses⟩, congrArg (XiaomiModules.Outcome.map
        (cdev.words :: ·)) houtcome⟩

/-- **A call on words** does what the call does on the devices, safely. -/
theorem cpuLimitsSetLevel_words (params : CpuLimits) (devs : List CpufreqDevice) (req : Request) :
    (cpuLimitsSetLevel params (devs.map CpufreqDevice.words) req).Matches
      ((XiaomiModules.cpuLimitsSetLevel params devs req).map (List.map CpufreqDevice.words)) := by
  unfold cpuLimitsSetLevel XiaomiModules.cpuLimitsSetLevel
  split_ifs
  · exact setListLevel_words params req devs
  · exact Outcome.matches_of_unused _

/-- **A run on words** goes where the run goes on the devices. -/
theorem after_words (devs : List CpufreqDevice) (calls : List Call) :
    Runs.after callStep (devs.map CpufreqDevice.words) calls =
      (Runs.after XiaomiModules.callStep devs calls).map CpufreqDevice.words := by
  have hstep : ∀ devs (c : Call), (XiaomiModules.callStep devs c).map CpufreqDevice.words =
      callStep (devs.map CpufreqDevice.words) (id c) := by
    intro devs c
    have hcall := (cpuLimitsSetLevel_words c.params devs c.req).outcome
    exact (congrArg XiaomiModules.Outcome.state hcall).symm
  have hrun := Runs.after_simulation (I := fun _ => True) (fun _ _ _ => trivial)
    (fun devs c _ => hstep devs c) (s := devs) trivial calls
  rw [hrun, List.map_id]

/-! ## The initialisation -/

/-- The loop fills the table from its index on, and uses no entry behind it. -/
theorem fillTable_words (policyTable : List UInt32) {maxLevel : UInt32} {fuel i : ℕ}
    (h : i + fuel = maxLevel.toNat + 1) (freq : UInt32) {table : List UInt32}
    (hlen : table.length = maxLevel.toNat + 1) :
    (fillTable policyTable maxLevel fuel (UInt32.ofNat i) freq table).1 =
        table.take i ++ fillFreqTable policyTable fuel freq ∧
      ∀ access ∈ (fillTable policyTable maxLevel fuel (UInt32.ofNat i) freq table).2,
        access.InTable := by
  induction fuel generalizing i freq table with
  | zero =>
    have hall : table.take i = table := List.take_of_length_le (hlen.trans h.symm).le
    rw [hall]
    exact ⟨(List.append_nil table).symm, fun _ hmem => absurd hmem List.not_mem_nil⟩
  | succ fuel ih =>
    have hle : i ≤ maxLevel.toNat := by omega
    -- the counter does not wrap
    have hi : (UInt32.ofNat i).toNat = i :=
      UInt32.toNat_ofNat_of_lt' (hle.trans_lt maxLevel.toNat_lt)
    have hturn : UInt32.ofNat i ≤ maxLevel := by
      rw [UInt32.le_iff_toNat_le, hi]
      exact hle
    have hnext : UInt32.ofNat i + 1 = UInt32.ofNat (i + 1) := (UInt32.ofNat_add i 1).symm
    have hsum : i + 1 + fuel = maxLevel.toNat + 1 := by omega
    -- what is filled later does not change the entries up to this one
    have hset : (table.set i (findNextMax policyTable freq)).length = maxLevel.toNat + 1 := by
      rw [List.length_set, hlen]
    obtain ⟨htable, haccesses⟩ := ih hsum (findNextMax policyTable freq) hset
    rw [fillTable, if_pos hturn, hi, hnext]
    refine ⟨htable.trans ?_, List.forall_mem_cons.mpr ⟨hle, haccesses⟩⟩
    have hlt : i < table.length := hlen ▸ Nat.lt_succ_of_le hle
    rw [fillFreqTable, List.take_add_one, List.take_set_of_le le_rfl,
      List.getElem?_set_self hlt, List.append_assoc]
    rfl

/-- The count of a policy's valid entries fits into a word. -/
theorem toNat_countValidEntries (policy : CpufreqPolicy) :
    (UInt32.ofNat (countValidEntries policy.freqTable)).toNat =
      countValidEntries policy.freqTable := by
  refine UInt32.toNat_ofNat_of_lt' ?_
  calc countValidEntries policy.freqTable ≤ policy.freqTable.length := countValidEntries_le _
    _ < 2 ^ 31 := policy.length_freqTable
    _ < UInt32.size := by decide

/-- The loop builds the words of the device, within its table. -/
theorem initCpufreqDevice_words (heap : ℕ → UInt32) (cpu : ℕ) (policy : CpufreqPolicy)
    (h : 0 < countValidEntries policy.freqTable) :
    (initCpufreqDevice heap cpu policy).1 =
        (XiaomiModules.initCpufreqDevice cpu policy h).words ∧
      ∀ access ∈ (initCpufreqDevice heap cpu policy).2, access.InTable := by
  have hcount := toNat_countValidEntries policy
  have hone : (1 : UInt32) ≤ UInt32.ofNat (countValidEntries policy.freqTable) := by
    rw [UInt32.le_iff_toNat_le, hcount]
    exact h
  -- the last level is the count less one, so the loop turns once for each entry counted
  have hmax : (UInt32.ofNat (countValidEntries policy.freqTable) - 1).toNat + 1 =
      countValidEntries policy.freqTable := by
    rw [UInt32.toNat_sub_of_le _ _ hone, hcount]
    exact Nat.sub_add_cancel h
  have hlen : ((List.range (countValidEntries policy.freqTable)).map heap).length =
      (UInt32.ofNat (countValidEntries policy.freqTable) - 1).toNat + 1 := by
    rw [List.length_map, List.length_range, hmax]
  obtain ⟨htable, haccesses⟩ :=
    fillTable_words policy.freqTable (Nat.zero_add _) uintMax hlen
  simp only [initCpufreqDevice, hcount]
  change _ = List.take 0 _ ++ _ at htable
  rw [List.take_zero, List.nil_append, hmax] at htable
  rw [hmax] at haccesses ⊢
  generalize fillTable policy.freqTable _ (countValidEntries policy.freqTable) _ uintMax _ =
    result at htable haccesses ⊢
  obtain ⟨freqTable, accesses⟩ := result
  obtain rfl := htable
  have hfirst := CpufreqDevice.head_fillFreqTable policy.freqTable h uintMax
  refine ⟨?_, List.forall_mem_append.mpr ⟨haccesses, ?_⟩⟩
  · have hlevel : UInt32.ofNat (countValidEntries policy.freqTable) - 1 =
        UInt32.ofNat (countValidEntries policy.freqTable - 1) := by
      rw [← Nat.eq_sub_of_add_eq hmax, UInt32.ofNat_toNat]
    -- the request starts at the entry of level 0
    have hvalue : (fillFreqTable policy.freqTable (countValidEntries policy.freqTable)
        uintMax).getD 0 0 = findNextMax policy.freqTable uintMax := by
      rw [List.getD_eq_getElem?_getD, hfirst]
      rfl
    rw [hvalue, hlevel]
    rfl
  · exact List.forall_mem_singleton.mpr (Nat.zero_le _)

/-- The loop body on words does what it does on devices, within the tables. -/
theorem initCpu_words (heap : ℕ → UInt32) (probe : CpuProbe) :
    (initCpu heap probe).1 = (XiaomiModules.initCpu probe).1 ∧
      (initCpu heap probe).2.1 = (XiaomiModules.initCpu probe).2.1.map CpufreqDevice.words ∧
      ∀ access ∈ (initCpu heap probe).2.2, access.InTable := by
  have hnil : ∀ access ∈ ([] : List Access), access.InTable :=
    fun _ h => absurd h List.not_mem_nil
  unfold initCpu XiaomiModules.initCpu
  cases probe.policy with
  | none => exact ⟨rfl, rfl, hnil⟩
  | some policy =>
    dsimp only
    -- the count fits a word, so it is 0 in both models or in none
    have hcount : UInt32.ofNat (countValidEntries policy.freqTable) = 0 ↔
        countValidEntries policy.freqTable = 0 := by
      rw [← UInt32.toNat_inj, toNat_countValidEntries]
      rfl
    by_cases hzero : countValidEntries policy.freqTable = 0
    · rw [if_pos (hcount.mpr hzero), dif_pos hzero]
      exact ⟨rfl, rfl, hnil⟩
    obtain ⟨hdevice, haccesses⟩ :=
      initCpufreqDevice_words heap probe.cpu policy (Nat.pos_of_ne_zero hzero)
    rw [if_neg fun h => hzero (hcount.mp h), dif_neg hzero]
    split_ifs
    · exact ⟨rfl, rfl, haccesses⟩
    · exact ⟨rfl, congrArg some hdevice, haccesses⟩
    · exact ⟨rfl, rfl, hnil⟩
    · exact ⟨rfl, rfl, hnil⟩

/-- **The initialisation on words** builds the words of the devices, within their tables. -/
theorem miThermalInitCpufreq_words (heap : ℕ → UInt32) (ret : ℤ) (devs : List CpufreqDevice)
    (probes : List CpuProbe) :
    (miThermalInitCpufreq heap ret (devs.map CpufreqDevice.words) probes).ret =
        (XiaomiModules.miThermalInitCpufreq ret devs probes).ret ∧
      (miThermalInitCpufreq heap ret (devs.map CpufreqDevice.words) probes).devs =
        (XiaomiModules.miThermalInitCpufreq ret devs probes).devs.map CpufreqDevice.words ∧
      ∀ access ∈ (miThermalInitCpufreq heap ret (devs.map CpufreqDevice.words) probes).accesses,
        access.InTable := by
  induction probes generalizing ret devs with
  | nil => exact ⟨rfl, rfl, fun _ h => absurd h List.not_mem_nil⟩
  | cons probe probes ih =>
    obtain ⟨hret, hdev, haccesses⟩ := initCpu_words heap probe
    rw [miThermalInitCpufreq, XiaomiModules.miThermalInitCpufreq]
    generalize initCpu heap probe = words at hret hdev haccesses ⊢
    generalize XiaomiModules.initCpu probe = built at hret hdev ⊢
    obtain ⟨ret', dev', accesses⟩ := words
    obtain ⟨ret', dev, calls⟩ := built
    dsimp only at hret hdev
    obtain rfl := hret
    obtain rfl := hdev
    cases dev with
    | none => exact ⟨rfl, rfl, haccesses⟩
    | some cdev =>
      -- the device is put before the ones built so far, and the loop goes on
      obtain ⟨hret, hdevs, haccesses'⟩ := ih ret' (cdev :: devs)
      exact ⟨hret, hdevs, List.forall_mem_append.mpr ⟨haccesses, haccesses'⟩⟩

/-- **Level safety**: an initialisation uses entries of the tables only; and after it and any run of
calls every device is at a level of its table, whose length is `max_level + 1`, and every further
call uses entries of the tables only and does not warn. -/
theorem level_safe (heap : ℕ → UInt32) (probes : List CpuProbe) (calls : List Call) :
    let init := miThermalInitCpufreq heap 0 [] probes
    let devs := Runs.after callStep init.devs calls
    (∀ access ∈ init.accesses, access.InTable) ∧
      (∀ cdev ∈ devs,
        cdev.cpufreqState ≤ cdev.maxLevel ∧ cdev.freqTable.length = cdev.maxLevel.toNat + 1) ∧
      ∀ c : Call, (cpuLimitsSetLevel c.params devs c.req).Safe := by
  obtain ⟨-, hdevs, haccesses⟩ := miThermalInitCpufreq_words heap 0 [] probes
  intro init devs
  have hrun : devs = (Runs.after XiaomiModules.callStep
      (XiaomiModules.miThermalInitCpufreq 0 [] probes).devs calls).map CpufreqDevice.words := by
    rw [← after_words, ← hdevs]
    rfl
  rw [hrun]
  refine ⟨haccesses, ?_, fun c => (cpuLimitsSetLevel_words c.params _ c.req).toSafe⟩
  intro words hmem
  obtain ⟨cdev, -, rfl⟩ := List.mem_map.mp hmem
  rw [UInt32.le_iff_toNat_le, toNat_maxLevel_words, toNat_cpufreqState_words]
  exact ⟨cdev.cpufreqState_le, cdev.length_freqTable⟩

end Words

end XiaomiModules
