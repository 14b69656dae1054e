import XiaomiModules.Thermal.Selection

/-!
# Initialising the devices

`mi_thermal_init_cpufreq` builds one device for each possible CPU and adds it at the head of the
list. It stops at the first CPU for which a kernel call fails, undoing that CPU's own calls and
leaving the devices of the CPUs before it in the list.

## Main definitions

* `CpuProbe`: what the kernel answers for one CPU
* `KernelCall`: the calls that take or give back something
* `initCpu`, `miThermalInitCpufreq`: the loop body and the loop
* `buildingCalls`, `failingCalls`: the calls of the loop body, up to its end or an error

## Main results

* `initCpu_inv`: what the loop body does
* `mem_miThermalInitCpufreq`: every device was built for one of the CPUs
* `CpufreqDevice.Fresh.cpufreqState_eq`, `CpufreqDevice.Fresh.synced`: it is at level 0 with the
  greatest frequency standing
-/

namespace XiaomiModules

/-- What the kernel answers while the device of one possible CPU is built: the policy, the two
allocations and `freq_qos_add_request`. -/
structure CpuProbe where
  cpu : ℕ
  policy : Option CpufreqPolicy
  deviceAllocated : Bool
  tableAllocated : Bool
  answer : ℤ

/-- The kernel calls that take or give back a policy reference, memory or a QoS request, with the
CPU they are made for. -/
inductive KernelCall
  | getPolicy (cpu : ℕ)
  | putPolicy (cpu : ℕ)
  | allocDevice (cpu : ℕ)
  | freeDevice (cpu : ℕ)
  | allocTable (cpu : ℕ)
  | freeTable (cpu : ℕ)
  | addRequest (cpu : ℕ)
deriving DecidableEq

/-- The body of the loop for one CPU: the value of `ret`, the device if it was added, and the
calls made. -/
def initCpu (probe : CpuProbe) : ℤ × Option CpufreqDevice × List KernelCall :=
  let cpu := probe.cpu
  match probe.policy with
  | none => (-ESRCH, none, [])
  | some policy =>
    if h : countValidEntries policy.freqTable = 0 then
      (-ENODEV, none, [.getPolicy cpu, .putPolicy cpu])
    else if ¬ probe.deviceAllocated then
      (-ENOMEM, none, [.getPolicy cpu, .putPolicy cpu])
    else if ¬ probe.tableAllocated then
      (-ENOMEM, none, [.getPolicy cpu, .allocDevice cpu, .putPolicy cpu, .freeDevice cpu])
    else
      let cpufreqDev := initCpufreqDevice cpu policy (Nat.pos_of_ne_zero h)
      if probe.answer < 0 then
        (probe.answer, none, [.getPolicy cpu, .allocDevice cpu, .allocTable cpu, .putPolicy cpu,
          .freeTable cpu, .freeDevice cpu])
      else
        (probe.answer, some cpufreqDev, [.getPolicy cpu, .allocDevice cpu, .allocTable cpu,
          .addRequest cpu])

/-- What the initialisation leads to: its return value, the list, and the calls made. -/
structure InitOutcome where
  ret : ℤ
  devs : List CpufreqDevice
  calls : List KernelCall

/-- `mi_thermal_init_cpufreq()` from the CPU reached, with the value of `ret` and the list so
far. -/
def miThermalInitCpufreq (ret : ℤ) (devs : List CpufreqDevice) : List CpuProbe → InitOutcome
  | [] => ⟨ret, devs, []⟩
  | probe :: probes =>
    match initCpu probe with
    | (ret, none, calls) => ⟨ret, devs, calls⟩
    | (ret, some cpufreqDev, calls) =>
      let out := miThermalInitCpufreq ret (cpufreqDev :: devs) probes
      { out with calls := calls ++ out.calls }

/-- The device is one that the loop builds from its policy, at level 0. -/
def CpufreqDevice.Fresh (cdev : CpufreqDevice) : Prop :=
  ∃ cpu h, cdev = initCpufreqDevice cpu cdev.policy h

/-- The calls that build a device, in their order. -/
def buildingCalls (cpu : ℕ) : List KernelCall :=
  [.getPolicy cpu, .allocDevice cpu, .allocTable cpu, .addRequest cpu]

/-- The calls made where the loop body ends in an error: without a policy, without valid entries or
a device, without a table, and without the request. -/
def failingCalls (cpu : ℕ) : List (List KernelCall) :=
  [[], [.getPolicy cpu, .putPolicy cpu],
    [.getPolicy cpu, .allocDevice cpu, .putPolicy cpu, .freeDevice cpu],
    [.getPolicy cpu, .allocDevice cpu, .allocTable cpu, .putPolicy cpu, .freeTable cpu,
      .freeDevice cpu]]

/-- **The loop body** builds a device where every call succeeds, and ends in an error elsewhere. -/
theorem initCpu_inv (probe : CpuProbe) :
    (∃ policy, ∃ h : 0 < countValidEntries policy.freqTable,
      (probe.policy = some policy ∧ probe.deviceAllocated = true ∧ probe.tableAllocated = true ∧
        0 ≤ probe.answer) ∧
      initCpu probe = (probe.answer, some (initCpufreqDevice probe.cpu policy h),
        buildingCalls probe.cpu)) ∨
    (∀ policy, probe.policy = some policy → 0 < countValidEntries policy.freqTable →
      probe.deviceAllocated = true → probe.tableAllocated = true → probe.answer < 0) ∧
      ∃ ret, ∃ calls ∈ failingCalls probe.cpu, initCpu probe = (ret, none, calls) := by
  unfold initCpu
  cases hpolicy : probe.policy with
  | none => exact Or.inr ⟨fun _ h => absurd h nofun, _, _, List.mem_cons_self, rfl⟩
  | some policy =>
    dsimp only
    split_ifs with hcount hdevice htable hanswer
    · refine Or.inr ⟨fun other h hpos => ?_, _, _, by simp [failingCalls], rfl⟩
      obtain rfl := Option.some.inj h
      exact absurd hcount hpos.ne'
    · exact Or.inr ⟨fun _ _ _ _ _ => hanswer, _, _, by simp [failingCalls], rfl⟩
    · exact Or.inl ⟨policy, Nat.pos_of_ne_zero hcount,
        ⟨rfl, hdevice, htable, not_lt.mp hanswer⟩, rfl⟩
    · exact Or.inr ⟨fun _ _ _ _ h => absurd h htable, _, _, by simp [failingCalls], rfl⟩
    · exact Or.inr ⟨fun _ _ _ h => absurd h hdevice, _, _, by simp [failingCalls], rfl⟩

theorem initCpu_some {probe : CpuProbe} {ret : ℤ} {cdev : CpufreqDevice}
    {calls : List KernelCall} (h : initCpu probe = (ret, some cdev, calls)) :
    cdev.Fresh ∧ probe.policy = some cdev.policy := by
  rcases initCpu_inv probe with ⟨policy, hpos, ⟨hpolicy, -⟩, hinit⟩ | ⟨-, ret', calls', -, hinit⟩
  · rw [hinit, Prod.mk.injEq, Prod.mk.injEq, Option.some.injEq] at h
    obtain ⟨-, rfl, -⟩ := h
    exact ⟨⟨probe.cpu, hpos, rfl⟩, hpolicy⟩
  · rw [hinit] at h
    cases h

/-- **Every device of the list** was there before, or was built for one of the CPUs from its
policy. -/
theorem mem_miThermalInitCpufreq {ret : ℤ} {devs : List CpufreqDevice} {probes : List CpuProbe}
    {cdev : CpufreqDevice} (h : cdev ∈ (miThermalInitCpufreq ret devs probes).devs) :
    cdev ∈ devs ∨ cdev.Fresh ∧ ∃ probe ∈ probes, probe.policy = some cdev.policy := by
  induction probes generalizing ret devs with
  | nil => exact Or.inl h
  | cons probe probes ih =>
    rw [miThermalInitCpufreq] at h
    split at h
    · exact Or.inl h
    · rename_i cpufreqDev calls hinit
      obtain ⟨hfresh, hpolicy⟩ := initCpu_some hinit
      rcases ih h with hmem | ⟨hfresh', other, hother, hpolicy'⟩
      · rcases List.mem_cons.mp hmem with rfl | hmem
        · exact Or.inr ⟨hfresh, probe, List.mem_cons_self, hpolicy⟩
        · exact Or.inl hmem
      · exact Or.inr ⟨hfresh', other, List.mem_cons_of_mem _ hother, hpolicy'⟩

namespace CpufreqDevice

/-- The table is the one filled from the policy. -/
def Built (cdev : CpufreqDevice) : Prop :=
  cdev.freqTable =
    fillFreqTable cdev.policy.freqTable (countValidEntries cdev.policy.freqTable) uintMax

variable {cdev other : CpufreqDevice}

theorem Fresh.cpufreqState_eq (h : cdev.Fresh) : cdev.cpufreqState = 0 := by
  obtain ⟨cpu, hpos, heq⟩ := h
  rw [heq]
  rfl

theorem Fresh.built (h : cdev.Fresh) : cdev.Built := by
  obtain ⟨cpu, hpos, heq⟩ := h
  rw [heq]
  rfl

theorem Built.countValidEntries_eq (h : cdev.Built) :
    countValidEntries cdev.policy.freqTable = cdev.maxLevel + 1 := by
  rw [← cdev.length_freqTable, h, length_fillFreqTable]

/-- The levels with frequencies come first, one for each distinct frequency; those behind them have
zeros. -/
theorem Built.frequency_ne_zero_iff (h : cdev.Built) {level : ℕ} (hle : level ≤ cdev.maxLevel) :
    cdev.frequency level hle ≠ 0 ↔ level < distinctCount cdev.policy.freqTable := by
  have hlt : level < (fillFreqTable cdev.policy.freqTable
      (countValidEntries cdev.policy.freqTable) uintMax).length := by
    rw [length_fillFreqTable, h.countValidEntries_eq]
    exact Nat.lt_succ_of_le hle
  have hentry : cdev.frequency level hle = (fillFreqTable cdev.policy.freqTable
      (countValidEntries cdev.policy.freqTable) uintMax)[level] := by
    unfold Built at h
    simp only [frequency, h]
  rw [hentry, getElem_fillFreqTable_ne_zero_iff, distinctCount]

theorem Built.eq_zero_or_mem (h : cdev.Built) {frequency : UInt32}
    (hmem : frequency ∈ cdev.freqTable) :
    frequency = 0 ∨ frequency ∈ validEntries cdev.policy.freqTable := by
  rw [h] at hmem
  exact eq_zero_or_mem_of_mem_fillFreqTable hmem

/-- The table holds every valid frequency that is not 0. -/
theorem Built.mem_freqTable (h : cdev.Built) (hzero : 0 ∉ validEntries cdev.policy.freqTable)
    {frequency : UInt32} (hmem : frequency ∈ validEntries cdev.policy.freqTable) :
    frequency ∈ cdev.freqTable := by
  rw [h]
  exact mem_fillFreqTable (distinctCount_le _) ((mem_distinctBelow_uintMax hzero).mpr hmem)

/-- The levels with valid frequencies, where none of these is 0. -/
theorem Built.frequency_mem_validEntries_iff (h : cdev.Built)
    (hzero : 0 ∉ validEntries cdev.policy.freqTable) {level : ℕ} (hle : level ≤ cdev.maxLevel) :
    cdev.frequency level hle ∈ validEntries cdev.policy.freqTable ↔
      level < distinctCount cdev.policy.freqTable := by
  rw [← h.frequency_ne_zero_iff hle]
  constructor
  · rintro hmem hfreq
    rw [hfreq] at hmem
    exact hzero hmem
  · exact (h.eq_zero_or_mem (mem_freqTable_iff.mpr ⟨level, hle, rfl⟩)).resolve_left

/-- The first entry of a table with valid entries is the greatest valid frequency. -/
theorem head_fillFreqTable (table : List UInt32) {count : ℕ} (h : 0 < count) (freq : UInt32) :
    (fillFreqTable table count freq)[0]? = some (findNextMax table freq) := by
  cases count with
  | zero => exact absurd h (lt_irrefl 0)
  | succ count => rfl

/-- The request of a fresh device holds the greatest frequency. -/
theorem Fresh.synced (h : cdev.Fresh) : cdev.Synced := by
  obtain ⟨cpu, hpos, heq⟩ := h
  have hhead := head_fillFreqTable cdev.policy.freqTable hpos uintMax
  rw [heq, Synced, cap, frequency]
  refine Option.some.inj (hhead.symm.trans ?_)
  exact List.getElem?_eq_getElem _

end CpufreqDevice

end XiaomiModules
