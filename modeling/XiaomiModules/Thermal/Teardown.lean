import XiaomiModules.Thermal.Load

/-!
# Building and destroying the devices

CPUs share policies, and `cpufreq_cpu_get` counts one more reference of a policy for each CPU that
asks for it. `mi_thermal_init_cpufreq` keeps four things for each device it adds to the list, and at
each of its error exits gives back what it took for the CPU that failed, so what is held after it is
what the devices of the list hold. `mi_thermal_destroy_cpufreq` gives back just that.

## Main definitions

* `PossibleCpus`: the CPUs and what the kernel answers for each of them
* `CpuResource`: what is taken for a CPU, with the policy itself in place of the CPU that asked
* `CpufreqTeardown.miThermalDestroyCpufreq`: the function, with the list it leaves
* `PossibleCpus.Restored`: everything is given back once, and the list is empty

## Main results

* `PossibleCpus.exists_entries_initCpu`: what the loop body takes and gives back
* `PossibleCpus.run_miThermalInitCpufreq`: what is held after the loop
* `CpufreqTeardown.run_miThermalDestroyCpufreq`: what is given back
* `PossibleCpus.restored`: wherever the loop stops, the two together restore what was held
* `PossibleCpus.map_object_entries`: the ledger of a load records the same
-/

namespace XiaomiModules

open Ledger (Entry run)

/-- The possible CPUs, each visited once, and what the kernel answers for each: its policy if it has
one, which CPUs may share, the two allocations, and `freq_qos_add_request`. -/
structure PossibleCpus where
  cpus : List ℕ
  policyOf : ℕ → Option CpufreqPolicy
  deviceAllocated : ℕ → Bool
  tableAllocated : ℕ → Bool
  answer : ℕ → ℤ
  nodup_cpus : cpus.Nodup

/-- A reference of a policy, the allocations for a CPU, and its request among those of a policy. -/
inductive CpuResource
  | policy (policy : Option CpufreqPolicy)
  | device (cpu : ℕ)
  | table (cpu : ℕ)
  | qosRequest (policy : Option CpufreqPolicy) (cpu : ℕ)
deriving DecidableEq

/-- The CPU the resource is for; references are for no CPU. -/
def CpuResource.cpu? : CpuResource → Option ℕ
  | .policy _ => none
  | .device cpu => some cpu
  | .table cpu => some cpu
  | .qosRequest _ cpu => some cpu

/-- What a device of the list holds. -/
def CpufreqDevice.holds (cdev : CpufreqDevice) : List CpuResource :=
  [.policy (some cdev.policy), .device cdev.qosReq.cpu, .table cdev.qosReq.cpu,
    .qosRequest (some cdev.policy) cdev.qosReq.cpu]

/-! ## Destroying -/

namespace CpufreqTeardown

/-- What a teardown leads to: the list, and what was given back. -/
structure Outcome where
  devs : List CpufreqDevice
  entries : List (Entry CpuResource)

/-- The entries of one device; the pointers that are checked were set by the initialisation. A
request is removed from the policy it was added to, which is the device's. -/
def release (pos : CpufreqDevice) : List (Entry CpuResource) :=
  [.give (.qosRequest (some pos.policy) pos.qosReq.cpu), .give (.policy (some pos.policy)),
    .give (.table pos.qosReq.cpu), .give (.device pos.qosReq.cpu)]

/-- The loop over the devices left to visit, with the list as it stands. -/
def destroyEach : List CpufreqDevice → List CpufreqDevice → Outcome
  | [], devs => ⟨devs, []⟩
  | pos :: rest, devs =>
    let out := destroyEach rest (devs.erase pos)
    { out with entries := release pos ++ out.entries }

/-- `mi_thermal_destroy_cpufreq()`. -/
def miThermalDestroyCpufreq (devs : List CpufreqDevice) : Outcome := destroyEach devs devs

/-- What the devices of a list hold. -/
def holdings (devs : List CpufreqDevice) : List CpuResource := devs.flatMap CpufreqDevice.holds

/-- Each device visited is the first of the list. -/
theorem devs_destroyEach (devs : List CpufreqDevice) : (destroyEach devs devs).devs = [] := by
  induction devs with
  | nil => rfl
  | cons pos rest ih =>
    rw [destroyEach]
    dsimp only
    rw [List.erase_cons_head, ih]

theorem run_release (pos : CpufreqDevice) (m : Multiset CpuResource) :
    run (release pos) (pos.holds + m) = some m := by
  have hperm : pos.holds.Perm [.qosRequest (some pos.policy) pos.qosReq.cpu,
      .policy (some pos.policy), .table pos.qosReq.cpu, .device pos.qosReq.cpu] :=
    (List.perm_append_singleton _ [_, _, _]).trans (((List.Perm.swap _ _ []).cons _).cons _)
  rw [Multiset.coe_eq_coe.mpr hperm]
  exact Ledger.run_map_give [_, _, _, _] m

/-- **Destroying** gives back what the devices hold, and nothing else. -/
theorem run_miThermalDestroyCpufreq (devs : List CpufreqDevice) (m : Multiset CpuResource) :
    run (miThermalDestroyCpufreq devs).entries (holdings devs + m) = some m := by
  unfold miThermalDestroyCpufreq
  induction devs generalizing m with
  | nil => exact congrArg some (Multiset.zero_add m)
  | cons pos rest ih =>
    have hholds : (holdings (pos :: rest) + m : Multiset CpuResource) =
        pos.holds + (holdings rest + m) := by
      rw [holdings, List.flatMap_cons, ← Multiset.coe_add, Multiset.add_assoc]
      rfl
    rw [destroyEach]
    dsimp only
    rw [List.erase_cons_head, hholds, Ledger.run_append_of_run (run_release pos _), ih]

theorem count_take_destroyEach (rest devs : List CpufreqDevice) (r : CpuResource) :
    (destroyEach rest devs).entries.count (.take r) = 0 := by
  induction rest generalizing devs with
  | nil => rfl
  | cons pos rest ih =>
    rw [destroyEach, List.count_append, ih]
    simp [release]

end CpufreqTeardown

/-! ## Building -/

namespace PossibleCpus

open CpufreqTeardown (holdings)

/-- The kernel's answers for one CPU. -/
def probe (s : PossibleCpus) (cpu : ℕ) : CpuProbe :=
  ⟨cpu, s.policyOf cpu, s.deviceAllocated cpu, s.tableAllocated cpu, s.answer cpu⟩

/-- What a call takes or gives back. `cpufreq_cpu_put` is given the policy that
`cpufreq_cpu_get` returned, and the request is added to that policy. -/
def entry (s : PossibleCpus) : KernelCall → Entry CpuResource
  | .getPolicy cpu => .take (.policy (s.policyOf cpu))
  | .putPolicy cpu => .give (.policy (s.policyOf cpu))
  | .allocDevice cpu => .take (.device cpu)
  | .freeDevice cpu => .give (.device cpu)
  | .allocTable cpu => .take (.table cpu)
  | .freeTable cpu => .give (.table cpu)
  | .addRequest cpu => .take (.qosRequest (s.policyOf cpu) cpu)

/-- What the loop body takes for a CPU, in its order, as far as it gets. -/
def wanted (s : PossibleCpus) (cpu : ℕ) : List CpuResource :=
  [.policy (s.policyOf cpu), .device cpu, .table cpu, .qosRequest (s.policyOf cpu) cpu]

/-- **The loop body** takes the first few of what it wants, and gives back all that the device added
to the list does not hold. -/
theorem exists_entries_initCpu (s : PossibleCpus) (cpu : ℕ) :
    ∃ taken given : List CpuResource,
      (initCpu (s.probe cpu)).2.2.map s.entry =
          taken.map Entry.take ++ given.map Entry.give ∧
        taken <+: s.wanted cpu ∧
        taken.Perm (given ++ holdings (initCpu (s.probe cpu)).2.1.toList) := by
  rcases initCpu_inv (s.probe cpu) with
    ⟨policy, hpos, ⟨hpolicy, -⟩, hinit⟩ | ⟨-, ret, calls, hcalls, hinit⟩
  · refine ⟨s.wanted cpu, [], by rw [hinit]; rfl, List.prefix_rfl, ?_⟩
    -- the device holds what was taken for it
    have hof : s.policyOf cpu = some policy := hpolicy
    rw [hinit, wanted, hof]
    exact List.Perm.refl _
  · rw [hinit]
    simp only [failingCalls, List.mem_cons, List.not_mem_nil, or_false] at hcalls
    rcases hcalls with rfl | rfl | rfl | rfl
    · exact ⟨[], [], rfl, List.nil_prefix, List.Perm.refl _⟩
    · exact ⟨[_], [_], rfl, List.prefix_append _ _, List.Perm.refl _⟩
    · exact ⟨[_, _], [_, _], rfl, List.prefix_append _ _, List.Perm.refl _⟩
    · exact ⟨[_, _, _], [_, _, _], rfl, List.prefix_append _ _, (List.Perm.swap _ _ []).cons _⟩

/-- What is held after the loop body is what the device added to the list holds. -/
theorem run_initCpu (s : PossibleCpus) (cpu : ℕ) (m : Multiset CpuResource) :
    run ((initCpu (s.probe cpu)).2.2.map s.entry) m =
      some (holdings (initCpu (s.probe cpu)).2.1.toList + m) := by
  obtain ⟨taken, given, hentries, -, hperm⟩ := s.exists_entries_initCpu cpu
  rw [hentries, Ledger.run_append_of_run (Ledger.run_map_take taken m),
    Multiset.coe_eq_coe.mpr hperm, ← Multiset.coe_add, Multiset.add_assoc, Ledger.run_map_give]

/-- **The loop**: from what the devices of a list hold, it takes what those it adds hold. -/
theorem run_miThermalInitCpufreq (s : PossibleCpus) (ret : ℤ) (devs : List CpufreqDevice)
    (cpus : List ℕ) (m : Multiset CpuResource) :
    run ((miThermalInitCpufreq ret devs (cpus.map s.probe)).calls.map s.entry)
        (holdings devs + m) =
      some (holdings (miThermalInitCpufreq ret devs (cpus.map s.probe)).devs + m) := by
  induction cpus generalizing ret devs with
  | nil => rfl
  | cons cpu cpus ih =>
    have hstep := s.run_initCpu cpu (holdings devs + m)
    rw [List.map_cons, miThermalInitCpufreq]
    generalize initCpu (s.probe cpu) = result at hstep ⊢
    obtain ⟨ret', cdev, calls⟩ := result
    cases cdev with
    | none =>
      -- the loop stops, with nothing held for this CPU
      exact hstep.trans (congrArg some (Multiset.zero_add _))
    | some cdev =>
      have hholds : (holdings [cdev] + (holdings devs + m) : Multiset CpuResource) =
          holdings (cdev :: devs) + m := by
        rw [← Multiset.add_assoc, Multiset.coe_add]
        rfl
      dsimp only [Option.toList] at hstep ⊢
      rw [List.map_append, Ledger.run_append_of_run hstep, hholds, ih]

/-- The body for a CPU takes a resource for that CPU at most once, and none for another. -/
theorem count_take_initCpu_le (s : PossibleCpus) {r : CpuResource} {cpu : ℕ}
    (hr : r.cpu? = some cpu) (other : ℕ) :
    ((initCpu (s.probe other)).2.2.map s.entry).count (.take r) ≤ [other].count cpu := by
  obtain ⟨taken, given, hentries, hpre, -⟩ := s.exists_entries_initCpu other
  rw [hentries, Ledger.count_take_append]
  refine (hpre.sublist.count_le r).trans ?_
  by_cases heq : other = cpu
  · rw [heq, List.count_singleton_self]
    exact List.nodup_iff_count_le_one.mp (by simp [wanted]) r
  · refine (List.count_eq_zero_of_not_mem fun hmem => ?_).le.trans (Nat.zero_le _)
    simp only [wanted, List.mem_cons, List.not_mem_nil, or_false] at hmem
    rcases hmem with rfl | rfl | rfl | rfl
    · exact absurd hr nofun
    all_goals exact heq (Option.some.inj hr)

/-- What is for a CPU is taken at most as often as the loop comes to that CPU. -/
theorem count_take_miThermalInitCpufreq_le (s : PossibleCpus) {r : CpuResource} {cpu : ℕ}
    (hr : r.cpu? = some cpu) (ret : ℤ) (devs : List CpufreqDevice) (cpus : List ℕ) :
    ((miThermalInitCpufreq ret devs (cpus.map s.probe)).calls.map s.entry).count (.take r) ≤
      cpus.count cpu := by
  induction cpus generalizing ret devs with
  | nil => exact le_rfl
  | cons other cpus ih =>
    have hstep := s.count_take_initCpu_le hr other
    rw [List.map_cons, miThermalInitCpufreq, List.count_cons]
    generalize initCpu (s.probe other) = result at hstep ⊢
    obtain ⟨ret', cdev, calls⟩ := result
    rw [List.count_singleton] at hstep
    cases cdev with
    | none => exact hstep.trans (Nat.le_add_left _ _)
    | some cdev =>
      dsimp only at hstep ⊢
      rw [List.map_append, List.count_append, Nat.add_comm (cpus.count cpu)]
      exact Nat.add_le_add hstep (ih ret' (cdev :: devs))

/-- Everything taken by the entries was given back: from whatever is held before them they lead back
to the same, never giving back what is not held. What is for one CPU was taken at most once, so it
is given back at most once, and the list is empty. -/
structure Restored (entries : List (Entry CpuResource)) (devs : List CpufreqDevice) : Prop where
  run_eq : ∀ before, run entries before = some before
  count_eq : ∀ r, entries.count (.give r) = entries.count (.take r)
  once : ∀ r, r.cpu? ≠ none → entries.count (.take r) ≤ 1
  devs_eq : devs = []

/-- **Balance**: whatever the CPUs, however they share policies and whichever call fails first, if
any, destroying the devices restores what was held before they were built. -/
theorem restored (s : PossibleCpus) :
    let init := miThermalInitCpufreq 0 [] (s.cpus.map s.probe)
    let destroy := CpufreqTeardown.miThermalDestroyCpufreq init.devs
    Restored (init.calls.map s.entry ++ destroy.entries) destroy.devs := by
  intro init destroy
  have hrun : ∀ before, run (init.calls.map s.entry ++ destroy.entries) before = some before := by
    intro before
    have hinit := s.run_miThermalInitCpufreq 0 [] s.cpus before
    have hempty : (holdings [] + before : Multiset CpuResource) = before := Multiset.zero_add _
    rw [hempty] at hinit
    rw [Ledger.run_append_of_run hinit, CpufreqTeardown.run_miThermalDestroyCpufreq]
  refine ⟨hrun, fun r => ?_, fun r hr => ?_, CpufreqTeardown.devs_destroyEach _⟩
  · exact Nat.add_left_cancel (Ledger.count_of_run (hrun 0) r)
  · obtain ⟨cpu, hcpu⟩ := Option.ne_none_iff_exists'.mp hr
    have hnone : destroy.entries.count (.take r) = 0 := CpufreqTeardown.count_take_destroyEach _ _ r
    rw [List.count_append, hnone, Nat.add_zero]
    calc (init.calls.map s.entry).count (.take r) ≤ s.cpus.count cpu :=
          s.count_take_miThermalInitCpufreq_le hcpu 0 [] s.cpus
      _ ≤ 1 := List.nodup_iff_count_le_one.mp s.nodup_cpus cpu

/-! ## The ledger of a load -/

/-- The object behind a resource of a load, where it is one of a CPU's. -/
def object (s : PossibleCpus) : LoadResource → Option CpuResource
  | .policy cpu => some (.policy (s.policyOf cpu))
  | .device cpu => some (.device cpu)
  | .table cpu => some (.table cpu)
  | .qosRequest cpu => some (.qosRequest (s.policyOf cpu) cpu)
  | _ => none

theorem map_object_entry (s : PossibleCpus) (call : KernelCall) :
    call.entry.map s.object = (s.entry call).map some := by
  cases call <;> rfl

/-- A device keeps the policy of its CPU. -/
theorem policyOf_of_mem (s : PossibleCpus) {ret : ℤ} {devs : List CpufreqDevice} {cpus : List ℕ}
    (hdevs : ∀ cdev ∈ devs, s.policyOf cdev.qosReq.cpu = some cdev.policy) :
    ∀ cdev ∈ (miThermalInitCpufreq ret devs (cpus.map s.probe)).devs,
      s.policyOf cdev.qosReq.cpu = some cdev.policy := by
  induction cpus generalizing ret devs with
  | nil => exact hdevs
  | cons cpu cpus ih =>
    rw [List.map_cons, miThermalInitCpufreq]
    rcases initCpu_cases (s.probe cpu) with
      ⟨-, ret', cdev, hcpu, hinit⟩ | ⟨-, ret', calls, hinit, -⟩
    · rw [hinit]
      refine ih (List.forall_mem_cons.mpr ⟨?_, hdevs⟩)
      rw [hcpu]
      exact (initCpu_some hinit).2
    · rw [hinit]
      exact hdevs

/-- **Agreement**: the ledger of a load, which names a reference by the CPU that asked for it,
records the same. -/
theorem map_object_entries (s : PossibleCpus) :
    let init := miThermalInitCpufreq 0 [] (s.cpus.map s.probe)
    (init.calls.map KernelCall.entry ++ miThermalDestroyCpufreq init.devs).map
        (Entry.map s.object) =
      (init.calls.map s.entry ++ (CpufreqTeardown.miThermalDestroyCpufreq init.devs).entries).map
        (Entry.map some) := by
  intro init
  have hdevs : ∀ cdev ∈ init.devs, s.policyOf cdev.qosReq.cpu = some cdev.policy :=
    s.policyOf_of_mem (fun _ hmem => absurd hmem List.not_mem_nil)
  have hentry : Entry.map s.object ∘ KernelCall.entry = Entry.map some ∘ s.entry :=
    funext s.map_object_entry
  rw [List.map_append, List.map_append, List.map_map, List.map_map, hentry]
  refine congrArg _ ?_
  unfold CpufreqTeardown.miThermalDestroyCpufreq
  generalize init.devs = devs at hdevs ⊢
  induction devs with
  | nil => rfl
  | cons pos rest ih =>
    obtain ⟨hpos, hrest⟩ := List.forall_mem_cons.mp hdevs
    rw [miThermalDestroyCpufreq, CpufreqTeardown.destroyEach]
    dsimp only
    rw [List.erase_cons_head, List.map_append, ← ih hrest]
    simp [CpufreqTeardown.release, Entry.map, object, hpos]

end PossibleCpus

end XiaomiModules
