import Mathlib.Tactic.Linarith
import XiaomiModules.Library.Ledger
import XiaomiModules.Thermal.InitCpufreq

/-!
# Loading mi_thermal_interface

`mi_thermal_interface_init` builds the devices, allocates the work queue, creates the nodes and
registers the notifiers. A node is created below `/sys/class/thermal` and once more below
`/sys/kernel`, and one of the two is enough. Where the work queue or both message nodes fail the
function returns an error, without a call of `mi_thermal_destroy_cpufreq`.

A ledger keeps what every kernel call took or gave back. The devices built are all that can remain
after an error, and `mi_thermal_destroy_cpufreq` would give back what they hold.

## Main definitions

* `LoadResource`: what the module takes from the kernel
* `miThermalCreateClassNode`, `createNode`: the nodes of a device of the module
* `LoadAnswers`, `miThermalInterfaceInit`: the kernel's answers, and the function
* `miThermalDestroyCpufreq`: giving back the devices
* `LeavesNothing`: a load that fails leaves nothing behind

## Main results

* `initCpu_cases`: a CPU that fails gives back what was taken for it
* `balanced_init_destroy`: destroying the devices gives back what building them took
* `leavesNothing_iff`: when a load leaves nothing behind
-/

namespace XiaomiModules

open Ledger (Entry Balanced held)

/-! ## Resources -/

/-- The kobjects of the module below `/sys/class/thermal` and `/sys/kernel`. -/
inductive ThermalNode
  | messageClass
  | message
  | powersaveClass
  | powersave
deriving DecidableEq

/-- What the module takes from the kernel, for each CPU and once. -/
inductive LoadResource
  | policy (cpu : ℕ)
  | device (cpu : ℕ)
  | table (cpu : ℕ)
  | qosRequest (cpu : ℕ)
  | workqueue
  | kobject (node : ThermalNode)
  | group (node : ThermalNode)
  | usbNotifier
  | panelNotifier
deriving DecidableEq

/-- What a call made while the devices are built takes or gives back. -/
def KernelCall.entry : KernelCall → Entry LoadResource
  | .getPolicy cpu => .take (.policy cpu)
  | .putPolicy cpu => .give (.policy cpu)
  | .allocDevice cpu => .take (.device cpu)
  | .freeDevice cpu => .give (.device cpu)
  | .allocTable cpu => .take (.table cpu)
  | .freeTable cpu => .give (.table cpu)
  | .addRequest cpu => .take (.qosRequest cpu)

/-! ## Nodes -/

/-- What the kernel answers while the two nodes of a device of the module are created: the lookup of
the class, the two kobjects and the two groups. -/
structure NodeAnswers where
  classFound : Bool
  classKobject : Bool
  classGroup : ℤ
  kobject : Bool
  group : ℤ

/-- `mi_thermal_create_class_node(mdev, name, group)`: the return value, whether `class_kobj` is
set, and what was taken. -/
def miThermalCreateClassNode (node : ThermalNode) (a : NodeAnswers) :
    ℤ × Bool × List (Entry LoadResource) :=
  if ¬ a.classFound then (-ENODEV, false, [])
  else if ¬ a.classKobject then (-ENOMEM, false, [])
  else if a.classGroup ≠ 0 then
    (a.classGroup, false, [.take (.kobject node), .give (.kobject node)])
  else (0, true, [.take (.kobject node), .take (.group node)])

/-- The two nodes of a device of the module: the return value, and what was taken. -/
def createNode (classNode node : ThermalNode) (a : NodeAnswers) : ℤ × List (Entry LoadResource) :=
  let (_, classKobj, entries) := miThermalCreateClassNode classNode a
  if ¬ a.kobject then
    if ¬ classKobj then (-ENOMEM, entries) else (0, entries)
  else if a.group ≠ 0 then
    let entries := entries ++ [.take (.kobject node), .give (.kobject node)]
    if ¬ classKobj then (a.group, entries) else (0, entries)
  else (0, entries ++ [.take (.kobject node), .take (.group node)])

/-- `create_thermal_message_node()`. -/
def createThermalMessageNode (a : NodeAnswers) : ℤ × List (Entry LoadResource) :=
  createNode .messageClass .message a

/-- `create_mi_powersave_node()`. -/
def createMiPowersaveNode (a : NodeAnswers) : ℤ × List (Entry LoadResource) :=
  createNode .powersaveClass .powersave a

/-- The node below the class is created. -/
def NodeAnswers.ClassCreated (a : NodeAnswers) : Prop :=
  a.classFound = true ∧ a.classKobject = true ∧ a.classGroup = 0

/-- The node below `/sys/kernel` is created. -/
def NodeAnswers.FallbackCreated (a : NodeAnswers) : Prop := a.kobject = true ∧ a.group = 0

instance (a : NodeAnswers) : Decidable a.ClassCreated := inferInstanceAs (Decidable (_ ∧ _))

instance (a : NodeAnswers) : Decidable a.FallbackCreated := inferInstanceAs (Decidable (_ ∧ _))

/-- The class node is set exactly where it is created; a failed attempt is taken back. -/
theorem miThermalCreateClassNode_cases (node : ThermalNode) (a : NodeAnswers) :
    (a.ClassCreated ∧ (miThermalCreateClassNode node a).2.1 = true) ∨
      ¬ a.ClassCreated ∧ (miThermalCreateClassNode node a).2.1 = false ∧
        Balanced (miThermalCreateClassNode node a).2.2 := by
  unfold miThermalCreateClassNode NodeAnswers.ClassCreated
  by_cases hfound : a.classFound = true
  · by_cases hkobject : a.classKobject = true
    · by_cases hgroup : a.classGroup = 0
      · simp [hfound, hkobject, hgroup]
      · have hbalanced : Balanced [Entry.take (LoadResource.kobject node), .give (.kobject node)] :=
          Ledger.balanced_nil.wrap _
        simp [hfound, hkobject, hgroup, hbalanced]
    · simp [hfound, hkobject, Ledger.balanced_nil]
  · simp [hfound, Ledger.balanced_nil]

/-- **Nodes**: an error is returned exactly where neither of the two is created, and then nothing
of them remains. -/
theorem createNode_cases (classNode node : ThermalNode) (a : NodeAnswers) :
    ((createNode classNode node a).1 ≠ 0 ↔ ¬ a.ClassCreated ∧ ¬ a.FallbackCreated) ∧
      ((createNode classNode node a).1 ≠ 0 → Balanced (createNode classNode node a).2) := by
  have hwrap : Balanced [Entry.take (LoadResource.kobject node), .give (.kobject node)] :=
    Ledger.balanced_nil.wrap _
  unfold createNode NodeAnswers.FallbackCreated
  rcases miThermalCreateClassNode_cases classNode a with ⟨hclass, hkobj⟩ | ⟨hclass, hkobj, hbal⟩
  · by_cases hkobject : a.kobject = true
    · by_cases hgroup : a.group = 0
      · simp [hclass, hkobject, hgroup]
      · simp [hclass, hkobj, hkobject, hgroup]
    · simp [hclass, hkobj, hkobject]
  · by_cases hkobject : a.kobject = true
    · by_cases hgroup : a.group = 0
      · simp [hkobject, hgroup]
      · simp [hclass, hkobj, hkobject, hgroup, hbal.append hwrap]
    · simp [hclass, hkobj, hkobject, hbal, ENOMEM]

/-! ## The load -/

/-- What the kernel answers during a load. -/
structure LoadAnswers where
  probes : List CpuProbe
  workqueue : Bool
  message : NodeAnswers
  powersave : NodeAnswers
  usbNotifier : ℤ
  panelCookie : Bool

/-- What a load leads to: the return value, the devices, whether the two notifiers are registered,
and the ledger. -/
structure LoadOutcome where
  ret : ℤ
  devs : List CpufreqDevice
  usbMonitor : Bool
  panelCookie : Bool
  entries : List (Entry LoadResource)

/-- `mi_thermal_interface_init()`. -/
def miThermalInterfaceInit (enable : Bool) (a : LoadAnswers) : LoadOutcome :=
  -- the result of building the devices is dropped
  let cpufreq := if enable then miThermalInitCpufreq 0 [] a.probes else ⟨0, [], []⟩
  let entries := cpufreq.calls.map KernelCall.entry
  if ¬ a.workqueue then ⟨-ENOMEM, cpufreq.devs, false, false, entries⟩
  else
    let (ret, message) := createThermalMessageNode a.message
    if ret ≠ 0 then
      ⟨ret, cpufreq.devs, false, false, entries ++ .take .workqueue :: (message ++
        [.give .workqueue])⟩
    else
      -- from here on failures are only reported
      let (_, powersave) := createMiPowersaveNode a.powersave
      let usb := if a.usbNotifier ≠ 0 then [] else [.take .usbNotifier]
      let panel := if a.panelCookie then [.take .panelNotifier] else []
      ⟨0, cpufreq.devs, a.usbNotifier = 0, a.panelCookie,
        entries ++ .take .workqueue :: (message ++ powersave ++ usb ++ panel)⟩

/-- The load returns an error: there is no work queue, or neither of the message nodes. -/
def LoadAnswers.Fails (a : LoadAnswers) : Prop :=
  a.workqueue = false ∨ ¬ a.message.ClassCreated ∧ ¬ a.message.FallbackCreated

instance (a : LoadAnswers) : Decidable a.Fails := inferInstanceAs (Decidable (_ ∨ _ ∧ _))

/-- A load that fails leaves nothing behind. -/
def LeavesNothing (enable : Bool) (a : LoadAnswers) : Prop :=
  (miThermalInterfaceInit enable a).ret ≠ 0 →
    Balanced (miThermalInterfaceInit enable a).entries ∧ (miThermalInterfaceInit enable a).devs = []

/-! ## The devices -/

/-- Every call for the CPU succeeds, so that its device is built. -/
def CpuProbe.Succeeds (probe : CpuProbe) : Prop :=
  (∃ policy, probe.policy = some policy ∧ countValidEntries policy.freqTable ≠ 0) ∧
    probe.deviceAllocated = true ∧ probe.tableAllocated = true ∧ 0 ≤ probe.answer

/-- Each error exit gives back what was taken before it. -/
theorem balanced_failingCalls (cpu : ℕ) :
    ∀ calls ∈ failingCalls cpu, Balanced (calls.map KernelCall.entry) := by
  intro calls hcalls
  simp only [failingCalls, List.mem_cons, List.not_mem_nil, or_false] at hcalls
  rcases hcalls with rfl | rfl | rfl | rfl
  · exact Ledger.balanced_nil
  · exact Ledger.balanced_nil.wrap _
  all_goals
    intro s
    simp only [List.map_cons, List.map_nil, KernelCall.entry, Ledger.held_take,
      Ledger.held_give, Ledger.held_nil]
    ring

/-- The loop body builds a device for a CPU whose calls succeed; otherwise it gives back what it
took. -/
theorem initCpu_cases (probe : CpuProbe) :
    (probe.Succeeds ∧ ∃ ret cdev, cdev.qosReq.cpu = probe.cpu ∧
      initCpu probe = (ret, some cdev, buildingCalls probe.cpu)) ∨
    ¬ probe.Succeeds ∧ ∃ ret calls, initCpu probe = (ret, none, calls) ∧
      Balanced (calls.map KernelCall.entry) := by
  rcases initCpu_inv probe with
    ⟨policy, hpos, ⟨hpolicy, hcalls⟩, hinit⟩ | ⟨hfails, ret, calls, hcalls, hinit⟩
  · exact Or.inl ⟨⟨⟨policy, hpolicy, hpos.ne'⟩, hcalls⟩, _, _, rfl, hinit⟩
  · refine Or.inr ⟨?_, ret, calls, hinit, balanced_failingCalls _ _ hcalls⟩
    rintro ⟨⟨policy, hpolicy, hcount⟩, hdevice, htable, hanswer⟩
    exact absurd (hfails policy hpolicy (Nat.pos_of_ne_zero hcount) hdevice htable) hanswer.not_gt

/-- `mi_thermal_destroy_cpufreq()`: what it gives back for the devices of the list. -/
def miThermalDestroyCpufreq : List CpufreqDevice → List (Entry LoadResource)
  | [] => []
  | pos :: devs =>
    .give (.qosRequest pos.qosReq.cpu) :: .give (.policy pos.qosReq.cpu) ::
      .give (.table pos.qosReq.cpu) :: .give (.device pos.qosReq.cpu) ::
      miThermalDestroyCpufreq devs

/-- **Building and destroying**: wherever the loop stops, destroying the devices gives back what
building them took. -/
theorem balanced_init_destroy (ret : ℤ) (devs : List CpufreqDevice) (probes : List CpuProbe)
    (s : LoadResource) :
    held ((miThermalInitCpufreq ret devs probes).calls.map KernelCall.entry) s +
        held (miThermalDestroyCpufreq (miThermalInitCpufreq ret devs probes).devs) s =
      held (miThermalDestroyCpufreq devs) s := by
  induction probes generalizing ret devs with
  | nil => simp [miThermalInitCpufreq]
  | cons probe probes ih =>
    rcases initCpu_cases probe with ⟨-, ret', cdev, hcpu, hinit⟩ | ⟨-, ret', calls, hinit, hbal⟩
    · -- the device built joins the list, and what it took is given back with it
      have hrest := ih ret' (cdev :: devs)
      simp only [miThermalInitCpufreq, hinit, buildingCalls, List.map_append, List.map_cons,
        List.map_nil, KernelCall.entry, Ledger.held_append, Ledger.held_take, Ledger.held_nil]
      rw [miThermalDestroyCpufreq, hcpu] at hrest
      simp only [Ledger.held_give] at hrest
      linarith
    · -- the loop stops
      simp only [miThermalInitCpufreq, hinit]
      rw [hbal s, zero_add]

/-- The devices of the list stay in it while others are added. -/
theorem suffix_miThermalInitCpufreq (ret : ℤ) (devs : List CpufreqDevice) (probes : List CpuProbe) :
    devs <:+ (miThermalInitCpufreq ret devs probes).devs := by
  induction probes generalizing ret devs with
  | nil => exact List.suffix_rfl
  | cons probe probes ih =>
    rw [miThermalInitCpufreq]
    split
    · exact List.suffix_rfl
    · exact (List.suffix_cons _ _).trans (ih _ _)

/-- No device is built exactly where the first CPU fails. -/
theorem devs_eq_nil_iff (probes : List CpuProbe) :
    (miThermalInitCpufreq 0 [] probes).devs = [] ↔ ∀ probe ∈ probes.head?, ¬ probe.Succeeds := by
  cases probes with
  | nil => simp [miThermalInitCpufreq]
  | cons probe probes =>
    rcases initCpu_cases probe with
      ⟨hsucceeds, ret, cdev, -, hinit⟩ | ⟨hfails, ret, calls, hinit, -⟩
    · -- the device of the first CPU stays in the list
      refine iff_of_false (fun hnil => ?_) fun h => h probe rfl hsucceeds
      have hsuffix := suffix_miThermalInitCpufreq ret [cdev] probes
      simp only [miThermalInitCpufreq, hinit] at hnil
      rw [hnil, List.suffix_nil] at hsuffix
      exact List.cons_ne_nil _ _ hsuffix
    · refine iff_of_true (by simp [miThermalInitCpufreq, hinit]) fun other hother => ?_
      rwa [← Option.some.inj hother]

/-! ## Failed loads -/

variable {enable : Bool} {a : LoadAnswers}

/-- The devices a load builds. -/
theorem devs_miThermalInterfaceInit (enable : Bool) (a : LoadAnswers) :
    (miThermalInterfaceInit enable a).devs =
      if enable then (miThermalInitCpufreq 0 [] a.probes).devs else [] := by
  unfold miThermalInterfaceInit
  cases enable <;> dsimp only <;> split_ifs <;> rfl

theorem ret_miThermalInterfaceInit_ne_zero_iff :
    (miThermalInterfaceInit enable a).ret ≠ 0 ↔ a.Fails := by
  obtain ⟨hret, -⟩ := createNode_cases .messageClass .message a.message
  unfold miThermalInterfaceInit LoadAnswers.Fails createThermalMessageNode
  by_cases hwq : a.workqueue = true
  · by_cases hnode : (createNode .messageClass .message a.message).1 = 0
    · have hnodes := hret.not.mp (not_not.mpr hnode)
      simp only [hwq, hnode]
      simpa using hnodes
    · have hnodes := hret.mp hnode
      simp only [hwq]
      simpa [hnode] using hnodes
  · simp [hwq, ENOMEM]

/-- After an error the ledger is balanced up to the devices. -/
theorem held_of_fails (h : a.Fails) (s : LoadResource) :
    held (miThermalInterfaceInit enable a).entries s =
      held ((if enable then miThermalInitCpufreq 0 [] a.probes else ⟨0, [], []⟩ :
        InitOutcome).calls.map KernelCall.entry) s := by
  obtain ⟨hret, hbal⟩ := createNode_cases .messageClass .message a.message
  unfold miThermalInterfaceInit createThermalMessageNode
  by_cases hwq : a.workqueue = true
  · -- neither node is created, and the work queue is destroyed
    have hne : (createNode .messageClass .message a.message).1 ≠ 0 :=
      hret.mpr (h.resolve_left (by simp [hwq]))
    dsimp only
    rw [if_neg (not_not.mpr hwq), if_pos hne, Ledger.held_append, (hbal hne).wrap _ s, add_zero]
  · dsimp only
    rw [if_pos hwq]

/-- **Failed loads**: a load leaves nothing behind exactly if it succeeds, or is made with
cpu_limits off, or fails to build the device of the first CPU. -/
theorem leavesNothing_iff (enable : Bool) (a : LoadAnswers) :
    LeavesNothing enable a ↔
      ¬ a.Fails ∨ enable = false ∨ ∀ probe ∈ a.probes.head?, ¬ probe.Succeeds := by
  rw [LeavesNothing, ret_miThermalInterfaceInit_ne_zero_iff, devs_miThermalInterfaceInit,
    ← devs_eq_nil_iff]
  cases henable : enable with
  | false =>
    refine iff_of_true (fun hfails => ⟨fun s => ?_, rfl⟩) (Or.inr (Or.inl rfl))
    rw [held_of_fails hfails]
    rfl
  | true =>
    constructor
    · intro h
      by_cases hfails : a.Fails
      · exact Or.inr (Or.inr (h hfails).2)
      · exact Or.inl hfails
    · intro h hfails
      have hnil := (h.resolve_left (not_not.mpr hfails)).resolve_left nofun
      refine ⟨fun s => ?_, hnil⟩
      have hbalanced := balanced_init_destroy 0 [] a.probes s
      rw [hnil] at hbalanced
      rw [held_of_fails hfails]
      simpa [miThermalDestroyCpufreq] using hbalanced

/-- The kernel's answers where the device of the only CPU is built and the work queue is not
allocated. -/
def noWorkqueue : LoadAnswers where
  probes := [⟨0, some twoFrequencies, true, true, 0⟩]
  workqueue := false
  message := ⟨true, true, 0, true, 0⟩
  powersave := ⟨true, true, 0, true, 0⟩
  usbNotifier := 0
  panelCookie := true

/-- The QoS request of the device stays with the kernel. -/
theorem not_leavesNothing_noWorkqueue :
    ¬ ∀ (enable : Bool) (a : LoadAnswers), LeavesNothing enable a := by
  intro h
  have hbalanced := (h true noWorkqueue (by decide)).1 (.qosRequest 0)
  exact absurd hbalanced (by decide)

end XiaomiModules
