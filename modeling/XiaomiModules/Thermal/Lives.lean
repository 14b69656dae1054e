import XiaomiModules.Thermal.Load
import XiaomiModules.Thermal.UsbOnline

/-!
# The lives of mi_thermal_interface

A module may be loaded and unloaded any number of times, and each time the kernel answers as it
likes. `mi_thermal_interface_exit` gives back the work queue, the panel callback, the nodes that
were created and the devices that were built, and nothing else: the USB notifier stays registered,
and the reference that `usb_online_work` has looked up stays with the module.

What one load leaves behind is never taken back by another, so the kernel holds nothing after many
loads and unloads exactly if none of them leaves anything.

## Main definitions

* `createdNodes`, `destroyNode`: the nodes of a device of the module, and their removal
* `miThermalInterfaceExit`: what the exit gives back
* `ThermalLife`: a load, what happens to the USB supply, and the unload
* `ThermalLife.Clean`: the lives that leave nothing

## Main results

* `held_createNode_destroyNode`: destroying the nodes gives back what creating them took
* `ThermalLife.held_of_succeeds`: what a life leaves behind after a successful load
* `balanced_lives_iff`: when nothing remains after many lives
-/

namespace XiaomiModules

open Ledger (Entry Balanced held)

/-! ## Nodes -/

/-- The kobjects set in a device of the module after its two nodes were created. -/
def createdNodes (classNode : ThermalNode) (a : NodeAnswers) : MiThermalDevice :=
  ⟨(miThermalCreateClassNode classNode a).2.1, a.kobject && a.group = 0⟩

/-- `mi_thermal_destroy_class_node(mdev, group)`. -/
def miThermalDestroyClassNode (node : ThermalNode) (mdev : MiThermalDevice) :
    List (Entry LoadResource) :=
  if ¬ mdev.classKobj then [] else [.give (.group node), .give (.kobject node)]

/-- The removal of the two nodes of a device of the module. -/
def destroyNode (classNode node : ThermalNode) (mdev : MiThermalDevice) :
    List (Entry LoadResource) :=
  miThermalDestroyClassNode classNode mdev ++
    if mdev.kobj then [.give (.group node), .give (.kobject node)] else []

/-- `destroy_thermal_message_node()`. -/
def destroyThermalMessageNode (mdev : MiThermalDevice) : List (Entry LoadResource) :=
  destroyNode .messageClass .message mdev

/-- `destroy_mi_powersave_node()`. -/
def destroyMiPowersaveNode (mdev : MiThermalDevice) : List (Entry LoadResource) :=
  destroyNode .powersaveClass .powersave mdev

/-- What is taken below `/sys/kernel`, whatever became of the node below the class. -/
theorem snd_createNode (classNode node : ThermalNode) (a : NodeAnswers) :
    (createNode classNode node a).2 = (miThermalCreateClassNode classNode a).2.2 ++
      if a.kobject = false then []
      else if a.group ≠ 0 then [.take (.kobject node), .give (.kobject node)]
      else [.take (.kobject node), .take (.group node)] := by
  unfold createNode
  cases a.kobject <;> by_cases hgroup : a.group = 0 <;>
    by_cases hclass : (miThermalCreateClassNode classNode a).2.1 = true <;> simp [hgroup, hclass]

theorem held_createClassNode_destroyClassNode (node : ThermalNode) (a : NodeAnswers) (kobj : Bool)
    (s : LoadResource) :
    held (miThermalCreateClassNode node a).2.2 s +
        held (miThermalDestroyClassNode node ⟨(miThermalCreateClassNode node a).2.1, kobj⟩) s =
      0 := by
  unfold miThermalDestroyClassNode miThermalCreateClassNode
  split_ifs <;> simp_all

/-- **Nodes**: destroying gives back what creating took, whichever of the two was created. -/
theorem held_createNode_destroyNode (classNode node : ThermalNode) (a : NodeAnswers)
    (s : LoadResource) :
    held (createNode classNode node a).2 s +
      held (destroyNode classNode node (createdNodes classNode a)) s = 0 := by
  have hclass := held_createClassNode_destroyClassNode classNode a (a.kobject && a.group = 0) s
  -- a kobject without its group was put, and is not set
  have hfallback : held (if a.kobject = false then []
      else if a.group ≠ 0 then [Entry.take (LoadResource.kobject node), .give (.kobject node)]
      else [.take (.kobject node), .take (.group node)]) s +
      held (if (a.kobject && a.group = 0) = true
        then [Entry.give (LoadResource.group node), .give (.kobject node)] else []) s = 0 := by
    by_cases hgroup : a.group = 0 <;> cases a.kobject <;> simp [hgroup]
  rw [snd_createNode, destroyNode, createdNodes, Ledger.held_append, Ledger.held_append]
  dsimp only
  linarith

/-! ## The exit -/

/-- `mi_thermal_interface_exit()`: what it gives back, in its order. -/
def miThermalInterfaceExit (out : LoadOutcome) (message powersave : MiThermalDevice) :
    List (Entry LoadResource) :=
  .give .workqueue :: ((if out.panelCookie then [.give .panelNotifier] else []) ++
    destroyThermalMessageNode message ++ destroyMiPowersaveNode powersave ++
    miThermalDestroyCpufreq out.devs)

/-- The devices of a load, and the calls that built them. -/
def builtDevices (enable : Bool) (a : LoadAnswers) : InitOutcome :=
  if enable then miThermalInitCpufreq 0 [] a.probes else ⟨0, [], []⟩

/-- What a load that succeeds leads to. -/
theorem miThermalInterfaceInit_of_succeeds (enable : Bool) {a : LoadAnswers} (h : ¬ a.Fails) :
    miThermalInterfaceInit enable a =
      ⟨0, (builtDevices enable a).devs, a.usbNotifier = 0, a.panelCookie,
        (builtDevices enable a).calls.map KernelCall.entry ++ .take .workqueue ::
          ((createNode .messageClass .message a.message).2 ++
            (createNode .powersaveClass .powersave a.powersave).2 ++
            (if a.usbNotifier ≠ 0 then [] else [.take .usbNotifier]) ++
            if a.panelCookie then [.take .panelNotifier] else [])⟩ := by
  obtain ⟨hwq, hnodes⟩ := not_or.mp h
  have hnode : (createNode .messageClass .message a.message).1 = 0 :=
    not_not.mp fun hne => hnodes ((createNode_cases .messageClass .message a.message).1.mp hne)
  rw [Bool.not_eq_false] at hwq
  simp only [miThermalInterfaceInit, createThermalMessageNode, createMiPowersaveNode, hwq, hnode,
    builtDevices, not_true_eq_false, if_false, ne_eq]

/-- The devices built hold what the exit gives back for them. -/
theorem held_builtDevices (enable : Bool) (a : LoadAnswers) (s : LoadResource) :
    held ((builtDevices enable a).calls.map KernelCall.entry) s +
      held (miThermalDestroyCpufreq (builtDevices enable a).devs) s = 0 := by
  unfold builtDevices
  split_ifs
  · exact balanced_init_destroy 0 [] a.probes s
  · rfl

/-- **A successful load and the exit**: all that remains is the USB notifier. -/
theorem held_init_exit (enable : Bool) {a : LoadAnswers} (h : ¬ a.Fails) (s : LoadResource) :
    held (miThermalInterfaceInit enable a).entries s +
        held (miThermalInterfaceExit (miThermalInterfaceInit enable a)
          (createdNodes .messageClass a.message) (createdNodes .powersaveClass a.powersave)) s =
      if a.usbNotifier = 0 ∧ .usbNotifier = s then 1 else 0 := by
  have hdevices := held_builtDevices enable a s
  have hmessage := held_createNode_destroyNode .messageClass .message a.message s
  have hpowersave := held_createNode_destroyNode .powersaveClass .powersave a.powersave s
  have hpanel : held (if a.panelCookie then [Entry.take LoadResource.panelNotifier] else []) s +
      held (if a.panelCookie then [Entry.give LoadResource.panelNotifier] else []) s = 0 := by
    split_ifs <;> simp
  have husb : held (if a.usbNotifier ≠ 0 then [] else [Entry.take LoadResource.usbNotifier]) s =
      if a.usbNotifier = 0 ∧ .usbNotifier = s then 1 else 0 := by
    by_cases hreg : a.usbNotifier = 0 <;> simp [hreg]
  rw [miThermalInterfaceInit_of_succeeds enable h]
  simp only [miThermalInterfaceExit, destroyThermalMessageNode, destroyMiPowersaveNode,
    Ledger.held_append, Ledger.held_take, Ledger.held_give, husb]
  linarith

/-! ## Lives -/

/-- What is taken by a load, or kept by `usb_online_work`. -/
inductive ThermalResource
  | load (r : LoadResource)
  | usbSupply
deriving DecidableEq

/-- A load with the parameter `cpu_limits_enable` and the kernel's answers and, if it succeeds, what
happens to the USB supply before the module is unloaded. -/
structure ThermalLife where
  enable : Bool
  answers : LoadAnswers
  online : ℤ
  events : List UsbEvent

namespace ThermalLife

/-- What the load leads to. -/
def out (life : ThermalLife) : LoadOutcome := miThermalInterfaceInit life.enable life.answers

/-- The nodes of the message device. -/
def message (life : ThermalLife) : MiThermalDevice :=
  createdNodes .messageClass life.answers.message

/-- The usb state before the unload. -/
def usb (life : ThermalLife) : Usb :=
  Runs.after (Usb.step life.message) (.start life.online) life.events

/-- What is taken and given back. The supply is looked up only where the notifier is registered, so
that the work is queued. -/
def entries (life : ThermalLife) : List (Entry ThermalResource) :=
  if life.out.ret ≠ 0 then life.out.entries.map (.map .load)
  else
    life.out.entries.map (.map .load) ++
      (if life.out.usbMonitor && life.usb.usbPsy then [.take .usbSupply] else []) ++
      (miThermalInterfaceExit life.out life.message
        (createdNodes .powersaveClass life.answers.powersave)).map (.map .load)

/-- The load fails without a device built, or it succeeds but for the USB notifier. -/
def Clean (life : ThermalLife) : Prop :=
  if life.answers.Fails then
    life.enable = false ∨ ∀ probe ∈ life.answers.probes.head?, ¬ probe.Succeeds
  else life.answers.usbNotifier ≠ 0

theorem load_injective : Function.Injective ThermalResource.load :=
  fun _ _ h => ThermalResource.load.inj h

theorem load_ne_usbSupply (s : LoadResource) : ThermalResource.load s ≠ .usbSupply := by
  intro h
  cases h

variable {life : ThermalLife}

/-- After a load that fails the devices built remain. -/
theorem held_of_fails (h : life.answers.Fails) (s : LoadResource) :
    held life.entries (.load s) = -held (miThermalDestroyCpufreq life.out.devs) s ∧
      held life.entries .usbSupply = 0 := by
  have hret : life.out.ret ≠ 0 := ret_miThermalInterfaceInit_ne_zero_iff.mpr h
  have hdevices := held_builtDevices life.enable life.answers s
  have hdevs : life.out.devs = (builtDevices life.enable life.answers).devs := by
    rw [out, devs_miThermalInterfaceInit, builtDevices]
    split_ifs <;> rfl
  rw [entries, if_pos hret, Ledger.held_map load_injective]
  refine ⟨?_, Ledger.held_map_of_not_range load_ne_usbSupply _⟩
  have hcalls : held life.out.entries s =
      held ((builtDevices life.enable life.answers).calls.map KernelCall.entry) s :=
    XiaomiModules.held_of_fails h s
  rw [hcalls, hdevs]
  linarith

/-- **After a life with a successful load** the USB notifier remains, where it was registered, and
with it the supply, where the work has looked it up. -/
theorem held_of_succeeds (h : ¬ life.answers.Fails) (s : LoadResource) :
    held life.entries (.load s) =
        (if life.answers.usbNotifier = 0 ∧ .usbNotifier = s then 1 else 0) ∧
      held life.entries .usbSupply =
        if life.answers.usbNotifier = 0 ∧ life.usb.usbPsy = true then 1 else 0 := by
  have hret : life.out.ret = 0 :=
    not_not.mp (mt ret_miThermalInterfaceInit_ne_zero_iff.mp h)
  have hrest := held_init_exit life.enable h s
  have hmonitor : life.out.usbMonitor = decide (life.answers.usbNotifier = 0) := by
    rw [out, miThermalInterfaceInit_of_succeeds life.enable h]
  rw [entries, if_neg (not_not.mpr hret), hmonitor]
  simp only [Ledger.held_append, Ledger.held_map load_injective]
  constructor
  · have hsupply : held (if (decide (life.answers.usbNotifier = 0) && life.usb.usbPsy) = true
        then [Entry.take ThermalResource.usbSupply] else []) (.load s) = 0 := by
      split_ifs <;> simp
    rw [hsupply, add_zero]
    exact hrest
  · rw [Ledger.held_map_of_not_range load_ne_usbSupply,
      Ledger.held_map_of_not_range load_ne_usbSupply, zero_add, add_zero]
    by_cases hreg : life.answers.usbNotifier = 0 <;> cases life.usb.usbPsy <;> simp [hreg]

/-- Destroying a device gives its allocation back, and takes nothing. -/
theorem held_miThermalDestroyCpufreq_cons_le (pos : CpufreqDevice) (devs : List CpufreqDevice)
    (s : LoadResource) :
    held (miThermalDestroyCpufreq (pos :: devs)) s ≤
      held (miThermalDestroyCpufreq devs) s - if .device pos.qosReq.cpu = s then 1 else 0 := by
  have hnonneg : ∀ r : LoadResource, (0 : ℤ) ≤ if r = s then 1 else 0 := by
    intro r
    split_ifs <;> decide
  rw [miThermalDestroyCpufreq]
  simp only [Ledger.held_give]
  linarith [hnonneg (.qosRequest pos.qosReq.cpu), hnonneg (.policy pos.qosReq.cpu),
    hnonneg (.table pos.qosReq.cpu)]

theorem held_miThermalDestroyCpufreq_nonpos (devs : List CpufreqDevice) (s : LoadResource) :
    held (miThermalDestroyCpufreq devs) s ≤ 0 := by
  induction devs with
  | nil => exact le_rfl
  | cons pos devs ih =>
    have hle := held_miThermalDestroyCpufreq_cons_le pos devs s
    split_ifs at hle <;> linarith

theorem held_entries_nonneg (life : ThermalLife) (r : ThermalResource) :
    0 ≤ held life.entries r := by
  by_cases hfails : life.answers.Fails
  · cases r with
    | load s =>
      rw [(held_of_fails hfails s).1]
      exact neg_nonneg.mpr (held_miThermalDestroyCpufreq_nonpos life.out.devs s)
    | usbSupply => exact (held_of_fails hfails .workqueue).2.ge
  · cases r with
    | load s =>
      rw [(held_of_succeeds hfails s).1]
      split_ifs <;> decide
    | usbSupply =>
      rw [(held_of_succeeds hfails .workqueue).2]
      split_ifs <;> decide

/-- A load builds no device exactly if it is made with cpu_limits off, or fails for the first
CPU. -/
theorem devs_out_eq_nil_iff (life : ThermalLife) :
    life.out.devs = [] ↔
      life.enable = false ∨ ∀ probe ∈ life.answers.probes.head?, ¬ probe.Succeeds := by
  rw [out, devs_miThermalInterfaceInit]
  cases life.enable <;> simp [devs_eq_nil_iff]

/-- **A life** leaves nothing exactly if it is clean. -/
theorem balanced_entries_iff (life : ThermalLife) : Balanced life.entries ↔ life.Clean := by
  unfold Clean
  split_ifs with hfails
  · rw [← devs_out_eq_nil_iff]
    constructor
    · intro hbalanced
      by_contra hne
      obtain ⟨pos, rest, hdevs⟩ := List.exists_cons_of_ne_nil hne
      -- the device of the first CPU is still allocated
      have hheld := (held_of_fails hfails (.device pos.qosReq.cpu)).1
      have hle := held_miThermalDestroyCpufreq_cons_le pos rest (.device pos.qosReq.cpu)
      have hrest := held_miThermalDestroyCpufreq_nonpos rest (.device pos.qosReq.cpu)
      rw [hbalanced, hdevs] at hheld
      rw [if_pos rfl] at hle
      linarith
    · intro hnil r
      cases r with
      | load s =>
        rw [(held_of_fails hfails s).1, hnil, miThermalDestroyCpufreq, Ledger.held_nil, neg_zero]
      | usbSupply => exact (held_of_fails hfails .workqueue).2
  · constructor
    · intro hbalanced hreg
      have hheld := (held_of_succeeds hfails .usbNotifier).1
      rw [hbalanced, if_pos ⟨hreg, rfl⟩] at hheld
      exact absurd hheld (by decide)
    · intro hreg r
      cases r with
      | load s => rw [(held_of_succeeds hfails s).1, if_neg fun h => hreg h.1]
      | usbSupply => rw [(held_of_succeeds hfails .workqueue).2, if_neg fun h => hreg h.1]

end ThermalLife

/-- **Many lives**: after any number of loads and unloads, whatever the kernel answered and whatever
happened to the USB supply, nothing that the module took remains exactly if every load that failed
had built no device, and every load that succeeded could not register the USB notifier. -/
theorem balanced_lives_iff (lives : List ThermalLife) :
    Balanced (lives.map ThermalLife.entries).flatten ↔ ∀ life ∈ lives, life.Clean := by
  have hnonneg : ∀ l ∈ lives.map ThermalLife.entries, ∀ r, 0 ≤ held l r := by
    intro l hl r
    obtain ⟨life, -, rfl⟩ := List.mem_map.mp hl
    exact life.held_entries_nonneg r
  rw [Ledger.balanced_flatten_iff hnonneg, List.forall_mem_map]
  exact forall₂_congr fun life _ => life.balanced_entries_iff

end XiaomiModules
