import XiaomiModules.Hooks.Providers
import XiaomiModules.Library.GatedSlots

/-!
# The hooks behind metis_safe_boot

`metis` keeps eighteen hooks for other modules, and stores nothing while `metis_safe_boot` is set.
That goes for clearing a hook as well, and every call returns 0 all the same; and for three of the
hooks there is no function that clears them.

So a caller may be wrong about its hook. Nobody ever is in a run exactly if every call that finds
`metis_safe_boot` set is for what the hook holds anyway.

## Main definitions

* `MetisHook`, `Metis`: the hook variables of `metis`, and its state
* `Metis.store`: the body of the exported functions
* `MetisCall`, `MetisRun.step`: what may happen, and the module with what its callers believe
* `MetisRun.registry`: the module as slots behind a gate

## Main results

* `Metis.uiTask_register`, `Metis.uiTask_unregister`: what becomes of the hook that clients of
  `ui_task_detect` see
* `MetisRun.registry_step`: a call is an action on the slots
* `MetisRun.lawful`: what the hooks hold after any run, and when the callers are right
-/

namespace XiaomiModules

variable {F : Type}

/-- The hook variables of `metis`. -/
inductive MetisHook
  | gameBinderFPtr
  | rvhMiTryToWakeUpPtr
  | corectlBoostHookPtr
  | updatePerflockFreqHookPtr
  | getPerflockLastFreqsHookPtr
  | gameMetisSkipCpusHookPtr
  | miEnqueueEntityHookPtr
  | miEnqueueTaskFairHookPtr
  | miLbDetectFuncPtr
  | uiTaskDetectPtr
  | renderTaskDetectPtr
  | vipTaskDetectPtr
  | miWaltGetIndiciesPtr
  | miFindEnergyEfficientCpuPtr
  | miDequeueTaskFairHookPtr
  | miSchedEnablePtr
  | chooseCpuOverutiledPtr
  | overrideSchedboostPtr
deriving DecidableEq

/-- There is a function that clears the hook. -/
def MetisHook.clearable : MetisHook → Bool
  | .corectlBoostHookPtr | .updatePerflockFreqHookPtr | .getPerflockLastFreqsHookPtr => false
  | _ => true

/-- `metis_safe_boot` and the hook variables. -/
structure Metis (F : Type) where
  safeBoot : Bool := true
  slots : MetisHook → Option F := fun _ => none

/-- `return metis_store_hook(&slot, hook)`. -/
def Metis.store (slot : MetisHook) (metis : Metis F) (hook : Option F) : ℤ × Metis F :=
  let (ret, value) := metisStoreHook metis.safeBoot (metis.slots slot) hook
  (ret, { metis with slots := Function.update metis.slots slot value })

namespace Metis

section Exported

variable (metis : Metis F) (hook : Option F)

def registerGameBinderF : ℤ × Metis F := store .gameBinderFPtr metis hook

def unregisterGameBinderF : ℤ × Metis F := store .gameBinderFPtr metis none

def registerRvhMiTryToWakeUp : ℤ × Metis F := store .rvhMiTryToWakeUpPtr metis hook

def unregisterRvhMiTryToWakeUp : ℤ × Metis F := store .rvhMiTryToWakeUpPtr metis none

def registerCorectlBoostHook : ℤ × Metis F := store .corectlBoostHookPtr metis hook

def registerUpdatePerflockFreqHook : ℤ × Metis F := store .updatePerflockFreqHookPtr metis hook

def registerGetPerflockLastFreqsHook : ℤ × Metis F := store .getPerflockLastFreqsHookPtr metis hook

def registerGameMetisSkipCpusHook : ℤ × Metis F := store .gameMetisSkipCpusHookPtr metis hook

def unregisterGameMetisSkipCpusHook : ℤ × Metis F := store .gameMetisSkipCpusHookPtr metis none

def registerMiEnqueueEntityHook : ℤ × Metis F := store .miEnqueueEntityHookPtr metis hook

def unregisterMiEnqueueEntityHook : ℤ × Metis F := store .miEnqueueEntityHookPtr metis none

def registerMiEnqueueTaskFairHook : ℤ × Metis F := store .miEnqueueTaskFairHookPtr metis hook

def unregisterMiEnqueueTaskFairHook : ℤ × Metis F := store .miEnqueueTaskFairHookPtr metis none

def registerMiLbDetectFunc : ℤ × Metis F := store .miLbDetectFuncPtr metis hook

def unregisterMiLbDetectFunc : ℤ × Metis F := store .miLbDetectFuncPtr metis none

def registerUiTaskDetect : ℤ × Metis F := store .uiTaskDetectPtr metis hook

def unregisterUiTaskDetect : ℤ × Metis F := store .uiTaskDetectPtr metis none

def registerRenderTaskDetect : ℤ × Metis F := store .renderTaskDetectPtr metis hook

def unregisterRenderTaskDetect : ℤ × Metis F := store .renderTaskDetectPtr metis none

def registerVipTaskDetect : ℤ × Metis F := store .vipTaskDetectPtr metis hook

def unregisterVipTaskDetect : ℤ × Metis F := store .vipTaskDetectPtr metis none

def registerMiWaltGetIndicies : ℤ × Metis F := store .miWaltGetIndiciesPtr metis hook

def unregisterMiWaltGetIndicies : ℤ × Metis F := store .miWaltGetIndiciesPtr metis none

def registerMiFindEnergyEfficientCpu : ℤ × Metis F := store .miFindEnergyEfficientCpuPtr metis hook

def unregisterMiFindEnergyEfficientCpu : ℤ × Metis F :=
  store .miFindEnergyEfficientCpuPtr metis none

def registerMiDequeueTaskFairHook : ℤ × Metis F := store .miDequeueTaskFairHookPtr metis hook

def unregisterMiDequeueTaskFairHook : ℤ × Metis F := store .miDequeueTaskFairHookPtr metis none

def registerMiSchedEnable : ℤ × Metis F := store .miSchedEnablePtr metis hook

def unregisterMiSchedEnable : ℤ × Metis F := store .miSchedEnablePtr metis none

def registerChooseCpuOverutiled : ℤ × Metis F := store .chooseCpuOverutiledPtr metis hook

def unregisterChooseCpuOverutiled : ℤ × Metis F := store .chooseCpuOverutiledPtr metis none

def registerOverrideSchedboost : ℤ × Metis F := store .overrideSchedboostPtr metis hook

def unregisterOverrideSchedboost : ℤ × Metis F := store .overrideSchedboostPtr metis none

end Exported

/-- The register function of a hook. -/
def register : MetisHook → Metis F → Option F → ℤ × Metis F
  | .gameBinderFPtr => registerGameBinderF
  | .rvhMiTryToWakeUpPtr => registerRvhMiTryToWakeUp
  | .corectlBoostHookPtr => registerCorectlBoostHook
  | .updatePerflockFreqHookPtr => registerUpdatePerflockFreqHook
  | .getPerflockLastFreqsHookPtr => registerGetPerflockLastFreqsHook
  | .gameMetisSkipCpusHookPtr => registerGameMetisSkipCpusHook
  | .miEnqueueEntityHookPtr => registerMiEnqueueEntityHook
  | .miEnqueueTaskFairHookPtr => registerMiEnqueueTaskFairHook
  | .miLbDetectFuncPtr => registerMiLbDetectFunc
  | .uiTaskDetectPtr => registerUiTaskDetect
  | .renderTaskDetectPtr => registerRenderTaskDetect
  | .vipTaskDetectPtr => registerVipTaskDetect
  | .miWaltGetIndiciesPtr => registerMiWaltGetIndicies
  | .miFindEnergyEfficientCpuPtr => registerMiFindEnergyEfficientCpu
  | .miDequeueTaskFairHookPtr => registerMiDequeueTaskFairHook
  | .miSchedEnablePtr => registerMiSchedEnable
  | .chooseCpuOverutiledPtr => registerChooseCpuOverutiled
  | .overrideSchedboostPtr => registerOverrideSchedboost

/-- The unregister function of a hook that has one. -/
def unregister (slot : {slot : MetisHook // slot.clearable = true}) : Metis F → ℤ × Metis F :=
  match slot with
  | ⟨.gameBinderFPtr, _⟩ => unregisterGameBinderF
  | ⟨.rvhMiTryToWakeUpPtr, _⟩ => unregisterRvhMiTryToWakeUp
  | ⟨.gameMetisSkipCpusHookPtr, _⟩ => unregisterGameMetisSkipCpusHook
  | ⟨.miEnqueueEntityHookPtr, _⟩ => unregisterMiEnqueueEntityHook
  | ⟨.miEnqueueTaskFairHookPtr, _⟩ => unregisterMiEnqueueTaskFairHook
  | ⟨.miLbDetectFuncPtr, _⟩ => unregisterMiLbDetectFunc
  | ⟨.uiTaskDetectPtr, _⟩ => unregisterUiTaskDetect
  | ⟨.renderTaskDetectPtr, _⟩ => unregisterRenderTaskDetect
  | ⟨.vipTaskDetectPtr, _⟩ => unregisterVipTaskDetect
  | ⟨.miWaltGetIndiciesPtr, _⟩ => unregisterMiWaltGetIndicies
  | ⟨.miFindEnergyEfficientCpuPtr, _⟩ => unregisterMiFindEnergyEfficientCpu
  | ⟨.miDequeueTaskFairHookPtr, _⟩ => unregisterMiDequeueTaskFairHook
  | ⟨.miSchedEnablePtr, _⟩ => unregisterMiSchedEnable
  | ⟨.chooseCpuOverutiledPtr, _⟩ => unregisterChooseCpuOverutiled
  | ⟨.overrideSchedboostPtr, _⟩ => unregisterOverrideSchedboost

theorem register_eq (slot : MetisHook) (metis : Metis F) (hook : Option F) :
    register slot metis hook = store slot metis hook := by
  cases slot
  all_goals rfl

theorem unregister_eq (slot : {slot : MetisHook // slot.clearable = true}) (metis : Metis F) :
    unregister slot metis = store slot metis none := by
  obtain ⟨slot, hclear⟩ := slot
  cases slot
  all_goals first | rfl | exact absurd hclear nofun

/-- A store leaves the other hooks alone, and its own while `metis_safe_boot` is set. -/
theorem slots_store (slot : MetisHook) (metis : Metis F) (hook : Option F) :
    (store slot metis hook).2.slots =
      if metis.safeBoot then metis.slots else Function.update metis.slots slot hook := by
  unfold store metisStoreHook
  split_ifs
  · exact Function.update_eq_self _ _
  · rfl

/-- Every call returns 0. -/
theorem store_fst (slot : MetisHook) (metis : Metis F) (hook : Option F) :
    (store slot metis hook).1 = 0 := by
  unfold store metisStoreHook
  split_ifs <;> rfl

/-- What a client of `ui_task_detect` sees of the state. -/
def uiTask (metis : Metis F) : MetisHooks F := ⟨metis.safeBoot, metis.slots .uiTaskDetectPtr⟩

theorem uiTask_store (slot : MetisHook) (metis : Metis F) (hook : Option F) :
    (store slot metis hook).2.uiTask =
      if slot = .uiTaskDetectPtr then (XiaomiModules.registerUiTaskDetect metis.uiTask hook).2
      else metis.uiTask := by
  obtain ⟨safeBoot, slots⟩ := metis
  by_cases hslot : slot = .uiTaskDetectPtr
  · subst hslot
    simp [uiTask, store, XiaomiModules.registerUiTaskDetect]
  · simp [uiTask, store, Function.update_of_ne (Ne.symm hslot), hslot]

/-- **The hook of `ui_task_detect`**: its functions do to what its clients see what the same
functions do by themselves, and the functions of the other hooks do nothing to it. -/
theorem uiTask_register (slot : MetisHook) (metis : Metis F) (hook : Option F) :
    (register slot metis hook).2.uiTask =
      if slot = .uiTaskDetectPtr then (XiaomiModules.registerUiTaskDetect metis.uiTask hook).2
      else metis.uiTask := by
  rw [register_eq, uiTask_store]

theorem uiTask_unregister (slot : {slot : MetisHook // slot.clearable = true}) (metis : Metis F) :
    (unregister slot metis).2.uiTask =
      if slot.1 = .uiTaskDetectPtr then (XiaomiModules.unregisterUiTaskDetect metis.uiTask).2
      else metis.uiTask := by
  rw [unregister_eq, uiTask_store]
  rfl

end Metis

/-! ## Runs -/

/-- What happens next: the parameter is written, or one of the functions is called. -/
inductive MetisCall (F : Type)
  | setSafeBoot (value : Bool)
  | register (slot : MetisHook) (hook : Option F)
  | unregister (slot : {slot : MetisHook // slot.clearable = true})

/-- The module, with what the callers take the hooks for: a call that returns 0 has done what it was
made for. -/
structure MetisRun (F : Type) where
  metis : Metis F
  believed : MetisHook → Option F

namespace MetisRun

/-- The module when it is loaded, with the parameter as it is given. -/
def start (safeBoot : Bool) : MetisRun F := ⟨{ safeBoot }, fun _ => none⟩

/-- A call with what it returns, made to store the hook in the slot. -/
def call (s : MetisRun F) (slot : MetisHook) (hook : Option F) (out : ℤ × Metis F) : MetisRun F :=
  ⟨out.2, if out.1 = 0 then Function.update s.believed slot hook else s.believed⟩

/-- One event. -/
def step (s : MetisRun F) : MetisCall F → MetisRun F
  | .setSafeBoot value => { s with metis := { s.metis with safeBoot := value } }
  | .register slot hook => s.call slot hook (Metis.register slot s.metis hook)
  | .unregister slot => s.call slot none (Metis.unregister slot s.metis)

/-- The module as slots behind a gate. -/
def registry (s : MetisRun F) : GatedSlots MetisHook F :=
  ⟨s.metis.safeBoot, s.metis.slots, s.believed⟩

end MetisRun

/-- The event as an action on the slots. -/
def MetisCall.action : MetisCall F → GatedSlots.Action MetisHook F
  | .setSafeBoot value => .setShut value
  | .register slot hook => .store slot hook
  | .unregister slot => .store slot none

namespace MetisRun

theorem registry_call (s : MetisRun F) (slot : MetisHook) (hook : Option F) :
    (s.call slot hook (Metis.store slot s.metis hook)).registry =
      s.registry.step (.store slot hook) := by
  have hslots := Metis.slots_store slot s.metis hook
  have hret := Metis.store_fst slot s.metis hook
  simp only [registry, call, GatedSlots.step, hret, if_true, hslots]
  rfl

/-- **A call** is an action on the slots. -/
theorem registry_step (s : MetisRun F) (e : MetisCall F) :
    (s.step e).registry = s.registry.step e.action := by
  cases e with
  | setSafeBoot value => rfl
  | register slot hook => rw [step, Metis.register_eq, registry_call, MetisCall.action]
  | unregister slot => rw [step, Metis.unregister_eq, registry_call, MetisCall.action]

theorem registry_after (s : MetisRun F) (events : List (MetisCall F)) :
    (Runs.after step s events).registry =
      Runs.after GatedSlots.step s.registry (events.map MetisCall.action) :=
  Runs.after_simulation (I := fun _ => True) (f := registry) (g := MetisCall.action)
    (fun _ _ _ => trivial) (fun s e _ => s.registry_step e) trivial events

/-- The event stores in the hook, and not only claims to. -/
def Stores (slot : MetisHook) (s : MetisRun F) : MetisCall F → Prop
  | .setSafeBoot _ => False
  | .register other _ => other = slot ∧ s.metis.safeBoot = false
  | .unregister other => other = slot ∧ s.metis.safeBoot = false

/-- A call that finds `metis_safe_boot` set is for what the hook holds. -/
def Heard (s : MetisRun F) : MetisCall F → Prop
  | .setSafeBoot _ => True
  | .register slot hook => s.metis.safeBoot = true → s.metis.slots slot = hook
  | .unregister slot => s.metis.safeBoot = true → s.metis.slots slot = none

variable (s : MetisRun F) (slot : MetisHook) (e : MetisCall F)

theorem effective_action_iff : s.registry.Effective slot e.action ↔ s.Stores slot e := by
  cases e <;> exact Iff.rfl

theorem heard_action_iff : s.registry.Heard e.action ↔ s.Heard e := by
  cases e <;> exact Iff.rfl

/-- What holds of a run. -/
structure Lawful (safeBoot : Bool) (events : List (MetisCall F)) : Prop where
  slot_iff : ∀ slot c, (Runs.after step (start safeBoot) events).metis.slots slot = some c ↔
    ∃ pre post, events = pre ++ .register slot (some c) :: post ∧
      (Runs.after step (start safeBoot) pre).metis.safeBoot = false ∧
      Runs.Along step (fun s e => ¬ s.Stores slot e)
        (Runs.after step (start safeBoot) (pre ++ [.register slot (some c)])) post
  believed_iff : (∀ pre, pre <+: events → (Runs.after step (start safeBoot) pre).metis.slots =
      (Runs.after step (start safeBoot) pre).believed) ↔
    Runs.Along step Heard (start safeBoot) events

theorem along_not_stores_iff (events : List (MetisCall F)) :
    Runs.Along step (fun s e => ¬ s.Stores slot e) s events ↔
      Runs.Along GatedSlots.step (fun s a => ¬ s.Effective slot a) s.registry
        (events.map MetisCall.action) :=
  Runs.along_simulation (I := fun _ => True) (f := registry) (g := MetisCall.action)
    (fun _ _ _ => trivial) (fun s e _ => s.registry_step e)
    (fun s e _ => (s.effective_action_iff slot e).not.symm) trivial events

/-- **A hook after a run** holds the callback of the last call that stored in it. -/
theorem slots_after_eq_some_iff (safeBoot : Bool) (events : List (MetisCall F)) (c : F) :
    (Runs.after step (start safeBoot) events).metis.slots slot = some c ↔
      ∃ pre post, events = pre ++ .register slot (some c) :: post ∧
        (Runs.after step (start safeBoot) pre).metis.safeBoot = false ∧
        Runs.Along step (fun s e => ¬ s.Stores slot e)
          (Runs.after step (start safeBoot) (pre ++ [.register slot (some c)])) post := by
  have hslots : (Runs.after step (start safeBoot) events).metis.slots slot =
      (Runs.after GatedSlots.step (start safeBoot).registry
        (events.map MetisCall.action)).slots slot :=
    congrArg (fun r : GatedSlots MetisHook F => r.slots slot)
      (registry_after (start safeBoot) events)
  have hsnoc : ∀ pre : List (MetisCall F),
      pre.map MetisCall.action ++ [GatedSlots.Action.store slot (some c)] =
        (pre ++ [MetisCall.register slot (some c)]).map MetisCall.action := by
    intro pre
    rw [List.map_append]
    rfl
  rw [hslots, GatedSlots.slots_after_eq_iff,
    or_iff_left fun h => absurd h.2.symm (Option.some_ne_none c)]
  constructor
  · rintro ⟨pre', post', heq, hopen, hpost⟩
    obtain ⟨pre, rest, rfl, rfl, hrest⟩ := List.map_eq_append_iff.mp heq
    obtain ⟨e, post, rfl, he, rfl⟩ := List.map_eq_cons_iff.mp hrest
    rw [← registry_after] at hopen
    rw [hsnoc, ← registry_after, ← along_not_stores_iff] at hpost
    -- only a register has a callback to store
    cases e with
    | setSafeBoot value => cases he
    | register other hook =>
      obtain ⟨rfl, rfl⟩ := GatedSlots.Action.store.inj he
      exact ⟨pre, post, rfl, hopen, hpost⟩
    | unregister other => cases he
  · rintro ⟨pre, post, rfl, hopen, hpost⟩
    refine ⟨pre.map MetisCall.action, post.map MetisCall.action, List.map_append, ?_, ?_⟩
    · rw [← registry_after]
      exact hopen
    · rw [hsnoc, ← registry_after, ← along_not_stores_iff]
      exact hpost

/-- **The callers are right** about every hook in every state of a run exactly if every call that
finds `metis_safe_boot` set is for what the hook holds. -/
theorem slots_eq_believed_iff (safeBoot : Bool) (events : List (MetisCall F)) :
    (∀ pre, pre <+: events → (Runs.after step (start safeBoot) pre).metis.slots =
        (Runs.after step (start safeBoot) pre).believed) ↔
      Runs.Along step Heard (start safeBoot) events := by
  have hheard : Runs.Along step Heard (start safeBoot) events ↔
      Runs.Along GatedSlots.step GatedSlots.Heard (start safeBoot).registry
        (events.map MetisCall.action) :=
    Runs.along_simulation (I := fun _ => True) (f := registry) (g := MetisCall.action)
      (fun _ _ _ => trivial) (fun s e _ => s.registry_step e)
      (fun s e _ => (s.heard_action_iff e).symm) trivial events
  have hstart : (start safeBoot : MetisRun F).registry.slots = (start safeBoot).registry.believed :=
    rfl
  rw [hheard, ← GatedSlots.slots_eq_believed_iff hstart]
  -- the prefixes of the two runs correspond
  constructor
  · intro h pre' hpre'
    obtain ⟨pre, hpre, rfl⟩ := List.prefix_map_iff.mp hpre'
    rw [← registry_after]
    exact h pre hpre
  · intro h pre hpre
    have hpre' := h (pre.map MetisCall.action) (hpre.map MetisCall.action)
    rwa [← registry_after] at hpre'

/-- **The hooks of metis**: after any run of calls and writes of the parameter, a hook holds the
callback of the last call that found `metis_safe_boot` clear, and the callers have been right
throughout exactly if no call was ignored that was to change something. -/
theorem lawful (safeBoot : Bool) (events : List (MetisCall F)) : Lawful safeBoot events :=
  ⟨fun slot => slots_after_eq_some_iff slot safeBoot events, slots_eq_believed_iff safeBoot events⟩

end MetisRun

end XiaomiModules
