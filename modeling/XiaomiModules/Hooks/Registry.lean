import XiaomiModules.Hooks.Providers
import XiaomiModules.Library.Runs

/-!
# The registry of xiaomi_hooks

`xiaomi_hooks` exports two functions for each of its hook variables, most of them under another
name. Any of them can be called at any time, with any callback, and the switch can be written
between two calls. A slot is set by the calls on its own hook only, so it holds what the last of
them has left there.

## Main definitions

* `HookFunctions`: the pairs of exported functions, with `register`, `unregister` and the `hook`
  they are for
* `HookEvent`, `XiaomiHooks.step`: calls, and writes of the switch
* `HookEvent.Sets`: the calls that set a slot

## Main results

* `hook_injective`: no two pairs share a variable
* `slots_register`, `slots_unregister`: what a call does to the slots
* `XiaomiHooks.registry_law`: what the slots hold after any run
-/

namespace XiaomiModules

variable {F : Type}

/-! ## The exported functions -/

/-- The exported functions, by what stands behind `register_` and `unregister_` in their names. -/
inductive HookFunctions
  | miUpdateFravg
  | miUpdateGroupNr
  | miMigrateHook
  | miRunFrequpdateHooks
  | miMigarteFixFldHooks
  | waltUpdateHooks
  | gameRavgWindow
  | gameVipHook
  | oemFltEnableHook
  | oemFltWakeupHook
  | oemUpdateFrameLoadHook
  | oemFreqHook
  | socUpdateFltLoad
  | socUpdateFltReset
  | migtCheckRtHook
  | gameMigtShouldSkipMigrateHook
  | gameMigtShouldSkipThisCpuRtHook
  | gameMigtSkipCpusRtHook
  | gameMigtCpusHook
  | gameMigtSkipCpusHook
  | gameMigtExclusiveCpusHook
deriving DecidableEq

/-- The variable that stands above the two functions in the source. -/
def HookFunctions.hook : HookFunctions → XiaomiHook
  | .miUpdateFravg => .miUpdateFravgF
  | .miUpdateGroupNr => .miUpdateGroupNr
  | .miMigrateHook => .miMigrateFloadHooks
  | .miRunFrequpdateHooks => .miRunFrequpdateHooks
  | .miMigarteFixFldHooks => .miMigarteFixFldHooks
  | .waltUpdateHooks => .waltWindowUpdateHooks
  | .gameRavgWindow => .oemGetRavgWindowHook
  | .gameVipHook => .gameVipHook
  | .oemFltEnableHook => .oemFltEnableHook
  | .oemFltWakeupHook => .oemFltWakeupHook
  | .oemUpdateFrameLoadHook => .oemUpdateFrameLoadHook
  | .oemFreqHook => .oemSetFreqHook
  | .socUpdateFltLoad => .socUpdateFltLoadHook
  | .socUpdateFltReset => .socUpdateFltResetHook
  | .migtCheckRtHook => .oemCheckMigtRtHook
  | .gameMigtShouldSkipMigrateHook => .gameMigtShouldSkipMigrateHook
  | .gameMigtShouldSkipThisCpuRtHook => .gameMigtShouldSkipThisCpuRtHook
  | .gameMigtSkipCpusRtHook => .gameMigtSkipCpusRtHook
  | .gameMigtCpusHook => .gameMigtCpusHook
  | .gameMigtSkipCpusHook => .gameMigtSkipCpusHook
  | .gameMigtExclusiveCpusHook => .gameMigtExclusiveCpusHook

/-- The register function. -/
def HookFunctions.register (fns : HookFunctions) (hooks : XiaomiHooks F) (callback : Option F) :
    ℤ × XiaomiHooks F :=
  match fns with
  | .miUpdateFravg => registerMiUpdateFravg hooks callback
  | .miUpdateGroupNr => registerMiUpdateGroupNr hooks callback
  | .miMigrateHook => registerMiMigrateHook hooks callback
  | .miRunFrequpdateHooks => registerMiRunFrequpdateHooks hooks callback
  | .miMigarteFixFldHooks => registerMiMigarteFixFldHooks hooks callback
  | .waltUpdateHooks => registerWaltUpdateHooks hooks callback
  | .gameRavgWindow => registerGameRavgWindow hooks callback
  | .gameVipHook => registerGameVipHook hooks callback
  | .oemFltEnableHook => registerOemFltEnableHook hooks callback
  | .oemFltWakeupHook => registerOemFltWakeupHook hooks callback
  | .oemUpdateFrameLoadHook => registerOemUpdateFrameLoadHook hooks callback
  | .oemFreqHook => registerOemFreqHook hooks callback
  | .socUpdateFltLoad => registerSocUpdateFltLoad hooks callback
  | .socUpdateFltReset => registerSocUpdateFltReset hooks callback
  | .migtCheckRtHook => registerMigtCheckRtHook hooks callback
  | .gameMigtShouldSkipMigrateHook => registerGameMigtShouldSkipMigrateHook hooks callback
  | .gameMigtShouldSkipThisCpuRtHook => registerGameMigtShouldSkipThisCpuRtHook hooks callback
  | .gameMigtSkipCpusRtHook => registerGameMigtSkipCpusRtHook hooks callback
  | .gameMigtCpusHook => registerGameMigtCpusHook hooks callback
  | .gameMigtSkipCpusHook => registerGameMigtSkipCpusHook hooks callback
  | .gameMigtExclusiveCpusHook => registerGameMigtExclusiveCpusHook hooks callback

/-- The unregister function. -/
def HookFunctions.unregister (fns : HookFunctions) (hooks : XiaomiHooks F) : ℤ × XiaomiHooks F :=
  match fns with
  | .miUpdateFravg => unregisterMiUpdateFravg hooks
  | .miUpdateGroupNr => unregisterMiUpdateGroupNr hooks
  | .miMigrateHook => unregisterMiMigrateHook hooks
  | .miRunFrequpdateHooks => unregisterMiRunFrequpdateHooks hooks
  | .miMigarteFixFldHooks => unregisterMiMigarteFixFldHooks hooks
  | .waltUpdateHooks => unregisterWaltUpdateHooks hooks
  | .gameRavgWindow => unregisterGameRavgWindow hooks
  | .gameVipHook => unregisterGameVipHook hooks
  | .oemFltEnableHook => unregisterOemFltEnableHook hooks
  | .oemFltWakeupHook => unregisterOemFltWakeupHook hooks
  | .oemUpdateFrameLoadHook => unregisterOemUpdateFrameLoadHook hooks
  | .oemFreqHook => unregisterOemFreqHook hooks
  | .socUpdateFltLoad => unregisterSocUpdateFltLoad hooks
  | .socUpdateFltReset => unregisterSocUpdateFltReset hooks
  | .migtCheckRtHook => unregisterMigtCheckRtHook hooks
  | .gameMigtShouldSkipMigrateHook => unregisterGameMigtShouldSkipMigrateHook hooks
  | .gameMigtShouldSkipThisCpuRtHook => unregisterGameMigtShouldSkipThisCpuRtHook hooks
  | .gameMigtSkipCpusRtHook => unregisterGameMigtSkipCpusRtHook hooks
  | .gameMigtCpusHook => unregisterGameMigtCpusHook hooks
  | .gameMigtSkipCpusHook => unregisterGameMigtSkipCpusHook hooks
  | .gameMigtExclusiveCpusHook => unregisterGameMigtExclusiveCpusHook hooks

/-- The functions that set a variable. -/
def XiaomiHook.functions : XiaomiHook → HookFunctions
  | .miUpdateFravgF => .miUpdateFravg
  | .miUpdateGroupNr => .miUpdateGroupNr
  | .miMigrateFloadHooks => .miMigrateHook
  | .miRunFrequpdateHooks => .miRunFrequpdateHooks
  | .miMigarteFixFldHooks => .miMigarteFixFldHooks
  | .waltWindowUpdateHooks => .waltUpdateHooks
  | .oemGetRavgWindowHook => .gameRavgWindow
  | .gameVipHook => .gameVipHook
  | .oemFltEnableHook => .oemFltEnableHook
  | .oemFltWakeupHook => .oemFltWakeupHook
  | .oemUpdateFrameLoadHook => .oemUpdateFrameLoadHook
  | .oemSetFreqHook => .oemFreqHook
  | .socUpdateFltLoadHook => .socUpdateFltLoad
  | .socUpdateFltResetHook => .socUpdateFltReset
  | .oemCheckMigtRtHook => .migtCheckRtHook
  | .gameMigtShouldSkipMigrateHook => .gameMigtShouldSkipMigrateHook
  | .gameMigtShouldSkipThisCpuRtHook => .gameMigtShouldSkipThisCpuRtHook
  | .gameMigtSkipCpusRtHook => .gameMigtSkipCpusRtHook
  | .gameMigtCpusHook => .gameMigtCpusHook
  | .gameMigtSkipCpusHook => .gameMigtSkipCpusHook
  | .gameMigtExclusiveCpusHook => .gameMigtExclusiveCpusHook

theorem functions_hook : Function.LeftInverse XiaomiHook.functions HookFunctions.hook := by
  intro fns
  cases fns
  all_goals rfl

/-- **The wiring**: no two pairs of functions share a variable. -/
theorem hook_injective : Function.Injective HookFunctions.hook := functions_hook.injective

section Calls

variable (fns : HookFunctions) (hooks : XiaomiHooks F) (callback : Option F) (other : XiaomiHook)

theorem register_eq : fns.register hooks callback = registerHook fns.hook hooks callback := by
  cases fns
  all_goals rfl

theorem unregister_eq : fns.unregister hooks = unregisterHook fns.hook hooks := by
  cases fns
  all_goals rfl

theorem register_none : fns.register hooks none = (-EINVAL, hooks) :=
  register_eq fns hooks none

/-- A callback is stored in its own slot while the switch is on; otherwise the slot is cleared. -/
theorem slots_register (c : F) :
    (fns.register hooks (some c)).2.slots other =
      if other = fns.hook then (if hooks.enable then some c else none) else hooks.slots other := by
  rw [register_eq]
  exact slots_xiaomiStoreHook hooks fns.hook (some c) other

/-- An unregister clears its own slot, whatever the switch. -/
theorem slots_unregister :
    (fns.unregister hooks).2.slots other =
      if other = fns.hook then none else hooks.slots other := by
  rw [unregister_eq, unregisterHook, slots_xiaomiStoreHook, ite_self]

end Calls

/-! ## Runs -/

/-- What happens next: the switch is written, or one of the functions is called. -/
inductive HookEvent (F : Type)
  | setEnable (value : Bool)
  | register (fns : HookFunctions) (callback : Option F)
  | unregister (fns : HookFunctions)

/-- The event sets the slot of the hook: a register of a callback that is not NULL, or an
unregister. -/
def HookEvent.Sets (fns : HookFunctions) : HookEvent F → Prop
  | .setEnable _ => False
  | .register other callback => other = fns ∧ callback ≠ none
  | .unregister other => other = fns

namespace XiaomiHooks

/-- The module when it is loaded, with the switch as its parameter has it. -/
def start (enable : Bool) : XiaomiHooks F := { enable }

/-- One event. -/
def step (hooks : XiaomiHooks F) : HookEvent F → XiaomiHooks F
  | .setEnable value => { hooks with enable := value }
  | .register fns callback => (fns.register hooks callback).2
  | .unregister fns => (fns.unregister hooks).2

/-- What an event that sets a slot leaves there. -/
def stored (hooks : XiaomiHooks F) : HookEvent F → Option F
  | .register _ callback => if hooks.enable then callback else none
  | _ => none

variable {fns : HookFunctions} (hooks : XiaomiHooks F) (e : HookEvent F)

theorem slots_step_of_sets (h : e.Sets fns) : (hooks.step e).slots fns.hook = hooks.stored e := by
  cases e with
  | setEnable value => exact h.elim
  | register other callback =>
    obtain ⟨rfl, hne⟩ := h
    obtain ⟨c, rfl⟩ := Option.ne_none_iff_exists'.mp hne
    exact (slots_register other hooks other.hook c).trans (if_pos rfl)
  | unregister other =>
    obtain rfl := h
    exact (slots_unregister other hooks other.hook).trans (if_pos rfl)

/-- The other events leave the slot alone. -/
theorem slots_step_of_not_sets (h : ¬ e.Sets fns) :
    (hooks.step e).slots fns.hook = hooks.slots fns.hook := by
  cases e with
  | setEnable value => rfl
  | register other callback =>
    cases callback with
    | none => rw [step, register_none]
    | some c =>
      have hne : fns.hook ≠ other.hook := fun heq =>
        h ⟨(hook_injective heq).symm, Option.some_ne_none c⟩
      exact (slots_register other hooks fns.hook c).trans (if_neg hne)
  | unregister other =>
    have hne : fns.hook ≠ other.hook := fun heq => h (hook_injective heq).symm
    exact (slots_unregister other hooks fns.hook).trans (if_neg hne)

/-- The last event of a run to set the slot is a register of the callback, made while the switch is
on. -/
def LastRegistered (enable : Bool) (events : List (HookEvent F)) (fns : HookFunctions) (c : F) :
    Prop :=
  ∃ pre post, events = pre ++ .register fns (some c) :: post ∧
    (Runs.after step (start enable) pre).enable = true ∧ ∀ e ∈ post, ¬ e.Sets fns

/-- **A slot after a run** holds a callback exactly if that was registered last. -/
theorem slots_after_eq_some_iff (enable : Bool) (events : List (HookEvent F)) (fns : HookFunctions)
    (c : F) :
    (Runs.after step (start enable) events).slots fns.hook = some c ↔
      LastRegistered enable events fns c := by
  have hlast := Runs.after_eq_iff_last (f := fun hooks : XiaomiHooks F => hooks.slots fns.hook)
    slots_step_of_sets slots_step_of_not_sets (start enable) events (some c)
  rw [hlast, or_iff_left fun h => absurd h.2.symm (Option.some_ne_none c)]
  constructor
  · rintro ⟨pre, e, post, rfl, he, hstored, hpost⟩
    cases e with
    | setEnable value => exact he.elim
    | register other callback =>
      obtain ⟨rfl, -⟩ := he
      rw [stored] at hstored
      split_ifs at hstored with henable
      exact ⟨pre, post, by rw [hstored], henable, hpost⟩
    | unregister other => exact absurd hstored.symm (Option.some_ne_none c)
  · rintro ⟨pre, post, rfl, henable, hpost⟩
    exact ⟨pre, _, post, rfl, ⟨rfl, Option.some_ne_none c⟩, if_pos henable, hpost⟩

/-- What holds of the functions of a hook after a run. -/
structure Lawful (enable : Bool) (events : List (HookEvent F)) (fns : HookFunctions) : Prop where
  slot_iff : ∀ c, (Runs.after step (start enable) events).slots fns.hook = some c ↔
    LastRegistered enable events fns c
  refused : fns.register (Runs.after step (start enable) events) none =
    (-EINVAL, Runs.after step (start enable) events)
  cleared : (fns.unregister (Runs.after step (start enable) events)).2.slots fns.hook = none
  others : ∀ (other : HookFunctions) (callback : Option F), other ≠ fns →
    (fns.register (Runs.after step (start enable) events) callback).2.slots other.hook =
        (Runs.after step (start enable) events).slots other.hook ∧
      (fns.unregister (Runs.after step (start enable) events)).2.slots other.hook =
        (Runs.after step (start enable) events).slots other.hook

/-- **The registry law**: after any run of calls and writes of the switch, the slot of a hook holds
the callback that the last call to set it has registered while the switch was on; NULL is refused,
an unregister clears the slot, and no call changes the slot of another hook. -/
theorem registry_law (enable : Bool) (events : List (HookEvent F)) (fns : HookFunctions) :
    Lawful enable events fns where
  slot_iff := slots_after_eq_some_iff enable events fns
  refused := register_none fns _
  cleared := (slots_unregister fns _ fns.hook).trans (if_pos rfl)
  others other callback hother := by
    -- a call for the one hook does not set the slot of the other
    have hregister : ¬ (HookEvent.register fns callback).Sets other := fun h => hother h.1.symm
    have hunregister : ¬ (HookEvent.unregister fns : HookEvent F).Sets other :=
      fun h => hother h.symm
    exact ⟨slots_step_of_not_sets _ _ hregister, slots_step_of_not_sets _ _ hunregister⟩

end XiaomiHooks

end XiaomiModules
