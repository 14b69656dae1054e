import Mathlib.Logic.Function.Basic
import XiaomiModules.Kernel.Basic

/-!
# Hook providers

Three modules keep hooks for others to register callbacks in. `xiaomi_hooks` stores a callback only
while its switch is on and clears the slot otherwise; `mi_schedule` always stores; `metis` leaves
its slot alone while `metis_safe_boot` is set, also when the slot is to be cleared.

A callback is of any type; an empty slot is `none`, as is a NULL callback.

## Main definitions

* `XiaomiHooks`, `xiaomiStoreHook`, `registerHook`, `unregisterHook`: the hooks of `xiaomi_hooks`
* `MiScheduleHooks`, `miScheduleStoreHook`: the hooks of `mi_schedule`
* `MetisHooks`, `metisStoreHook`: the `ui_task_detect` hook of `metis`
-/

namespace XiaomiModules

variable {F : Type}

/-! ## xiaomi_hooks -/

/-- The hook variables of `xiaomi_hooks`. -/
inductive XiaomiHook
  | miUpdateFravgF
  | miUpdateGroupNr
  | miMigrateFloadHooks
  | miRunFrequpdateHooks
  | miMigarteFixFldHooks
  | waltWindowUpdateHooks
  | oemGetRavgWindowHook
  | gameVipHook
  | oemFltEnableHook
  | oemFltWakeupHook
  | oemUpdateFrameLoadHook
  | oemSetFreqHook
  | socUpdateFltLoadHook
  | socUpdateFltResetHook
  | oemCheckMigtRtHook
  | gameMigtShouldSkipMigrateHook
  | gameMigtShouldSkipThisCpuRtHook
  | gameMigtSkipCpusRtHook
  | gameMigtCpusHook
  | gameMigtSkipCpusHook
  | gameMigtExclusiveCpusHook
deriving DecidableEq

/-- `xiaomi_walt_hooks_enable`, `xiaomi_walt_hooks_warned` and the hook variables. -/
structure XiaomiHooks (F : Type) where
  enable : Bool := false
  warned : Bool := false
  slots : XiaomiHook → Option F := fun _ => none

/-- `xiaomi_store_hook(ptr, cb)`. -/
def xiaomiStoreHook (hooks : XiaomiHooks F) (ptr : XiaomiHook) (cb : Option F) : XiaomiHooks F :=
  if hooks.enable then { hooks with slots := Function.update hooks.slots ptr cb }
  else { hooks with warned := true, slots := Function.update hooks.slots ptr none }

/-- A store changes its own slot only, and leaves it empty while the switch is off. -/
theorem slots_xiaomiStoreHook (hooks : XiaomiHooks F) (ptr : XiaomiHook) (cb : Option F)
    (other : XiaomiHook) :
    (xiaomiStoreHook hooks ptr cb).slots other =
      if other = ptr then (if hooks.enable then cb else none) else hooks.slots other := by
  unfold xiaomiStoreHook
  split_ifs with henable heq heq
  · subst heq
    exact Function.update_self _ _ _
  · exact Function.update_of_ne heq _ _
  · subst heq
    exact Function.update_self _ _ _
  · exact Function.update_of_ne heq _ _

/-- The body of the register functions: NULL is refused. -/
def registerHook (ptr : XiaomiHook) (hooks : XiaomiHooks F) (callback : Option F) :
    ℤ × XiaomiHooks F :=
  match callback with
  | none => (-EINVAL, hooks)
  | some callback => (0, xiaomiStoreHook hooks ptr (some callback))

/-- The body of the unregister functions. -/
def unregisterHook (ptr : XiaomiHook) (hooks : XiaomiHooks F) : ℤ × XiaomiHooks F :=
  (0, xiaomiStoreHook hooks ptr none)

section Exported

variable (hooks : XiaomiHooks F) (callback : Option F)

def registerMiUpdateFravg : ℤ × XiaomiHooks F := registerHook .miUpdateFravgF hooks callback

def unregisterMiUpdateFravg : ℤ × XiaomiHooks F := unregisterHook .miUpdateFravgF hooks

def registerMiUpdateGroupNr : ℤ × XiaomiHooks F := registerHook .miUpdateGroupNr hooks callback

def unregisterMiUpdateGroupNr : ℤ × XiaomiHooks F := unregisterHook .miUpdateGroupNr hooks

def registerMiMigrateHook : ℤ × XiaomiHooks F := registerHook .miMigrateFloadHooks hooks callback

def unregisterMiMigrateHook : ℤ × XiaomiHooks F := unregisterHook .miMigrateFloadHooks hooks

def registerMiRunFrequpdateHooks : ℤ × XiaomiHooks F :=
  registerHook .miRunFrequpdateHooks hooks callback

def unregisterMiRunFrequpdateHooks : ℤ × XiaomiHooks F := unregisterHook .miRunFrequpdateHooks hooks

def registerMiMigarteFixFldHooks : ℤ × XiaomiHooks F :=
  registerHook .miMigarteFixFldHooks hooks callback

def unregisterMiMigarteFixFldHooks : ℤ × XiaomiHooks F := unregisterHook .miMigarteFixFldHooks hooks

def registerWaltUpdateHooks : ℤ × XiaomiHooks F :=
  registerHook .waltWindowUpdateHooks hooks callback

def unregisterWaltUpdateHooks : ℤ × XiaomiHooks F := unregisterHook .waltWindowUpdateHooks hooks

def registerGameRavgWindow : ℤ × XiaomiHooks F := registerHook .oemGetRavgWindowHook hooks callback

def unregisterGameRavgWindow : ℤ × XiaomiHooks F := unregisterHook .oemGetRavgWindowHook hooks

def registerGameVipHook : ℤ × XiaomiHooks F := registerHook .gameVipHook hooks callback

def unregisterGameVipHook : ℤ × XiaomiHooks F := unregisterHook .gameVipHook hooks

def registerOemFltEnableHook : ℤ × XiaomiHooks F := registerHook .oemFltEnableHook hooks callback

def unregisterOemFltEnableHook : ℤ × XiaomiHooks F := unregisterHook .oemFltEnableHook hooks

def registerOemFltWakeupHook : ℤ × XiaomiHooks F := registerHook .oemFltWakeupHook hooks callback

def unregisterOemFltWakeupHook : ℤ × XiaomiHooks F := unregisterHook .oemFltWakeupHook hooks

def registerOemUpdateFrameLoadHook : ℤ × XiaomiHooks F :=
  registerHook .oemUpdateFrameLoadHook hooks callback

def unregisterOemUpdateFrameLoadHook : ℤ × XiaomiHooks F :=
  unregisterHook .oemUpdateFrameLoadHook hooks

def registerOemFreqHook : ℤ × XiaomiHooks F := registerHook .oemSetFreqHook hooks callback

def unregisterOemFreqHook : ℤ × XiaomiHooks F := unregisterHook .oemSetFreqHook hooks

def registerSocUpdateFltLoad : ℤ × XiaomiHooks F :=
  registerHook .socUpdateFltLoadHook hooks callback

def unregisterSocUpdateFltLoad : ℤ × XiaomiHooks F := unregisterHook .socUpdateFltLoadHook hooks

def registerSocUpdateFltReset : ℤ × XiaomiHooks F :=
  registerHook .socUpdateFltResetHook hooks callback

def unregisterSocUpdateFltReset : ℤ × XiaomiHooks F := unregisterHook .socUpdateFltResetHook hooks

def registerMigtCheckRtHook : ℤ × XiaomiHooks F := registerHook .oemCheckMigtRtHook hooks callback

def unregisterMigtCheckRtHook : ℤ × XiaomiHooks F := unregisterHook .oemCheckMigtRtHook hooks

def registerGameMigtShouldSkipMigrateHook : ℤ × XiaomiHooks F :=
  registerHook .gameMigtShouldSkipMigrateHook hooks callback

def unregisterGameMigtShouldSkipMigrateHook : ℤ × XiaomiHooks F :=
  unregisterHook .gameMigtShouldSkipMigrateHook hooks

def registerGameMigtShouldSkipThisCpuRtHook : ℤ × XiaomiHooks F :=
  registerHook .gameMigtShouldSkipThisCpuRtHook hooks callback

def unregisterGameMigtShouldSkipThisCpuRtHook : ℤ × XiaomiHooks F :=
  unregisterHook .gameMigtShouldSkipThisCpuRtHook hooks

def registerGameMigtSkipCpusRtHook : ℤ × XiaomiHooks F :=
  registerHook .gameMigtSkipCpusRtHook hooks callback

def unregisterGameMigtSkipCpusRtHook : ℤ × XiaomiHooks F :=
  unregisterHook .gameMigtSkipCpusRtHook hooks

def registerGameMigtCpusHook : ℤ × XiaomiHooks F := registerHook .gameMigtCpusHook hooks callback

def unregisterGameMigtCpusHook : ℤ × XiaomiHooks F := unregisterHook .gameMigtCpusHook hooks

def registerGameMigtSkipCpusHook : ℤ × XiaomiHooks F :=
  registerHook .gameMigtSkipCpusHook hooks callback

def unregisterGameMigtSkipCpusHook : ℤ × XiaomiHooks F := unregisterHook .gameMigtSkipCpusHook hooks

def registerGameMigtExclusiveCpusHook : ℤ × XiaomiHooks F :=
  registerHook .gameMigtExclusiveCpusHook hooks callback

def unregisterGameMigtExclusiveCpusHook : ℤ × XiaomiHooks F :=
  unregisterHook .gameMigtExclusiveCpusHook hooks

end Exported

/-! ## mi_schedule -/

/-- The hook variables of `mi_schedule` that miloadtrace uses. -/
structure MiScheduleHooks (F : Type) where
  taskGroupChangeUpdateHook : Option F := none
  miUpdateGlobalPeriodHook : Option F := none

/-- `mi_schedule_store_hook(slot, hook)`: its return value and the slot. -/
def miScheduleStoreHook (_slot hook : Option F) : ℤ × Option F := (0, hook)

section Exported

variable (hooks : MiScheduleHooks F) (hook : Option F)

def registerTaskGroupChangeUpdateF : ℤ × MiScheduleHooks F :=
  let (ret, slot) := miScheduleStoreHook hooks.taskGroupChangeUpdateHook hook
  (ret, { hooks with taskGroupChangeUpdateHook := slot })

def unregisterTaskGroupChangeUpdateF : ℤ × MiScheduleHooks F :=
  let (ret, slot) := miScheduleStoreHook hooks.taskGroupChangeUpdateHook none
  (ret, { hooks with taskGroupChangeUpdateHook := slot })

def registerMiUpdateGlobalPeriodF : ℤ × MiScheduleHooks F :=
  let (ret, slot) := miScheduleStoreHook hooks.miUpdateGlobalPeriodHook hook
  (ret, { hooks with miUpdateGlobalPeriodHook := slot })

def unregisterMiUpdateGlobalPeriodF : ℤ × MiScheduleHooks F :=
  let (ret, slot) := miScheduleStoreHook hooks.miUpdateGlobalPeriodHook none
  (ret, { hooks with miUpdateGlobalPeriodHook := slot })

end Exported

/-! ## metis -/

/-- `metis_safe_boot` and the hook variable of `ui_task_detect`. -/
structure MetisHooks (F : Type) where
  safeBoot : Bool := true
  uiTaskDetectPtr : Option F := none

/-- `metis_store_hook(slot, hook)`: its return value and the slot. -/
def metisStoreHook (safeBoot : Bool) (slot hook : Option F) : ℤ × Option F :=
  if safeBoot then (0, slot) else (0, hook)

section Exported

variable (hooks : MetisHooks F) (hook : Option F)

def registerUiTaskDetect : ℤ × MetisHooks F :=
  let (ret, slot) := metisStoreHook hooks.safeBoot hooks.uiTaskDetectPtr hook
  (ret, { hooks with uiTaskDetectPtr := slot })

def unregisterUiTaskDetect : ℤ × MetisHooks F :=
  let (ret, slot) := metisStoreHook hooks.safeBoot hooks.uiTaskDetectPtr none
  (ret, { hooks with uiTaskDetectPtr := slot })

end Exported

end XiaomiModules
