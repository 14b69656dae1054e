import Mathlib.Data.Fintype.Basic
import XiaomiModules.Hooks.Providers
import XiaomiModules.Library.Program
import XiaomiModules.Library.Runs

/-!
# The hooks of miloadtrace

miloadtrace registers nine callbacks when it is loaded: six with `xiaomi_hooks`, two with
`mi_schedule` and one with `metis`. A register that fails unwinds the ones before it through one
label for each; an unload, or a load whose governor cannot be registered, unregisters all nine.

The calls of the two functions are steps of their own, since the switches of the providers can be
written between any two of them.

## Main definitions

* `MiloadHook`, `Providers`: the nine hooks, and the providers that keep them
* `miloadRegisterHooks`, `miloadUnregisterHooks`: the two functions
* `System`, `System.step`: the providers and how far miloadtrace is, with the events
* `System.Moves`: what an event does to the stage and the slots

## Main results

* `System.moves_step`: every event is one of the moves
-/

namespace XiaomiModules

/-- The hooks miloadtrace registers, in its order. -/
inductive MiloadHook
  | miUpdateFravg
  | waltUpdateHooks
  | taskGroupChangeUpdateF
  | miMigrateHook
  | miUpdateGroupNr
  | miMigarteFixFldHooks
  | uiTaskDetect
  | miUpdateGlobalPeriodF
  | miRunFrequpdateHooks
deriving DecidableEq

instance : Fintype MiloadHook where
  elems := {.miUpdateFravg, .waltUpdateHooks, .taskGroupChangeUpdateF, .miMigrateHook,
    .miUpdateGroupNr, .miMigarteFixFldHooks, .uiTaskDetect, .miUpdateGlobalPeriodF,
    .miRunFrequpdateHooks}
  complete hook := by cases hook <;> decide

/-- The callbacks of miloadtrace, and those of other modules by their addresses. -/
inductive Callback
  | miFrameLoadRavg
  | skipWaltWindowUpdate
  | grpEnqBoostTask
  | migrateInterClusterFload
  | miUpdateGroupGroup
  | fixFloadInIrq
  | grpEnqBoostPipeline
  | updateGloabalTargetPeriod
  | groupFrameCpufreqTransition
  | foreign (address : ℕ)
deriving DecidableEq

/-- The callback belongs to miloadtrace. -/
def Callback.OfMiloadtrace : Callback → Prop
  | .foreign _ => False
  | _ => True

/-! ## The providers -/

/-- The modules that keep the nine hooks. -/
structure Providers where
  xiaomi : XiaomiHooks Callback
  miSchedule : MiScheduleHooks Callback
  metis : MetisHooks Callback

namespace Providers

/-- What a function of `xiaomi_hooks` does to the providers. -/
def onXiaomi (p : Providers) (out : ℤ × XiaomiHooks Callback) : ℤ × Providers :=
  (out.1, { p with xiaomi := out.2 })

/-- What a function of `mi_schedule` does to the providers. -/
def onMiSchedule (p : Providers) (out : ℤ × MiScheduleHooks Callback) : ℤ × Providers :=
  (out.1, { p with miSchedule := out.2 })

/-- What a function of `metis` does to the providers. -/
def onMetis (p : Providers) (out : ℤ × MetisHooks Callback) : ℤ × Providers :=
  (out.1, { p with metis := out.2 })

/-- The register function of a hook. -/
def register (p : Providers) (callback : Option Callback) : MiloadHook → ℤ × Providers
  | .miUpdateFravg => p.onXiaomi (registerMiUpdateFravg p.xiaomi callback)
  | .waltUpdateHooks => p.onXiaomi (registerWaltUpdateHooks p.xiaomi callback)
  | .taskGroupChangeUpdateF =>
    p.onMiSchedule (registerTaskGroupChangeUpdateF p.miSchedule callback)
  | .miMigrateHook => p.onXiaomi (registerMiMigrateHook p.xiaomi callback)
  | .miUpdateGroupNr => p.onXiaomi (registerMiUpdateGroupNr p.xiaomi callback)
  | .miMigarteFixFldHooks => p.onXiaomi (registerMiMigarteFixFldHooks p.xiaomi callback)
  | .uiTaskDetect => p.onMetis (registerUiTaskDetect p.metis callback)
  | .miUpdateGlobalPeriodF =>
    p.onMiSchedule (registerMiUpdateGlobalPeriodF p.miSchedule callback)
  | .miRunFrequpdateHooks => p.onXiaomi (registerMiRunFrequpdateHooks p.xiaomi callback)

/-- The unregister function of a hook. -/
def unregister (p : Providers) : MiloadHook → ℤ × Providers
  | .miUpdateFravg => p.onXiaomi (unregisterMiUpdateFravg p.xiaomi)
  | .waltUpdateHooks => p.onXiaomi (unregisterWaltUpdateHooks p.xiaomi)
  | .taskGroupChangeUpdateF => p.onMiSchedule (unregisterTaskGroupChangeUpdateF p.miSchedule)
  | .miMigrateHook => p.onXiaomi (unregisterMiMigrateHook p.xiaomi)
  | .miUpdateGroupNr => p.onXiaomi (unregisterMiUpdateGroupNr p.xiaomi)
  | .miMigarteFixFldHooks => p.onXiaomi (unregisterMiMigarteFixFldHooks p.xiaomi)
  | .uiTaskDetect => p.onMetis (unregisterUiTaskDetect p.metis)
  | .miUpdateGlobalPeriodF => p.onMiSchedule (unregisterMiUpdateGlobalPeriodF p.miSchedule)
  | .miRunFrequpdateHooks => p.onXiaomi (unregisterMiRunFrequpdateHooks p.xiaomi)

/-- The variable a hook is kept in. -/
def slot (p : Providers) : MiloadHook → Option Callback
  | .miUpdateFravg => p.xiaomi.slots .miUpdateFravgF
  | .waltUpdateHooks => p.xiaomi.slots .waltWindowUpdateHooks
  | .taskGroupChangeUpdateF => p.miSchedule.taskGroupChangeUpdateHook
  | .miMigrateHook => p.xiaomi.slots .miMigrateFloadHooks
  | .miUpdateGroupNr => p.xiaomi.slots .miUpdateGroupNr
  | .miMigarteFixFldHooks => p.xiaomi.slots .miMigarteFixFldHooks
  | .uiTaskDetect => p.metis.uiTaskDetectPtr
  | .miUpdateGlobalPeriodF => p.miSchedule.miUpdateGlobalPeriodHook
  | .miRunFrequpdateHooks => p.xiaomi.slots .miRunFrequpdateHooks

end Providers

/-! ## The two functions -/

/-- A call of a provider. -/
inductive HookCall
  | register (hook : MiloadHook) (callback : Callback)
  | unregister (hook : MiloadHook)
deriving DecidableEq

open Program (ask)

/-- The unwinding of `miload_register_hooks` from `err_walt` on. -/
def errWalt (ret : ℤ) : Program HookCall ℤ ℤ := do
  let _ ← ask (.unregister .miUpdateFravg)
  return ret

/-- The same from `err_group_change` on. -/
def errGroupChange (ret : ℤ) : Program HookCall ℤ ℤ := do
  let _ ← ask (.unregister .waltUpdateHooks)
  errWalt ret

/-- The same from `err_migrate` on. -/
def errMigrate (ret : ℤ) : Program HookCall ℤ ℤ := do
  let _ ← ask (.unregister .taskGroupChangeUpdateF)
  errGroupChange ret

/-- The same from `err_group_nr` on. -/
def errGroupNr (ret : ℤ) : Program HookCall ℤ ℤ := do
  let _ ← ask (.unregister .miMigrateHook)
  errMigrate ret

/-- The same from `err_fix` on. -/
def errFix (ret : ℤ) : Program HookCall ℤ ℤ := do
  let _ ← ask (.unregister .miUpdateGroupNr)
  errGroupNr ret

/-- The same from `err_ui` on. -/
def errUi (ret : ℤ) : Program HookCall ℤ ℤ := do
  let _ ← ask (.unregister .miMigarteFixFldHooks)
  errFix ret

/-- The same from `err_global` on. -/
def errGlobal (ret : ℤ) : Program HookCall ℤ ℤ := do
  let _ ← ask (.unregister .uiTaskDetect)
  errUi ret

/-- The same from `err_freq` on. -/
def errFreq (ret : ℤ) : Program HookCall ℤ ℤ := do
  let _ ← ask (.unregister .miUpdateGlobalPeriodF)
  errGlobal ret

/-- `miload_register_hooks()`. -/
def miloadRegisterHooks : Program HookCall ℤ ℤ := do
  let ret ← ask (.register .miUpdateFravg .miFrameLoadRavg)
  if ret ≠ 0 then return ret
  let ret ← ask (.register .waltUpdateHooks .skipWaltWindowUpdate)
  if ret ≠ 0 then return ← errWalt ret
  let ret ← ask (.register .taskGroupChangeUpdateF .grpEnqBoostTask)
  if ret ≠ 0 then return ← errGroupChange ret
  let ret ← ask (.register .miMigrateHook .migrateInterClusterFload)
  if ret ≠ 0 then return ← errMigrate ret
  let ret ← ask (.register .miUpdateGroupNr .miUpdateGroupGroup)
  if ret ≠ 0 then return ← errGroupNr ret
  let ret ← ask (.register .miMigarteFixFldHooks .fixFloadInIrq)
  if ret ≠ 0 then return ← errFix ret
  let ret ← ask (.register .uiTaskDetect .grpEnqBoostPipeline)
  if ret ≠ 0 then return ← errUi ret
  let ret ← ask (.register .miUpdateGlobalPeriodF .updateGloabalTargetPeriod)
  if ret ≠ 0 then return ← errGlobal ret
  let ret ← ask (.register .miRunFrequpdateHooks .groupFrameCpufreqTransition)
  if ret ≠ 0 then return ← errFreq ret
  return 0

/-- `miload_unregister_hooks()`. -/
def miloadUnregisterHooks : Program HookCall ℤ Unit := do
  let _ ← ask (.unregister .miRunFrequpdateHooks)
  let _ ← ask (.unregister .miUpdateGlobalPeriodF)
  let _ ← ask (.unregister .uiTaskDetect)
  let _ ← ask (.unregister .miMigarteFixFldHooks)
  let _ ← ask (.unregister .miUpdateGroupNr)
  let _ ← ask (.unregister .miMigrateHook)
  let _ ← ask (.unregister .taskGroupChangeUpdateF)
  let _ ← ask (.unregister .waltUpdateHooks)
  let _ ← ask (.unregister .miUpdateFravg)
  return ()

/-! ## Loads and unloads -/

/-- How far miloadtrace is. Between the return of `miload_register_hooks` and the call of
`migtgov_register` it is `registered`. -/
inductive Stage
  | unloaded
  | registering (rest : Program HookCall ℤ ℤ)
  | registered
  | loaded
  | unregistering (rest : Program HookCall ℤ Unit)

/-- The providers and miloadtrace. -/
structure System where
  providers : Providers
  stage : Stage

/-- What happens next: a switch is written, miloadtrace is loaded or unloaded, or the load or the
unload under way goes on. The return values of the calls outside the providers are part of the
event; a nonzero `failure` makes a register fail with that value. -/
inductive Event
  | setSafeBoot (value : Bool)
  | setHooksEnable (value : Bool)
  | load (miscRegister miloadProcInit : ℤ)
  | next (failure : ℤ)
  | migtgovRegister (ret : ℤ)
  | unload
deriving DecidableEq

/-- The answer of a provider, and the providers afterwards; a register that fails stores
nothing. -/
def HookCall.answer (failure : ℤ) (p : Providers) : HookCall → ℤ × Providers
  | .register hook callback =>
    if failure ≠ 0 then (failure, p) else p.register (some callback) hook
  | .unregister hook => p.unregister hook

namespace System

/-- One event; an event that cannot happen at this stage changes nothing. -/
def step (s : System) : Event → System
  | .setSafeBoot value =>
    { s with
      providers := { s.providers with metis := { s.providers.metis with safeBoot := value } } }
  | .setHooksEnable value =>
    { s with
      providers := { s.providers with xiaomi := { s.providers.xiaomi with enable := value } } }
  | .load miscRegister miloadProcInit =>
    match s.stage with
    | .unloaded =>
      if miscRegister ≠ 0 ∨ miloadProcInit ≠ 0 then s
      else { s with stage := .registering miloadRegisterHooks }
    | _ => s
  | .next failure =>
    match s.stage with
    | .registering (.call q rest) =>
      let (ret, providers) := q.answer failure s.providers
      ⟨providers, .registering (rest ret)⟩
    | .registering (.done ret) => { s with stage := if ret ≠ 0 then .unloaded else .registered }
    | .unregistering (.call q rest) =>
      let (ret, providers) := q.answer failure s.providers
      ⟨providers, .unregistering (rest ret)⟩
    | .unregistering (.done _) => { s with stage := .unloaded }
    | _ => s
  | .migtgovRegister ret =>
    match s.stage with
    | .registered =>
      { s with stage := if ret ≠ 0 then .unregistering miloadUnregisterHooks else .loaded }
    | _ => s
  | .unload =>
    match s.stage with
    | .loaded => { s with stage := .unregistering miloadUnregisterHooks }
    | _ => s

/-- What an event does to the stage and the slots. -/
inductive Moves : System → Event → System → Prop
  | keep {s s' : System} {e : Event} (hstage : s'.stage = s.stage)
      (hslot : ∀ hook, s'.providers.slot hook = s.providers.slot hook) : Moves s e s'
  | load {p : Providers} (miscRegister miloadProcInit : ℤ) :
      Moves ⟨p, .unloaded⟩ (.load miscRegister miloadProcInit) ⟨p, .registering miloadRegisterHooks⟩
  | registerCall {p : Providers} (q : HookCall) (rest : ℤ → Program HookCall ℤ ℤ) (failure : ℤ) :
      Moves ⟨p, .registering (.call q rest)⟩ (.next failure)
        ⟨(q.answer failure p).2, .registering (rest (q.answer failure p).1)⟩
  | registerFailed {p : Providers} {ret : ℤ} (failure : ℤ) (hret : ret ≠ 0) :
      Moves ⟨p, .registering (.done ret)⟩ (.next failure) ⟨p, .unloaded⟩
  | registerDone {p : Providers} (failure : ℤ) :
      Moves ⟨p, .registering (.done 0)⟩ (.next failure) ⟨p, .registered⟩
  | loaded {p : Providers} : Moves ⟨p, .registered⟩ (.migtgovRegister 0) ⟨p, .loaded⟩
  | takeBack {p : Providers} {stage : Stage} {e : Event}
      (hstage : stage = .registered ∨ stage = .loaded) :
      Moves ⟨p, stage⟩ e ⟨p, .unregistering miloadUnregisterHooks⟩
  | unregisterCall {p : Providers} (q : HookCall) (rest : ℤ → Program HookCall ℤ Unit)
      (failure : ℤ) :
      Moves ⟨p, .unregistering (.call q rest)⟩ (.next failure)
        ⟨(q.answer failure p).2, .unregistering (rest (q.answer failure p).1)⟩
  | unregisterDone {p : Providers} (failure : ℤ) :
      Moves ⟨p, .unregistering (.done ())⟩ (.next failure) ⟨p, .unloaded⟩

theorem Moves.refl (s : System) (e : Event) : Moves s e s := keep rfl fun _ => rfl

theorem moves_step (s : System) (e : Event) : Moves s e (s.step e) := by
  obtain ⟨p, stage⟩ := s
  cases e with
  | setSafeBoot value => exact Moves.keep rfl fun hook => by cases hook <;> rfl
  | setHooksEnable value => exact Moves.keep rfl fun hook => by cases hook <;> rfl
  | load miscRegister miloadProcInit =>
    cases stage with
    | unloaded =>
      simp only [step]
      split_ifs
      · exact Moves.refl _ _
      · exact Moves.load miscRegister miloadProcInit
    | _ => exact Moves.refl _ _
  | next failure =>
    cases stage with
    | registering rest =>
      cases rest with
      | call q rest => exact Moves.registerCall q rest failure
      | done ret =>
        simp only [step]
        split_ifs with hret
        · exact Moves.registerFailed failure hret
        · rw [not_not.mp hret]
          exact Moves.registerDone failure
    | unregistering rest =>
      cases rest with
      | call q rest => exact Moves.unregisterCall q rest failure
      | done _ => exact Moves.unregisterDone failure
    | _ => exact Moves.refl _ _
  | migtgovRegister ret =>
    cases stage with
    | registered =>
      simp only [step]
      split_ifs with hret
      · exact Moves.takeBack (Or.inl rfl)
      · rw [not_not.mp hret]
        exact Moves.loaded
    | _ => exact Moves.refl _ _
  | unload =>
    cases stage with
    | loaded => exact Moves.takeBack (Or.inr rfl)
    | _ => exact Moves.refl _ _

end System

end XiaomiModules
