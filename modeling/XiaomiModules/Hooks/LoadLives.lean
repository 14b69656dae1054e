import XiaomiModules.Hooks.Miloadtrace
import XiaomiModules.Library.Nested

/-!
# The lives of miloadtrace

`miloadtrace_init` registers its device, makes its proc files, registers its nine hooks and
registers its governor. Where a step fails it jumps to the labels that undo the steps before; of the
proc files only the directory `miload` has to be there, and the files go to it if `group` is not.
`miloadtrace_exit` undoes the four steps.

However the calls are answered, in every life of the module what is given back is always what was
taken last, and a file is made only in a directory that is there. A load that fails and an unload
leave nothing.

## Main definitions

* `MiloadCall`, `MiloadCall.entries`: the calls of the two functions, and what they take and give
  back
* `ProcEntries`: the static variables of the proc files
* `miloadProcInit`, `miloadProcExit`, `miloadtraceInit`, `miloadtraceExit`: the four functions
* `miloadLives`: loads and unloads one after the other

## Main results

* `meets_miloadtraceInit`, `meets_miloadtraceExit`: the two functions alone
* `nested_lives`: what is taken and given back in many lives
-/

namespace XiaomiModules

open Ledger (Entry Fits Nested stack)
open Program (Contract Meets ask)

/-! ## Calls -/

/-- The directories of `/proc` that are made. -/
inductive MiloadDir
  | miload
  | frameLoad
  | group

/-- The files of `/proc` that are made. -/
inductive MiloadFile
  | allGroup
  | taskGrpId
  | userGrpId

/-- The interrupt work of miloadtrace. -/
inductive FlwIrqWork
  | changeStatus
  | cpufreq
  | asyncCpufreq

/-- A call of `miloadtrace_init` or `miloadtrace_exit`. An entry of `/proc` is its address, and 0 is
`NULL`. -/
inductive MiloadCall
  | miscRegister
  | miscDeregister
  | procMkdir (dir : MiloadDir) (parent : ℤ)
  | procCreate (file : MiloadFile) (parent : ℤ)
  | procRemove (entry : ℤ)
  | hook (call : HookCall)
  | cpufreqRegisterGovernor
  | cpufreqUnregisterGovernor
  | irqWorkSync (work : FlwIrqWork)

/-- What miloadtrace takes from the kernel and from the other modules. -/
inductive MiloadResource
  | miscDevice
  | procEntry (address : ℤ)
  | hook (hook : MiloadHook)
  | governor
deriving DecidableEq

/-- What a call with its answer takes or gives back. `proc_remove(NULL)` does nothing. -/
def MiloadCall.entries : MiloadCall × ℤ → List (Entry MiloadResource)
  | (.miscRegister, ret) => if ret = 0 then [.take .miscDevice] else []
  | (.miscDeregister, _) => [.give .miscDevice]
  | (.procMkdir _ _, entry) => if entry = 0 then [] else [.take (.procEntry entry)]
  | (.procCreate _ _, entry) => if entry = 0 then [] else [.take (.procEntry entry)]
  | (.procRemove entry, _) => if entry = 0 then [] else [.give (.procEntry entry)]
  | (.hook (.register h _), ret) => if ret = 0 then [.take (.hook h)] else []
  | (.hook (.unregister h), _) => [.give (.hook h)]
  | (.cpufreqRegisterGovernor, ret) => if ret = 0 then [.take .governor] else []
  | (.cpufreqUnregisterGovernor, _) => [.give .governor]
  | (.irqWorkSync _, _) => []

/-- `miload` is made in the root of `/proc`, and everything else in an entry that is held. -/
def MiloadCall.InDirectory (held : List MiloadResource) : MiloadCall → Prop
  | .procMkdir .miload parent => parent = 0
  | .procMkdir _ parent => .procEntry parent ∈ held
  | .procCreate _ parent => .procEntry parent ∈ held
  | _ => True

/-! ## The functions -/

/-- The static variables of the proc files. -/
structure ProcEntries where
  miloadDir : ℤ
  frameLoadDir : ℤ
  groupDir : ℤ
  allGroupShowEntry : ℤ
  taskgrpidEntry : ℤ
  usergrpidEntry : ℤ

/-- `x ?: y`. -/
def orElse (x y : ℤ) : ℤ := if x ≠ 0 then x else y

/-- `miload_proc_init()`. -/
def miloadProcInit (v : ProcEntries) : Program MiloadCall ℤ (ℤ × ProcEntries) := do
  let miloadDir ← ask (.procMkdir .miload 0)
  if miloadDir = 0 then return (-ENOMEM, { v with miloadDir := miloadDir })
  let frameLoadDir ← ask (.procMkdir .frameLoad miloadDir)
  let groupDir ← ask (.procMkdir .group miloadDir)
  let allGroupShowEntry ← ask (.procCreate .allGroup (orElse groupDir miloadDir))
  let taskgrpidEntry ← ask (.procCreate .taskGrpId (orElse groupDir miloadDir))
  let usergrpidEntry ← ask (.procCreate .userGrpId (orElse groupDir miloadDir))
  return (0, ⟨miloadDir, frameLoadDir, groupDir, allGroupShowEntry, taskgrpidEntry,
    usergrpidEntry⟩)

/-- `miload_proc_exit()`. -/
def miloadProcExit (v : ProcEntries) : Program MiloadCall ℤ Unit := do
  let _ ← ask (.procRemove v.usergrpidEntry)
  let _ ← ask (.procRemove v.taskgrpidEntry)
  let _ ← ask (.procRemove v.allGroupShowEntry)
  let _ ← ask (.procRemove v.groupDir)
  let _ ← ask (.procRemove v.frameLoadDir)
  let _ ← ask (.procRemove v.miloadDir)
  return ()

/-- The unwinding of `miloadtrace_init` from `err_misc` on. -/
def errMisc (ret : ℤ) (v : ProcEntries) : Program MiloadCall ℤ (ℤ × ProcEntries) := do
  let _ ← ask .miscDeregister
  return (ret, v)

/-- The same from `err_proc` on. -/
def errProc (ret : ℤ) (v : ProcEntries) : Program MiloadCall ℤ (ℤ × ProcEntries) := do
  miloadProcExit v
  errMisc ret v

/-- The same from `err_hooks` on. -/
def errHooks (ret : ℤ) (v : ProcEntries) : Program MiloadCall ℤ (ℤ × ProcEntries) := do
  miloadUnregisterHooks.mapCalls .hook
  errProc ret v

/-- `miloadtrace_init()`, where the static variables are `v` before it. -/
def miloadtraceInit (v : ProcEntries) : Program MiloadCall ℤ (ℤ × ProcEntries) := do
  let ret ← ask .miscRegister
  if ret ≠ 0 then return (ret, v)
  let (ret, v) ← miloadProcInit v
  if ret ≠ 0 then return ← errMisc ret v
  let ret ← miloadRegisterHooks.mapCalls .hook
  if ret ≠ 0 then return ← errProc ret v
  let ret ← ask .cpufreqRegisterGovernor
  if ret ≠ 0 then return ← errHooks ret v
  return (0, v)

/-- `miloadtrace_exit()`. -/
def miloadtraceExit (v : ProcEntries) : Program MiloadCall ℤ Unit := do
  let _ ← ask .cpufreqUnregisterGovernor
  let _ ← ask (.irqWorkSync .changeStatus)
  let _ ← ask (.irqWorkSync .cpufreq)
  let _ ← ask (.irqWorkSync .asyncCpufreq)
  miloadUnregisterHooks.mapCalls .hook
  miloadProcExit v
  let _ ← ask .miscDeregister
  return ()

/-- A load, and the unload if it succeeds. -/
def miloadLife (kernel : List (MiloadCall × ℤ) → MiloadCall → ℤ) (v : ProcEntries)
    (log : List (MiloadCall × ℤ)) : ProcEntries × List (MiloadCall × ℤ) :=
  let ((ret, v), log) := (miloadtraceInit v).exec kernel log
  if ret ≠ 0 then (v, log) else (v, ((miloadtraceExit v).exec kernel log).2)

/-- The static variables and the calls with their answers after so many lives. -/
def miloadLives (kernel : List (MiloadCall × ℤ) → MiloadCall → ℤ) :
    ℕ → ProcEntries × List (MiloadCall × ℤ)
  | 0 => (⟨0, 0, 0, 0, 0, 0⟩, [])
  | n + 1 =>
    let (v, log) := miloadLives kernel n
    miloadLife kernel v log

/-! ## The contract -/

/-- The contract of the calls: what is given back was taken last, and what is made is made in a
directory that is there. -/
abbrev miloadContract : Contract MiloadCall ℤ (List MiloadResource) :=
  Ledger.stackContract MiloadCall.entries MiloadCall.InDirectory

/-- The stack with an entry of `/proc` that is not `NULL`. -/
def pushEntry (entry : ℤ) (d : List MiloadResource) : List MiloadResource :=
  if entry = 0 then d else .procEntry entry :: d

/-- The entries of `/proc` on top of the stack. -/
def ProcEntries.push (v : ProcEntries) (d : List MiloadResource) : List MiloadResource :=
  pushEntry v.usergrpidEntry (pushEntry v.taskgrpidEntry (pushEntry v.allGroupShowEntry
    (pushEntry v.groupDir (pushEntry v.frameLoadDir (pushEntry v.miloadDir d)))))

/-- The nine hooks on top of the stack. -/
def pushHooks (d : List MiloadResource) : List MiloadResource :=
  .hook .miRunFrequpdateHooks :: .hook .miUpdateGlobalPeriodF :: .hook .uiTaskDetect ::
    .hook .miMigarteFixFldHooks :: .hook .miUpdateGroupNr :: .hook .miMigrateHook ::
    .hook .taskGroupChangeUpdateF :: .hook .waltUpdateHooks :: .hook .miUpdateFravg :: d

theorem mem_pushEntry_self {entry : ℤ} (h : entry ≠ 0) (d : List MiloadResource) :
    .procEntry entry ∈ pushEntry entry d := by
  rw [pushEntry, if_neg h]
  exact List.mem_cons_self

theorem mem_pushEntry_of_mem {r : MiloadResource} {d : List MiloadResource} (h : r ∈ d)
    (entry : ℤ) : r ∈ pushEntry entry d := by
  unfold pushEntry
  split_ifs
  · exact h
  · exact List.mem_cons_of_mem _ h

section Rules

variable {R : Type} {post : R → List MiloadResource → Prop} {d : List MiloadResource}

/-- A call that makes an entry of `/proc`. -/
theorem meets_make_bind {q : MiloadCall}
    (hq : ∀ entry, MiloadCall.entries (q, entry) =
      if entry = 0 then [] else [.take (.procEntry entry)])
    (hdir : q.InDirectory d) (f : ℤ → Program MiloadCall ℤ R) :
    Meets miloadContract post (ask q >>= f) d ↔
      ∀ entry, Meets miloadContract post (f entry) (pushEntry entry d) := by
  have hcall : Ledger.MayCall MiloadCall.entries MiloadCall.InDirectory d q := by
    refine ⟨fun entry => ?_, hdir⟩
    rw [hq]
    split_ifs
    · trivial
    · exact ⟨trivial, trivial⟩
  have hafter : ∀ entry, Ledger.stackAfter MiloadCall.entries d (q, entry) = pushEntry entry d := by
    intro entry
    rw [Ledger.stackAfter, hq, pushEntry]
    split_ifs <;> rfl
  simp only [miloadContract, Ledger.meets_stack_bind, hcall, hafter, true_and]

theorem meets_procMkdir_bind (dir : MiloadDir) {parent : ℤ}
    (h : (MiloadCall.procMkdir dir parent).InDirectory d) (f : ℤ → Program MiloadCall ℤ R) :
    Meets miloadContract post (ask (.procMkdir dir parent) >>= f) d ↔
      ∀ entry, Meets miloadContract post (f entry) (pushEntry entry d) :=
  meets_make_bind (q := .procMkdir dir parent) (fun _ => rfl) h f

theorem meets_procCreate_bind {file : MiloadFile} {parent : ℤ}
    (h : .procEntry parent ∈ d) (f : ℤ → Program MiloadCall ℤ R) :
    Meets miloadContract post (ask (.procCreate file parent) >>= f) d ↔
      ∀ entry, Meets miloadContract post (f entry) (pushEntry entry d) :=
  meets_make_bind (q := .procCreate file parent) (fun _ => rfl) h f

/-- The removal of the entry on top, or of `NULL`. -/
theorem meets_procRemove_bind (entry : ℤ) (rest : Program MiloadCall ℤ R) :
    Meets miloadContract post (ask (.procRemove entry) >>= fun _ => rest) (pushEntry entry d) ↔
      Meets miloadContract post rest d := by
  have hq : ∀ a, MiloadCall.entries (.procRemove entry, a) =
      if entry = 0 then [] else [.give (.procEntry entry)] := fun _ => rfl
  unfold pushEntry
  split_ifs at hq ⊢
  · exact Ledger.meets_skip_bind hq trivial rest
  · exact Ledger.meets_give_bind hq trivial rest

/-- The removal of all entries. -/
theorem meets_miloadProcExit_bind (v : ProcEntries) (rest : Program MiloadCall ℤ R) :
    Meets miloadContract post (miloadProcExit v >>= fun _ => rest) (v.push d) ↔
      Meets miloadContract post rest d := by
  rw [Program.meets_bind]
  simp only [miloadProcExit, ProcEntries.push, meets_procRemove_bind, Program.meets_pure]

/-! ### Hooks -/

/-- The contract of the calls that are for hooks. -/
abbrev miloadHookContract : Contract HookCall ℤ (List MiloadResource) :=
  Ledger.stackContract (fun x => MiloadCall.entries (.hook x.1, x.2)) fun _ _ => True

theorem miloadContract_comap_hook : miloadContract.comap .hook = miloadHookContract := rfl

theorem meets_stackRegister_guard (hook : MiloadHook) (callback : Callback)
    (err : ℤ → Program HookCall ℤ R) (rest : Program HookCall ℤ R) :
    Meets miloadHookContract post
        (ask (.register hook callback) >>= fun ret => if ret ≠ 0 then err ret else rest) d ↔
      (∀ ret ≠ 0, Meets miloadHookContract post (err ret) d) ∧
        Meets miloadHookContract post rest (.hook hook :: d) :=
  Ledger.meets_take_guard (fun _ => rfl) trivial err rest

theorem meets_stackUnregister_bind (hook : MiloadHook) (rest : Program HookCall ℤ R) :
    Meets miloadHookContract post (ask (.unregister hook) >>= fun _ => rest) (.hook hook :: d) ↔
      Meets miloadHookContract post rest d :=
  Ledger.meets_give_bind (fun _ => rfl) trivial rest

end Rules

/-! ## The functions alone -/

section Functions

variable {d : List MiloadResource}

/-- `miload_proc_init` makes the entries that it leaves in the static variables, or none. -/
theorem meets_miloadProcInit (v : ProcEntries) :
    Meets miloadContract (fun out d' => d' = if out.1 = 0 then out.2.push d else d)
      (miloadProcInit v) d := by
  unfold miloadProcInit
  rw [meets_procMkdir_bind .miload rfl]
  intro dir
  by_cases hdir : dir = 0
  · rw [if_pos hdir, hdir, Program.meets_pure, if_neg (neg_errno_lt_zero ENOMEM).ne]
    rfl
  rw [if_neg hdir]
  have hmem := mem_pushEntry_self hdir d
  rw [meets_procMkdir_bind .frameLoad hmem]
  intro frame
  rw [meets_procMkdir_bind .group (mem_pushEntry_of_mem hmem frame)]
  intro group
  -- the files go to the directory of the groups, or to `miload`
  have hparent : .procEntry (orElse group dir) ∈
      pushEntry group (pushEntry frame (pushEntry dir d)) := by
    unfold orElse
    split_ifs with hgroup
    · exact mem_pushEntry_self hgroup _
    · exact mem_pushEntry_of_mem (mem_pushEntry_of_mem hmem frame) group
  rw [meets_procCreate_bind hparent]
  intro all
  have hall := mem_pushEntry_of_mem hparent all
  rw [meets_procCreate_bind hall]
  intro task
  rw [meets_procCreate_bind (mem_pushEntry_of_mem hall task)]
  intro user
  rw [Program.meets_pure, if_pos rfl]
  rfl

/-- `miload_register_hooks` registers all hooks, or none. -/
theorem meets_stack_miloadRegisterHooks :
    Meets miloadHookContract (fun ret d' => d' = if ret = 0 then pushHooks d else d)
      miloadRegisterHooks d := by
  simp only [miloadRegisterHooks, meets_stackRegister_guard, errFreq, errGlobal, errUi, errFix,
    errGroupNr, errMigrate, errGroupChange, errWalt, meets_stackUnregister_bind,
    Program.meets_pure]
  -- one case for each register that may fail, and the successful return
  refine ⟨?_, ?_, ?_, ?_, ?_, ?_, ?_, ?_, ?_, (if_pos trivial).symm⟩
  all_goals
    intro ret hret
    exact (if_neg hret).symm

/-- `miload_unregister_hooks` unregisters all hooks. -/
theorem meets_miloadUnregisterHooks_bind {R : Type} {post : R → List MiloadResource → Prop}
    (rest : Program MiloadCall ℤ R) :
    Meets miloadContract post (miloadUnregisterHooks.mapCalls .hook >>= fun _ => rest)
        (pushHooks d) ↔
      Meets miloadContract post rest d := by
  rw [Program.meets_bind, Program.meets_mapCalls, miloadContract_comap_hook]
  simp only [miloadUnregisterHooks, pushHooks, meets_stackUnregister_bind, Program.meets_pure]

/-- What a load that succeeded holds. -/
def loadedStack (v : ProcEntries) (d : List MiloadResource) : List MiloadResource :=
  .governor :: pushHooks (v.push (.miscDevice :: d))

/-- **The load** takes what it has to, or nothing. -/
theorem meets_miloadtraceInit (v : ProcEntries) :
    Meets miloadContract (fun out d' => d' = if out.1 = 0 then loadedStack out.2 d else d)
      (miloadtraceInit v) d := by
  have hmisc : ∀ {ret : ℤ} (v : ProcEntries), ret ≠ 0 →
      Meets miloadContract (fun out d' => d' = if out.1 = 0 then loadedStack out.2 d else d)
        (errMisc ret v) (.miscDevice :: d) := by
    intro ret v hret
    refine (Ledger.meets_give_bind (fun _ => rfl) trivial _).mpr ?_
    exact (if_neg hret).symm
  have hproc : ∀ {ret : ℤ} (v : ProcEntries), ret ≠ 0 →
      Meets miloadContract (fun out d' => d' = if out.1 = 0 then loadedStack out.2 d else d)
        (errProc ret v) (v.push (.miscDevice :: d)) :=
    fun v hret => (meets_miloadProcExit_bind v _).mpr (hmisc v hret)
  unfold miloadtraceInit
  refine (Ledger.meets_take_guard (fun _ => rfl) trivial _ _).mpr ⟨?_, ?_⟩
  · exact fun ret hret => (if_neg hret).symm
  rw [Program.meets_bind]
  refine (meets_miloadProcInit v).mono ?_
  rintro ⟨ret, v⟩ d' rfl
  dsimp only
  by_cases hret : ret = 0
  · rw [if_pos hret, if_neg (not_not.mpr hret), Program.meets_bind, Program.meets_mapCalls,
      miloadContract_comap_hook]
    refine meets_stack_miloadRegisterHooks.mono ?_
    rintro ret d' rfl
    by_cases hret : ret = 0
    · rw [if_pos hret, if_neg (not_not.mpr hret)]
      refine (Ledger.meets_take_guard (fun _ => rfl) trivial _ _).mpr ⟨?_, (if_pos rfl).symm⟩
      intro ret hret
      exact (meets_miloadUnregisterHooks_bind _).mpr (hproc v hret)
    · rw [if_neg hret, if_pos hret]
      exact hproc v hret
  · rw [if_neg hret, if_pos hret]
    exact hmisc v hret

/-- **The unload** gives back what the load took. -/
theorem meets_miloadtraceExit (v : ProcEntries) :
    Meets miloadContract (fun _ d' => d' = d) (miloadtraceExit v) (loadedStack v d) := by
  unfold miloadtraceExit loadedStack
  refine (Ledger.meets_give_bind (fun _ => rfl) trivial _).mpr ?_
  refine (Ledger.meets_skip_bind (fun _ => rfl) trivial _).mpr ?_
  refine (Ledger.meets_skip_bind (fun _ => rfl) trivial _).mpr ?_
  refine (Ledger.meets_skip_bind (fun _ => rfl) trivial _).mpr ?_
  refine (meets_miloadUnregisterHooks_bind _).mpr ?_
  refine (meets_miloadProcExit_bind v _).mpr ?_
  exact (Ledger.meets_give_bind (fun _ => rfl) trivial _).mpr rfl

end Functions

/-! ## Lives -/

/-- The calls of a log are allowed where they are made. -/
def Allowed (log : List (MiloadCall × ℤ)) : Prop :=
  Runs.Along (Ledger.stackAfter MiloadCall.entries)
    (fun d x => Ledger.MayCall MiloadCall.entries MiloadCall.InDirectory d x.1) [] log

/-- What is held after a log. -/
def heldAfter (log : List (MiloadCall × ℤ)) : List MiloadResource :=
  Runs.after stack [] (log.flatMap MiloadCall.entries)

variable (kernel : List (MiloadCall × ℤ) → MiloadCall → ℤ)

/-- A load from nothing. -/
theorem allowed_load {log : List (MiloadCall × ℤ)} (hallowed : Allowed log)
    (hheld : heldAfter log = []) (v : ProcEntries) :
    Allowed ((miloadtraceInit v).exec kernel log).2 ∧
      heldAfter ((miloadtraceInit v).exec kernel log).2 =
        if ((miloadtraceInit v).exec kernel log).1.1 = 0
          then loadedStack ((miloadtraceInit v).exec kernel log).1.2 [] else [] := by
  have hmeets := meets_miloadtraceInit (d := heldAfter log) v
  have hexec := Ledger.along_stack_exec kernel hmeets hallowed
  rwa [hheld] at hexec

/-- **A life** starts and ends with nothing. -/
theorem allowed_miloadLife {log : List (MiloadCall × ℤ)} (hallowed : Allowed log)
    (hheld : heldAfter log = []) (v : ProcEntries) :
    Allowed (miloadLife kernel v log).2 ∧ heldAfter (miloadLife kernel v log).2 = [] := by
  obtain ⟨hload, hafter⟩ := allowed_load kernel hallowed hheld v
  unfold miloadLife
  by_cases hret : ((miloadtraceInit v).exec kernel log).1.1 = 0
  · rw [if_pos hret] at hafter
    have hmeets := meets_miloadtraceExit (d := []) ((miloadtraceInit v).exec kernel log).1.2
    rw [← hafter] at hmeets
    have hexec := Ledger.along_stack_exec kernel hmeets hload
    simp only [hret]
    exact hexec
  · rw [if_neg hret] at hafter
    simp only [ne_eq, hret, not_false_eq_true, if_true]
    exact ⟨hload, hafter⟩

theorem allowed_miloadLives (n : ℕ) :
    Allowed (miloadLives kernel n).2 ∧ heldAfter (miloadLives kernel n).2 = [] := by
  induction n with
  | zero => exact ⟨trivial, rfl⟩
  | succ n ih => exact allowed_miloadLife kernel ih.1 ih.2 _

/-- **Many lives**, however the calls are answered: what is given back is always what was taken
last, nothing remains after them, and every file and directory is made in one that is there. A load
after them holds the device, the proc files, the hooks and the governor if it succeeds, and nothing
if it fails. -/
theorem nested_lives (kernel : List (MiloadCall × ℤ) → MiloadCall → ℤ) (n : ℕ) :
    let (v, log) := miloadLives kernel n
    let (out, loadLog) := (miloadtraceInit v).exec kernel log
    Nested (log.flatMap MiloadCall.entries) ∧
      Runs.Along (Ledger.stackAfter MiloadCall.entries) (fun held x => x.1.InDirectory held) []
        loadLog ∧
      heldAfter loadLog = if out.1 = 0 then loadedStack out.2 [] else [] := by
  obtain ⟨hallowed, hheld⟩ := allowed_miloadLives kernel n
  obtain ⟨hload, hafter⟩ := allowed_load kernel hallowed hheld (miloadLives kernel n).1
  exact ⟨⟨Ledger.along_fits_of_mayCall hallowed, hheld⟩, hload.mono fun _ _ h => h.2, hafter⟩

end XiaomiModules
