import XiaomiModules.Library.Runs
import XiaomiModules.PerfHelper.Load

/-!
# What perf_helper leaves behind

What an initialiser has registered when it fails stays: `perf_helper_init` undoes the initialisers
before it only. So a load leaves something behind where the `mimd` kobject fails and its directory
did not, or where the group of a kobject fails. A kobject that is left behind fails every load from
then on; a directory goes when a later load has succeeded and is unloaded.

## Main definitions

* `HelperAnswers.Leaks`: the answers with which a load leaves something behind
* `PerfHelperRun`, `PerfHelperRun.step`: attempts to load and to unload, one after the other
* `PerfHelperRun.Clean`: nothing is registered while the module is not loaded

## Main results

* `registered_perfHelperInit_iff`: when a load that fails on an empty registry leaves nothing
* `PerfHelperRun.clean_iff`: when nothing is left behind in a run
* `PerfHelperRun.unloaded_of_kobj`: a kobject left behind fails every later load
-/

namespace XiaomiModules

variable {a : HelperAnswers} {m : HelperModule} {k : HelperKobj}

/-! ## Failed loads -/

/-- The answers of the kernel with which a load leaves something behind: `perflock_init` succeeds,
and then the `mimd` kobject fails and its directory does not, or a group fails. -/
def HelperAnswers.Leaks (a : HelperAnswers) : Prop :=
  a.makesDir .perflock = true ∧
    (a.makesKobj .mimd = false ∧ a.makesDir .mimd = true ∨
      a.makesKobj .mimd = true ∧ (a.groupErr .mimd ≠ 0 ∨
        a.makesKobj .perfHelper = true ∧ a.groupErr .perfHelper ≠ 0))

instance : DecidablePred HelperAnswers.Leaks := fun _ => inferInstanceAs (Decidable (_ ∧ _))

/-- On a free registry a stage succeeds exactly if its kobject and its group are made. -/
theorem mimdInit_fst_eq_zero_iff (a : HelperAnswers) (h : m.registered.Free .mimd) :
    (mimdInit a m).1 = 0 ↔ a.makesKobj .mimd = true ∧ a.groupErr .mimd = 0 := by
  have hfresh : HelperNode.kobj .mimd ∉ (mimdMkdir a m.registered).2 := by
    rw [kobj_mem_mimdMkdir]
    exact fun hmem => h _ hmem rfl
  have hret := kobjInit_fst_eq_zero_iff a (mimdMkdir a m.registered).2 .mimd
  rwa [and_iff_left hfresh] at hret

theorem schedAssiInit_fst_eq_zero_iff (a : HelperAnswers) (h : m.registered.Free .schedAssi) :
    (schedAssiInit a m).1 = 0 ↔ a.makesKobj .perfHelper = true ∧ a.groupErr .perfHelper = 0 := by
  have hfresh : HelperNode.kobj .perfHelper ∉ m.registered := fun hmem => h _ hmem rfl
  have hret := kobjInit_fst_eq_zero_iff a m.registered .perfHelper
  rwa [and_iff_left hfresh] at hret

/-- It leaves its kobject, if that is made; the second stage leaves its directory too. -/
theorem free_mimdInit_iff (a : HelperAnswers) (h : m.registered.Free .mimd) :
    (mimdInit a m).2.registered.Free .mimd ↔
      a.makesKobj .mimd = false ∧ a.makesDir .mimd = false := by
  have hfresh : HelperNode.kobj .mimd ∉ (mimdMkdir a m.registered).2 := by
    rw [kobj_mem_mimdMkdir]
    exact fun hmem => h _ hmem rfl
  rw [← free_mimdMkdir_iff a h]
  exact free_kobjInit_iff a hfresh

theorem free_schedAssiInit_iff (a : HelperAnswers) (h : m.registered.Free .schedAssi) :
    (schedAssiInit a m).2.registered.Free .schedAssi ↔ a.makesKobj .perfHelper = false := by
  have hfree := free_kobjInit_iff (k := .perfHelper) a fun hmem => h _ hmem rfl
  exact hfree.trans (and_iff_left h)

/-- **A failed load**: on an empty registry, a load that fails leaves nothing exactly if the
kernel's answers do not make it leak. -/
theorem registered_perfHelperInit_iff (a : HelperAnswers) :
    ((perfHelperInit a (.fresh ∅)).1 ≠ 0 → (perfHelperInit a (.fresh ∅)).2.registered = ∅) ↔
      ¬ a.Leaks := by
  have hfirst := perflockInit_cases a (.fresh ∅)
  have hconfined := confined_perflockInit a (.fresh ∅)
  rcases perfHelperInit_cases a (.fresh ∅) with ⟨hret, heq⟩ | ⟨m₁, hperflock, hsecond⟩
  · -- nothing is registered where the directory is not made
    rw [heq]
    rcases hfirst with ⟨hfails, -, hregistered⟩ | ⟨-, hzero⟩
    · refine iff_of_true (fun _ => hregistered) fun hleaks => hfails ?_
      exact ⟨hleaks.1, Finset.notMem_empty _⟩
    · exact absurd hzero hret
  rw [hperflock] at hfirst hconfined
  obtain ⟨⟨hdir, -⟩, -⟩ :=
    hfirst.resolve_left fun h => (neg_errno_lt_zero ENOMEM).ne h.2.1.symm
  -- the first stage has touched no node of the others
  have hmimd : m₁.registered.Free .mimd := hconfined.free nofun (free_empty .mimd)
  have hassi : (mimdInit a m₁).2.registered.Free .schedAssi :=
    (confined_mimdInit a m₁).free nofun (hconfined.free nofun (free_empty .schedAssi))
  have hmimdRet := mimdInit_fst_eq_zero_iff a hmimd
  rcases hsecond with ⟨hret, heq⟩ | ⟨m₂, hmimdInit, hthird⟩
  · -- what the second stage registered stays
    have hfails : a.makesKobj .mimd = true → a.groupErr .mimd ≠ 0 :=
      fun hkobj hgroup => hret (hmimdRet.mpr ⟨hkobj, hgroup⟩)
    rw [heq, registered_perflockExit_eq_empty_iff hassi, free_mimdInit_iff a hmimd,
      HelperAnswers.Leaks, and_iff_right hdir]
    cases hkobj : a.makesKobj .mimd with
    | false => simp [hret]
    | true => simp [hret, hfails hkobj]
  have hmimdKobj := mimdKobj_of_mimdInit hmimdInit
  rw [hmimdInit] at hmimdRet hassi
  obtain ⟨hkobj, hgroup⟩ := hmimdRet.mp rfl
  have hassiRet := schedAssiInit_fst_eq_zero_iff a hassi
  rcases hthird with ⟨hret, heq⟩ | ⟨m₃, hassiInit, heq⟩
  · -- what the third stage registered stays
    have hfails : a.makesKobj .perfHelper = true → a.groupErr .perfHelper ≠ 0 :=
      fun hkobj' hgroup' => hret (hassiRet.mpr ⟨hkobj', hgroup'⟩)
    rw [heq, registered_perflockExit_mimdExit_eq_empty_iff
      ((mimdKobj_schedAssiInit a m₂).trans hmimdKobj), free_schedAssiInit_iff a hassi]
    cases hkobj' : a.makesKobj .perfHelper with
    | false => simp [HelperAnswers.Leaks, hkobj, hgroup, hkobj']
    | true => simp [HelperAnswers.Leaks, hdir, hkobj, hkobj', hret, hfails hkobj']
  · -- nothing failed
    rw [hassiInit] at hassiRet
    rw [heq]
    refine iff_of_true (fun hne => absurd rfl hne) ?_
    simp [HelperAnswers.Leaks, hkobj, hgroup, hassiRet.mp rfl]

/-! ## What is left behind -/

/-- The second stage takes no kobject away. -/
theorem kobj_mem_mimdInit (a : HelperAnswers) {k : HelperKobj}
    (h : HelperNode.kobj k ∈ m.registered) :
    HelperNode.kobj k ∈ (mimdInit a m).2.registered := by
  cases k with
  | mimd =>
    have hmem := (kobj_mem_mimdMkdir a m.registered .mimd).mpr h
    have hsame : (mimdInit a m).2.registered = (mimdMkdir a m.registered).2 :=
      congrArg (fun out => out.2.2) (kobjInit_of_mem a hmem)
    rwa [hsame]
  | perfHelper => exact (confined_mimdInit a m _ (by decide)).mpr h

/-- The first stage makes no kobject. -/
theorem stage_kobj_ne_perflock (k : HelperKobj) : (HelperNode.kobj k).stage ≠ .perflock := by
  cases k with
  | mimd => decide
  | perfHelper => decide

/-- **A kobject left behind** fails the load, and stays. -/
theorem perfHelperInit_of_kobj (a : HelperAnswers) {k : HelperKobj}
    (h : HelperNode.kobj k ∈ m.registered) :
    (perfHelperInit a m).1 ≠ 0 ∧ HelperNode.kobj k ∈ (perfHelperInit a m).2.registered := by
  have hstage := stage_kobj_ne_perflock k
  have hfirst : HelperNode.kobj k ∈ (perflockInit a m).2.registered :=
    (confined_perflockInit a m _ hstage).mpr h
  rcases perfHelperInit_cases a m with ⟨hret, heq⟩ | ⟨m₁, hperflock, hsecond⟩
  · rw [heq]
    exact ⟨hret, hfirst⟩
  rw [hperflock] at hfirst
  -- the kobject is there when the second stage runs, and after it
  have hmimd := kobj_mem_mimdInit a hfirst
  rcases hsecond with ⟨hret, heq⟩ | ⟨m₂, hmimdInit, hthird⟩
  · rw [heq, mem_perflockExit]
    exact ⟨hret, hmimd, hstage⟩
  have hmimdKobj := mimdKobj_of_mimdInit hmimdInit
  have hmimdRet := kobjInit_fst_eq_zero_iff a (mimdMkdir a m₁.registered).2 .mimd
  rw [hmimdInit] at hmimd
  cases k with
  -- the stage that succeeded has found the name free
  | mimd =>
    have hfresh := (hmimdRet.mp (congrArg Prod.fst hmimdInit)).1.2
    exact absurd ((kobj_mem_mimdMkdir a m₁.registered .mimd).mpr hfirst) hfresh
  | perfHelper =>
    have hinit := kobjInit_of_mem a hmimd
    have hregistered : (schedAssiInit a m₂).2.registered = m₂.registered :=
      congrArg (fun out => out.2.2) hinit
    rcases hthird with ⟨hne, heq⟩ | ⟨m₃, hassiInit, -⟩
    · rw [heq, mem_perflockExit, mem_mimdExit ((mimdKobj_schedAssiInit a m₂).trans hmimdKobj),
        hregistered]
      exact ⟨hne, ⟨hmimd, by decide⟩, by decide⟩
    · have hzero : (kobjInit a m₂.registered .perfHelper).1 = 0 := congrArg Prod.fst hassiInit
      rw [hinit] at hzero
      exact absurd hzero (neg_errno_lt_zero ENOMEM).ne

/-! ## Runs -/

/-- The module and what is registered, and whether the module is loaded. -/
structure PerfHelperRun where
  module : HelperModule
  loaded : Bool

/-- What is tried next; the kernel refuses to load a module twice, and to unload one that is not
loaded. -/
inductive LoadEvent
  | load (a : HelperAnswers)
  | unload

namespace PerfHelperRun

/-- Nothing is registered yet. -/
def start : PerfHelperRun := ⟨.fresh ∅, false⟩

/-- One event. -/
def step (s : PerfHelperRun) : LoadEvent → PerfHelperRun
  | .load a =>
    if s.loaded = true then s
    else
      let (ret, m) := perfHelperInit a (.fresh s.module.registered)
      ⟨m, ret = 0⟩
  | .unload => if s.loaded = true then ⟨perfHelperExit s.module, false⟩ else s

/-- Where the module is not loaded, nothing of it is registered. -/
def Clean (s : PerfHelperRun) : Prop :=
  s.loaded = false → s.module.registered = ∅

/-- A load of the module does not leak. -/
def LoadsCleanly (s : PerfHelperRun) (e : LoadEvent) : Prop :=
  ∀ a, e = .load a → s.loaded = false → ¬ a.Leaks

/-- A loaded module has its kobjects at hand. -/
def HasKobjs (s : PerfHelperRun) : Prop :=
  s.loaded = true → s.module.mimdKobj = true ∧ s.module.schedAssiKobj = true

variable {s : PerfHelperRun}

theorem step_load (h : s.loaded = false) (a : HelperAnswers) :
    s.step (.load a) = ⟨(perfHelperInit a (.fresh s.module.registered)).2,
      (perfHelperInit a (.fresh s.module.registered)).1 = 0⟩ :=
  if_neg (by simp [h])

theorem HasKobjs.step (h : s.HasKobjs) (e : LoadEvent) : (s.step e).HasKobjs := by
  cases hloaded : s.loaded with
  | false =>
    cases e with
    | load a =>
      rw [step_load hloaded]
      exact fun hret => kobjs_of_perfHelperInit (of_decide_eq_true hret)
    | unload =>
      have hsame : s.step .unload = s := if_neg (by simp [hloaded])
      rwa [hsame]
  | true =>
    cases e with
    | load a =>
      have hsame : s.step (.load a) = s := if_pos hloaded
      rwa [hsame]
    | unload =>
      have hexit : s.step .unload = ⟨perfHelperExit s.module, false⟩ := if_pos hloaded
      rw [hexit]
      exact fun hfalse => absurd hfalse Bool.false_ne_true

/-- **One event**: nothing is left behind exactly if a load does not leak. -/
theorem clean_step_iff (hs : s.HasKobjs) (h : s.Clean) (e : LoadEvent) :
    (s.step e).Clean ↔ s.LoadsCleanly e := by
  cases hloaded : s.loaded with
  | false =>
    cases e with
    | load a =>
      have hclean := registered_perfHelperInit_iff a
      rw [step_load hloaded, h hloaded]
      constructor
      · intro hstep b heq _
        rw [← LoadEvent.load.inj heq]
        exact hclean.mp fun hret => hstep (decide_eq_false hret)
      · intro hloads hret
        exact hclean.mpr (hloads a rfl hloaded) (of_decide_eq_false hret)
    | unload =>
      have hsame : s.step .unload = s := if_neg (by simp [hloaded])
      rw [hsame]
      exact iff_of_true h nofun
  | true =>
    -- a loaded module holds both kobjects, so unloading it removes everything
    have hnot : ¬ s.loaded = false := by simp [hloaded]
    refine iff_of_true ?_ fun _ _ hfalse => absurd hfalse hnot
    cases e with
    | load a =>
      have hsame : s.step (.load a) = s := if_pos hloaded
      rwa [hsame]
    | unload =>
      have hexit : s.step .unload = ⟨perfHelperExit s.module, false⟩ := if_pos hloaded
      obtain ⟨hmimd, hassi⟩ := hs hloaded
      rw [hexit]
      exact fun _ => registered_perfHelperExit hmimd hassi

/-- **Loads and unloads**: in a run from an empty registry, nothing is left behind whenever the
module is not loaded exactly if no load of it leaks. -/
theorem clean_iff (events : List LoadEvent) :
    (∀ pre, pre <+: events → (Runs.after step start pre).Clean) ↔
      Runs.Along step LoadsCleanly start events :=
  Runs.forall_prefix_iff_along (I := HasKobjs) (P := Clean)
    (fun _ e hs _ _ => hs.step e) (fun _ e hs h => clean_step_iff hs h e)
    (fun h => absurd h Bool.false_ne_true) (fun _ => rfl) events

/-- **After a leak**: while a kobject is left behind, no load succeeds, and it stays. -/
theorem unloaded_of_kobj {k : HelperKobj} (hloaded : s.loaded = false)
    (h : HelperNode.kobj k ∈ s.module.registered) (events : List LoadEvent) :
    (Runs.after step s events).loaded = false ∧
      HelperNode.kobj k ∈ (Runs.after step s events).module.registered := by
  refine Runs.after_invariant (I := fun s : PerfHelperRun =>
    s.loaded = false ∧ HelperNode.kobj k ∈ s.module.registered) ?_ ⟨hloaded, h⟩ events
  rintro s (a | -) ⟨hloaded, hmem⟩
  · obtain ⟨hret, hkept⟩ :=
      perfHelperInit_of_kobj (m := .fresh s.module.registered) a hmem
    rw [step_load hloaded]
    exact ⟨decide_eq_false hret, hkept⟩
  · have hsame : s.step .unload = s := if_neg (by simp [hloaded])
    rw [hsame]
    exact ⟨hloaded, hmem⟩

/-- Everything is made but the group of the `mimd` kobject. -/
def mimdGroupFails : HelperAnswers where
  makesDir _ := true
  makesEntry _ := true
  makesKobj _ := true
  groupErr
    | .mimd => 12
    | .perfHelper => 0

/-- The load fails, and the kobject and the directory stay. -/
theorem not_clean_mimdGroupFails :
    ¬ ∀ events : List LoadEvent, (Runs.after step start events).Clean := by
  intro h
  have hempty := h [.load mimdGroupFails] (by decide)
  exact absurd hempty (by decide)

end PerfHelperRun

end XiaomiModules
