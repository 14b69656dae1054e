import XiaomiModules.PerfHelper.Leftover

/-!
# Loading perf_helper again

A load that fails may leave a directory behind, or a kobject. The two are not alike: the next load
goes on without the directory of `mimd`, and does not go on without a kobject. So whether the module
can ever be loaded again depends on the kobjects alone, and these are left behind exactly where a
group fails.

## Main definitions

* `HelperAnswers.LeaksKobj`: the answers with which a load leaves a kobject behind
* `Registry.NoKobj`: no kobject of the module is registered

## Main results

* `noKobj_perfHelperInit_iff`: when a load that fails leaves no kobject behind
* `perfHelperInit_granted`: a load where everything is made
* `PerfHelperRun.canLoad_iff`: when the module can be loaded after a run
-/

namespace XiaomiModules

variable {a : HelperAnswers} {m : HelperModule} {r : Registry}

/-- The answers of the kernel with which a load leaves a kobject behind: `perflock_init` succeeds,
and then a group fails. -/
def HelperAnswers.LeaksKobj (a : HelperAnswers) : Prop :=
  a.makesDir .perflock = true ∧ a.makesKobj .mimd = true ∧
    (a.groupErr .mimd ≠ 0 ∨ a.makesKobj .perfHelper = true ∧ a.groupErr .perfHelper ≠ 0)

instance : DecidablePred HelperAnswers.LeaksKobj := fun _ => inferInstanceAs (Decidable (_ ∧ _))

/-- No kobject of the module is registered. -/
def Registry.NoKobj (r : Registry) : Prop := ∀ k, HelperNode.kobj k ∉ r

/-! ## One load -/

/-- The first stage registers no kobject, and takes none away. -/
theorem noKobj_perflockInit_iff (a : HelperAnswers) (m : HelperModule) :
    (perflockInit a m).2.registered.NoKobj ↔ m.registered.NoKobj :=
  forall_congr' fun k => not_congr (confined_perflockInit a m _ (stage_kobj_ne_perflock k))

theorem noKobj_perflockExit_iff (m : HelperModule) :
    (perflockExit m).registered.NoKobj ↔ m.registered.NoKobj := by
  refine forall_congr' fun k => not_congr ?_
  rw [mem_perflockExit, and_iff_left (stage_kobj_ne_perflock k)]

theorem noKobj_mimdMkdir_iff (a : HelperAnswers) (r : Registry) :
    (mimdMkdir a r).2.NoKobj ↔ r.NoKobj :=
  forall_congr' fun k => not_congr (kobj_mem_mimdMkdir a r k)

/-- The second stage registers no kobject exactly if its own is not made. -/
theorem noKobj_mimdInit_iff (h : m.registered.NoKobj) :
    (mimdInit a m).2.registered.NoKobj ↔ a.makesKobj .mimd = false := by
  have hnone := (noKobj_mimdMkdir_iff a m.registered).mpr h
  rcases kobjInit_cases a (mimdMkdir a m.registered).2 .mimd with
    ⟨hfails, hinit⟩ | ⟨hmakes, r', hinit, hmem, -⟩
  · have hsame : (mimdInit a m).2.registered = (mimdMkdir a m.registered).2 :=
      congrArg (fun out => out.2.2) hinit
    rw [hsame]
    refine iff_of_true hnone (Bool.eq_false_iff.mpr fun hmakes => ?_)
    exact hfails ⟨hmakes, hnone .mimd⟩
  · have hregistered : (mimdInit a m).2.registered = r' := congrArg (fun out => out.2.2) hinit
    rw [hregistered]
    refine iff_of_false (fun hleft => hleft .mimd hmem) fun hfails => ?_
    exact Bool.false_ne_true (hfails.symm.trans hmakes.1)

/-- Where the third stage is followed by undoing the first two, a kobject remains exactly if that of
the third is made. -/
theorem noKobj_schedAssiInit_iff (h : HelperNode.kobj .perfHelper ∉ m.registered)
    (hmimd : m.mimdKobj = true) :
    (perflockExit (mimdExit (schedAssiInit a m).2)).registered.NoKobj ↔
      a.makesKobj .perfHelper = false := by
  have hkobj : (schedAssiInit a m).2.mimdKobj = true := (mimdKobj_schedAssiInit a m).trans hmimd
  -- the unwinding removes every other kobject, so the only one left may be that of the stage
  have hleft : (perflockExit (mimdExit (schedAssiInit a m).2)).registered.NoKobj ↔
      HelperNode.kobj .perfHelper ∉ (schedAssiInit a m).2.registered := by
    rw [noKobj_perflockExit_iff]
    constructor
    · intro hnone hmem
      exact hnone .perfHelper ((mem_mimdExit hkobj).mpr ⟨hmem, by decide⟩)
    · rintro hfree (_ | _) hmem
      · exact ((mem_mimdExit hkobj).mp hmem).2 rfl
      · exact hfree ((mem_mimdExit hkobj).mp hmem).1
  rw [hleft]
  rcases kobjInit_cases a m.registered .perfHelper with
    ⟨hfails, hinit⟩ | ⟨hmakes, r', hinit, hmem, -⟩
  · have hsame : (schedAssiInit a m).2.registered = m.registered :=
      congrArg (fun out => out.2.2) hinit
    rw [hsame]
    exact iff_of_true h (Bool.eq_false_iff.mpr fun hmakes => hfails ⟨hmakes, h⟩)
  · have hregistered : (schedAssiInit a m).2.registered = r' := congrArg (fun out => out.2.2) hinit
    rw [hregistered]
    exact iff_of_false (not_not.mpr hmem) fun hfails =>
      Bool.false_ne_true (hfails.symm.trans hmakes.1)

/-- **A failed load** leaves no kobject behind exactly if the kernel's answers do not make it leak
one. -/
theorem noKobj_perfHelperInit_iff (a : HelperAnswers) (hfree : m.registered.Free .perflock)
    (hnone : m.registered.NoKobj) :
    ((perfHelperInit a m).1 ≠ 0 → (perfHelperInit a m).2.registered.NoKobj) ↔
      ¬ a.LeaksKobj := by
  have hfirst := perflockInit_cases a m
  have hnone₁ := (noKobj_perflockInit_iff a m).mpr hnone
  rcases perfHelperInit_cases a m with ⟨hret, heq⟩ | ⟨m₁, hperflock, hsecond⟩
  · -- the first stage fails, before any kobject is made
    rw [heq]
    refine iff_of_true (fun _ => hnone₁) fun hleaks => ?_
    rcases hfirst with ⟨hfails, -, -⟩ | ⟨-, hzero⟩
    · exact hfails ⟨hleaks.1, fun hmem => hfree _ hmem rfl⟩
    · exact hret hzero
  rw [hperflock] at hfirst hnone₁
  obtain ⟨⟨hdir, -⟩, -⟩ :=
    hfirst.resolve_left fun h => (neg_errno_lt_zero ENOMEM).ne h.2.1.symm
  have hmimdRet := kobjInit_fst_eq_zero_iff a (mimdMkdir a m₁.registered).2 .mimd
  have hmkdir := (noKobj_mimdMkdir_iff a m₁.registered).mpr hnone₁ .mimd
  rw [and_iff_left hmkdir] at hmimdRet
  rcases hsecond with ⟨hret, heq⟩ | ⟨m₂, hmimdInit, hthird⟩
  · -- the second stage fails, and is not undone
    have hfails : a.makesKobj .mimd = true → a.groupErr .mimd ≠ 0 :=
      fun hkobj hgroup => hret (hmimdRet.mpr ⟨hkobj, hgroup⟩)
    rw [heq, noKobj_perflockExit_iff, noKobj_mimdInit_iff hnone₁, HelperAnswers.LeaksKobj]
    cases hkobj : a.makesKobj .mimd with
    | false => simp
    | true => simp [hret, hdir, hfails hkobj]
  have hassi : HelperNode.kobj .perfHelper ∉ (mimdInit a m₁).2.registered := fun hmem =>
    hnone₁ .perfHelper ((confined_mimdInit a m₁ _ (by decide)).mp hmem)
  obtain ⟨hkobj, hgroup⟩ := hmimdRet.mp (congrArg Prod.fst hmimdInit)
  rw [hmimdInit] at hassi
  have hassiRet := kobjInit_fst_eq_zero_iff a m₂.registered .perfHelper
  rw [and_iff_left hassi] at hassiRet
  rcases hthird with ⟨hret, heq⟩ | ⟨m₃, hassiInit, heq⟩
  · -- the third stage fails, and the others are undone
    have hfails : a.makesKobj .perfHelper = true → a.groupErr .perfHelper ≠ 0 :=
      fun hkobj' hgroup' => hret (hassiRet.mpr ⟨hkobj', hgroup'⟩)
    rw [heq, noKobj_schedAssiInit_iff hassi (mimdKobj_of_mimdInit hmimdInit),
      HelperAnswers.LeaksKobj]
    cases hkobj' : a.makesKobj .perfHelper with
    | false => simp [hgroup]
    | true => simp [hret, hdir, hkobj, hfails hkobj']
  · -- the load succeeds, with every group made
    rw [heq]
    refine iff_of_true (fun hne => absurd rfl hne) ?_
    simp [HelperAnswers.LeaksKobj, hgroup, (hassiRet.mp (congrArg Prod.fst hassiInit)).2]

/-- A load that fails leaves nothing of its first stage. -/
theorem free_perflock_of_fails (hfree : m.registered.Free .perflock)
    (h : (perfHelperInit a m).1 ≠ 0) : (perfHelperInit a m).2.registered.Free .perflock := by
  have hexit (m : HelperModule) : (perflockExit m).registered.Free .perflock :=
    fun n hn => ((mem_perflockExit m).mp hn).2
  rcases perfHelperInit_cases a m with ⟨hret, heq⟩ | ⟨m₁, -, hsecond⟩
  · rcases perflockInit_cases a m with ⟨-, -, hsame⟩ | ⟨-, hzero⟩
    · rw [heq, hsame]
      exact hfree
    · exact absurd hzero hret
  rcases hsecond with ⟨-, heq⟩ | ⟨m₂, -, hthird⟩
  · rw [heq]
    exact hexit _
  rcases hthird with ⟨-, heq⟩ | ⟨m₃, -, heq⟩
  · rw [heq]
    exact hexit _
  · rw [heq] at h
    exact absurd rfl h

/-- Everything is made. -/
def HelperAnswers.granted : HelperAnswers where
  makesDir _ := true
  makesEntry _ := true
  makesKobj _ := true
  groupErr _ := 0

/-- **A load where everything is made** succeeds, where the names of its first stage and of its
kobjects are free. -/
theorem perfHelperInit_granted (hfree : m.registered.Free .perflock)
    (hnone : m.registered.NoKobj) : (perfHelperInit .granted m).1 = 0 := by
  have hfirst := perflockInit_cases .granted m
  have hnone₁ := (noKobj_perflockInit_iff .granted m).mpr hnone
  rcases perfHelperInit_cases .granted m with ⟨hret, -⟩ | ⟨m₁, hperflock, hsecond⟩
  · rcases hfirst with ⟨hfails, -, -⟩ | ⟨-, hzero⟩
    · exact absurd ⟨rfl, fun hmem => hfree _ hmem rfl⟩ hfails
    · exact absurd hzero hret
  rw [hperflock] at hnone₁
  have hmkdir := (noKobj_mimdMkdir_iff .granted m₁.registered).mpr hnone₁ .mimd
  rcases hsecond with ⟨hret, -⟩ | ⟨m₂, hmimdInit, hthird⟩
  · exact absurd ((kobjInit_fst_eq_zero_iff _ _ _).mpr ⟨⟨rfl, hmkdir⟩, rfl⟩) hret
  have hassi : HelperNode.kobj .perfHelper ∉ (mimdInit .granted m₁).2.registered := fun hmem =>
    hnone₁ .perfHelper ((confined_mimdInit .granted m₁ _ (by decide)).mp hmem)
  rw [hmimdInit] at hassi
  rcases hthird with ⟨hret, -⟩ | ⟨m₃, -, heq⟩
  · exact absurd ((kobjInit_fst_eq_zero_iff _ _ _).mpr ⟨⟨rfl, hassi⟩, rfl⟩) hret
  · rw [heq]

/-! ## Runs -/

namespace PerfHelperRun

variable {s : PerfHelperRun}

/-- Where the module is not loaded, no kobject of it is registered. -/
def Loadable (s : PerfHelperRun) : Prop := s.loaded = false → s.module.registered.NoKobj

/-- Where the module is not loaded, nothing of its first stage is registered. -/
def Undone (s : PerfHelperRun) : Prop := s.loaded = false → s.module.registered.Free .perflock

/-- A load of the module does not leak a kobject. -/
def KeepsLoadable (s : PerfHelperRun) (e : LoadEvent) : Prop :=
  ∀ a, e = .load a → s.loaded = false → ¬ a.LeaksKobj

/-- What an unload leaves, and a load of a module that is loaded. -/
theorem step_of_loaded (h : s.HasKobjs) (hloaded : s.loaded = true) (e : LoadEvent) :
    s.step e = s ∨ (s.step e).module.registered = ∅ := by
  cases e with
  | load a => exact Or.inl (if_pos hloaded)
  | unload =>
    obtain ⟨hmimd, hassi⟩ := h hloaded
    have hexit : s.step .unload = ⟨perfHelperExit s.module, false⟩ := if_pos hloaded
    rw [hexit]
    exact Or.inr (registered_perfHelperExit hmimd hassi)

theorem step_unload (h : s.loaded = false) : s.step .unload = s := if_neg (by simp [h])

theorem Undone.step (hs : s.HasKobjs) (h : s.Undone) (e : LoadEvent) : (s.step e).Undone := by
  cases hloaded : s.loaded with
  | false =>
    cases e with
    | load a =>
      rw [step_load hloaded]
      exact fun hret => free_perflock_of_fails (h hloaded) (of_decide_eq_false hret)
    | unload => rwa [step_unload hloaded]
  | true =>
    rcases step_of_loaded hs hloaded e with hsame | hempty
    · rwa [hsame]
    · intro _
      rw [hempty]
      exact free_empty .perflock

/-- **One event**: the module stays loadable exactly if a load does not leak a kobject. -/
theorem loadable_step_iff (hs : s.HasKobjs) (hundone : s.Undone) (e : LoadEvent) :
    (s.step e).Loadable ↔ s.Loadable ∧ s.KeepsLoadable e := by
  cases hloaded : s.loaded with
  | false =>
    cases e with
    | load a =>
      rw [step_load hloaded]
      by_cases hnone : s.module.registered.NoKobj
      · have hload := noKobj_perfHelperInit_iff (m := .fresh s.module.registered) a
          (hundone hloaded) hnone
        have hloadable : s.Loadable := fun _ => hnone
        rw [and_iff_right hloadable]
        constructor
        · intro hstep b heq _
          rw [← LoadEvent.load.inj heq]
          exact hload.mp fun hret => hstep (decide_eq_false hret)
        · intro hkeeps hret
          exact hload.mpr (hkeeps a rfl hloaded) (of_decide_eq_false hret)
      · -- a kobject that is there fails the load, and stays
        obtain ⟨k, hk⟩ := not_forall.mp hnone
        obtain ⟨hret, hkept⟩ :=
          perfHelperInit_of_kobj (m := .fresh s.module.registered) a (not_not.mp hk)
        refine iff_of_false (fun hstep => hstep (decide_eq_false hret) k hkept) ?_
        exact fun h => hnone (h.1 hloaded)
    | unload =>
      rw [step_unload hloaded, iff_self_and]
      intro _ a heq
      cases heq
  | true =>
    -- a loaded module is loadable as it is, and an unload leaves nothing
    have hnot : ¬ s.loaded = false := by simp [hloaded]
    have htrue : s.Loadable ∧ s.KeepsLoadable e :=
      ⟨fun hfalse => absurd hfalse hnot, fun _ _ hfalse => absurd hfalse hnot⟩
    refine iff_of_true ?_ htrue
    rcases step_of_loaded hs hloaded e with hsame | hempty
    · rw [hsame]
      exact htrue.1
    · intro _ k
      rw [hempty]
      exact Finset.notMem_empty _

/-- A module that is loadable and not loaded can be loaded, and no other. -/
theorem exists_loaded_iff (hundone : s.Undone) :
    (∃ later, (Runs.after step s later).loaded = true) ↔ s.Loadable := by
  constructor
  · rintro ⟨later, hlater⟩ hloaded k hmem
    have hstuck := (unloaded_of_kobj hloaded hmem later).1
    exact Bool.false_ne_true (hstuck.symm.trans hlater)
  · intro h
    cases hloaded : s.loaded with
    | false =>
      refine ⟨[.load .granted], ?_⟩
      have hret := perfHelperInit_granted (m := .fresh s.module.registered) (hundone hloaded)
        (h hloaded)
      rw [Runs.after_cons, Runs.after_nil, step_load hloaded]
      exact decide_eq_true hret
    | true => exact ⟨[], hloaded⟩

/-- **Loading again**: after a run of loads and unloads from an empty registry, the module can still
be loaded, by some further attempts, exactly if no load of the run has leaked a kobject. -/
theorem canLoad_iff (events : List LoadEvent) :
    (∃ later, (Runs.after step (Runs.after step start events) later).loaded = true) ↔
      Runs.Along step KeepsLoadable start events := by
  have hinv : ∀ s e, HasKobjs s ∧ Undone s → HasKobjs (step s e) ∧ Undone (step s e) :=
    fun _ e hs => ⟨hs.1.step e, hs.2.step hs.1 e⟩
  have hstart : HasKobjs start ∧ Undone start :=
    ⟨fun h => absurd h Bool.false_ne_true, fun _ => free_empty .perflock⟩
  have hundone := (Runs.after_invariant hinv hstart events).2
  have hloadable : start.Loadable := fun _ k => Finset.notMem_empty (HelperNode.kobj k)
  rw [exists_loaded_iff hundone, Runs.after_iff_along hinv
    (fun _ e hs => loadable_step_iff hs.1 hs.2 e) hstart events, and_iff_right hloadable]

end PerfHelperRun

end XiaomiModules
