import Mathlib.Logic.Function.Basic
import XiaomiModules.Kernel.Basic
import XiaomiModules.Library.Runs

/-!
# The governor of miloadtrace

`cpu_gov_init` allocates an object for a policy, `cpu_gov_start` stores a pointer to it for each CPU
of the policy, and `cpu_gov_exit` frees it. No function takes the pointers of the CPUs back:
`cpu_gov_stop` waits only, and `cpu_gov_exit` clears the pointer of the policy.

The pointer of the policy therefore never dangles, and the pointer of a CPU does exactly when the
policy that started last on it is exited.

## Main definitions

* `Governor`, `cpuGovInit`, `cpuGovStart`, `cpuGovStop`, `cpuGovExit`: the pointers and objects, and
  the four functions
* `GovernorRun`, `GovernorRun.step`: the governor as cpufreq drives it
* `GovernorRun.NoneDangling`: the pointers of the CPUs are null or point to an object
* `GovernorRun.ExitsUnused`: a policy that is exited is on no CPU the one started last

## Main results

* `GovernorRun.owned_after`: in every run the objects are those that the policies point to
* `GovernorRun.noneDangling_iff`: when no pointer of a CPU dangles
-/

namespace XiaomiModules

variable {P C A : Type*}

/-! ## The four functions -/

/-- `MILOAD_DEFAULT_HISPEED_LOAD`. -/
def miloadDefaultHispeedLoad : ℕ := 90

/-- `struct migov_tunables`. -/
structure MigovTunables where
  hispeedLoad : ℕ
  upRateLimitUs : ℕ
  downRateLimitUs : ℕ

/-- `struct migov_policy`. -/
structure MigovPolicy (P A : Type*) where
  policy : P
  tunables : A

/-- `governor_data` of each policy, `mi_gov_cpu[cpu].mg_policy` of each CPU, and what is allocated
at each address. -/
structure Governor (P C A : Type*) where
  governorData : P → Option A
  mgPolicy : C → Option A
  policies : A → Option (MigovPolicy P A)
  tunables : A → Option MigovTunables

section Functions

variable [DecidableEq P] [DecidableEq A]

/-- `cpu_gov_init(policy)`, where the two calls of `kzalloc` return `obj` and `tun`. -/
def cpuGovInit (g : Governor P C A) (p : P) (obj tun : Option A) : ℤ × Governor P C A :=
  match obj, tun with
  | none, _ => (-ENOMEM, g)
  | some obj, none => (-ENOMEM, { g with policies := Function.update g.policies obj none })
  | some obj, some tun =>
    (0, { g with
      governorData := Function.update g.governorData p (some obj)
      policies := Function.update g.policies obj (some ⟨p, tun⟩)
      tunables := Function.update g.tunables tun (some ⟨miloadDefaultHispeedLoad, 0, 0⟩) })

/-- `cpu_gov_exit(policy)`. -/
def cpuGovExit (g : Governor P C A) (p : P) : Governor P C A :=
  match g.governorData p with
  | none => g
  | some obj =>
    { g with
      governorData := Function.update g.governorData p none
      policies := Function.update g.policies obj none
      tunables := match g.policies obj with
        | some mg => Function.update g.tunables mg.tunables none
        | none => g.tunables }

/-- `cpu_gov_start(policy)`, where `cpus` is the mask of the policy. -/
def cpuGovStart (g : Governor P C A) (p : P) (cpus : C → Bool) : ℤ × Governor P C A :=
  (0, { g with
    mgPolicy := fun cpu => if cpus cpu = true then g.governorData p else g.mgPolicy cpu })

/-- `cpu_gov_stop(policy)`. -/
def cpuGovStop (g : Governor P C A) (_ : P) : Governor P C A := g

end Functions

/-- Nothing is allocated at the address. -/
def Governor.isFree (g : Governor P C A) (a : A) : Bool :=
  (g.policies a).isNone && (g.tunables a).isNone

/-- The two calls of `kzalloc` return null, or two addresses at which nothing is allocated. -/
def Governor.kzallocs [DecidableEq A] (g : Governor P C A) (obj tun : Option A) : Bool :=
  obj.all g.isFree && tun.all g.isFree && (obj.isNone || obj != tun)

/-! ## cpufreq -/

/-- What cpufreq has done with a policy. -/
inductive GovernorPhase
  | none
  | inited
  | started
deriving DecidableEq

/-- The governor; how far each policy is, to which policy each CPU is assigned, and which policy
started last on it. -/
structure GovernorRun (P C A : Type*) where
  governor : Governor P C A
  phase : P → GovernorPhase
  assigned : C → Option P
  lastStarted : C → Option P

/-- What cpufreq does next: it calls the governor, or assigns a CPU. -/
inductive GovernorEvent (P C A : Type*)
  | init (p : P) (obj tun : Option A)
  | start (p : P)
  | stop (p : P)
  | exit (p : P)
  | assign (cpu : C) (p : Option P)

namespace GovernorRun

/-- The CPUs are assigned, and no policy is set up. -/
def start (assigned : C → Option P) : GovernorRun P C A :=
  ⟨⟨fun _ => none, fun _ => none, fun _ => none, fun _ => none⟩, fun _ => .none, assigned,
    fun _ => none⟩

/-- The pointer of each CPU is null or points to an object that is allocated. -/
def NoneDangling (s : GovernorRun P C A) : Prop :=
  ∀ cpu obj, s.governor.mgPolicy cpu = some obj → (s.governor.policies obj).isSome = true

/-- A policy that is exited is on no CPU the one that started last. -/
def ExitsUnused (s : GovernorRun P C A) (e : GovernorEvent P C A) : Prop :=
  ∀ p, e = .exit p → s.phase p = .inited → ∀ cpu, s.lastStarted cpu ≠ some p

/-- The objects are those that the policies that are set up point to, each to its own. -/
structure Owned (s : GovernorRun P C A) : Prop where
  phase_iff : ∀ p, s.phase p = .none ↔ s.governor.governorData p = none
  object_iff : ∀ p obj, s.governor.governorData p = some obj ↔
    ∃ mg, s.governor.policies obj = some mg ∧ mg.policy = p

/-- The pointer of each CPU is the one of the policy that started last on it. -/
structure Tracked (s : GovernorRun P C A) : Prop where
  last : ∀ cpu p, s.lastStarted cpu = some p →
    ∃ obj, s.governor.governorData p = some obj ∧ s.governor.mgPolicy cpu = some obj
  never : ∀ cpu, s.lastStarted cpu = none → s.governor.mgPolicy cpu = none

variable {s : GovernorRun P C A}

theorem owned_start (assigned : C → Option P) : (start assigned : GovernorRun P C A).Owned :=
  ⟨fun _ => iff_of_true rfl rfl, fun _ _ => iff_of_false nofun nofun⟩

theorem tracked_start (assigned : C → Option P) : (start assigned : GovernorRun P C A).Tracked :=
  ⟨nofun, fun _ _ => rfl⟩

/-- What is tracked does not dangle. -/
theorem Tracked.noneDangling (h : s.Tracked) (hs : s.Owned) : s.NoneDangling := by
  intro cpu obj hobj
  cases hlast : s.lastStarted cpu with
  | none =>
    rw [h.never cpu hlast] at hobj
    exact absurd hobj.symm (Option.some_ne_none obj)
  | some p =>
    obtain ⟨obj', hdata, hobj'⟩ := h.last cpu p hlast
    obtain rfl := Option.some.inj (hobj.symm.trans hobj')
    obtain ⟨mg, hmg, -⟩ := (hs.object_iff p obj).mp hdata
    exact Option.isSome_iff_exists.mpr ⟨mg, hmg⟩

/-- A policy that is set up has an object. -/
theorem Owned.exists_data (h : s.Owned) {p : P} (hphase : s.phase p ≠ .none) :
    ∃ obj, s.governor.governorData p = some obj :=
  Option.ne_none_iff_exists'.mp fun hnone => hphase ((h.phase_iff p).mpr hnone)

/-- What keeps the pointers of the policies, the objects and the policies set up keeps whose objects
they are. -/
theorem Owned.of_frame {t : GovernorRun P C A} (h : s.Owned)
    (hdata : t.governor.governorData = s.governor.governorData)
    (hpolicies : t.governor.policies = s.governor.policies)
    (hphase : ∀ p, t.phase p = .none ↔ s.phase p = .none) : t.Owned := by
  refine ⟨fun p => ?_, fun p obj => ?_⟩
  · rw [hphase, hdata]
    exact h.phase_iff p
  · rw [hdata, hpolicies]
    exact h.object_iff p obj

/-- No other policy has the object. -/
theorem Owned.data_injective (h : s.Owned) {p q : P} {obj : A}
    (hp : s.governor.governorData p = some obj) (hq : s.governor.governorData q = some obj) :
    p = q := by
  obtain ⟨mg, hmg, rfl⟩ := (h.object_iff p obj).mp hp
  obtain ⟨mg', hmg', rfl⟩ := (h.object_iff q obj).mp hq
  rw [Option.some.inj (hmg.symm.trans hmg')]

/-! ## Steps -/

variable [DecidableEq P] [DecidableEq C] [DecidableEq A]

/-- A policy that is set up stays so when it is started or stopped. -/
theorem update_phase_eq_none_iff {phase : P → GovernorPhase} {p : P} {next : GovernorPhase}
    (hp : phase p ≠ .none) (hnext : next ≠ .none) (q : P) :
    Function.update phase p next q = .none ↔ phase q = .none := by
  rw [Function.update_apply]
  split_ifs with hq
  · rw [hq]
    exact iff_of_false hnext hp
  · rfl

/-- The policy, if it is one, is not started. -/
def stopped (s : GovernorRun P C A) (p : Option P) : Bool :=
  p.all fun p => s.phase p ≠ .started

/-- One event. What is not in the order of cpufreq does not happen: a policy is set up, started and
stopped any number of times, and exited, and its CPUs change only while it is not started. -/
def step (s : GovernorRun P C A) : GovernorEvent P C A → GovernorRun P C A
  | .init p obj tun =>
    if s.phase p = .none ∧ s.governor.kzallocs obj tun = true then
      let (ret, g) := cpuGovInit s.governor p obj tun
      { s with
        governor := g
        phase := if ret = 0 then Function.update s.phase p .inited else s.phase }
    else s
  | .start p =>
    if s.phase p = .inited then
      { s with
        governor := (cpuGovStart s.governor p fun cpu => s.assigned cpu = some p).2
        phase := Function.update s.phase p .started
        lastStarted := fun cpu =>
          if s.assigned cpu = some p then some p else s.lastStarted cpu }
    else s
  | .stop p =>
    if s.phase p = .started then
      { s with
        governor := cpuGovStop s.governor p
        phase := Function.update s.phase p .inited }
    else s
  | .exit p =>
    if s.phase p = .inited then
      { s with
        governor := cpuGovExit s.governor p
        phase := Function.update s.phase p .none }
    else s
  | .assign cpu p =>
    if s.stopped (s.assigned cpu) = true ∧ s.stopped p = true then
      { s with assigned := Function.update s.assigned cpu p }
    else s

/-! ### Setting a policy up -/

/-- A policy is set up with an object at an address that was free, or nothing changes. -/
theorem step_init (s : GovernorRun P C A) (p : P) (obj tun : Option A) :
    (∃ a mg, s.phase p = .none ∧ s.governor.policies a = none ∧ mg.policy = p ∧
      (s.step (.init p obj tun)).governor.governorData =
        Function.update s.governor.governorData p (some a) ∧
      (s.step (.init p obj tun)).governor.policies =
        Function.update s.governor.policies a (some mg) ∧
      (s.step (.init p obj tun)).phase = Function.update s.phase p .inited) ∨
    ((s.step (.init p obj tun)).governor.governorData = s.governor.governorData ∧
      (s.step (.init p obj tun)).governor.policies = s.governor.policies ∧
      (s.step (.init p obj tun)).phase = s.phase) := by
  by_cases h : s.phase p = .none ∧ s.governor.kzallocs obj tun = true
  · simp only [step, if_pos h]
    cases obj with
    | none => exact Or.inr ⟨rfl, rfl, if_neg (neg_errno_lt_zero ENOMEM).ne⟩
    | some a =>
      have ha : s.governor.policies a = none := by
        have hfree := h.2
        simp only [Governor.kzallocs, Governor.isFree, Option.all_some, Bool.and_eq_true,
          Option.isNone_iff_eq_none] at hfree
        exact hfree.1.1.1
      cases tun with
      | none =>
        -- the object is freed again, at an address that was free before
        refine Or.inr ⟨rfl, ?_, if_neg (neg_errno_lt_zero ENOMEM).ne⟩
        exact Function.update_eq_self_iff.mpr ha.symm
      | some t => exact Or.inl ⟨a, ⟨p, t⟩, h.1, ha, rfl, rfl, rfl, if_pos rfl⟩
  · have hsame : s.step (.init p obj tun) = s := if_neg h
    rw [hsame]
    exact Or.inr ⟨rfl, rfl, rfl⟩

theorem step_init_mgPolicy (s : GovernorRun P C A) (p : P) (obj tun : Option A) :
    (s.step (.init p obj tun)).governor.mgPolicy = s.governor.mgPolicy ∧
      (s.step (.init p obj tun)).lastStarted = s.lastStarted := by
  by_cases h : s.phase p = .none ∧ s.governor.kzallocs obj tun = true
  · simp only [step, if_pos h, and_true]
    cases obj with
    | none => rfl
    | some a =>
      cases tun with
      | none => rfl
      | some t => rfl
  · have hsame : s.step (.init p obj tun) = s := if_neg h
    rw [hsame]
    exact ⟨rfl, rfl⟩

/-- An object at an address that was free is the policy's own. -/
theorem Owned.init (h : s.Owned) (p : P) (obj tun : Option A) :
    (s.step (.init p obj tun)).Owned := by
  rcases step_init s p obj tun with ⟨a, mg, hphase, ha, rfl, hdata, hpolicies, hphase'⟩ |
    ⟨hdata, hpolicies, hphase'⟩
  · have hnone := (h.phase_iff mg.policy).mp hphase
    refine ⟨fun q => ?_, fun q b => ?_⟩
    · rw [hphase', hdata, Function.update_apply, Function.update_apply]
      split_ifs
      · exact iff_of_false nofun nofun
      · exact h.phase_iff q
    · rw [hdata, hpolicies, Function.update_apply, Function.update_apply]
      -- the policy or not, at the new address or not
      split_ifs with hq hb hb
      · subst hq hb
        exact iff_of_true rfl ⟨mg, rfl, rfl⟩
      · subst hq
        rw [← h.object_iff, hnone]
        refine iff_of_false ?_ nofun
        exact fun heq => hb (Option.some.inj heq).symm
      · subst hb
        -- no other policy had an object at a free address
        refine iff_of_false (fun heq => ?_) ?_
        · obtain ⟨mg', hmg', -⟩ := (h.object_iff q b).mp heq
          rw [ha] at hmg'
          exact absurd hmg'.symm (Option.some_ne_none mg')
        · rintro ⟨mg', heq, rfl⟩
          exact hq (congrArg MigovPolicy.policy (Option.some.inj heq).symm)
      · exact h.object_iff q b
  · exact h.of_frame hdata hpolicies fun q => by rw [hphase']

theorem Tracked.init (h : s.Tracked) (hs : s.Owned) (p : P) (obj tun : Option A) :
    (s.step (.init p obj tun)).Tracked := by
  obtain ⟨hmg, hlast⟩ := step_init_mgPolicy s p obj tun
  refine ⟨fun cpu q hq => ?_, fun cpu hnever => ?_⟩
  · rw [hlast] at hq
    obtain ⟨b, hb, hcpu⟩ := h.last cpu q hq
    refine ⟨b, ?_, hmg ▸ hcpu⟩
    rcases step_init s p obj tun with ⟨a, mg, hphase, -, -, hdata, -⟩ | ⟨hdata, -⟩
    · -- a policy that started on a CPU is set up, so it is not this one
      have hne : q ≠ p := by
        rintro rfl
        rw [(hs.phase_iff q).mp hphase] at hb
        exact absurd hb.symm (Option.some_ne_none b)
      rw [hdata, Function.update_of_ne hne]
      exact hb
    · rw [hdata]
      exact hb
  · rw [hmg]
    exact h.never cpu (hlast ▸ hnever)

/-! ### Starting and stopping -/

theorem Owned.start (h : s.Owned) (p : P) : (s.step (.start p)).Owned := by
  by_cases hphase : s.phase p = .inited
  · simp only [step, if_pos hphase, cpuGovStart]
    exact h.of_frame rfl rfl (update_phase_eq_none_iff (by simp [hphase]) nofun)
  · have hsame : s.step (.start p) = s := if_neg hphase
    rwa [hsame]

theorem Tracked.start (h : s.Tracked) (hs : s.Owned) (p : P) : (s.step (.start p)).Tracked := by
  by_cases hphase : s.phase p = .inited
  · obtain ⟨obj, hobj⟩ := hs.exists_data (p := p) (by simp [hphase])
    constructor
    · simp only [step, if_pos hphase, cpuGovStart, decide_eq_true_eq]
      intro cpu q hq
      split_ifs at hq ⊢ with hcpu
      · obtain rfl := Option.some.inj hq
        exact ⟨obj, hobj, hobj⟩
      · exact h.last cpu q hq
    · simp only [step, if_pos hphase, cpuGovStart, decide_eq_true_eq]
      intro cpu hnever
      split_ifs at hnever ⊢ with hcpu
      exact h.never cpu hnever
  · have hsame : s.step (.start p) = s := if_neg hphase
    rwa [hsame]

theorem Owned.stop (h : s.Owned) (p : P) : (s.step (.stop p)).Owned := by
  by_cases hphase : s.phase p = .started
  · simp only [step, if_pos hphase, cpuGovStop]
    exact h.of_frame rfl rfl (update_phase_eq_none_iff (by simp [hphase]) nofun)
  · have hsame : s.step (.stop p) = s := if_neg hphase
    rwa [hsame]

theorem Tracked.stop (h : s.Tracked) (p : P) : (s.step (.stop p)).Tracked := by
  by_cases hphase : s.phase p = .started
  · simp only [step, if_pos hphase, cpuGovStop]
    exact ⟨h.last, h.never⟩
  · have hsame : s.step (.stop p) = s := if_neg hphase
    rwa [hsame]

/-! ### Exits -/

/-- An exit frees the object of the policy. -/
theorem step_exit (hs : s.Owned) {p : P} (hphase : s.phase p = .inited) :
    ∃ obj, s.governor.governorData p = some obj ∧
      (s.step (.exit p)).governor.governorData =
        Function.update s.governor.governorData p none ∧
      (s.step (.exit p)).governor.policies = Function.update s.governor.policies obj none ∧
      (s.step (.exit p)).governor.mgPolicy = s.governor.mgPolicy ∧
      (s.step (.exit p)).phase = Function.update s.phase p .none ∧
      (s.step (.exit p)).lastStarted = s.lastStarted := by
  obtain ⟨obj, hobj⟩ := hs.exists_data (p := p) (by simp [hphase])
  refine ⟨obj, hobj, ?_⟩
  simp only [step, if_pos hphase, cpuGovExit, hobj, and_self]

theorem Owned.exit (h : s.Owned) (p : P) : (s.step (.exit p)).Owned := by
  by_cases hphase : s.phase p = .inited
  · obtain ⟨obj, hobj, hdata, hpolicies, -, hphase', -⟩ := step_exit h hphase
    refine ⟨fun q => ?_, fun q b => ?_⟩
    · rw [hphase', hdata, Function.update_apply, Function.update_apply]
      split_ifs
      · exact iff_of_true rfl rfl
      · exact h.phase_iff q
    · rw [hdata, hpolicies, Function.update_apply, Function.update_apply]
      split_ifs with hq hb hb
      · exact iff_of_false nofun nofun
      · rw [← h.object_iff, hq, hobj]
        exact iff_of_false nofun fun heq => hb (Option.some.inj heq).symm
      · refine iff_of_false (fun heq => hq ?_) nofun
        exact h.data_injective (hb ▸ heq) hobj
      · exact h.object_iff q b
  · have hsame : s.step (.exit p) = s := if_neg hphase
    rwa [hsame]

/-- **An exit** leaves a pointer dangling exactly if the policy is on some CPU the one that started
last. -/
theorem noneDangling_exit_iff (h : s.Tracked) (hs : s.Owned) {p : P}
    (hphase : s.phase p = .inited) :
    (s.step (.exit p)).NoneDangling ↔ ∀ cpu, s.lastStarted cpu ≠ some p := by
  obtain ⟨obj, hobj, -, hpolicies, hmg, -⟩ := step_exit hs hphase
  constructor
  · -- the CPU still points to the object that the exit has freed
    intro hnone cpu hlast
    obtain ⟨b, hb, hcpu⟩ := h.last cpu p hlast
    obtain rfl := Option.some.inj (hobj.symm.trans hb)
    have hlive := hnone cpu obj (hmg ▸ hcpu)
    rw [hpolicies, Function.update_self] at hlive
    exact absurd hlive nofun
  · intro hunused cpu b hb
    rw [hmg] at hb
    have hlive := h.noneDangling hs cpu b hb
    -- the object was the policy's own, so the CPU points to another one
    have hne : b ≠ obj := by
      rintro rfl
      cases hlast : s.lastStarted cpu with
      | none =>
        rw [h.never cpu hlast] at hb
        exact absurd hb.symm (Option.some_ne_none b)
      | some q =>
        obtain ⟨c, hc, hcpu⟩ := h.last cpu q hlast
        obtain rfl := Option.some.inj (hb.symm.trans hcpu)
        exact hunused cpu (hlast.trans (congrArg some (hs.data_injective hc hobj)))
    rw [hpolicies, Function.update_of_ne hne]
    exact hlive

theorem Tracked.exit (h : s.Tracked) (hs : s.Owned) {p : P}
    (hunused : s.ExitsUnused (.exit p)) : (s.step (.exit p)).Tracked := by
  by_cases hphase : s.phase p = .inited
  · obtain ⟨obj, hobj, hdata, -, hmg, -, hlast⟩ := step_exit hs hphase
    refine ⟨fun cpu q hq => ?_, fun cpu hnever => ?_⟩
    · rw [hlast] at hq
      have hne : q ≠ p := by
        rintro rfl
        exact hunused q rfl hphase cpu hq
      rw [hdata, Function.update_of_ne hne, hmg]
      exact h.last cpu q hq
    · rw [hmg]
      exact h.never cpu (hlast ▸ hnever)
  · have hsame : s.step (.exit p) = s := if_neg hphase
    rwa [hsame]

/-! ### Assigning a CPU -/

theorem step_assign (s : GovernorRun P C A) (cpu : C) (p : Option P) :
    (s.step (.assign cpu p)).governor = s.governor ∧
      (s.step (.assign cpu p)).phase = s.phase ∧
      (s.step (.assign cpu p)).lastStarted = s.lastStarted := by
  simp only [step]
  split_ifs
  · exact ⟨rfl, rfl, rfl⟩
  · exact ⟨rfl, rfl, rfl⟩

/-! ## Runs -/

/-- **Objects**: every event keeps the objects those that the policies point to. -/
theorem Owned.step (h : s.Owned) (e : GovernorEvent P C A) : (s.step e).Owned := by
  cases e with
  | init p obj tun => exact h.init p obj tun
  | start p => exact h.start p
  | stop p => exact h.stop p
  | exit p => exact h.exit p
  | assign cpu p =>
    obtain ⟨hgovernor, hphase, -⟩ := step_assign s cpu p
    exact h.of_frame (by rw [hgovernor]) (by rw [hgovernor]) fun q => by rw [hphase]

theorem Tracked.step (h : s.Tracked) (hs : s.Owned) {e : GovernorEvent P C A}
    (he : s.ExitsUnused e) : (s.step e).Tracked := by
  cases e with
  | init p obj tun => exact h.init hs p obj tun
  | start p => exact h.start hs p
  | stop p => exact h.stop p
  | exit p => exact h.exit hs he
  | assign cpu p =>
    obtain ⟨hgovernor, -, hlast⟩ := step_assign s cpu p
    refine ⟨?_, ?_⟩
    · rw [hgovernor, hlast]
      exact h.last
    · rw [hgovernor, hlast]
      exact h.never

/-- **One event**: no pointer of a CPU dangles exactly if the event does not exit a policy that is
on some CPU the one started last. -/
theorem noneDangling_step_iff (h : s.Tracked) (hs : s.Owned) (e : GovernorEvent P C A) :
    (s.step e).NoneDangling ↔ s.ExitsUnused e := by
  constructor
  · rintro hnone p rfl hphase
    exact (noneDangling_exit_iff h hs hphase).mp hnone
  · intro he
    exact (h.step hs he).noneDangling (hs.step e)

/-- In every run the objects are those that the policies point to. -/
theorem owned_after (assigned : C → Option P) (events : List (GovernorEvent P C A)) :
    (Runs.after GovernorRun.step (GovernorRun.start assigned) events).Owned :=
  Runs.after_invariant (fun _ e h => h.step e) (owned_start assigned) events

/-- **The pointers of the CPUs**: in a run none of them dangles exactly if every policy that is
exited has on each CPU been followed by another one, or was never started on it. -/
theorem noneDangling_iff (assigned : C → Option P) (events : List (GovernorEvent P C A)) :
    (∀ pre, pre <+: events →
      (Runs.after GovernorRun.step (GovernorRun.start assigned) pre).NoneDangling) ↔
      Runs.Along GovernorRun.step ExitsUnused (GovernorRun.start assigned) events :=
  Runs.forall_prefix_iff_along (I := fun s => s.Owned ∧ s.Tracked) (P := NoneDangling)
    (fun _ e h _ he => ⟨h.1.step e, h.2.step h.1 he⟩)
    (fun _ e h _ => noneDangling_step_iff h.2 h.1 e)
    ⟨owned_start assigned, tracked_start assigned⟩
    ((tracked_start assigned).noneDangling (owned_start assigned)) events

section Unload

/-- One policy with one CPU, set up, started, stopped and exited. -/
def oneLifetime : List (GovernorEvent Unit Unit ℕ) :=
  [.init () (some 0) (some 1), .start (), .stop (), .exit ()]

/-- The pointer of the CPU is left. -/
theorem not_noneDangling_oneLifetime :
    ¬ ∀ (assigned : Unit → Option Unit) (events : List (GovernorEvent Unit Unit ℕ)),
      (Runs.after GovernorRun.step (GovernorRun.start assigned) events).NoneDangling := by
  intro h
  have hlive := h (fun _ => some ()) oneLifetime () 0 (by decide)
  exact absurd hlive (by decide)

end Unload

end GovernorRun

end XiaomiModules
