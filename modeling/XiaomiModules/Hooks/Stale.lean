import XiaomiModules.Hooks.Miloadtrace

/-!
# Stale callbacks

`metis_store_hook` returns early while `metis_safe_boot` is set, so an unregister of
`ui_task_detect` leaves the slot as it is. The other eight slots are cleared whatever the switches
say. After a load that failed or an unload, no slot holds a callback of miloadtrace exactly when
every unregister of `ui_task_detect` found the switch off or the slot free of them.

Which slots may be stale is bounded by a set that a register adds to and an unregister removes
from. That the set is empty at the end of the two functions is a property of the functions alone.

## Main definitions

* `Providers.Stale`: the slot of a hook holds a callback of miloadtrace
* `System.Clean`: while miloadtrace is unloaded, no slot is stale
* `System.Clears`: an unregister of `ui_task_detect` clears its slot

## Main results

* `within_answer`: what a call does to the stale slots
* `System.Moves.covered`: the bound is kept by every event that clears
* `clean_iff_clears`: no callback survives a run exactly when every event of it clears
-/

namespace XiaomiModules

open Program (Contract Meets)

/-! ## Slots -/

namespace Providers

/-- The slot of the hook holds a callback of miloadtrace. -/
def Stale (p : Providers) (hook : MiloadHook) : Prop :=
  ∃ callback, p.slot hook = some callback ∧ callback.OfMiloadtrace

variable {p : Providers} {hook other : MiloadHook} {callback : Callback}

/-- A register stores in its own slot only. -/
theorem slot_register_of_ne (h : other ≠ hook) :
    (p.register (some callback) hook).2.slot other = p.slot other := by
  cases hook <;> cases other <;>
    first
    | exact absurd rfl h
    | rfl
    | exact (slots_xiaomiStoreHook _ _ _ _).trans (if_neg (by decide))

/-- A register with a callback succeeds. -/
theorem register_fst : (p.register (some callback) hook).1 = 0 := by
  cases hook with
  | uiTaskDetect =>
    show (metisStoreHook _ _ _).1 = 0
    unfold metisStoreHook
    split_ifs <;> rfl
  | _ => rfl

/-- An unregister stores in its own slot only. -/
theorem slot_unregister_of_ne (h : other ≠ hook) :
    (p.unregister hook).2.slot other = p.slot other := by
  cases hook <;> cases other <;>
    first
    | exact absurd rfl h
    | rfl
    | exact (slots_xiaomiStoreHook _ _ _ _).trans (if_neg (by decide))

/-- An unregister empties its slot, unless it is that of `ui_task_detect` while `metis_safe_boot`
is set. -/
theorem slot_unregister_self :
    (p.unregister hook).2.slot hook =
      if hook = .uiTaskDetect ∧ p.metis.safeBoot then p.slot hook else none := by
  cases hook with
  | uiTaskDetect =>
    show (metisStoreHook _ _ _).2 = _
    unfold metisStoreHook
    split_ifs with hboot hui hui
    · rfl
    · exact absurd ⟨rfl, hboot⟩ hui
    · exact absurd hui.2 hboot
    · rfl
  | taskGroupChangeUpdateF => rfl
  | miUpdateGlobalPeriodF => rfl
  | _ =>
    rw [if_neg fun h => absurd h.1 (by decide)]
    refine (slots_xiaomiStoreHook _ _ _ _).trans ((if_pos rfl).trans ?_)
    split_ifs <;> rfl

/-- An unregister changes the stale slots by its own only, and leaves that only where it is the
slot of `ui_task_detect` and `metis_safe_boot` is set. -/
theorem stale_unregister_iff :
    (p.unregister hook).2.Stale other ↔
      p.Stale other ∧ (other = hook → hook = .uiTaskDetect ∧ p.metis.safeBoot = true) := by
  by_cases h : other = hook
  · subst h
    rw [Stale, slot_unregister_self]
    split_ifs with hui
    · exact (and_iff_left fun _ => hui).symm
    · refine iff_of_false ?_ fun h => hui (h.2 rfl)
      rintro ⟨callback, hsome, -⟩
      cases hsome
  · rw [Stale, slot_unregister_of_ne h]
    exact (and_iff_left fun heq => absurd heq h).symm

/-- A register makes no slot but its own stale. -/
theorem Stale.of_register (h : (p.register (some callback) hook).2.Stale other)
    (hne : other ≠ hook) : p.Stale other := by
  rw [Stale, slot_register_of_ne hne] at h
  exact h

end Providers

/-! ## The two functions alone -/

/-- A bound of the stale slots across a call: a register that succeeds adds its hook, and an
unregister removes it. -/
def bound (d : Finset MiloadHook) (ret : ℤ) : HookCall → Finset MiloadHook
  | .register hook _ => if ret = 0 then insert hook d else d
  | .unregister hook => d.erase hook

/-- The bound as a contract. -/
def boundContract : Contract HookCall ℤ (Finset MiloadHook) where
  pre _ _ := True
  may d q ret d' := d' = bound d ret q

section Bound

variable {R : Type} {post : R → Finset MiloadHook → Prop} {d : Finset MiloadHook}

theorem meets_register_guard (hook : MiloadHook) (callback : Callback)
    (err : ℤ → Program HookCall ℤ R) (rest : Program HookCall ℤ R) :
    Meets boundContract post
        (Program.ask (.register hook callback) >>= fun ret => if ret ≠ 0 then err ret else rest) d ↔
      (∀ ret ≠ 0, Meets boundContract post (err ret) d) ∧
        Meets boundContract post rest (insert hook d) := by
  rw [Program.meets_ask_guard]
  simp only [boundContract, true_and, forall_eq, bound, if_true]
  refine and_congr_left fun _ => forall₂_congr fun ret hret => ?_
  rw [if_neg hret]

theorem meets_unregister_bind (hook : MiloadHook) (rest : Program HookCall ℤ R) :
    Meets boundContract post (Program.ask (.unregister hook) >>= fun _ => rest) d ↔
      Meets boundContract post rest (d.erase hook) := by
  rw [Program.meets_ask_bind]
  exact ⟨fun h => h.2 0 _ rfl, fun h => ⟨trivial, fun _ _ hd => hd ▸ h⟩⟩

end Bound

/-- A `miload_register_hooks` that fails unregisters what it registered. -/
theorem meets_miloadRegisterHooks :
    Meets boundContract (fun ret d => ret ≠ 0 → d = ∅) miloadRegisterHooks ∅ := by
  simp only [miloadRegisterHooks, meets_register_guard, errFreq, errGlobal, errUi, errFix,
    errGroupNr, errMigrate, errGroupChange, errWalt, meets_unregister_bind, Program.meets_pure]
  -- one case for each register that may fail, and the successful return
  refine ⟨?_, ?_, ?_, ?_, ?_, ?_, ?_, ?_, ?_, fun h => absurd rfl h⟩
  all_goals
    intro ret _ _
    decide

/-- `miload_unregister_hooks` unregisters every hook. -/
theorem meets_miloadUnregisterHooks :
    Meets boundContract (fun _ d => d = ∅) miloadUnregisterHooks Finset.univ := by
  simp only [miloadUnregisterHooks, meets_unregister_bind, Program.meets_pure]
  decide

/-! ## Runs that clear -/

/-- The stale slots are among the hooks of the set. -/
def Providers.Within (p : Providers) (d : Finset MiloadHook) : Prop :=
  ∀ hook, p.Stale hook → hook ∈ d

/-- **One call**: an answer keeps the stale slots within the bound, unless it is that of an
unregister of `ui_task_detect` that does not clear. -/
theorem within_answer {p : Providers} {d : Finset MiloadHook} (h : p.Within d) (q : HookCall)
    (failure : ℤ)
    (hclears : q = .unregister .uiTaskDetect →
      p.metis.safeBoot = false ∨ ¬ p.Stale .uiTaskDetect) :
    (q.answer failure p).2.Within (bound d (q.answer failure p).1 q) := by
  intro other hother
  cases q with
  | register hook callback =>
    rw [HookCall.answer] at hother ⊢
    split_ifs at hother ⊢ with hfailure
    · rw [bound, if_neg hfailure]
      exact h other hother
    · rw [bound, Providers.register_fst, if_pos rfl, Finset.mem_insert, or_iff_not_imp_left]
      exact fun hne => h other (hother.of_register hne)
  | unregister hook =>
    obtain ⟨hstale, hself⟩ := Providers.stale_unregister_iff.mp hother
    refine Finset.mem_erase.mpr ⟨?_, h other hstale⟩
    rintro rfl
    obtain ⟨rfl, hboot⟩ := hself rfl
    rcases hclears rfl with hoff | hfree
    · exact Bool.noConfusion (hoff.symm.trans hboot)
    · exact hfree hstale

namespace System

/-- While miloadtrace is unloaded, no slot holds a callback of it. -/
def Clean (s : System) : Prop := s.stage = .unloaded → ∀ hook, ¬ s.providers.Stale hook

/-- The call that the function under way makes next. -/
def nextCall (s : System) : Option HookCall :=
  match s.stage with
  | .registering (.call q _) => some q
  | .unregistering (.call q _) => some q
  | _ => none

/-- Where the event makes an unregister of `ui_task_detect`, `metis_safe_boot` is off or the slot
holds no callback of miloadtrace. -/
def Clears (s : System) (e : Event) : Prop :=
  ∀ failure, e = .next failure → s.nextCall = some (.unregister .uiTaskDetect) →
    s.providers.metis.safeBoot = false ∨ ¬ s.providers.Stale .uiTaskDetect

/-- The invariant of the runs that clear: the stale slots are within a bound from which the rest of
the function under way ends with none. -/
def Covered (s : System) : Prop :=
  match s.stage with
  | .unloaded => ∀ hook, ¬ s.providers.Stale hook
  | .registering rest =>
    ∃ d, s.providers.Within d ∧ Meets boundContract (fun ret d => ret ≠ 0 → d = ∅) rest d
  | .unregistering rest =>
    ∃ d, s.providers.Within d ∧ Meets boundContract (fun _ d => d = ∅) rest d
  | _ => True

theorem Covered.clean {s : System} (h : s.Covered) : s.Clean := by
  intro hstage
  rw [Covered, hstage] at h
  exact h

end System

/-- No slot of the empty bound is stale. -/
theorem Providers.Within.not_stale {p : Providers} (h : p.Within ∅) (hook : MiloadHook) :
    ¬ p.Stale hook :=
  fun hstale => absurd (h hook hstale) (Finset.notMem_empty hook)

theorem Providers.within_univ (p : Providers) : p.Within Finset.univ :=
  fun hook _ => Finset.mem_univ hook

namespace System

/-- The invariant depends on the slots and the stage only. -/
theorem Covered.congr {s s' : System} (h : s.Covered)
    (hslot : ∀ hook, s'.providers.slot hook = s.providers.slot hook) (hstage : s'.stage = s.stage) :
    s'.Covered := by
  have hstale : ∀ hook, s'.providers.Stale hook ↔ s.providers.Stale hook := by
    intro hook
    rw [Providers.Stale, hslot]
    rfl
  unfold Covered Providers.Within at *
  simpa only [hstage, hstale] using h

/-- **One event**: an event that clears keeps the invariant. -/
theorem Moves.covered {s s' : System} {e : Event} (hmove : Moves s e s') (h : s.Covered)
    (hclears : s.Clears e) : s'.Covered := by
  cases hmove with
  | keep hstage hslot => exact h.congr hslot hstage
  | load _ _ =>
    -- before the first register no slot is stale
    exact ⟨∅, fun hook hstale => absurd hstale (h hook), meets_miloadRegisterHooks⟩
  | registerCall q rest failure | unregisterCall q rest failure =>
    obtain ⟨d, hwithin, hmeets⟩ := h
    refine ⟨_, within_answer hwithin q failure ?_, hmeets.2 _ _ rfl⟩
    intro hq
    exact hclears failure rfl (congrArg some hq)
  | registerFailed _ hret =>
    -- the unwinding has unregistered whatever was registered
    obtain ⟨d, hwithin, hmeets⟩ := h
    have hempty : d = ∅ := hmeets hret
    exact (hempty ▸ hwithin).not_stale
  | registerDone _ => trivial
  | loaded => trivial
  | takeBack _ =>
    -- every slot may be stale when the unregisters start
    exact ⟨_, Providers.within_univ _, meets_miloadUnregisterHooks⟩
  | unregisterDone _ =>
    obtain ⟨d, hwithin, hmeets⟩ := h
    have hempty : d = ∅ := hmeets
    exact (hempty ▸ hwithin).not_stale

end System

/-! ## Runs that do not clear -/

/-- The call is one to the slot of `ui_task_detect`. -/
def HookCall.Concerns (hook : MiloadHook) : HookCall → Prop
  | .register other _ => other = hook
  | .unregister other => other = hook

instance (hook : MiloadHook) (q : HookCall) : Decidable (q.Concerns hook) :=
  match q with
  | .register other _ => inferInstanceAs (Decidable (other = hook))
  | .unregister other => inferInstanceAs (Decidable (other = hook))

/-- Nothing touches the slot of `ui_task_detect` once it was to be cleared. -/
def lastContract : Contract HookCall ℤ Bool where
  pre done q := done = true → ¬ q.Concerns .uiTaskDetect
  may done q _ done' := done' = (done || decide (q = .unregister .uiTaskDetect))

section Last

variable {R : Type} {post : R → Bool → Prop} {done : Bool}

theorem last_register_guard (hook : MiloadHook) (callback : Callback)
    (err : ℤ → Program HookCall ℤ R) (rest : Program HookCall ℤ R) :
    Meets lastContract post
        (Program.ask (.register hook callback) >>= fun ret => if ret ≠ 0 then err ret else rest)
        done ↔
      (done = true → hook ≠ .uiTaskDetect) ∧
        (∀ ret ≠ 0, Meets lastContract post (err ret) done) ∧
        Meets lastContract post rest done := by
  rw [Program.meets_ask_guard]
  simp only [lastContract, forall_eq, reduceCtorEq, decide_false, Bool.or_false]
  rfl

theorem last_unregister_bind (hook : MiloadHook) (rest : Program HookCall ℤ R) :
    Meets lastContract post (Program.ask (.unregister hook) >>= fun _ => rest) done ↔
      (done = true → hook ≠ .uiTaskDetect) ∧
        Meets lastContract post rest (done || decide (hook = .uiTaskDetect)) := by
  rw [Program.meets_ask_bind]
  simp only [lastContract, forall_eq, HookCall.unregister.injEq, forall_const]
  rfl

end Last

/-- A `miload_register_hooks` that unregisters `ui_task_detect` fails. -/
theorem last_miloadRegisterHooks :
    Meets lastContract (fun ret done => done = true → ret ≠ 0) miloadRegisterHooks false := by
  simp only [miloadRegisterHooks, last_register_guard, errFreq, errGlobal, errUi, errFix,
    errGroupNr, errMigrate, errGroupChange, errWalt, last_unregister_bind, Program.meets_pure]
  simp +decide

theorem last_miloadUnregisterHooks :
    Meets lastContract (fun _ _ => True) miloadUnregisterHooks false := by
  simp only [miloadUnregisterHooks, last_unregister_bind, Program.meets_pure]
  decide

/-- A call to another slot leaves a slot as stale as it was. -/
theorem stale_answer_iff {p : Providers} {q : HookCall} {hook : MiloadHook} (failure : ℤ)
    (h : ¬ q.Concerns hook) : (q.answer failure p).2.Stale hook ↔ p.Stale hook := by
  cases q with
  | register other callback =>
    rw [HookCall.answer]
    split_ifs
    · rfl
    · rw [Providers.Stale, Providers.slot_register_of_ne fun heq => h heq.symm]
      rfl
  | unregister other =>
    rw [HookCall.answer, Providers.stale_unregister_iff]
    exact and_iff_left fun heq => absurd heq.symm h

namespace System

/-- No function is under way. -/
def AtRest (s : System) : Prop :=
  match s.stage with
  | .registering _ => False
  | .unregistering _ => False
  | _ => True

/-- The function under way touches `ui_task_detect` no more once it has unregistered it; `done`
says whether it has. -/
def Last (s : System) (done : Bool) : Prop :=
  match s.stage with
  | .registering rest => Meets lastContract (fun ret done => done = true → ret ≠ 0) rest done
  | .unregistering rest => Meets lastContract (fun _ _ => True) rest done
  | _ => done = false

/-- The function under way will leave the slot of `ui_task_detect` stale. -/
def Stuck (s : System) : Prop := s.providers.Stale .uiTaskDetect ∧ s.Last true

variable {s s' : System} {done : Bool} {e : Event}

/-- What is left to do depends on the stage only. -/
theorem Last.congr (h : s.Last done) (hstage : s'.stage = s.stage) :
    s'.Last done := by
  rw [Last, hstage]
  exact h

/-- A function under way whose rest is a call goes on as the contract says. -/
theorem Last.next (h : s.Last done) {q : HookCall} (hq : s.nextCall = some q) (failure : ℤ) :
    (done = true → ¬ q.Concerns .uiTaskDetect) ∧
      (s.step (.next failure)).providers = (q.answer failure s.providers).2 ∧
      (s.step (.next failure)).Last (done || decide (q = .unregister .uiTaskDetect)) := by
  obtain ⟨p, stage⟩ := s
  cases stage with
  | registering rest =>
    cases rest with
    | call q' rest =>
      obtain rfl := Option.some.inj hq
      exact ⟨h.1, rfl, h.2 _ _ rfl⟩
    | done ret => exact absurd hq (by simp [nextCall])
  | unregistering rest =>
    cases rest with
    | call q' rest =>
      obtain rfl := Option.some.inj hq
      exact ⟨h.1, rfl, h.2 _ _ rfl⟩
    | done ret => exact absurd hq (by simp [nextCall])
  | _ => exact absurd hq (by simp [nextCall])

/-- Every event leaves the function under way with at most one more call to `ui_task_detect` to
be cleared. -/
theorem Moves.last (hmove : Moves s e s') (h : s.Last done) : ∃ done', s'.Last done' := by
  cases hmove with
  | keep hstage _ => exact ⟨done, h.congr hstage⟩
  | load _ _ => exact ⟨false, last_miloadRegisterHooks⟩
  | registerCall q rest failure | unregisterCall q rest failure => exact ⟨_, h.2 _ _ rfl⟩
  | registerFailed _ _ => exact ⟨false, rfl⟩
  | registerDone _ => exact ⟨false, rfl⟩
  | loaded => exact ⟨false, rfl⟩
  | takeBack _ => exact ⟨false, last_miloadUnregisterHooks⟩
  | unregisterDone _ => exact ⟨false, rfl⟩

/-- An event that does not clear leaves the function under way stuck. -/
theorem Last.stuck_of_not_clears (h : s.Last done) (hnot : ¬ s.Clears e) : (s.step e).Stuck := by
  rw [Clears] at hnot
  push Not at hnot
  obtain ⟨failure, rfl, hnext, hboot, hstale⟩ := hnot
  obtain ⟨-, hproviders, hlast⟩ := h.next hnext failure
  refine ⟨?_, ?_⟩
  · rw [hproviders]
    refine Providers.stale_unregister_iff.mpr ⟨hstale, fun _ => ⟨rfl, ?_⟩⟩
    exact Bool.eq_true_of_not_eq_false hboot
  · simpa using hlast

/-- A stuck function stays stuck until it returns, and then a callback has survived. -/
theorem Moves.stuck (hmove : Moves s e s') (h : s.Stuck) : s'.Stuck ∨ ¬ s'.Clean := by
  obtain ⟨hstale, hlast⟩ := h
  cases hmove with
  | keep hstage hslot =>
    refine Or.inl ⟨?_, hlast.congr hstage⟩
    rw [Providers.Stale, hslot]
    exact hstale
  | registerCall q rest failure | unregisterCall q rest failure =>
    -- no call to `ui_task_detect` is left
    have hother : ¬ q.Concerns .uiTaskDetect := hlast.1 rfl
    exact Or.inl ⟨(stale_answer_iff failure hother).mpr hstale, hlast.2 _ _ rfl⟩
  | registerFailed _ _ => exact Or.inr fun hclean => hclean rfl _ hstale
  | unregisterDone _ => exact Or.inr fun hclean => hclean rfl _ hstale
  | registerDone _ => exact absurd rfl (hlast rfl)
  | load _ _ => exact Bool.noConfusion hlast
  | loaded => exact Bool.noConfusion hlast
  | takeBack hstage =>
    obtain rfl | rfl := hstage
    · exact Bool.noConfusion hlast
    · exact Bool.noConfusion hlast

/-- A run from a stuck function to its return goes through a state with a stale callback. -/
theorem Stuck.exists_not_clean (h : s.Stuck) {events : List Event}
    (hrest : (Runs.after System.step s events).AtRest) :
    ∃ pre, pre <+: events ∧ ¬ (Runs.after System.step s pre).Clean := by
  induction events generalizing s with
  | nil =>
    obtain ⟨p, stage⟩ := s
    obtain ⟨-, hlast⟩ := h
    cases stage with
    | registering rest => exact hrest.elim
    | unregistering rest => exact hrest.elim
    | _ => exact Bool.noConfusion hlast
  | cons e events ih =>
    rcases (moves_step s e).stuck h with hstuck | hnot
    · obtain ⟨pre, hpre, hnot⟩ := ih hstuck hrest
      exact ⟨e :: pre, List.cons_prefix_cons.mpr ⟨rfl, hpre⟩, hnot⟩
    · exact ⟨[e], List.cons_prefix_cons.mpr ⟨rfl, List.nil_prefix⟩, hnot⟩

/-- A run that ends with no function under way and is clean throughout clears at every event. -/
theorem Last.along_clears (h : s.Last done) {events : List Event}
    (hrest : (Runs.after System.step s events).AtRest)
    (hclean : ∀ pre, pre <+: events → (Runs.after System.step s pre).Clean) :
    Runs.Along System.step Clears s events := by
  induction events generalizing s done with
  | nil => trivial
  | cons e events ih =>
    have hafter : ∀ pre, pre <+: events → (Runs.after System.step (s.step e) pre).Clean :=
      fun pre hpre => hclean (e :: pre) (List.cons_prefix_cons.mpr ⟨rfl, hpre⟩)
    obtain ⟨done', hlast⟩ := (moves_step s e).last h
    refine ⟨?_, ih hlast hrest hafter⟩
    by_contra hnot
    obtain ⟨pre, hpre, hstale⟩ := (h.stuck_of_not_clears hnot).exists_not_clean hrest
    exact hstale (hafter pre hpre)

end System

/-! ## Every run -/

/-- **No callback survives, exactly**: from an unloaded miloadtrace of which no slot holds a
callback, a run whose events all clear is clean in every state, and a run that ends with no
function under way is clean in every state only if its events all clear. -/
theorem clean_iff_clears {s : System} (hstage : s.stage = .unloaded)
    (hfree : ∀ hook, ¬ s.providers.Stale hook) (events : List Event) :
    (Runs.Along System.step System.Clears s events →
        ∀ pre, pre <+: events → (Runs.after System.step s pre).Clean) ∧
      ((Runs.after System.step s events).AtRest →
        (∀ pre, pre <+: events → (Runs.after System.step s pre).Clean) →
        Runs.Along System.step System.Clears s events) := by
  have hcovered : s.Covered := by
    rw [System.Covered, hstage]
    exact hfree
  have hlast : s.Last false := by
    rw [System.Last, hstage]
  constructor
  · intro hclears pre hpre
    have hafter : (Runs.after System.step s pre).Covered :=
      hclears.invariant_of_prefix (fun s e h hclear => (System.moves_step s e).covered h hclear)
        hcovered hpre
    exact hafter.clean
  · exact fun hrest hclean => hlast.along_clears hrest hclean

section LateSafeBoot

/-- The system after boot: the switches at their defaults, and no callback registered. -/
def bootSystem : System := ⟨⟨{ }, { }, { }⟩, .unloaded⟩

theorem not_stale_bootSystem (hook : MiloadHook) : ¬ bootSystem.providers.Stale hook := by
  rintro ⟨callback, hslot, -⟩
  cases hook <;> cases hslot

/-- A load while `metis_safe_boot` is off, and an unload after it is set again. -/
def lateSafeBoot : List Event :=
  [.setSafeBoot false, .load 0 0] ++ List.replicate 10 (.next 0) ++
    [.migtgovRegister 0, .setSafeBoot true, .unload] ++ List.replicate 10 (.next 0)

/-- The result for this run. -/
theorem clean_iff_clears_lateSafeBoot :
    (Runs.Along System.step System.Clears bootSystem lateSafeBoot →
        ∀ pre, pre <+: lateSafeBoot → (Runs.after System.step bootSystem pre).Clean) ∧
      ((Runs.after System.step bootSystem lateSafeBoot).AtRest →
        (∀ pre, pre <+: lateSafeBoot → (Runs.after System.step bootSystem pre).Clean) →
        Runs.Along System.step System.Clears bootSystem lateSafeBoot) :=
  clean_iff_clears rfl not_stale_bootSystem lateSafeBoot

/-- After this run miloadtrace is unloaded and `ui_task_detect` still holds its callback. -/
theorem not_clean_lateSafeBoot : ¬ (Runs.after System.step bootSystem lateSafeBoot).Clean := by
  intro hclean
  exact hclean rfl .uiTaskDetect ⟨.grpEnqBoostPipeline, rfl, trivial⟩

end LateSafeBoot

end XiaomiModules
