import Mathlib.Data.List.Induction
import Mathlib.Order.Bounds.Basic
import Mathlib.Order.MinMax
import Mathlib.Tactic.Common

/-!
# Runs of a step function

A machine is a total step function on states; an action is whatever the environment chooses
before a step. A run is a list of actions. A condition on steps speaks of the state before the
step and of its action, and holds along a run when every step of the run meets it.

## Main definitions

* `after step s as`: the state after the actions `as`
* `Along step C s as`: every step of the run meets `C`
* `lastSet sets start as`: what the last setting set
* `Since resets records start as v`: a value since the last setting
* `times step p s as`: how many steps of a run meet `p`
* `outputs step out s as`: what the steps of a run put out

## Main results

* `after_append`, `along_append`: one run after another
* `after_flatMap`, `along_flatMap`: runs of runs
* `after_invariant`: what every step preserves holds after every run
* `Along.invariant`, `Along.invariant_of_prefix`: what the steps meeting a condition preserve
  holds in every state of a run along which the condition holds
* `forall_prefix_iff`: what holds of every state of a run, step by step
* `after_iff_along`: a property that a step adds a condition to holds at the end of a run exactly
  where the condition holds along it
* `forall_prefix_iff_along`: every state of a run is safe exactly where a condition holds along it
* `after_eq_iff_last`, `after_eq_iff_last_along`, `after_eq_lastSet`: a part of the state that some
  actions set holds what the last of them set
* `isGreatest_after`: a part that some actions set and others raise holds the greatest value since
* `count_add_due`: what is counted at some steps, at once or later
* `after_filterMap`: actions that are decoded
* `after_outputs`, `outputs_history`: a part that acts on what a run puts out, and what a run puts
  out by the actions so far
* `after_simulation`, `along_simulation`: runs and conditions carry over to a machine that
  simulates each step
* `along_iff_along`: two conditions that agree on the states of an invariant, one of them
  preserving it, hold along the same runs
-/

namespace Runs

variable {S A : Type*} {step : S → A → S}

/-- The state after the actions `as`, from `s`. -/
def after (step : S → A → S) (s : S) (as : List A) : S :=
  as.foldl step s

@[simp] theorem after_nil (s : S) : after step s [] = s := rfl

@[simp] theorem after_cons (s : S) (a : A) (as : List A) :
    after step s (a :: as) = after step (step s a) as := rfl

theorem after_append (s : S) (as bs : List A) :
    after step s (as ++ bs) = after step (after step s as) bs := List.foldl_append

theorem after_snoc (s : S) (as : List A) (a : A) :
    after step s (as ++ [a]) = step (after step s as) a := after_append s as [a]

/-- **The invariant rule**: what every step preserves holds after every run. -/
theorem after_invariant {I : S → Prop} (hstep : ∀ s a, I s → I (step s a)) {s : S} (hs : I s)
    (as : List A) : I (after step s as) := by
  induction as generalizing s with
  | nil => exact hs
  | cons a as ih => exact ih (hstep s a hs)

/-- Every step of the run `as` from `s` meets `C`, which speaks of the state before the step. -/
def Along (step : S → A → S) (C : S → A → Prop) : S → List A → Prop
  | _, [] => True
  | s, a :: as => C s a ∧ Along step C (step s a) as

variable {C D : S → A → Prop}

@[simp] theorem along_nil (s : S) : Along step C s [] ↔ True := Iff.rfl

@[simp] theorem along_cons (s : S) (a : A) (as : List A) :
    Along step C s (a :: as) ↔ C s a ∧ Along step C (step s a) as := Iff.rfl

theorem along_append (s : S) (as bs : List A) :
    Along step C s (as ++ bs) ↔ Along step C s as ∧ Along step C (after step s as) bs := by
  induction as generalizing s with
  | nil => simp
  | cons a as ih => simp [ih, and_assoc]

theorem along_snoc (s : S) (as : List A) (a : A) :
    Along step C s (as ++ [a]) ↔ Along step C s as ∧ C (after step s as) a := by
  simp [along_append]

theorem Along.of_prefix {s : S} {as bs : List A} (h : Along step C s bs) (hp : as <+: bs) :
    Along step C s as := by
  obtain ⟨cs, rfl⟩ := hp
  exact ((along_append s as cs).mp h).1

theorem Along.mono (hCD : ∀ s a, C s a → D s a) {s : S} {as : List A} (h : Along step C s as) :
    Along step D s as := by
  induction as generalizing s with
  | nil => trivial
  | cons a as ih => exact ⟨hCD s a h.1, ih h.2⟩

/-- What the steps meeting a condition preserve holds after every run along which the condition
holds. -/
theorem Along.invariant {I : S → Prop} (hstep : ∀ s a, I s → C s a → I (step s a)) {s : S}
    (hs : I s) {as : List A} (h : Along step C s as) : I (after step s as) := by
  induction as generalizing s with
  | nil => exact hs
  | cons a as ih => exact ih (hstep s a hs h.1) h.2

/-- The same for every state the run goes through. -/
theorem Along.invariant_of_prefix {I : S → Prop} (hstep : ∀ s a, I s → C s a → I (step s a))
    {s : S} (hs : I s) {as bs : List A} (h : Along step C s bs) (hp : as <+: bs) :
    I (after step s as) :=
  (h.of_prefix hp).invariant hstep hs

/-- A condition that steps meet on the states of an invariant they preserve holds along their
runs. -/
theorem Along.mono_of_invariant {I : S → Prop} (hstep : ∀ s a, I s → C s a → I (step s a))
    (hCD : ∀ s a, I s → C s a → D s a) {s : S} (hs : I s) {as : List A}
    (h : Along step C s as) : Along step D s as := by
  induction as generalizing s with
  | nil => trivial
  | cons a as ih => exact ⟨hCD s a hs h.1, ih (hstep s a hs h.1) h.2⟩

/-- A condition that every state of an invariant meets holds along all runs. -/
theorem along_of_invariant {I : S → Prop} (hstep : ∀ s a, I s → I (step s a))
    (hIC : ∀ s a, I s → C s a) {s : S} (hs : I s) (as : List A) : Along step C s as := by
  induction as generalizing s with
  | nil => trivial
  | cons a as ih => exact ⟨hIC s a hs, ih (hstep s a hs)⟩

/-- **The condition rule**: where `C` preserves an invariant and, on the states of the
invariant, `D` says the same as `C`, the two hold along the same runs. -/
theorem along_iff_along {I : S → Prop} (hstep : ∀ s a, I s → C s a → I (step s a))
    (hiff : ∀ s a, I s → (D s a ↔ C s a)) {s : S} (hs : I s) (as : List A) :
    Along step D s as ↔ Along step C s as := by
  induction as generalizing s with
  | nil => simp
  | cons a as ih =>
    rw [along_cons, along_cons, hiff s a hs]
    constructor
    · rintro ⟨hC, hD⟩
      exact ⟨hC, (ih (hstep s a hs hC)).mp hD⟩
    · rintro ⟨hC, hCs⟩
      exact ⟨hC, (ih (hstep s a hs hC)).mpr hCs⟩

/-- **The accumulation rule**: where a step ends with a property exactly if it began with it and
meets a condition, a run ends with the property exactly if it began with it and every step meets the
condition. -/
theorem after_iff_along {I P : S → Prop} (hI : ∀ s a, I s → I (step s a))
    (hiff : ∀ s a, I s → (P (step s a) ↔ P s ∧ C s a)) {s : S} (hs : I s) (as : List A) :
    P (after step s as) ↔ P s ∧ Along step C s as := by
  induction as generalizing s with
  | nil => simp
  | cons a as ih => rw [after_cons, along_cons, ih (hI s a hs), hiff s a hs, and_assoc]

/-- What holds of every state a run goes through holds at its start and after each of its steps. -/
theorem forall_prefix_iff {I : S → Prop} {s : S} {as : List A} :
    (∀ pre, pre <+: as → I (after step s pre)) ↔
      I s ∧ Along step (fun s a => I (step s a)) s as := by
  induction as generalizing s with
  | nil =>
    rw [along_nil, and_true]
    constructor
    · exact fun h => h [] List.nil_prefix
    · rintro h pre hpre
      rwa [List.prefix_nil.mp hpre]
  | cons a as ih =>
    rw [along_cons, ← ih]
    constructor
    · intro h
      refine ⟨h [] List.nil_prefix, fun pre hpre => ?_⟩
      exact h (a :: pre) (List.cons_prefix_cons.mpr ⟨rfl, hpre⟩)
    · -- a prefix is empty, or begins with the first action
      rintro ⟨hs, hrest⟩ pre hpre
      cases pre with
      | nil => exact hs
      | cons b pre =>
        obtain ⟨rfl, hpre'⟩ := List.cons_prefix_cons.mp hpre
        exact hrest pre hpre'

/-- **The safety rule**: where a step of a run that was safe so far keeps an invariant if it meets a
condition, and ends safe exactly if it does, every state of a run is safe exactly where the
condition holds along it. -/
theorem forall_prefix_iff_along {I P : S → Prop}
    (hstep : ∀ s a, I s → P s → C s a → I (step s a))
    (hiff : ∀ s a, I s → P s → (P (step s a) ↔ C s a)) {s : S} (hI : I s) (hP : P s)
    (as : List A) : (∀ pre, pre <+: as → P (after step s pre)) ↔ Along step C s as := by
  have hinv : ∀ s a, I s ∧ P s → C s a → I (step s a) ∧ P (step s a) :=
    fun s a h hC => ⟨hstep s a h.1 h.2 hC, (hiff s a h.1 h.2).mpr hC⟩
  rw [forall_prefix_iff, and_iff_right hP]
  exact along_iff_along hinv (fun s a h => hiff s a h.1 h.2) ⟨hI, hP⟩ as

/-- **The last setting**: where some actions set a part of the state and the others keep it, a run
ends with what the last of them has set, or with what was there. -/
theorem after_eq_iff_last {V : Type*} {f : S → V} {sets : A → Prop} {value : S → A → V}
    (hsets : ∀ s a, sets a → f (step s a) = value s a)
    (hkeeps : ∀ s a, ¬ sets a → f (step s a) = f s) (s : S) (as : List A) (v : V) :
    f (after step s as) = v ↔
      (∃ pre a post, as = pre ++ a :: post ∧ sets a ∧ value (after step s pre) a = v ∧
        ∀ b ∈ post, ¬ sets b) ∨
      (∀ a ∈ as, ¬ sets a) ∧ f s = v := by
  induction as generalizing s with
  | nil => simp
  | cons a as ih =>
    rw [after_cons, ih]
    constructor
    · rintro (⟨pre, b, post, rfl, hb, hv, hpost⟩ | ⟨hnone, hv⟩)
      · exact Or.inl ⟨a :: pre, b, post, rfl, hb, hv, hpost⟩
      · -- nothing after the first action sets, so that one is the last that may
        by_cases ha : sets a
        · exact Or.inl ⟨[], a, as, rfl, ha, (hsets s a ha).symm.trans hv, hnone⟩
        · exact Or.inr ⟨List.forall_mem_cons.mpr ⟨ha, hnone⟩, (hkeeps s a ha).symm.trans hv⟩
    · rintro (⟨pre, b, post, heq, hb, hv, hpost⟩ | ⟨hnone, hv⟩)
      · cases pre with
        | nil =>
          obtain ⟨rfl, rfl⟩ := List.cons.inj heq
          exact Or.inr ⟨hpost, (hsets s a hb).trans hv⟩
        | cons c pre =>
          obtain ⟨rfl, rfl⟩ := List.cons.inj heq
          exact Or.inl ⟨pre, b, post, rfl, hb, hv, hpost⟩
      · rw [List.forall_mem_cons] at hnone
        exact Or.inr ⟨hnone.2, (hkeeps s a hnone.1).trans hv⟩

/-- The same where it depends on the state, too, whether an action sets the part. -/
theorem after_eq_iff_last_along {V : Type*} {f : S → V} {sets : S → A → Prop} {value : S → A → V}
    (hsets : ∀ s a, sets s a → f (step s a) = value s a)
    (hkeeps : ∀ s a, ¬ sets s a → f (step s a) = f s) (s : S) (as : List A) (v : V) :
    f (after step s as) = v ↔
      (∃ pre a post, as = pre ++ a :: post ∧ sets (after step s pre) a ∧
        value (after step s pre) a = v ∧
        Along step (fun s a => ¬ sets s a) (after step s (pre ++ [a])) post) ∨
      Along step (fun s a => ¬ sets s a) s as ∧ f s = v := by
  induction as generalizing s with
  | nil => simp
  | cons a as ih =>
    rw [after_cons, ih, along_cons]
    constructor
    · rintro (⟨pre, b, post, rfl, hb, hv, hpost⟩ | ⟨hnone, hv⟩)
      · exact Or.inl ⟨a :: pre, b, post, rfl, hb, hv, hpost⟩
      · -- nothing after the first action sets, so that one is the last that may
        by_cases ha : sets s a
        · exact Or.inl ⟨[], a, as, rfl, ha, (hsets s a ha).symm.trans hv, hnone⟩
        · exact Or.inr ⟨⟨ha, hnone⟩, (hkeeps s a ha).symm.trans hv⟩
    · rintro (⟨pre, b, post, heq, hb, hv, hpost⟩ | ⟨⟨ha, hnone⟩, hv⟩)
      · cases pre with
        | nil =>
          obtain ⟨rfl, rfl⟩ := List.cons.inj heq
          exact Or.inr ⟨hpost, (hsets s a hb).trans hv⟩
        | cons c pre =>
          obtain ⟨rfl, rfl⟩ := List.cons.inj heq
          exact Or.inl ⟨pre, b, post, rfl, hb, hv, hpost⟩
      · exact Or.inr ⟨hnone, (hkeeps s a ha).trans hv⟩

/-- What the last of the actions that set a part sets it to, or what was there. -/
def lastSet {V : Type*} (sets : A → Option V) (start : V) (as : List A) : V :=
  (as.filterMap sets).getLast?.getD start

theorem lastSet_snoc {V : Type*} (sets : A → Option V) (start : V) (as : List A) (a : A) :
    lastSet sets start (as ++ [a]) = (sets a).getD (lastSet sets start as) := by
  rw [lastSet, List.filterMap_append]
  cases ha : sets a with
  | some v =>
    rw [List.filterMap_cons_some ha, List.filterMap_nil, List.getLast?_concat, Option.getD_some,
      Option.getD_some]
  | none =>
    rw [List.filterMap_cons_none ha, List.filterMap_nil, List.append_nil, Option.getD_none,
      lastSet]

/-- The last setting, where an action sets the part to a value of its own. -/
theorem after_eq_lastSet {V : Type*} {f : S → V} {sets : A → Option V}
    (h : ∀ s a, f (step s a) = (sets a).getD (f s)) (s : S) (as : List A) :
    f (after step s as) = lastSet sets (f s) as := by
  induction as using List.reverseRecOn with
  | nil => rfl
  | append_singleton as a ih => rw [after_snoc, lastSet_snoc, h, ih]

/-- One action for each of some parts, of which one alone sets this part. -/
theorem lastSet_map {K V : Type*} [DecidableEq K] {sets : A → Option V} (action : K → A) {key : K}
    {v : V} (hkey : sets (action key) = some v) (hne : ∀ k, k ≠ key → sets (action k) = none)
    (start : V) (ks : List K) :
    lastSet sets start (ks.map action) = if key ∈ ks then v else start := by
  induction ks using List.reverseRecOn with
  | nil => rfl
  | append_singleton ks k ih =>
    rw [List.map_append, List.map_singleton, lastSet_snoc, ih]
    by_cases hk : k = key
    · subst hk
      rw [hkey, Option.getD_some, if_pos (List.mem_append_right _ (List.mem_singleton.mpr rfl))]
    · have hmem : key ∈ ks ++ [k] ↔ key ∈ ks := by
        rw [List.mem_append, List.mem_singleton, or_iff_left fun h => hk h.symm]
      rw [hne k hk, Option.getD_none, if_congr hmem rfl rfl]

/-! ## Maxima -/

section Maxima

variable {V : Type*} {f : S → V} {resets records : A → Option V}

/-- A value was set or recorded since the part was last set: by the last setting or at the start, or
by a later record. -/
def Since (resets records : A → Option V) (start : V) (as : List A) (v : V) : Prop :=
  (∃ pre a post, as = pre ++ a :: post ∧
    (resets a = some v ∨ resets a = none ∧ records a = some v) ∧ ∀ b ∈ post, resets b = none) ∨
  (∀ a ∈ as, resets a = none) ∧ v = start

theorem since_snoc_iff {start v : V} {as : List A} {a : A} :
    Since resets records start (as ++ [a]) v ↔
      resets a = some v ∨
        resets a = none ∧ (records a = some v ∨ Since resets records start as v) := by
  constructor
  · rintro (⟨pre, b, post, heq, hb, hpost⟩ | ⟨hnone, hv⟩)
    · -- the value is from the new action, or from an earlier one that the new one does not reset
      rcases List.eq_nil_or_concat post with rfl | ⟨post, c, rfl⟩
      · obtain ⟨rfl, hab⟩ := List.append_inj' heq rfl
        obtain rfl := List.singleton_inj.mp hab
        exact hb.imp_right fun h => ⟨h.1, Or.inl h.2⟩
      · rw [List.concat_eq_append, ← List.cons_append, ← List.append_assoc] at heq
        obtain ⟨rfl, hac⟩ := List.append_inj' heq rfl
        obtain rfl := List.singleton_inj.mp hac
        rw [List.concat_eq_append, List.forall_mem_append, List.forall_mem_singleton] at hpost
        exact Or.inr ⟨hpost.2, Or.inr (Or.inl ⟨pre, b, post, rfl, hb, hpost.1⟩)⟩
    · rw [List.forall_mem_append, List.forall_mem_singleton] at hnone
      exact Or.inr ⟨hnone.2, Or.inr (Or.inr ⟨hnone.1, hv⟩)⟩
  · rintro (ha | ⟨ha, hrec | ⟨pre, b, post, rfl, hb, hpost⟩ | ⟨hnone, hv⟩⟩)
    · exact Or.inl ⟨as, a, [], rfl, Or.inl ha, fun _ h => absurd h List.not_mem_nil⟩
    · exact Or.inl ⟨as, a, [], rfl, Or.inr ⟨ha, hrec⟩, fun _ h => absurd h List.not_mem_nil⟩
    · refine Or.inl ⟨pre, b, post ++ [a], by simp, hb, ?_⟩
      rw [List.forall_mem_append, List.forall_mem_singleton]
      exact ⟨hpost, ha⟩
    · refine Or.inr ⟨?_, hv⟩
      rw [List.forall_mem_append, List.forall_mem_singleton]
      exact ⟨hnone, ha⟩

/-- **The greatest record**: where some actions set a part of the state and others raise it to what
they record, it is the greatest value since it was last set. -/
theorem isGreatest_after [LinearOrder V] (hresets : ∀ s a v, resets a = some v → f (step s a) = v)
    (hrecords : ∀ s a v, resets a = none → records a = some v → f (step s a) = max (f s) v)
    (hkeeps : ∀ s a, resets a = none → records a = none → f (step s a) = f s) (s : S)
    (as : List A) : IsGreatest {v | Since resets records (f s) as v} (f (after step s as)) := by
  induction as using List.reverseRecOn with
  | nil =>
    refine ⟨Or.inr ⟨fun _ h => absurd h List.not_mem_nil, rfl⟩, ?_⟩
    rintro v (⟨pre, a, post, heq, -, -⟩ | ⟨-, rfl⟩)
    · exact absurd heq (by simp)
    · exact le_rfl
  | append_singleton as a ih =>
    obtain ⟨hmem, hle⟩ := ih
    rw [after_snoc]
    cases ha : resets a with
    | some w =>
      -- nothing before a reset counts any more
      rw [hresets _ _ _ ha]
      refine ⟨since_snoc_iff.mpr (Or.inl ha), fun v hv => ?_⟩
      rcases since_snoc_iff.mp hv with hv | ⟨hnone, -⟩
      · exact (Option.some.inj (hv.symm.trans ha)).le
      · exact absurd (ha.symm.trans hnone) (Option.some_ne_none w)
    | none =>
      cases hrec : records a with
      | some w =>
        rw [hrecords _ _ _ ha hrec]
        constructor
        · -- the greater of the two is one of them
          rcases max_choice (f (after step s as)) w with hmax | hmax
          · rw [hmax]
            exact since_snoc_iff.mpr (Or.inr ⟨ha, Or.inr hmem⟩)
          · rw [hmax]
            exact since_snoc_iff.mpr (Or.inr ⟨ha, Or.inl hrec⟩)
        · intro v hv
          rcases since_snoc_iff.mp hv with hv | ⟨-, hv | hv⟩
          · exact absurd (hv.symm.trans ha) (Option.some_ne_none v)
          · exact (Option.some.inj (hv.symm.trans hrec)).le.trans (le_max_right _ _)
          · exact (hle hv).trans (le_max_left _ _)
      | none =>
        rw [hkeeps _ _ ha hrec]
        refine ⟨since_snoc_iff.mpr (Or.inr ⟨ha, Or.inr hmem⟩), fun v hv => ?_⟩
        rcases since_snoc_iff.mp hv with hv | ⟨-, hv | hv⟩
        · exact absurd (hv.symm.trans ha) (Option.some_ne_none v)
        · exact absurd (hv.symm.trans hrec) (Option.some_ne_none v)
        · exact hle hv

end Maxima

/-! ## Actions that are runs -/

section FlatMap

variable {B : Type*} (f : B → List A)

theorem after_flatMap (s : S) (bs : List B) :
    after step s (bs.flatMap f) = after (fun s b => after step s (f b)) s bs := by
  induction bs generalizing s with
  | nil => rfl
  | cons b bs ih => rw [List.flatMap_cons, after_append, ih, after_cons]

/-- A condition holds along a run of runs exactly if it holds along each of them. -/
theorem along_flatMap (s : S) (bs : List B) :
    Along step C s (bs.flatMap f) ↔
      Along (fun s b => after step s (f b)) (fun s b => Along step C s (f b)) s bs := by
  induction bs generalizing s with
  | nil => exact Iff.rfl
  | cons b bs ih => rw [List.flatMap_cons, along_append, ih, along_cons]

end FlatMap

/-! ## Simulation -/

section Simulation

variable {T B : Type*} {step' : T → B → T} {C' : T → B → Prop} {I : S → Prop}
  {f : S → T} {g : A → B}

/-- **Decoding**: where an action acts as what it is decoded to, or not at all, a run is the run of
what its actions are decoded to. -/
theorem after_filterMap {B : Type*} {step' : S → B → S} {g : A → Option B}
    (h : ∀ s a, step s a = (g a).elim s (step' s)) (s : S) (as : List A) :
    after step s as = after step' s (as.filterMap g) := by
  induction as generalizing s with
  | nil => rfl
  | cons a as ih =>
    rw [after_cons, ih, h s a]
    cases hg : g a with
    | none => rw [List.filterMap_cons_none hg, Option.elim_none]
    | some b => rw [List.filterMap_cons_some hg, Option.elim_some, after_cons]

/-- **The simulation rule**: where every step of one machine is, through `f` and `g`, a step of
another, the runs correspond. -/
theorem after_simulation (hI : ∀ s a, I s → I (step s a))
    (hsim : ∀ s a, I s → f (step s a) = step' (f s) (g a)) {s : S} (hs : I s) (as : List A) :
    f (after step s as) = after step' (f s) (as.map g) := by
  induction as generalizing s with
  | nil => rfl
  | cons a as ih =>
    rw [after_cons, ih (hI s a hs), hsim s a hs]
    rfl

/-- Corresponding conditions hold along corresponding runs. -/
theorem along_simulation (hI : ∀ s a, I s → I (step s a))
    (hsim : ∀ s a, I s → f (step s a) = step' (f s) (g a))
    (hC : ∀ s a, I s → (C s a ↔ C' (f s) (g a))) {s : S} (hs : I s) (as : List A) :
    Along step C s as ↔ Along step' C' (f s) (as.map g) := by
  induction as generalizing s with
  | nil => simp
  | cons a as ih =>
    rw [along_cons, List.map_cons, along_cons, hC s a hs, ih (hI s a hs), hsim s a hs]

end Simulation

/-! ## Counts -/

section Counts

variable {p : S → A → Prop} [∀ s a, Decidable (p s a)]

/-- How many steps of a run meet `p`. -/
def times (step : S → A → S) (p : S → A → Prop) [∀ s a, Decidable (p s a)] : S → List A → ℕ
  | _, [] => 0
  | s, a :: as => (if p s a then 1 else 0) + times step p (step s a) as

/-- **The counting rule**: where every step that meets `p` adds `k` to a count, or leaves it due,
and no other step does, a run adds `k` as often as `p` was met, but for what is due. -/
theorem count_add_due (count due : S → ℕ) {k : ℕ}
    (h : ∀ s a, count (step s a) + due (step s a) =
      count s + due s + if p s a then k else 0) (s : S) (as : List A) :
    count (after step s as) + due (after step s as) =
      count s + due s + k * times step p s as := by
  induction as generalizing s with
  | nil => rfl
  | cons a as ih =>
    have hweight : (if p s a then k else 0) = k * if p s a then 1 else 0 := by
      split_ifs
      · exact (Nat.mul_one k).symm
      · rfl
    rw [after_cons, ih, h, hweight, times, Nat.mul_add, Nat.add_assoc]

end Counts

/-! ## Outputs -/

section Outputs

variable {T B : Type*} {out : S → A → Option B}

/-- What the steps of a run put out. -/
def outputs (step : S → A → S) (out : S → A → Option B) : S → List A → List B
  | _, [] => []
  | s, a :: as => (out s a).toList ++ outputs step out (step s a) as

/-- **Composition**: a part of the state that acts on what each step puts out goes through the run
of the outputs. -/
theorem after_outputs {step' : T → B → T} {f : S → T}
    (h : ∀ s a, f (step s a) = (out s a).elim (f s) (step' (f s))) (s : S) (as : List A) :
    f (after step s as) = after step' (f s) (outputs step out s as) := by
  induction as generalizing s with
  | nil => rfl
  | cons a as ih =>
    rw [after_cons, ih, h s a, outputs]
    cases out s a with
    | none => rfl
    | some b => rfl

/-- Where what a step puts out depends on the actions so far alone, what a run puts out does. -/
theorem outputs_history {out' : List A → A → Option B} {s : S}
    (h : ∀ pre a, out (after step s pre) a = out' pre a) (pre as : List A) :
    outputs step out (after step s pre) as = outputs (fun pre a => pre ++ [a]) out' pre as := by
  induction as generalizing pre with
  | nil => rfl
  | cons a as ih =>
    have hstate : step (after step s pre) a = after step s (pre ++ [a]) :=
      (after_snoc s pre a).symm
    rw [outputs, outputs, h, hstate, ih]

end Outputs

instance decidableAlong [∀ s a, Decidable (C s a)] (s : S) (as : List A) :
    Decidable (Along step C s as) :=
  match as with
  | [] => isTrue trivial
  | a :: as =>
    have := decidableAlong (step s a) as
    inferInstanceAs (Decidable (C s a ∧ Along step C (step s a) as))

end Runs
