import XiaomiModules.Library.Runs

/-!
# Machines made of parts

The state of a machine has parts, and an action works on those that it is for: what becomes of a
part depends on the part and the action alone. Each part then goes through its own run, of the
actions that are for it, however these are interleaved with the others.

## Main definitions

* `Parts`: the parts of a machine, the actions for each, and what an action does to a part

## Main results

* `Parts.after_part`: a part after a run
* `Parts.after_eq_of_filter_eq`: runs that differ in the interleaving only
-/

/-- The parts `part s i` of the states of an invariant. An action is for the parts that `own` says,
and does `act` to each of them. -/
structure Parts {S A : Type*} (step : S → A → S) (I : S → Prop) (ι V : Type*) where
  part : S → ι → V
  own : ι → A → Bool
  act : V → A → V
  invariant : ∀ s a, I s → I (step s a)
  part_step : ∀ s a i, I s → part (step s a) i = if own i a then act (part s i) a else part s i
  ext : ∀ s t, I s → I t → (∀ i, part s i = part t i) → s = t

namespace Parts

open Runs (after)

variable {S A ι V : Type*} {step : S → A → S} {I : S → Prop} (P : Parts step I ι V) {s : S}

/-- **A part after a run** has seen the actions that are for it, in their order. -/
theorem after_part (hs : I s) (as : List A) (i : ι) :
    P.part (after step s as) i = after P.act (P.part s i) (as.filter (P.own i)) := by
  induction as generalizing s with
  | nil => rfl
  | cons a as ih =>
    rw [Runs.after_cons, ih (P.invariant s a hs), P.part_step s a i hs]
    cases hown : P.own i a with
    | true =>
      rw [List.filter_cons_of_pos hown]
      rfl
    | false =>
      rw [List.filter_cons_of_neg (Bool.eq_false_iff.mp hown)]
      rfl

/-- **Interleavings**: runs with the same actions for each part, in the same order, end alike. -/
theorem after_eq_of_filter_eq (hs : I s) {as bs : List A}
    (h : ∀ i, as.filter (P.own i) = bs.filter (P.own i)) : after step s as = after step s bs := by
  refine P.ext _ _ (Runs.after_invariant P.invariant hs as)
    (Runs.after_invariant P.invariant hs bs) fun i => ?_
  rw [P.after_part hs, P.after_part hs, h i]

end Parts
