import Mathlib.Logic.Function.Basic
import XiaomiModules.Library.Runs

/-!
# Slots behind a gate

Callers store values in slots. While the gate is shut a store changes nothing, and its caller is not
told. So beside what the slots hold there is what the callers believe they hold.

## Main definitions

* `GatedSlots`, `step`: the gate, the slots and what is believed of them, and one action
* `Effective h a`: the action stores in the slot
* `Heard a`: the action is no store, or the slot holds its value after it

## Main results

* `slots_after_eq_iff`: what a slot holds after a run
* `slots_eq_believed_iff`: the callers are right throughout a run exactly if all of it is heard
-/

/-- Slots that can be stored in while the gate is not shut, and what was last to be stored in
each. -/
structure GatedSlots (H F : Type*) where
  shut : Bool
  slots : H → Option F
  believed : H → Option F

namespace GatedSlots

variable {H F : Type*} [DecidableEq H]

/-- The gate is moved, or a value is to be stored in a slot. -/
inductive Action (H F : Type*)
  | setShut (shut : Bool)
  | store (h : H) (value : Option F)

/-- The slots before anything was stored. -/
def start (shut : Bool) : GatedSlots H F := ⟨shut, fun _ => none, fun _ => none⟩

/-- One action. -/
def step (s : GatedSlots H F) : Action H F → GatedSlots H F
  | .setShut shut => { s with shut }
  | .store h value =>
    { s with
      slots := if s.shut then s.slots else Function.update s.slots h value
      believed := Function.update s.believed h value }

/-- The action stores in the slot. -/
def Effective (h : H) (s : GatedSlots H F) : Action H F → Prop
  | .setShut _ => False
  | .store other _ => other = h ∧ s.shut = false

/-- The value an action is to store. -/
def Action.value : Action H F → Option F
  | .setShut _ => none
  | .store _ value => value

/-- A store while the gate is shut finds its value in the slot. -/
def Heard (s : GatedSlots H F) : Action H F → Prop
  | .setShut _ => True
  | .store h value => s.shut = true → s.slots h = value

variable {s : GatedSlots H F}

theorem slots_step_of_effective {h : H} {a : Action H F} (ha : s.Effective h a) :
    (s.step a).slots h = a.value := by
  cases a with
  | setShut shut => exact ha.elim
  | store other value =>
    obtain ⟨rfl, hshut⟩ := ha
    simp [step, hshut, Action.value]

theorem slots_step_of_not_effective {h : H} {a : Action H F} (ha : ¬ s.Effective h a) :
    (s.step a).slots h = s.slots h := by
  cases a with
  | setShut shut => rfl
  | store other value =>
    simp only [step]
    split_ifs with hshut
    · rfl
    · have hne : h ≠ other := fun heq => ha ⟨heq.symm, Bool.eq_false_iff.mpr hshut⟩
      exact Function.update_of_ne hne _ _

/-- **A slot after a run** holds what the last store has put there that found the gate open. -/
theorem slots_after_eq_iff (s : GatedSlots H F) (as : List (Action H F)) (h : H)
    (v : Option F) :
    (Runs.after step s as).slots h = v ↔
      (∃ pre post, as = pre ++ .store h v :: post ∧ (Runs.after step s pre).shut = false ∧
        Runs.Along step (fun s a => ¬ s.Effective h a)
          (Runs.after step s (pre ++ [.store h v])) post) ∨
      Runs.Along step (fun s a => ¬ s.Effective h a) s as ∧ s.slots h = v := by
  rw [Runs.after_eq_iff_last_along (f := fun s : GatedSlots H F => s.slots h)
    (fun _ _ => slots_step_of_effective)
    (fun _ _ => slots_step_of_not_effective)]
  refine or_congr_left ⟨?_, ?_⟩
  · rintro ⟨pre, a, post, heq, ha, hvalue, hpost⟩
    cases a with
    | setShut shut => exact ha.elim
    | store other value =>
      obtain ⟨rfl, hshut⟩ := ha
      obtain rfl : value = v := hvalue
      exact ⟨pre, post, heq, hshut, hpost⟩
  · rintro ⟨pre, post, heq, hshut, hpost⟩
    exact ⟨pre, _, post, heq, ⟨rfl, hshut⟩, rfl, hpost⟩

/-- Where the callers were right, they still are exactly if the action is heard. -/
theorem slots_step_eq_believed_iff (h : s.slots = s.believed) (a : Action H F) :
    (s.step a).slots = (s.step a).believed ↔ s.Heard a := by
  cases a with
  | setShut shut => exact iff_of_true h trivial
  | store other value =>
    simp only [step, Heard, h]
    split_ifs with hshut
    · constructor
      · intro heq _
        simpa using congrFun heq other
      · intro hheard
        rw [← hheard hshut, Function.update_eq_self]
    · simp [hshut]

/-- **The callers are right** in every state of a run exactly if every store of it that finds the
gate shut finds its value in the slot as well. -/
theorem slots_eq_believed_iff (h : s.slots = s.believed) (as : List (Action H F)) :
    (∀ pre, pre <+: as → (Runs.after step s pre).slots = (Runs.after step s pre).believed) ↔
      Runs.Along step Heard s as :=
  Runs.forall_prefix_iff_along (I := fun _ => True)
    (P := fun s : GatedSlots H F => s.slots = s.believed) (fun _ _ _ _ _ => trivial)
    (fun _ a _ hs => slots_step_eq_believed_iff hs a) trivial h as

end GatedSlots
