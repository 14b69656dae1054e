import Mathlib.Algebra.Group.Int.Defs
import Mathlib.Algebra.Order.BigOperators.Group.List
import Mathlib.Algebra.Order.Group.Int
import Mathlib.Data.List.Basic
import Mathlib.Data.Multiset.AddSub
import Mathlib.Tactic.Common
import Mathlib.Tactic.Linarith
import Mathlib.Tactic.Ring

/-!
# Ledgers

A ledger lists what is taken and what is given back. A resource may be taken more than once, so
what is held is counted.

Counting does not see the order of the entries. A run of the ledger does: from what is held before
it, entry by entry, and it stops where something is given back that is not held.

## Main definitions

* `Entry R`: an entry of a ledger of resources `R`
* `held l r`: how often `r` is held after the ledger `l`
* `Balanced l`: nothing is held after the ledger `l`
* `run l m`: what is held after the ledger `l`, from `m`

## Main results

* `held_append`, `Balanced.append`: ledgers one after the other
* `Balanced.wrap`: a balanced ledger between taking a resource and giving it back
* `balanced_flatten_iff`: many ledgers
* `run_map_take`, `run_map_give`: taking many resources, and giving them back
* `count_of_run`: what is held after a run, by counting
-/

namespace Ledger

/-- An entry: a resource taken, or given back. -/
inductive Entry (R : Type)
  | take (r : R)
  | give (r : R)
deriving DecidableEq

/-- The entry of other resources. -/
def Entry.map {R S : Type} (f : R → S) : Entry R → Entry S
  | .take r => .take (f r)
  | .give r => .give (f r)

variable {R : Type} [DecidableEq R] {l l' : List (Entry R)}

/-- How often the resource is held after the ledger. -/
def held : List (Entry R) → R → ℤ
  | [], _ => 0
  | .take r :: l, s => (if r = s then 1 else 0) + held l s
  | .give r :: l, s => held l s - if r = s then 1 else 0

@[simp] theorem held_nil (s : R) : held ([] : List (Entry R)) s = 0 := rfl

@[simp] theorem held_take (r : R) (l : List (Entry R)) (s : R) :
    held (.take r :: l) s = (if r = s then 1 else 0) + held l s := rfl

@[simp] theorem held_give (r : R) (l : List (Entry R)) (s : R) :
    held (.give r :: l) s = held l s - if r = s then 1 else 0 := rfl

@[simp] theorem held_append (l l' : List (Entry R)) (s : R) :
    held (l ++ l') s = held l s + held l' s := by
  induction l with
  | nil => simp
  | cons e l ih =>
    cases e with
    | take r =>
      rw [List.cons_append, held_take, held_take, ih]
      ring
    | give r =>
      rw [List.cons_append, held_give, held_give, ih]
      ring

/-- Nothing is held after the ledger. -/
def Balanced (l : List (Entry R)) : Prop := ∀ s, held l s = 0

theorem balanced_nil : Balanced ([] : List (Entry R)) := fun _ => rfl

theorem Balanced.append (h : Balanced l) (h' : Balanced l') : Balanced (l ++ l') := by
  intro s
  rw [held_append, h s, h' s, add_zero]

/-- A balanced ledger stays balanced between taking a resource and giving it back. -/
theorem Balanced.wrap (h : Balanced l) (r : R) : Balanced (.take r :: (l ++ [.give r])) := by
  intro s
  rw [held_take, held_append, h s, held_give, held_nil]
  ring

/-! ## Many ledgers -/

theorem held_flatten (ls : List (List (Entry R))) (s : R) :
    held ls.flatten s = (ls.map fun l => held l s).sum := by
  induction ls with
  | nil => rfl
  | cons l ls ih => rw [List.flatten_cons, held_append, ih, List.map_cons, List.sum_cons]

/-- **Many ledgers**, none of which gives back more than it takes, are balanced together exactly if
each of them is. -/
theorem balanced_flatten_iff {ls : List (List (Entry R))} (h : ∀ l ∈ ls, ∀ s, 0 ≤ held l s) :
    Balanced ls.flatten ↔ ∀ l ∈ ls, Balanced l := by
  induction ls with
  | nil => exact iff_of_true balanced_nil fun _ hl => absurd hl List.not_mem_nil
  | cons l ls ih =>
    rw [List.forall_mem_cons] at h ⊢
    rw [List.flatten_cons, ← ih h.2]
    have hrest : ∀ s, 0 ≤ held ls.flatten s := by
      intro s
      rw [held_flatten]
      exact List.sum_nonneg (by simpa using fun l hl => h.2 l hl s)
    constructor
    · intro hall
      have hboth : ∀ s, held l s = 0 ∧ held ls.flatten s = 0 := by
        intro s
        have hsum := hall s
        rw [held_append] at hsum
        constructor <;> linarith [h.1 s, hrest s]
      exact ⟨fun s => (hboth s).1, fun s => (hboth s).2⟩
    · exact fun hall => hall.1.append hall.2

/-- Renaming the resources keeps what is held. -/
theorem held_map {S : Type} [DecidableEq S] {f : R → S} (hf : Function.Injective f)
    (l : List (Entry R)) (s : R) : held (l.map (Entry.map f)) (f s) = held l s := by
  induction l with
  | nil => rfl
  | cons e l ih =>
    cases e <;> simp [Entry.map, ih, hf.eq_iff]

omit [DecidableEq R] in
theorem held_map_of_not_range {S : Type} [DecidableEq S] {f : R → S} {t : S} (ht : ∀ s, f s ≠ t)
    (l : List (Entry R)) : held (l.map (Entry.map f)) t = 0 := by
  induction l with
  | nil => rfl
  | cons e l ih =>
    cases e <;> simp [Entry.map, ih, ht]

/-! ## Runs -/

/-- The entries one after the other, from what is held before them. -/
def run : List (Entry R) → Multiset R → Option (Multiset R)
  | [], m => some m
  | .take r :: l, m => run l (r ::ₘ m)
  | .give r :: l, m => if r ∈ m then run l (m.erase r) else none

section Run

variable {m m' : Multiset R}

theorem run_append (l l' : List (Entry R)) (m : Multiset R) :
    run (l ++ l') m = (run l m).bind (run l') := by
  induction l generalizing m with
  | nil => rfl
  | cons e l ih =>
    cases e with
    | take r => exact ih _
    | give r =>
      rw [List.cons_append, run, run]
      split_ifs
      · exact ih _
      · rfl

theorem run_append_of_run (h : run l m = some m') : run (l ++ l') m = run l' m' := by
  rw [run_append, h, Option.bind_some]

/-- Taking always succeeds. -/
theorem run_map_take (rs : List R) (m : Multiset R) :
    run (rs.map Entry.take) m = some (rs + m) := by
  induction rs generalizing m with
  | nil => rw [List.map_nil, run, Multiset.coe_nil, Multiset.zero_add]
  | cons r rs ih =>
    rw [List.map_cons, run, ih, Multiset.add_cons, ← Multiset.cons_coe, Multiset.cons_add]

/-- What is held can be given back. -/
theorem run_map_give (rs : List R) (m : Multiset R) :
    run (rs.map Entry.give) (rs + m) = some m := by
  induction rs with
  | nil => rw [List.map_nil, run, Multiset.coe_nil, Multiset.zero_add]
  | cons r rs ih =>
    have hmem : r ∈ ((r :: rs : List R) : Multiset R) + m :=
      Multiset.mem_add.mpr (Or.inl (Multiset.mem_coe.mpr List.mem_cons_self))
    rw [List.map_cons, run, if_pos hmem, ← Multiset.cons_coe, Multiset.cons_add,
      Multiset.erase_cons_head, ih]

theorem count_take_cons_take (s r : R) (l : List (Entry R)) :
    (Entry.take s :: l).count (.take r) = l.count (.take r) + if r = s then 1 else 0 := by
  simp only [List.count_cons, beq_iff_eq, Entry.take.injEq, eq_comm (a := s)]

theorem count_give_cons_take (s r : R) (l : List (Entry R)) :
    (Entry.take s :: l).count (.give r) = l.count (.give r) := by
  simp

theorem count_take_cons_give (s r : R) (l : List (Entry R)) :
    (Entry.give s :: l).count (.take r) = l.count (.take r) := by
  simp

theorem count_give_cons_give (s r : R) (l : List (Entry R)) :
    (Entry.give s :: l).count (.give r) = l.count (.give r) + if r = s then 1 else 0 := by
  simp only [List.count_cons, beq_iff_eq, Entry.give.injEq, eq_comm (a := s)]

/-- **Counting a run**: what is held after it was held before it or taken, or was not given
back. -/
theorem count_of_run (h : run l m = some m') (r : R) :
    m'.count r + l.count (.give r) = m.count r + l.count (.take r) := by
  induction l generalizing m with
  | nil =>
    obtain rfl := Option.some.inj h
    rfl
  | cons e l ih =>
    cases e with
    | take s =>
      have hrest := ih h
      rw [Multiset.count_cons] at hrest
      rw [count_take_cons_take, count_give_cons_take]
      linarith
    | give s =>
      rw [run] at h
      split_ifs at h with hmem
      have hrest := ih h
      -- the resource given back was held
      have hheld := Multiset.count_cons r s (m.erase s)
      rw [Multiset.cons_erase hmem] at hheld
      rw [count_take_cons_give, count_give_cons_give]
      linarith

end Run

/-- What is taken before anything is given back. -/
theorem count_take_append (rs rs' : List R) (r : R) :
    (rs.map Entry.take ++ rs'.map Entry.give).count (.take r) = rs.count r := by
  have hinj : Function.Injective (Entry.take : R → Entry R) := fun _ _ h => Entry.take.inj h
  have hgive : Entry.take r ∉ rs'.map Entry.give := by
    intro hmem
    obtain ⟨s, -, heq⟩ := List.mem_map.mp hmem
    cases heq
  rw [List.count_append, List.count_map_of_injective rs _ hinj, List.count_eq_zero_of_not_mem hgive,
    Nat.add_zero]

end Ledger
