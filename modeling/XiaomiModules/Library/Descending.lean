import Mathlib.Data.List.Basic
import Mathlib.Data.Nat.Basic
import Mathlib.Order.Basic
import Mathlib.Order.Lattice
import Mathlib.Tactic.Common

/-!
# Searching a non-increasing list

In a list whose entries never rise, the entries above a threshold form a prefix, so their number
is the position of the first entry at or below the threshold. That entry is the greatest of the
list that the threshold admits.

## Main definitions

* `NonIncreasing l`: the entries of `l` never rise
* `above m l`: how many entries of `l` exceed `m`

## Main results

* `lt_getElem_iff`, `getElem_le_iff`: which positions hold the entries above the threshold
* `findIdx?_le`: the first entry at or below the threshold is at position `above m l`
* `above_anti`: a lower threshold has more entries above it
* `exists_mem_between_iff`: an entry lies between two bounds exactly when the first entry at or
  below the upper one is not below the lower one
-/

namespace Descending

variable {α : Type*} [LinearOrder α] {l : List α} {m : α}

/-- The entries never rise. -/
def NonIncreasing (l : List α) : Prop := l.Pairwise (· ≥ ·)

/-- How many entries exceed the threshold `m`. -/
def above (m : α) (l : List α) : ℕ := l.countP (m < ·)

theorem nonIncreasing_cons {x : α} :
    NonIncreasing (x :: l) ↔ (∀ y ∈ l, y ≤ x) ∧ NonIncreasing l := List.pairwise_cons

@[simp] theorem above_nil : above m ([] : List α) = 0 := rfl

theorem above_cons_of_lt {x : α} (h : m < x) : above m (x :: l) = above m l + 1 := by
  simp [above, h]

theorem above_cons_of_le {x : α} (hl : NonIncreasing (x :: l)) (h : x ≤ m) :
    above m (x :: l) = 0 := by
  simp only [above, List.countP_eq_zero, List.mem_cons, decide_eq_true_eq, not_lt]
  rintro y (rfl | hy)
  · exact h
  · exact ((nonIncreasing_cons.mp hl).1 y hy).trans h

/-- The entries above the threshold form a prefix. -/
theorem lt_getElem_iff (hl : NonIncreasing l) {i : ℕ} (hi : i < l.length) :
    m < l[i] ↔ i < above m l := by
  induction l generalizing i with
  | nil => exact absurd hi (Nat.not_lt_zero i)
  | cons x l ih =>
    by_cases hx : m < x
    · rw [above_cons_of_lt hx]
      cases i with
      | zero => simp [hx]
      | succ i =>
        rw [List.getElem_cons_succ, ih (nonIncreasing_cons.mp hl).2, Nat.succ_lt_succ_iff]
    · -- the head is at or below the threshold, and so is every later entry
      rw [above_cons_of_le hl (not_lt.mp hx)]
      have hle : (x :: l)[i] ≤ x := by
        cases i with
        | zero => exact le_rfl
        | succ i => exact (nonIncreasing_cons.mp hl).1 _ (List.getElem_mem _)
      simpa using hle.trans (not_lt.mp hx)

theorem getElem_le_iff (hl : NonIncreasing l) {i : ℕ} (hi : i < l.length) :
    l[i] ≤ m ↔ above m l ≤ i := by
  rw [← not_lt, lt_getElem_iff hl hi, not_lt]

/-- The entries at later positions are no greater. -/
theorem getElem_anti (hl : NonIncreasing l) {i j : ℕ} (hij : i ≤ j) (hj : j < l.length) :
    l[j] ≤ l[i] := by
  rw [getElem_le_iff hl hj]
  exact le_trans ((getElem_le_iff hl (hij.trans_lt hj)).mp le_rfl) hij

/-- A lower threshold has more entries above it. -/
theorem above_anti {m' : α} (h : m ≤ m') (l : List α) : above m' l ≤ above m l :=
  List.countP_mono_left fun _ _ hx => by simpa using h.trans_lt (by simpa using hx)

/-- The search for the first entry at or below the threshold. -/
theorem findIdx?_le (hl : NonIncreasing l) (m : α) :
    l.findIdx? (· ≤ m) = if above m l < l.length then some (above m l) else none := by
  induction l with
  | nil => rfl
  | cons x l ih =>
    rw [List.findIdx?_cons, ih (nonIncreasing_cons.mp hl).2]
    by_cases hx : m < x
    · -- the head is above the threshold, so the search goes on in the tail
      rw [above_cons_of_lt hx, decide_eq_false (not_le.mpr hx), List.length_cons]
      by_cases hlt : above m l < l.length
      · rw [if_pos hlt, if_pos (Nat.succ_lt_succ hlt)]
        rfl
      · rw [if_neg hlt, if_neg (mt Nat.lt_of_succ_lt_succ hlt)]
        rfl
    · rw [above_cons_of_le hl (not_lt.mp hx), decide_eq_true (not_lt.mp hx)]
      simp

/-- Some entry is at or below the threshold exactly when not all of them are above it. -/
theorem exists_mem_le_iff (hl : NonIncreasing l) :
    (∃ x ∈ l, x ≤ m) ↔ above m l < l.length := by
  constructor
  · rintro ⟨x, hx, hle⟩
    obtain ⟨i, hi, rfl⟩ := List.mem_iff_getElem.mp hx
    exact ((getElem_le_iff hl hi).mp hle).trans_lt hi
  · exact fun h => ⟨l[above m l], List.getElem_mem h, (getElem_le_iff hl h).mpr le_rfl⟩

/-- The first entry at or below the threshold is the greatest of those. -/
theorem le_getElem_above (hl : NonIncreasing l) {x : α} (hx : x ∈ l) (hle : x ≤ m)
    (h : above m l < l.length) : x ≤ l[above m l] := by
  obtain ⟨i, hi, rfl⟩ := List.mem_iff_getElem.mp hx
  exact getElem_anti hl ((getElem_le_iff hl hi).mp hle) hi

/-- An entry lies between two bounds exactly when the first entry at or below the upper one is
not below the lower one. -/
theorem exists_mem_between_iff (hl : NonIncreasing l) {lo : α} (h : above m l < l.length) :
    (∃ x ∈ l, lo ≤ x ∧ x ≤ m) ↔ lo ≤ l[above m l] := by
  constructor
  · rintro ⟨x, hx, hlo, hle⟩
    exact hlo.trans (le_getElem_above hl hx hle h)
  · exact fun hlo => ⟨_, List.getElem_mem h, hlo, (getElem_le_iff hl h).mpr le_rfl⟩

end Descending
