import Mathlib.Data.Nat.Basic
import Mathlib.Logic.Function.Iterate
import Mathlib.Order.MinMax
import Mathlib.Tactic.Common

/-!
# Approaching a target by bounded steps in modular arithmetic

A counter moves towards a target `L` by at most `k` at a time: the next value is the smaller of
the target and of `x + k`. Where the sum is taken modulo `W` it can wrap, and the counter then
falls back instead of rising. `Settles` says what repeating such a move is for: the distance to
the target never grows, the target is reached in as many moves as the distance asks for, and a
counter at the target stays there.

## Main definitions

* `approach W L k x`: the next value
* `Settles f L bound`: the sequence `f` settles at `L` within `bound` moves

## Main results

* `approach_iterate`: without a wrap, `n` moves from below the target rise by `n * k`
* `settles_approach_iff`: repeated moves settle at the target exactly when the sum wraps neither
  at the target nor, below it, at a start above the target
-/

namespace Approach

/-- The next value: the target, or `x + k` modulo `W` when that is smaller. -/
def approach (W L k x : ℕ) : ℕ := min L ((x + k) % W)

/-- The sequence settles at `L` within `bound` moves. -/
structure Settles (f : ℕ → ℕ) (L bound : ℕ) : Prop where
  never_farther : ∀ n, ((f (n + 1) : ℤ) - L).natAbs ≤ ((f n : ℤ) - L).natAbs
  reaches : ∃ n ≤ bound, f n = L
  stays : ∀ n, f n = L → f (n + 1) = L

/-- The number of moves by `k` that cover the distance from `x` up to `L`, at least one. -/
def moves (L k x : ℕ) : ℕ := max 1 ((L - x + (k - 1)) / k)

variable {W L k x : ℕ}

/-- At or below a target where the sum does not wrap, it does not wrap either. -/
theorem approach_of_le (hW : L + k < W) (hx : x ≤ L) : approach W L k x = min L (x + k) := by
  rw [approach, Nat.mod_eq_of_lt (by omega)]

/-- Without a wrap, `n` moves from below the target rise by `n * k`. -/
theorem approach_iterate (hW : L + k < W) (hx : x ≤ L) (n : ℕ) :
    (approach W L k)^[n] x = min L (x + n * k) := by
  induction n with
  | zero => simp [hx]
  | succ n ih =>
    rw [Function.iterate_succ_apply', ih, approach_of_le hW (min_le_left _ _), Nat.succ_mul]
    omega

/-- The moves that cover the distance suffice. -/
theorem le_add_moves_mul (hk : 0 < k) : L ≤ x + moves L k x * k := by
  -- rounding the quotient up loses nothing of the distance
  have hdiv : L - x ≤ (L - x + (k - 1)) / k * k := by
    have hsplit := Nat.div_add_mod (L - x + (k - 1)) k
    have hmod := Nat.mod_lt (L - x + (k - 1)) hk
    rw [Nat.mul_comm] at hsplit
    omega
  have hmax : (L - x + (k - 1)) / k * k ≤ moves L k x * k :=
    Nat.mul_le_mul_right k (le_max_right _ _)
  omega

/-- From at or below the target, where the sum does not wrap, the moves settle. -/
theorem settles_of_le (hk : 0 < k) (hW : L + k < W) (hx : x ≤ L) :
    Settles (fun n => (approach W L k)^[n] x) L (moves L k x) where
  never_farther n := by
    simp only [approach_iterate hW hx, Nat.succ_mul]
    omega
  reaches := ⟨moves L k x, le_rfl, by
    rw [approach_iterate hW hx]
    exact min_eq_left (le_add_moves_mul hk)⟩
  stays n h := by
    rw [Function.iterate_succ_apply', h, approach_of_le hW le_rfl]
    omega

/-- From above the target, a first move that lands on the target settles. -/
theorem settles_of_lands (hW : L + k < W) (hland : L ≤ (x + k) % W) :
    Settles (fun n => (approach W L k)^[n] x) L (moves L k x) := by
  have hone : approach W L k x = L := min_eq_left hland
  have hlater : ∀ n, (approach W L k)^[n + 1] x = L := by
    intro n
    rw [Function.iterate_succ_apply, hone, approach_iterate hW le_rfl]
    omega
  refine ⟨fun n => ?_, ⟨1, le_max_left _ _, hlater 0⟩, fun n _ => hlater n⟩
  simp [hlater]

/-- **Settling**: repeated moves settle at the target exactly when the sum does not wrap at the
target and, from a start above it, the first sum is not below it. -/
theorem settles_approach_iff (hk : 0 < k) (hkW : k < W) (L x : ℕ) :
    Settles (fun n => (approach W L k)^[n] x) L (moves L k x) ↔
      L + k < W ∧ (x ≤ L ∨ L ≤ (x + k) % W) := by
  constructor
  · rintro ⟨-, ⟨n, hn, hreach⟩, hstays⟩
    -- the target is a fixed point, so the sum does not wrap there
    have hfix : L ≤ (L + k) % W := by
      have hstay := hstays n hreach
      rw [Function.iterate_succ_apply', hreach] at hstay
      exact min_eq_left_iff.mp hstay
    have hmod : (L + k) % W ≤ L + k := Nat.mod_le _ _
    have hlt : (L + k) % W < W := Nat.mod_lt _ (by omega)
    have hW : L + k < W := by
      by_contra hge
      have hsub : (L + k) % W = L + k - W := by
        rw [Nat.mod_eq_sub_mod (by omega), Nat.mod_eq_of_lt (by omega)]
      omega
    refine ⟨hW, ?_⟩
    by_contra hnot
    rw [not_or, not_le, not_le] at hnot
    -- above the target the allowance is a single move, and that move falls short
    have hmoves : moves L k x = 1 := by
      have hzero : (L - x + (k - 1)) / k = 0 := Nat.div_eq_of_lt (by omega)
      simp [moves, hzero]
    have hn' : n = 0 ∨ n = 1 := by omega
    rcases hn' with rfl | rfl
    · have hstart : x = L := hreach
      omega
    · have hmove : approach W L k x = L := hreach
      have hland := min_eq_left_iff.mp hmove
      omega
  · rintro ⟨hW, hx | hland⟩
    · exact settles_of_le hk hW hx
    · exact settles_of_lands hW hland

end Approach
