import Mathlib.Algebra.Group.Nat.Defs
import Mathlib.Data.Nat.Basic
import Mathlib.Order.Lattice
import Mathlib.Order.MinMax
import Mathlib.Tactic.Common

/-!
# 32-bit words as a linear order

Comparisons of words, signed or not, are comparisons of the numbers they denote, so the general
results on linear orders apply to words, and the minimum and the maximum commute with reading a
word as a number. The scaling `q * n + r * n / d`, with `q` and `r` the quotient and the remainder
of `x` by `d`, does not overflow for `n ≤ d` and `d` of at most 16 bits, although the product
`x * n` may.

## Main results

* `linearOrderUInt32`, `linearOrderInt32`
* `scale_toNat`: scaling by quotient and remainder is exact
-/

namespace Word

instance linearOrderUInt32 : LinearOrder UInt32 where
  le_refl a := Nat.le_refl a.toNat
  le_trans _ _ _ := Nat.le_trans
  lt_iff_le_not_ge a b := lt_iff_le_not_ge (a := a.toNat) (b := b.toNat)
  le_antisymm _ _ h₁ h₂ := UInt32.le_antisymm h₁ h₂
  le_total a b := Nat.le_total a.toNat b.toNat
  toDecidableLE := inferInstance
  toDecidableLT := inferInstance
  toDecidableEq := inferInstance
  min_def _ _ := rfl
  max_def _ _ := rfl

instance linearOrderInt32 : LinearOrder Int32 where
  le_refl := Int32.le_refl
  le_trans _ _ _ := Int32.le_trans
  lt_iff_le_not_ge a b := by
    rw [Int32.lt_iff_toInt_lt, Int32.le_iff_toInt_le, Int32.le_iff_toInt_le]
    exact lt_iff_le_not_ge
  le_antisymm _ _ := Int32.le_antisymm
  le_total := Int32.le_total
  toDecidableLE := inferInstance
  toDecidableLT := inferInstance
  toDecidableEq := inferInstance
  min_def _ _ := rfl
  max_def _ _ := rfl

/-- Reading a word as a number preserves the order. -/
theorem toNat_mono {a b : UInt32} (h : a ≤ b) : a.toNat ≤ b.toNat := h

theorem toNat_min (a b : UInt32) : (min a b).toNat = min a.toNat b.toNat := by
  rcases le_total a b with h | h
  · rw [min_eq_left h, min_eq_left (toNat_mono h)]
  · rw [min_eq_right h, min_eq_right (toNat_mono h)]

theorem toNat_max (a b : UInt32) : (max a b).toNat = max a.toNat b.toNat := by
  rcases le_total a b with h | h
  · rw [max_eq_right h, max_eq_right (toNat_mono h)]
  · rw [max_eq_left h, max_eq_left (toNat_mono h)]

theorem toInt_max (a b : Int32) : (max a b).toInt = max a.toInt b.toInt := by
  rcases le_total a b with h | h
  · rw [max_eq_right h, max_eq_right (Int32.le_iff_toInt_le.mp h)]
  · rw [max_eq_left h, max_eq_left (Int32.le_iff_toInt_le.mp h)]

/-- Scaling by quotient and remainder computes the quotient of the product. -/
theorem scale_nat (x n : ℕ) {d : ℕ} (hd : 0 < d) :
    x / d * n + x % d * n / d = x * n / d := by
  have hx : x * n = x % d * n + d * (x / d * n) :=
    calc x * n = (x % d + d * (x / d)) * n := by rw [Nat.mod_add_div]
      _ = x % d * n + d * (x / d * n) := by rw [Nat.add_mul, Nat.mul_assoc]
  rw [hx, Nat.add_mul_div_left _ _ hd, Nat.add_comm]

/-- **Exact scaling**: scaling by quotient and remainder does not overflow. -/
theorem scale_toNat (x : UInt32) {n d : UInt32} (hd : 0 < d) (hd16 : d.toNat ≤ 2 ^ 16)
    (hn : n ≤ d) : (x / d * n + x % d * n / d).toNat = x.toNat * n.toNat / d.toNat := by
  have hd' : 0 < d.toNat := hd
  have hn' : n.toNat ≤ d.toNat := hn
  have hx := x.toNat_lt
  have hprod : x.toNat * n.toNat / d.toNat ≤ x.toNat :=
    Nat.div_le_of_le_mul ((Nat.mul_le_mul_left _ hn').trans (Nat.mul_comm _ _).le)
  have hr : x.toNat % d.toNat * n.toNat < 2 ^ 32 :=
    calc x.toNat % d.toNat * n.toNat < d.toNat * d.toNat :=
        Nat.mul_lt_mul_of_lt_of_le (Nat.mod_lt _ hd') hn' hd'
      _ ≤ 2 ^ 16 * 2 ^ 16 := Nat.mul_le_mul hd16 hd16
      _ = 2 ^ 32 := (Nat.pow_add 2 16 16).symm
  have hscale := scale_nat x.toNat n.toNat hd'
  have hq : x.toNat / d.toNat * n.toNat < 2 ^ 32 :=
    ((Nat.le_add_right _ _).trans (hscale.le.trans hprod)).trans_lt hx
  simp only [UInt32.toNat_add, UInt32.toNat_mul, UInt32.toNat_div, UInt32.toNat_mod]
  rw [Nat.mod_eq_of_lt hr, Nat.mod_eq_of_lt hq, hscale, Nat.mod_eq_of_lt (hprod.trans_lt hx)]

end Word
