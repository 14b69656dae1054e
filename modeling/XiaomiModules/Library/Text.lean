import Mathlib.Algebra.Group.Nat.Defs
import Mathlib.Data.List.Basic
import Mathlib.Data.List.Infix
import Mathlib.Data.Nat.Basic
import Mathlib.Tactic.Common

/-!
# Byte texts: numerals and delimiters

Text is a list of bytes. A numeral is written in decimal with a leading minus when negative.
A part of a text can be read back when what follows it cannot be mistaken for more of it: a
numeral ends at the first byte that is no numeral byte, and a quoted part ends at the first
quote followed by a closing byte, provided the part itself holds no such pair.

## Main definitions

* `ascii s`: the bytes of an ASCII literal
* `decimal z`: the decimal numeral of an integer
* `Stops p r`: what follows a part made of `p`-bytes does not continue it
* `PairFree q C l`: no byte of `C` follows a `q` inside `l`

## Main results

* `decimal_injective`, `isNumeral_of_mem_decimal`, `length_decimal_le`: numerals
* `intercalate_snoc`, `intercalate_cons`: parts joined by a separator
* `append_inj_of_stops`: a part is determined by the text when what follows stops it
* `append_pair_inj`: a pair-free part is determined by the text up to its closing pair
-/

namespace Text

/-- The bytes of an ASCII literal. -/
def ascii (s : String) : List UInt8 := s.toList.map Char.toUInt8

/-! ## Numerals -/

/-- The decimal digits of a natural number. -/
def decimalNat (n : ℕ) : List UInt8 := (Nat.toDigits 10 n).map Char.toUInt8

/-- The decimal numeral of an integer. -/
def decimal : ℤ → List UInt8
  | .ofNat n => decimalNat n
  | .negSucc n => 45 :: decimalNat (n + 1)

/-- A digit. -/
def IsDigit (b : UInt8) : Prop := 48 ≤ b.toNat ∧ b.toNat ≤ 57

/-- A digit or the minus sign. -/
def IsNumeral (b : UInt8) : Prop := IsDigit b ∨ b = 45

instance (b : UInt8) : Decidable (IsDigit b) := inferInstanceAs (Decidable (_ ∧ _))

instance (b : UInt8) : Decidable (IsNumeral b) := inferInstanceAs (Decidable (_ ∨ _))

theorem toNat_of_isDigit {c : Char} (h : c.isDigit = true) : 48 ≤ c.toNat ∧ c.toNat ≤ 57 := by
  simp only [Char.isDigit, Bool.and_eq_true, decide_eq_true_eq] at h
  exact ⟨h.1, h.2⟩

theorem toNat_toUInt8_of_isDigit {c : Char} (h : c.isDigit = true) :
    c.toUInt8.toNat = c.toNat := by
  have hc := toNat_of_isDigit h
  show c.toNat % 256 = c.toNat
  exact Nat.mod_eq_of_lt (by omega)

theorem isDigit_of_mem_decimalNat {n : ℕ} {b : UInt8} (h : b ∈ decimalNat n) : IsDigit b := by
  obtain ⟨c, hc, rfl⟩ := List.mem_map.mp h
  have hd := Nat.isDigit_of_mem_toDigits (by decide) (by decide) hc
  rw [IsDigit, toNat_toUInt8_of_isDigit hd]
  exact toNat_of_isDigit hd

/-- The digits of a numeral, read back as characters. -/
theorem map_ofNat_decimalNat (n : ℕ) :
    (decimalNat n).map (fun b => Char.ofNat b.toNat) = Nat.toDigits 10 n := by
  rw [decimalNat, List.map_map]
  refine (List.map_congr_left fun c hc => ?_).trans (List.map_id _)
  have hd := Nat.isDigit_of_mem_toDigits (by decide) (by decide) hc
  simp [toNat_toUInt8_of_isDigit hd]

theorem decimalNat_injective : Function.Injective decimalNat := by
  intro m n h
  have hdigits : Nat.toDigits 10 m = Nat.toDigits 10 n := by
    rw [← map_ofNat_decimalNat m, h, map_ofNat_decimalNat n]
  simpa using congrArg (Nat.ofDigitChars 10 · 0) hdigits

theorem isNumeral_of_mem_decimal {z : ℤ} {b : UInt8} (h : b ∈ decimal z) : IsNumeral b := by
  cases z with
  | ofNat n => exact Or.inl (isDigit_of_mem_decimalNat h)
  | negSucc n =>
    rcases List.mem_cons.mp h with rfl | h
    · exact Or.inr rfl
    · exact Or.inl (isDigit_of_mem_decimalNat h)

theorem notMem_decimalNat {b : UInt8} (h : ¬ IsDigit b) (n : ℕ) : b ∉ decimalNat n :=
  fun hmem => h (isDigit_of_mem_decimalNat hmem)

theorem notMem_decimal {b : UInt8} (h : ¬ IsNumeral b) (z : ℤ) : b ∉ decimal z :=
  fun hmem => h (isNumeral_of_mem_decimal hmem)

theorem decimalNat_ne_nil (n : ℕ) : decimalNat n ≠ [] := by
  simp [decimalNat]

theorem decimal_ne_nil (z : ℤ) : decimal z ≠ [] := by
  cases z with
  | ofNat n => exact decimalNat_ne_nil n
  | negSucc n => exact List.cons_ne_nil _ _

/-- The minus sign starts no unsigned numeral. -/
theorem decimalNat_ne_minus_cons (m : ℕ) (l : List UInt8) : decimalNat m ≠ 45 :: l := by
  intro h
  have hd : IsDigit 45 := isDigit_of_mem_decimalNat (n := m) (by rw [h]; exact List.mem_cons_self)
  exact absurd hd (by decide)

theorem decimal_injective : Function.Injective decimal := by
  intro y z h
  cases y with
  | ofNat m =>
    cases z with
    | ofNat n => exact congrArg Int.ofNat (decimalNat_injective h)
    | negSucc n => exact absurd h (decimalNat_ne_minus_cons m _)
  | negSucc m =>
    cases z with
    | ofNat n => exact absurd h.symm (decimalNat_ne_minus_cons n _)
    | negSucc n =>
      have := decimalNat_injective (List.cons.inj h).2
      exact congrArg Int.negSucc (Nat.succ.inj this)

theorem length_decimalNat_le {n k : ℕ} (hk : 0 < k) (h : n < 10 ^ k) :
    (decimalNat n).length ≤ k := by
  rw [decimalNat, List.length_map]
  exact (Nat.length_toDigits_le_iff (by decide) hk).mpr h

theorem length_decimalNat_of_lt {n : ℕ} (h : n < 10) : (decimalNat n).length = 1 := by
  rw [decimalNat, List.length_map, Nat.toDigits_of_lt_base h]
  rfl

/-- A division by 10 takes the last digit away. -/
theorem length_decimalNat_of_le {n : ℕ} (h : 10 ≤ n) :
    (decimalNat n).length = (decimalNat (n / 10)).length + 1 := by
  rw [decimalNat, decimalNat, List.length_map, List.length_map,
    Nat.toDigits_of_base_le (by decide) h, List.length_append]
  rfl

theorem length_decimal_le {z : ℤ} {k : ℕ} (hk : 0 < k) (h : z.natAbs < 10 ^ k) :
    (decimal z).length ≤ k + 1 := by
  cases z with
  | ofNat n => exact (length_decimalNat_le hk h).trans (Nat.le_succ k)
  | negSucc n => exact Nat.succ_le_succ (length_decimalNat_le hk h)

/-! ## Separated parts -/

section Separated

variable {α : Type*}

/-- One more part stands behind a separator, except as the first. -/
theorem intercalate_snoc (sep part : List α) (parts : List (List α)) :
    sep.intercalate (parts ++ [part]) =
      sep.intercalate parts ++ ((if parts = [] then [] else sep) ++ part) := by
  induction parts with
  | nil => simp
  | cons first rest ih =>
    cases rest with
    | nil => simp [List.intercalate_cons_cons]
    | cons second rest =>
      simp only [List.cons_append, List.intercalate_cons_cons] at ih ⊢
      rw [ih]
      simp

/-- All parts but the first stand behind a separator. -/
theorem intercalate_cons (sep part : List α) (parts : List (List α)) :
    sep.intercalate (part :: parts) = part ++ (parts.map (sep ++ ·)).flatten := by
  induction parts generalizing part with
  | nil => simp
  | cons second rest ih => simp [List.intercalate_cons_cons, ih]

/-- What is joined holds what the separator and the parts hold. -/
theorem mem_of_mem_intercalate {sep : List α} {parts : List (List α)} {a : α}
    (h : a ∈ sep.intercalate parts) : a ∈ sep ∨ ∃ part ∈ parts, a ∈ part := by
  cases parts with
  | nil => exact absurd h List.not_mem_nil
  | cons part parts =>
    rw [intercalate_cons] at h
    simp only [List.mem_append, List.mem_flatten, List.mem_map, exists_exists_and_eq_and] at h
    rcases h with hfirst | ⟨later, hlater, hsep | hpart⟩
    · exact Or.inr ⟨part, List.mem_cons_self, hfirst⟩
    · exact Or.inl hsep
    · exact Or.inr ⟨later, List.mem_cons_of_mem _ hlater, hpart⟩

end Separated

/-! ## Reading parts back -/

section Parts

variable {α : Type*} {l₁ l₂ r₁ r₂ : List α}

/-- What follows a part made of `p`-elements does not continue it. -/
def Stops (p : α → Prop) (r : List α) : Prop := ∀ a t, r = a :: t → ¬ p a

theorem stops_cons {p : α → Prop} {a : α} {t : List α} (h : ¬ p a) : Stops p (a :: t) := by
  intro b u hbu
  rwa [← (List.cons.inj hbu).1]

/-- A part is determined by the text when what follows stops it. -/
theorem append_inj_of_stops {p : α → Prop} (h₁ : ∀ a ∈ l₁, p a) (h₂ : ∀ a ∈ l₂, p a)
    (hr₁ : Stops p r₁) (hr₂ : Stops p r₂) (h : l₁ ++ r₁ = l₂ ++ r₂) : l₁ = l₂ ∧ r₁ = r₂ := by
  rcases List.append_eq_append_iff.mp h with ⟨m, hl, hr⟩ | ⟨m, hl, hr⟩
  · cases m with
    | nil => exact ⟨by simpa using hl.symm, by simpa using hr⟩
    | cons a m => exact absurd (h₂ a (by simp [hl])) (hr₁ a _ hr)
  · cases m with
    | nil => exact ⟨by simpa using hl, by simpa using hr.symm⟩
    | cons a m => exact absurd (h₁ a (by simp [hl])) (hr₂ a _ hr)

/-- What remains behind the leading `p`-elements does not continue them. -/
theorem stops_dropWhile (p : α → Bool) (l : List α) : Stops (p · = true) (l.dropWhile p) := by
  intro a t h
  induction l with
  | nil => exact absurd h (by simp)
  | cons b l ih =>
    by_cases hb : p b = true
    · rw [List.dropWhile_cons_of_pos hb] at h
      exact ih h
    · rw [List.dropWhile_cons_of_neg hb] at h
      rwa [← (List.cons.inj h).1]

section Leading

variable {p : α → Bool} {l r : List α}

theorem takeWhile_of_stops (hr : Stops (p · = true) r) : r.takeWhile p = [] := by
  cases r with
  | nil => rfl
  | cons a t => exact List.takeWhile_cons_of_neg (hr a t rfl)

theorem dropWhile_of_stops (hr : Stops (p · = true) r) : r.dropWhile p = r := by
  cases r with
  | nil => rfl
  | cons a t => exact List.dropWhile_cons_of_neg (hr a t rfl)

/-- A part of `p`-elements and what stops it are the leading `p`-elements and the rest. -/
theorem takeWhile_append_of_stops (hl : ∀ a ∈ l, p a = true) (hr : Stops (p · = true) r) :
    (l ++ r).takeWhile p = l := by
  rw [List.takeWhile_append_of_pos hl, takeWhile_of_stops hr, List.append_nil]

theorem dropWhile_append_of_stops (hl : ∀ a ∈ l, p a = true) (hr : Stops (p · = true) r) :
    (l ++ r).dropWhile p = r := by
  rw [List.dropWhile_append_of_pos hl, dropWhile_of_stops hr]

end Leading

/-- No element of `C` follows a `q` inside the list. -/
def PairFree (q : α) (C : α → Prop) (l : List α) : Prop := ∀ c, C c → ¬ [q, c] <:+: l

instance [DecidableEq α] (q c : α) (l : List α) : Decidable (PairFree q (· = c) l) :=
  decidable_of_iff (¬ [q, c] <:+: l) ⟨fun h _ hc => hc ▸ h, fun h => h c rfl⟩

/-- The next element closes a part. -/
def Closed (C : α → Prop) (r : List α) : Prop := ∃ c t, r = c :: t ∧ C c

/-- A part that is longer than another up to the same closing pair would hold that pair. -/
theorem eq_nil_of_append_pair {q : α} {C : α → Prop} (hq : ¬ C q) {m : List α}
    (hfree : PairFree q C (l₁ ++ m)) (hr₁ : Closed C r₁ ∨ r₁.length ≤ r₂.length)
    (h : q :: r₁ = m ++ q :: r₂) : m = [] := by
  rcases hr₁ with ⟨c, t, rfl, hc⟩ | hlen
  · rcases m with - | ⟨a, - | ⟨b, m⟩⟩
    · rfl
    · -- one element too long: the closing element would be the quote itself
      simp only [List.cons_append, List.nil_append, List.cons.injEq] at h
      exact absurd (h.2.1 ▸ hc) hq
    · simp only [List.cons_append, List.cons.injEq] at h
      obtain ⟨rfl, rfl, -⟩ := h
      exact absurd ⟨l₁, m, by simp⟩ (hfree c hc)
  · have htotal := congrArg List.length h
    simp only [List.length_cons, List.length_append] at htotal
    exact List.length_eq_zero_iff.mp (by omega)

/-- **Closing pairs**: a part without closing pairs is determined by the text up to its closing
pair; what follows a part at the end of the text need not close it. -/
theorem append_pair_inj {q : α} {C : α → Prop} (hq : ¬ C q) (h₁ : PairFree q C l₁)
    (h₂ : PairFree q C l₂) (hr₁ : Closed C r₁ ∨ r₁.length ≤ r₂.length)
    (hr₂ : Closed C r₂ ∨ r₂.length ≤ r₁.length)
    (h : l₁ ++ q :: r₁ = l₂ ++ q :: r₂) : l₁ = l₂ ∧ r₁ = r₂ := by
  rcases List.append_eq_append_iff.mp h with ⟨m, rfl, hr⟩ | ⟨m, rfl, hr⟩
  · obtain rfl := eq_nil_of_append_pair hq h₂ hr₁ hr
    simpa using hr
  · obtain rfl := eq_nil_of_append_pair hq h₁ hr₂ hr
    simpa using hr.symm

end Parts

end Text
