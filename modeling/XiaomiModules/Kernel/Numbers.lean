import Mathlib.Data.List.DropRight
import XiaomiModules.Kernel.Basic
import XiaomiModules.Library.Numeral

/-!
# Reading numbers and trimming strings

The kernel's conversions of strings to numbers, and `strim`. `kstrtoint` accepts a number only
as the whole string, up to one newline, and reports what it rejects; `simple_strtol` reads what
it can and reports nothing. Base 0 takes a leading 0 for an octal numeral.

A signed numeral is read by both in the same way only up to a point: `kstrtoint` knows the plus
sign and `simple_strtol` does not.

## Main definitions

* `parseInteger`, `kstrtoint s base`, `simpleStrtol s base`: the conversions
* `strim buf`: trimming in place
* `Sign`, `radix ds`: the parts of a signed numeral, and the base that base 0 stands for

## Main results

* `kstrtoint_signed`, `kstrtoint_signed_of_le`: what `kstrtoint` makes of a signed numeral
* `kstrtoint_decimal`: a decimal numeral of an `int` is read back
* `simpleStrtol_signed`: what `simple_strtol` makes of a signed numeral
* `ofBytes_strim`: `strim` in place cuts off the trailing white space only
-/

namespace XiaomiModules

open Text (IsDigit decimal decimalNat)
open Numeral (Sign digit value)

/-! ## Digits -/

/-- `_tolower(c)`. -/
def toLower (c : UInt8) : UInt8 := c ||| 0x20

/-- The number of a hexadecimal digit. -/
def digitValue (c : UInt8) : Option ℕ :=
  if 48 ≤ c ∧ c ≤ 57 then some (c.toNat - 48)
  else if 97 ≤ toLower c ∧ toLower c ≤ 102 then some ((toLower c).toNat - 97 + 10)
  else none

/-- `isxdigit(c)`. -/
def isxdigit (c : UInt8) : Bool := (digitValue c).isSome

/-- `_parse_integer_fixup_radix(s, &base)`: the base, and the string without its prefix. -/
def parseIntegerFixupRadix (s : List UInt8) (base : ℕ) : ℕ × List UInt8 :=
  let base :=
    if base = 0 then
      match s with
      -- the letter of a hexadecimal number counts only before a digit
      | 48 :: x :: d :: _ => if toLower x = 120 ∧ isxdigit d then 16 else 8
      | 48 :: _ => 8
      | _ => 10
    else base
  match s with
  | 48 :: x :: rest => if base = 16 ∧ toLower x = 120 then (base, rest) else (base, s)
  | _ => (base, s)

/-- `_parse_integer(s, base, &res)` behind the number `res`: the number with the leading digits
read, and what follows them. -/
def parseInteger (base : ℕ) (res : ℕ) : List UInt8 → ℕ × List UInt8
  | [] => (res, [])
  | c :: s =>
    match digitValue c with
    | some val => if val < base then parseInteger base (res * base + val) s else (res, c :: s)
    | none => (res, c :: s)

/-- The base that base 0 stands for. -/
def radix (ds : List UInt8) : ℕ := if ds.head? = some 48 then 8 else 10

section Digits

variable {base res : ℕ} {ds : List UInt8}

theorem digitValue_of_isDigit {c : UInt8} (h : IsDigit c) : digitValue c = some (digit c) :=
  if_pos h

theorem digit_lt_ten {c : UInt8} (h : IsDigit c) : digit c < 10 := by
  have := h.2
  rw [digit]
  omega

/-- No digit is taken for the letter of a hexadecimal number. -/
theorem toLower_ne_of_isDigit {c : UInt8} (h : IsDigit c) : toLower c ≠ 120 := by
  obtain ⟨hlow, hhigh⟩ := h
  rw [← UInt8.ofNat_toNat (x := c)]
  generalize c.toNat = n at *
  interval_cases n
  all_goals decide

/-- Base 0 takes a leading 0 for an octal numeral. -/
theorem parseIntegerFixupRadix_zero (hds : ∀ d ∈ ds, IsDigit d) :
    parseIntegerFixupRadix ds 0 = (radix ds, ds) := by
  rcases ds with - | ⟨d, ds⟩
  · rfl
  by_cases hd : d = 48
  · subst hd
    rcases ds with - | ⟨x, ds⟩
    · rfl
    have hx : toLower x ≠ 120 := toLower_ne_of_isDigit (hds x (by simp))
    rcases ds with - | ⟨y, ds⟩
    · simp [parseIntegerFixupRadix, radix]
    · simp [parseIntegerFixupRadix, radix, hx]
  · simp [parseIntegerFixupRadix, radix, hd]

theorem parseIntegerFixupRadix_ten (s : List UInt8) : parseIntegerFixupRadix s 10 = (10, s) := by
  rcases s with - | ⟨d, - | ⟨x, s⟩⟩
  · rfl
  · simp [parseIntegerFixupRadix]
  · by_cases hd : d = 48
    · subst hd
      simp [parseIntegerFixupRadix]
    · simp [parseIntegerFixupRadix, hd]

/-- Digits of the base are read to the end. -/
theorem parseInteger_digits (hds : ∀ d ∈ ds, IsDigit d) (hbase : ∀ d ∈ ds, digit d < base) :
    parseInteger base res ds = (ds.foldl (fun res d => res * base + digit d) res, []) := by
  induction ds generalizing res with
  | nil => rfl
  | cons d ds ih =>
    rw [parseInteger, digitValue_of_isDigit (hds d List.mem_cons_self)]
    dsimp only
    rw [if_pos (hbase d List.mem_cons_self), List.foldl_cons]
    exact ih (fun e he => hds e (List.mem_cons_of_mem _ he))
      fun e he => hbase e (List.mem_cons_of_mem _ he)

/-- Reading stops at a digit that is none of the base. -/
theorem parseInteger_stop (res : ℕ) (hds : ∀ d ∈ ds, IsDigit d)
    (hbase : ∃ d ∈ ds, base ≤ digit d) :
    ∃ d rest, (parseInteger base res ds).2 = d :: rest ∧ IsDigit d := by
  induction ds generalizing res with
  | nil => exact absurd hbase (by simp)
  | cons d ds ih =>
    rw [parseInteger, digitValue_of_isDigit (hds d List.mem_cons_self)]
    dsimp only
    split_ifs with hlt
    · obtain ⟨e, he, hle⟩ := hbase
      rcases List.mem_cons.mp he with rfl | he
      · exact absurd hlt (Nat.not_lt.mpr hle)
      · exact ih _ (fun e he => hds e (List.mem_cons_of_mem _ he)) ⟨e, he, hle⟩
    · exact ⟨d, ds, rfl, hds d List.mem_cons_self⟩

end Digits

/-! ## Conversions -/

/-- `_kstrtoull(s, base, &res)`: an unsigned number without sign, up to one newline. -/
def kstrtoullDigits (s : List UInt8) (base : ℕ) : Except ℤ ℕ :=
  let (base, s) := parseIntegerFixupRadix s base
  let (res, rest) := parseInteger base 0 s
  if 2 ^ 64 ≤ res then .error (-ERANGE)
  else if rest = s then .error (-EINVAL)
  -- one newline may end the string
  else if rest = [] ∨ rest = [10] then .ok res
  else .error (-EINVAL)

/-- `kstrtoull(s, base, &res)`. -/
def kstrtoull (s : List UInt8) (base : ℕ) : Except ℤ ℕ :=
  match s with
  | 43 :: s => kstrtoullDigits s base
  | s => kstrtoullDigits s base

/-- `kstrtoll(s, base, &res)`. -/
def kstrtoll (s : List UInt8) (base : ℕ) : Except ℤ ℤ :=
  match s with
  | 45 :: s => do
    let tmp ← kstrtoullDigits s base
    -- the least number has no positive counterpart
    if 2 ^ 63 < tmp then .error (-ERANGE) else .ok (-tmp)
  | s => do
    let tmp ← kstrtoull s base
    if 2 ^ 63 ≤ tmp then .error (-ERANGE) else .ok tmp

/-- `kstrtoint(s, base, &res)`. -/
def kstrtoint (s : CString) (base : ℕ) : Except ℤ Int32 := do
  let tmp ← kstrtoll s.chars base
  if (Int32.ofInt tmp).toInt ≠ tmp then .error (-ERANGE) else .ok (Int32.ofInt tmp)

/-- `simple_strtoul(cp, NULL, base)`. -/
def simpleStrtoul (cp : List UInt8) (base : ℕ) : UInt64 :=
  let (base, cp) := parseIntegerFixupRadix cp base
  .ofNat (parseInteger base 0 cp).1

/-- `simple_strtol(cp, NULL, base)`. -/
def simpleStrtol (cp : CString) (base : ℕ) : Int64 :=
  match cp.chars with
  | 45 :: rest => -(simpleStrtoul rest base).toInt64
  -- a plus sign is no digit, so the reading ends before it has begun
  | cp => (simpleStrtoul cp base).toInt64

/-- The numbers of an `int`. -/
def IsInt (z : ℤ) : Prop := -2 ^ 31 ≤ z ∧ z < 2 ^ 31

instance (z : ℤ) : Decidable (IsInt z) := inferInstanceAs (Decidable (_ ∧ _))

theorem isInt_toInt (x : Int32) : IsInt x.toInt := ⟨x.le_toInt, x.toInt_lt⟩

theorem toInt_ofInt_eq_iff {z : ℤ} : (Int32.ofInt z).toInt = z ↔ IsInt z :=
  ⟨fun h => h ▸ isInt_toInt _, fun h => Int32.toInt_ofInt_of_le h.1 h.2⟩

section Conversions

variable {ds : List UInt8} {s : CString} {sign : Sign}

/-- Octal and decimal digits are read to the end. -/
theorem kstrtoullDigits_of_lt (hne : ds ≠ []) (hds : ∀ d ∈ ds, IsDigit d)
    (hradix : ∀ d ∈ ds, digit d < radix ds) :
    kstrtoullDigits ds 0 =
      if 2 ^ 64 ≤ value (radix ds) ds then .error (-ERANGE) else .ok (value (radix ds) ds) := by
  rw [kstrtoullDigits, parseIntegerFixupRadix_zero hds]
  dsimp only
  rw [parseInteger_digits hds hradix, Numeral.foldl_value]
  dsimp only
  rw [if_neg hne.symm, if_pos (Or.inl rfl)]

/-- A digit that is no octal one makes a numeral with a leading 0 invalid. -/
theorem kstrtoullDigits_of_le (hds : ∀ d ∈ ds, IsDigit d) (hradix : ∃ d ∈ ds, radix ds ≤ digit d) :
    ∃ err, kstrtoullDigits ds 0 = .error err := by
  obtain ⟨d, rest, hrest, hd⟩ := parseInteger_stop 0 hds hradix
  have hnewline : ¬ (d :: rest = [] ∨ d :: rest = [10]) := by
    rintro (h | h)
    · exact List.cons_ne_nil _ _ h
    · rw [(List.cons.inj h).1] at hd
      exact absurd hd (by decide)
  rw [kstrtoullDigits, parseIntegerFixupRadix_zero hds]
  dsimp only
  rw [hrest, if_neg hnewline]
  split_ifs
  · exact ⟨_, rfl⟩
  · exact ⟨_, rfl⟩
  · exact ⟨_, rfl⟩

/-- A digit is no sign. -/
theorem ne_sign_of_isDigit {c : UInt8} (h : IsDigit c) : c ≠ 45 ∧ c ≠ 43 := by
  constructor
  · rintro rfl
    exact absurd h (by decide)
  · rintro rfl
    exact absurd h (by decide)

/-- The sign decides on the range. -/
theorem kstrtoll_signed (sign : Sign) (hne : ds ≠ []) (hds : ∀ d ∈ ds, IsDigit d) :
    kstrtoll (sign.chars ++ ds) 0 = (kstrtoullDigits ds 0).bind fun tmp =>
      if -2 ^ 63 ≤ sign.apply tmp ∧ sign.apply tmp < 2 ^ 63 then .ok (sign.apply tmp)
      else .error (-ERANGE) := by
  obtain ⟨d, ds, rfl⟩ := List.exists_cons_of_ne_nil hne
  obtain ⟨hminus, hplus⟩ := ne_sign_of_isDigit (hds d List.mem_cons_self)
  cases sign with
  | none =>
    have hread : kstrtoll (d :: ds) 0 = (kstrtoullDigits (d :: ds) 0).bind fun tmp =>
        if 2 ^ 63 ≤ tmp then .error (-ERANGE) else .ok (tmp : ℤ) := by
      simp [kstrtoll, kstrtoull, hminus, hplus]
      rfl
    rw [Sign.chars, List.nil_append, hread]
    refine congrArg (Except.bind _) (funext fun tmp => ?_)
    exact (ite_not _ _ _).symm.trans (if_congr (by simp only [Sign.apply]; omega) rfl rfl)
  | minus =>
    refine congrArg (Except.bind _) (funext fun tmp => ?_)
    exact (ite_not _ _ _).symm.trans (if_congr (by simp only [Sign.apply]; omega) rfl rfl)
  | plus =>
    refine congrArg (Except.bind _) (funext fun tmp => ?_)
    exact (ite_not _ _ _).symm.trans (if_congr (by simp only [Sign.apply]; omega) rfl rfl)

/-- **What `kstrtoint` reads**: the number that the digits denote in the base, where it is an
`int`. -/
theorem kstrtoint_signed (hs : s.chars = sign.chars ++ ds) (hne : ds ≠ [])
    (hds : ∀ d ∈ ds, IsDigit d) (hradix : ∀ d ∈ ds, digit d < radix ds) :
    kstrtoint s 0 =
      if IsInt (sign.apply (value (radix ds) ds)) then
        .ok (.ofInt (sign.apply (value (radix ds) ds)))
      else .error (-ERANGE) := by
  set magnitude := value (radix ds) ds with hmagnitude
  rw [kstrtoint, hs, kstrtoll_signed sign hne hds, kstrtoullDigits_of_lt hne hds hradix,
    ← hmagnitude]
  have habs : (sign.apply magnitude).natAbs = magnitude := Sign.natAbs_apply sign magnitude
  by_cases hint : IsInt (sign.apply magnitude)
  · have hrange := hint
    rw [IsInt] at hrange
    -- the number fits an int, so it passes the checks of the two wider types
    have hread : ¬ 2 ^ 64 ≤ magnitude := by omega
    have hlong : -2 ^ 63 ≤ sign.apply magnitude ∧ sign.apply magnitude < 2 ^ 63 := by omega
    rw [if_neg hread, if_pos hint]
    show ((if _ then _ else _ : Except ℤ ℤ).bind _) = _
    rw [if_pos hlong]
    show (if _ then _ else _) = _
    rw [if_neg (not_not_intro (toInt_ofInt_eq_iff.mpr hint))]
  · rw [if_neg hint]
    split_ifs with hread
    · rfl
    -- the error is the same whichever type is too narrow
    show ((if _ then _ else _ : Except ℤ ℤ).bind _) = _
    split_ifs with hlong
    · show (if _ then _ else _) = _
      rw [if_pos fun h => hint (toInt_ofInt_eq_iff.mp h)]
    · rfl

/-- A numeral with a leading 0 and a digit that is no octal one is rejected. -/
theorem kstrtoint_signed_of_le (hs : s.chars = sign.chars ++ ds) (hne : ds ≠ [])
    (hds : ∀ d ∈ ds, IsDigit d) (hradix : ∃ d ∈ ds, radix ds ≤ digit d) :
    ∃ err, kstrtoint s 0 = .error err := by
  obtain ⟨err, herr⟩ := kstrtoullDigits_of_le hds hradix
  refine ⟨err, ?_⟩
  rw [kstrtoint, hs, kstrtoll_signed sign hne hds, herr]
  rfl

/-- A magnitude that is no greater gives an `int` as well. -/
theorem IsInt.apply_of_le {m n : ℕ} (h : IsInt (sign.apply n)) (hle : m ≤ n) :
    IsInt (sign.apply m) := by
  rw [IsInt] at h ⊢
  cases sign with
  | none | minus | plus =>
    simp only [Sign.apply] at h ⊢
    omega

/-- **The decimal reading**: base 0 gives it exactly where there is no leading 0, or the number
has one octal digit. -/
theorem kstrtoint_eq_ok_iff (hs : s.chars = sign.chars ++ ds) (hne : ds ≠ [])
    (hds : ∀ d ∈ ds, IsDigit d) (hint : IsInt (sign.apply (value 10 ds))) :
    kstrtoint s 0 = .ok (.ofInt (sign.apply (value 10 ds))) ↔
      ds.head? ≠ some 48 ∨ value 10 ds ≤ 7 := by
  by_cases hhead : ds.head? = some 48
  · have hradix : radix ds = 8 := if_pos hhead
    rw [or_iff_right (not_not_intro hhead)]
    by_cases hoctal : ∀ d ∈ ds, digit d < radix ds
    · -- the octal number is no greater than the decimal one, so it is in range as well
      rw [kstrtoint_signed hs hne hds hoctal, hradix]
      rw [hradix] at hoctal
      have hint8 : IsInt (sign.apply (value 8 ds)) :=
        hint.apply_of_le (Numeral.value_le_value (by decide) ds)
      have hinj : Int32.ofInt (sign.apply (value 8 ds)) = .ofInt (sign.apply (value 10 ds)) ↔
          value 8 ds = value 10 ds := by
        rw [← sign.apply_inj, ← Int32.toInt_inj, toInt_ofInt_eq_iff.mpr hint8,
          toInt_ofInt_eq_iff.mpr hint]
      rw [if_pos hint8, Except.ok.injEq, hinj,
        Numeral.value_eq_value_iff (by decide) (by decide) hoctal, Nat.lt_succ_iff]
    · -- a digit 8 or 9 is rejected, and makes the number that large
      have hstop : ∃ d ∈ ds, radix ds ≤ digit d := by
        push Not at hoctal
        exact hoctal
      obtain ⟨err, herr⟩ := kstrtoint_signed_of_le hs hne hds hstop
      obtain ⟨d, hd, hle⟩ := hstop
      have hlarge : radix ds ≤ value 10 ds :=
        hle.trans (Numeral.digit_le_value (by decide) hd)
      rw [hradix] at hlarge
      rw [herr]
      exact iff_of_false nofun (by omega)
  · have hradix : radix ds = 10 := if_neg hhead
    -- without a zero in front the base is 10, and every digit is one of it
    have hdecimal : ∀ d ∈ ds, digit d < radix ds := fun d hd => hradix ▸ digit_lt_ten (hds d hd)
    rw [kstrtoint_signed hs hne hds hdecimal, hradix, if_pos hint]
    exact iff_of_true rfl (Or.inl hhead)

/-- A decimal numeral has no leading 0 but that of zero itself. -/
theorem value_radix_decimalNat (n : ℕ) :
    value (radix (decimalNat n)) (decimalNat n) = n ∧
      ∀ d ∈ decimalNat n, digit d < radix (decimalNat n) := by
  by_cases hhead : (decimalNat n).head? = some 48
  · obtain rfl := Numeral.eq_zero_of_head?_decimalNat hhead
    refine ⟨rfl, fun d hd => ?_⟩
    rw [List.mem_singleton.mp (hd : d ∈ [48])]
    decide
  · rw [radix, if_neg hhead]
    exact ⟨Numeral.value_decimalNat n, fun d hd => digit_lt_ten (Text.isDigit_of_mem_decimalNat hd)⟩

/-- **Decimal numerals** are read back where they are numbers of an `int`. -/
theorem kstrtoint_decimal {z : ℤ} (hs : s.chars = decimal z) :
    kstrtoint s 0 = if IsInt z then .ok (.ofInt z) else .error (-ERANGE) := by
  obtain ⟨sign, hdecimal, happly⟩ := Numeral.exists_sign_decimal z
  obtain ⟨hvalue, hradix⟩ := value_radix_decimalNat z.natAbs
  rw [kstrtoint_signed (hs.trans hdecimal) (Text.decimalNat_ne_nil _)
    (fun d hd => Text.isDigit_of_mem_decimalNat hd) hradix, hvalue, happly]

/-- What `simple_strtol` reads: it does not know the plus sign. -/
theorem simpleStrtol_signed (hs : s.chars = sign.chars ++ ds) (hne : ds ≠ [])
    (hds : ∀ d ∈ ds, IsDigit d) :
    (simpleStrtol s 10).toInt32 =
      if sign = .plus then 0 else .ofInt (sign.apply (value 10 ds)) := by
  have hread : simpleStrtoul ds 10 = .ofNat (value 10 ds) := by
    rw [simpleStrtoul, parseIntegerFixupRadix_ten]
    dsimp only
    rw [parseInteger_digits hds fun d hd => digit_lt_ten (hds d hd), Numeral.foldl_value]
  obtain ⟨d, ds, rfl⟩ := List.exists_cons_of_ne_nil hne
  cases sign with
  | none =>
    have hd := (ne_sign_of_isDigit (hds d List.mem_cons_self)).1
    rw [simpleStrtol, hs]
    simp [Sign.chars, Sign.apply, hd, hread, Int32.ofInt_eq_ofNat]
  | minus =>
    rw [simpleStrtol, hs]
    simp [Sign.chars, Sign.apply, hread, Int32.ofInt_eq_ofNat]
  | plus =>
    rw [simpleStrtol, hs]
    rfl

end Conversions

/-! ## Trimming -/

/-- `isspace(c)`. -/
def isspace (c : UInt8) : Bool := (9 ≤ c && c ≤ 13) || c == 32 || c == 160

theorem isspace_of_mem_blank : ∀ c ∈ ([32] : List UInt8), isspace c = true :=
  List.forall_mem_singleton.mpr rfl

/-- A digit is no white space. -/
theorem not_isspace_of_isDigit {c : UInt8} (h : IsDigit c) : ¬ isspace c = true := by
  obtain ⟨hlow, hhigh⟩ := h
  rw [← UInt8.ofNat_toNat (x := c)]
  generalize c.toNat = n at *
  interval_cases n
  all_goals decide

/-- `strim(s)` on the buffer of `s`: trailing white space is cut off in place, and the offset of
the first character that is no white space is returned. -/
def strim (buf : List UInt8) : ℕ × List UInt8 :=
  let s := (CString.ofBytes buf).chars
  if s = [] then (0, buf)
  else
    -- the terminator is moved to behind the last character that is no white space
    let kept := s.rdropWhile isspace
    ((kept.takeWhile isspace).length, buf.set kept.length 0)

section Strim

variable {buf : List UInt8}

theorem length_strim (buf : List UInt8) : (strim buf).2.length = buf.length := by
  unfold strim
  dsimp only
  split_ifs
  · rfl
  · exact List.length_set

/-- The string of a terminated buffer ends before the buffer does. -/
theorem length_ofBytes_lt (h : 0 ∈ buf) : (CString.ofBytes buf).chars.length < buf.length := by
  refine lt_of_le_of_ne (List.takeWhile_prefix _).length_le fun hlen => ?_
  have hall : (CString.ofBytes buf).chars = buf := (List.takeWhile_prefix _).eq_of_length hlen
  exact (CString.ofBytes buf).nul_notMem (hall.symm ▸ h)

/-- What is kept of the string ends before the buffer does. -/
theorem length_rdropWhile_lt (h : 0 ∈ buf) :
    ((CString.ofBytes buf).chars.rdropWhile isspace).length < buf.length :=
  (List.rdropWhile_prefix _ _).length_le.trans_lt (length_ofBytes_lt h)

/-- **Trimming in place** cuts off the trailing white space, and no leading one. -/
theorem ofBytes_strim (h : 0 ∈ buf) :
    (CString.ofBytes (strim buf).2).chars = (CString.ofBytes buf).chars.rdropWhile isspace := by
  unfold strim
  dsimp only
  split_ifs with hs
  · rw [hs, List.rdropWhile_nil]
  set kept := (CString.ofBytes buf).chars.rdropWhile isspace with hkept
  have hpre : kept <+: (CString.ofBytes buf).chars := List.rdropWhile_prefix _ _
  have htake : buf.take kept.length = kept :=
    (List.prefix_iff_eq_take.mp (hpre.trans (List.takeWhile_prefix _))).symm
  have hnul : 0 ∉ kept := fun hmem => (CString.ofBytes buf).nul_notMem (hpre.mem hmem)
  rw [List.set_eq_take_append_cons_drop, if_pos (length_rdropWhile_lt h), htake,
    CString.ofBytes_append hnul]

theorem zero_mem_strim (h : 0 ∈ buf) : 0 ∈ (strim buf).2 := by
  unfold strim
  dsimp only
  split_ifs
  · exact h
  · exact List.mem_set (length_rdropWhile_lt h) 0

/-- White space behind a character that is none is all that is cut off. -/
theorem rdropWhile_isspace {chars trail : List UInt8}
    (hlast : ∀ hne : chars ≠ [], ¬ isspace (chars.getLast hne) = true)
    (htrail : ∀ c ∈ trail, isspace c = true) :
    (chars ++ trail).rdropWhile isspace = chars :=
  calc (chars ++ trail).rdropWhile isspace
      = chars.rdropWhile isspace := by
        rw [List.rdropWhile, List.reverse_append,
          List.dropWhile_append_of_pos fun c hc => htrail c (List.mem_reverse.mp hc)]
        rfl
    _ = chars := List.rdropWhile_eq_self_iff.mpr hlast

end Strim

end XiaomiModules
