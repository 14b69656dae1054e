import XiaomiModules.Kernel.Numbers

/-!
# Attribute files and module parameters

An attribute is shown by a print into a page, of which the number of characters returned is read. A
write hands a copy of its bytes to the attribute, terminated by a NUL.

A parameter of the type `uint` is set by `kstrtouint` and shown as a decimal numeral on a line of
its own. `kstrtouint` lets one newline end the string, so what is shown can be written back. It
takes its base from the string, so that a number may be given in hexadecimal, too.

## Main definitions

* `shown`, `written`: what is read of an attribute, and the string that it gets from a write
* `kstrtouint`, `unsignedLine`: how a parameter is set, and its text
* `hexNat`, `hexText`: hexadecimal numerals

## Main results

* `shown_scnprintf`: a text that fits is read as it is
* `kstrtouint_unsignedLine`, `simpleStrtol_line`: a number on a line is read back as the number
* `kstrtouint_hexText`: a hexadecimal numeral is read back as the number
-/

namespace XiaomiModules

open Text (ascii IsDigit decimal decimalNat)
open Numeral (digit value)

/-! ## Files -/

/-- What is read of an attribute whose function returned this number, with this page. -/
def shown (out : ℕ × List UInt8) : List UInt8 := out.2.take out.1

/-- `snprintf(buf + off, size, ...)` of the rendering `text`, which returns the length of the
rendering, whether it fits or not. -/
def snprintf (buf : List UInt8) (off size : ℕ) (text : List UInt8) : ℕ × List UInt8 :=
  (text.length, (scnprintf buf off size text).2)

/-- The string of the bytes of a write. -/
def written (bytes : List UInt8) : CString := .ofBytes (bytes ++ [0])

theorem shown_scnprintf {page text : List UInt8} (hpage : page.length = pageSize)
    (htext : text.length < pageSize) : shown (scnprintf page 0 pageSize text) = text := by
  have hfits : text.length ≤ pageSize - 1 := Nat.le_sub_one_of_lt htext
  have hwindow : 0 + pageSize = page.length := (Nat.zero_add _).trans hpage.symm
  have htake := take_scnprintf text (by decide : pageSize ≠ 0) hwindow
  rw [Nat.zero_add, List.take_zero, List.nil_append, List.take_of_length_le hfits,
    ← scnprintf_fst page 0 pageSize text] at htake
  exact htake

theorem snprintf_of_lt {buf text : List UInt8} {off size : ℕ} (h : text.length < size) :
    snprintf buf off size text = scnprintf buf off size text := by
  have hfits : text.length ≤ size - 1 := Nat.le_sub_one_of_lt h
  have hlen := scnprintf_fst buf off size text
  rw [Nat.min_eq_left hfits] at hlen
  rw [snprintf, ← hlen]

theorem chars_written {bytes : List UInt8} (h : 0 ∉ bytes) : (written bytes).chars = bytes := by
  rw [written, CString.ofBytes_append h]

/-! ## Parameters -/

/-- `kstrtouint(s, base, &res)`, with which a parameter is set. -/
def kstrtouint (s : CString) (base : ℕ) : Except ℤ UInt32 := do
  let tmp ← kstrtoull s.chars base
  if (UInt32.ofNat tmp).toNat ≠ tmp then .error (-ERANGE) else .ok (.ofNat tmp)

/-- The text `"%u\n"`, which shows a parameter. -/
def unsignedLine (x : UInt32) : List UInt8 := decimalNat x.toNat ++ [10]

variable {base res : ℕ} {ds : List UInt8}

/-- Base 0 looks at the digits of a line only. -/
theorem parseIntegerFixupRadix_line (hne : ds ≠ []) (hds : ∀ d ∈ ds, IsDigit d) :
    parseIntegerFixupRadix (ds ++ [10]) 0 = (radix ds, ds ++ [10]) := by
  obtain ⟨d, ds, rfl⟩ := List.exists_cons_of_ne_nil hne
  by_cases hd : d = 48
  · subst hd
    rcases ds with - | ⟨x, ds⟩
    · rfl
    have hx : toLower x ≠ 120 := toLower_ne_of_isDigit (hds x (by simp))
    rcases ds with - | ⟨y, ds⟩
    · simp [parseIntegerFixupRadix, radix, hx]
    · simp [parseIntegerFixupRadix, radix, hx]
  · simp [parseIntegerFixupRadix, radix, hd]

/-- Digits of the base are read up to the newline. -/
theorem parseInteger_line (hds : ∀ d ∈ ds, IsDigit d) (hbase : ∀ d ∈ ds, digit d < base) :
    parseInteger base res (ds ++ [10]) =
      (ds.foldl (fun res d => res * base + digit d) res, [10]) := by
  induction ds generalizing res with
  | nil => rfl
  | cons d ds ih =>
    rw [List.cons_append, parseInteger, digitValue_of_isDigit (hds d List.mem_cons_self)]
    dsimp only
    rw [if_pos (hbase d List.mem_cons_self), List.foldl_cons]
    exact ih (fun e he => hds e (List.mem_cons_of_mem _ he))
      fun e he => hbase e (List.mem_cons_of_mem _ he)

/-- A decimal numeral on a line is read as its number. -/
theorem kstrtoull_line {n : ℕ} (h : n < 2 ^ 64) : kstrtoull (decimalNat n ++ [10]) 0 = .ok n := by
  have hne := Text.decimalNat_ne_nil n
  have hds : ∀ d ∈ decimalNat n, IsDigit d := fun d hd => Text.isDigit_of_mem_decimalNat hd
  obtain ⟨hvalue, hradix⟩ := value_radix_decimalNat n
  have hread : kstrtoullDigits (decimalNat n ++ [10]) 0 = .ok n := by
    have hrest : ([10] : List UInt8) ≠ decimalNat n ++ [10] := by
      intro heq
      exact hne (List.self_eq_append_left.mp heq)
    rw [kstrtoullDigits, parseIntegerFixupRadix_line hne hds]
    dsimp only
    rw [parseInteger_line hds hradix, Numeral.foldl_value, hvalue]
    dsimp only
    rw [if_neg (Nat.not_le.mpr h), if_neg hrest, if_pos (Or.inr rfl)]
  -- a numeral has no sign
  obtain ⟨d, ds, heq⟩ := List.exists_cons_of_ne_nil hne
  have hplus := (ne_sign_of_isDigit (hds d (heq ▸ List.mem_cons_self))).2
  rw [heq, List.cons_append] at hread ⊢
  rw [← hread]
  simp [kstrtoull, hplus]

/-- **The text of a parameter** is read back as the parameter. -/
theorem kstrtouint_unsignedLine {s : CString} {x : UInt32} (hs : s.chars = unsignedLine x) :
    kstrtouint s 0 = .ok x := by
  have hx := x.toNat_lt
  have hread : kstrtoull s.chars 0 = .ok x.toNat := by
    rw [hs]
    exact kstrtoull_line (by omega)
  rw [kstrtouint, hread]
  show (if _ then _ else _) = _
  rw [UInt32.ofNat_toNat, if_neg (not_not.mpr rfl)]

theorem length_unsignedLine_le (x : UInt32) : (unsignedLine x).length ≤ 11 := by
  have hlen := Text.length_decimalNat_le (k := 10) (by decide) (x.toNat_lt.trans (by decide))
  rw [unsignedLine, List.length_append, List.length_singleton]
  omega

theorem zero_notMem_unsignedLine (x : UInt32) : 0 ∉ unsignedLine x := by
  intro hmem
  rcases List.mem_append.mp hmem with hmem | hmem
  · exact zero_notMem_decimalNat _ hmem
  · exact absurd (List.mem_singleton.mp hmem) (by decide)

/-- **An integer on a line** is read by `simple_strtol` as its residue. -/
theorem simpleStrtol_line {s : CString} {z : ℤ} (hs : s.chars = decimal z ++ [10]) :
    (simpleStrtol s 10).toInt32 = .ofInt z := by
  have hread : ∀ n, simpleStrtoul (decimalNat n ++ [10]) 10 = .ofNat n := by
    intro n
    have hds : ∀ d ∈ decimalNat n, IsDigit d := fun d hd => Text.isDigit_of_mem_decimalNat hd
    rw [simpleStrtoul, parseIntegerFixupRadix_ten]
    dsimp only
    rw [parseInteger_line hds fun d hd => digit_lt_ten (hds d hd), Numeral.foldl_value,
      Numeral.value_decimalNat]
  cases z with
  | ofNat n =>
    obtain ⟨d, ds, heq⟩ := List.exists_cons_of_ne_nil (Text.decimalNat_ne_nil n)
    have hd : IsDigit d := Text.isDigit_of_mem_decimalNat (heq ▸ List.mem_cons_self)
    have hn := hread n
    rw [decimal, heq, List.cons_append] at hs
    rw [heq, List.cons_append] at hn
    rw [simpleStrtol, hs]
    simp [(ne_sign_of_isDigit hd).1, hn, Int32.ofInt_eq_ofNat]
  | negSucc n =>
    rw [decimal, List.cons_append] at hs
    rw [simpleStrtol, hs]
    simp [hread, Int32.ofInt_eq_ofNat, Int.negSucc_eq, Int32.neg_add, Int32.sub_eq_add_neg,
      Int32.add_comm]

/-! ## Hexadecimal numerals -/

/-- The text `"%x"`. -/
def hexNat (n : ℕ) : List UInt8 := (Nat.toDigits 16 n).map Char.toUInt8

/-- The text `"0x%x"`. -/
def hexText (x : UInt32) : List UInt8 := ascii "0x" ++ hexNat x.toNat

theorem digitValue_digitChar {d : ℕ} (h : d < 16) : digitValue d.digitChar.toUInt8 = some d := by
  interval_cases d
  all_goals rfl

theorem hexNat_of_lt {n : ℕ} (h : n < 16) : hexNat n = [n.digitChar.toUInt8] := by
  rw [hexNat, Nat.toDigits_of_lt_base h, List.map_singleton]

/-- The last digit follows the numeral of the sixteenth. -/
theorem hexNat_of_le {n : ℕ} (h : 16 ≤ n) :
    hexNat n = hexNat (n / 16) ++ [(n % 16).digitChar.toUInt8] := by
  rw [hexNat, Nat.toDigits_of_base_le (by decide) h, List.map_append, List.map_singleton, hexNat]

/-- The digits of a numeral are read one by one, whatever follows them. -/
theorem parseInteger_hexNat (n : ℕ) (rest : List UInt8) :
    parseInteger 16 0 (hexNat n ++ rest) = parseInteger 16 n rest := by
  have hdigit : ∀ {d : ℕ} (res : ℕ) (rest : List UInt8), d < 16 →
      parseInteger 16 res (d.digitChar.toUInt8 :: rest) = parseInteger 16 (res * 16 + d) rest := by
    intro d res rest hd
    rw [parseInteger, digitValue_digitChar hd]
    dsimp only
    rw [if_pos hd]
  induction n using Nat.strongRecOn generalizing rest with
  | ind n ih =>
    rcases Nat.lt_or_ge n 16 with hn | hn
    · rw [hexNat_of_lt hn, List.singleton_append, hdigit 0 _ hn, Nat.zero_mul, Nat.zero_add]
    · rw [hexNat_of_le hn, List.append_assoc, ih (n / 16) (by omega), List.singleton_append,
        hdigit _ _ (Nat.mod_lt n (by decide)), Nat.div_add_mod' n 16]

theorem hexNat_ne_nil (n : ℕ) : hexNat n ≠ [] := by
  simp [hexNat]

theorem isxdigit_of_mem_hexNat {n : ℕ} {d : UInt8} (h : d ∈ hexNat n) : isxdigit d = true := by
  have hlast : ∀ {n : ℕ}, n < 16 → d ∈ [n.digitChar.toUInt8] → isxdigit d = true := by
    intro n hn hmem
    rw [List.mem_singleton.mp hmem, isxdigit, digitValue_digitChar hn]
    rfl
  induction n using Nat.strongRecOn with
  | ind n ih =>
    rcases Nat.lt_or_ge n 16 with hn | hn
    · exact hlast hn (hexNat_of_lt hn ▸ h)
    · rw [hexNat_of_le hn] at h
      rcases List.mem_append.mp h with h | h
      · exact ih (n / 16) (by omega) h
      · exact hlast (Nat.mod_lt n (by decide)) h

theorem zero_notMem_hexText (x : UInt32) : 0 ∉ hexText x := by
  intro hmem
  rcases List.mem_append.mp hmem with hmem | hmem
  · exact absurd hmem (by decide)
  · exact absurd (isxdigit_of_mem_hexNat hmem) (by decide)

/-- **A hexadecimal numeral**, on a line or not, is read back as the number. -/
theorem kstrtouint_hexText {s : CString} {x : UInt32} {tail : List UInt8}
    (hs : s.chars = hexText x ++ tail) (htail : tail = [] ∨ tail = [10]) :
    kstrtouint s 0 = .ok x := by
  have hx := x.toNat_lt
  obtain ⟨d, ds, heq⟩ := List.exists_cons_of_ne_nil (hexNat_ne_nil x.toNat)
  have hd : isxdigit d = true := isxdigit_of_mem_hexNat (heq ▸ List.mem_cons_self)
  have hfixup : parseIntegerFixupRadix (48 :: 120 :: (hexNat x.toNat ++ tail)) 0 =
      (16, hexNat x.toNat ++ tail) := by
    have hlower : toLower 120 = 120 := rfl
    rw [heq, List.cons_append]
    simp [parseIntegerFixupRadix, hlower, hd]
  have hparse : parseInteger 16 0 (hexNat x.toNat ++ tail) = (x.toNat, tail) := by
    rw [parseInteger_hexNat]
    rcases htail with rfl | rfl
    · rfl
    · rfl
  have hrest : tail ≠ hexNat x.toNat ++ tail := by
    intro h
    rw [heq] at h
    exact List.cons_ne_nil d ds (List.self_eq_append_left.mp h)
  have hread : kstrtoull s.chars 0 = .ok x.toNat := by
    have hchars : s.chars = 48 :: 120 :: (hexNat x.toNat ++ tail) := hs
    rw [hchars, kstrtoull]
    · rw [kstrtoullDigits, hfixup]
      dsimp only
      rw [hparse]
      dsimp only
      rw [if_neg (by omega), if_neg hrest, if_pos htail]
    · intro t h
      exact absurd (List.cons.inj h).1 (by decide)
  rw [kstrtouint, hread]
  show (if _ then _ else _) = _
  rw [UInt32.ofNat_toNat, if_neg (not_not.mpr rfl)]

end XiaomiModules
