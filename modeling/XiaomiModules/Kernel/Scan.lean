import XiaomiModules.Kernel.Numbers

/-!
# Scanning numbers

`sscanf` walks a format along a string and stores a number for each `%u` it gets to. A number is
read in 64 bits and stored in 32, and nothing tells the caller that it did not fit.

A pair of numbers is scanned exactly from the texts made of white space, digits, white space that
is not empty, and digits, whatever follows.

## Main definitions

* `Directive`, `sscanf fmt str`: formats, and the numbers stored
* `NumberPair`: the texts of two numbers

## Main results

* `sscanf_unsigned`: what `%u` reads
* `sscanf_pair_iff`: the texts from which two numbers are scanned, and the numbers stored
-/

namespace XiaomiModules

open Text (IsDigit Stops)
open Numeral (digit value)

/-- The directives of a format: white space, a character that has to match, and `%u`. -/
inductive Directive
  | space
  | literal (c : UInt8)
  | unsigned
deriving DecidableEq

/-- `isdigit(c)`. -/
def isdigit (c : UInt8) : Bool := decide (IsDigit c)

/-- `skip_spaces(str)`. -/
def skipSpaces (str : List UInt8) : List UInt8 := str.dropWhile isspace

/-- `simple_strtoull(cp, &endp, base)`: the number in 64 bits, and what follows it. -/
def simpleStrtoull (cp : List UInt8) (base : ℕ) : UInt64 × List UInt8 :=
  let (base, cp) := parseIntegerFixupRadix cp base
  let (res, rest) := parseInteger base 0 cp
  (.ofNat res, rest)

/-- `sscanf(str, fmt, ...)`: the numbers stored, which the return value counts. -/
def sscanf : List Directive → List UInt8 → List UInt32
  | [], _ => []
  -- white space in the format matches any amount of it, none included
  | .space :: fmt, str => sscanf fmt (skipSpaces str)
  | .literal c :: fmt, str =>
    match str with
    | d :: str => if d = c then sscanf fmt str else []
    | [] => []
  | .unsigned :: fmt, str =>
    match skipSpaces str with
    | d :: str =>
      if isdigit d then
        let (val, next) := simpleStrtoull (d :: str) 10
        val.toUInt32 :: sscanf fmt next
      else []
    | [] => []

/-! ## One number -/

section Unsigned

variable {c : UInt8} {s : List UInt8}

theorem isdigit_iff : isdigit c = true ↔ IsDigit c := decide_eq_true_iff

/-- What is read as a hexadecimal digit only is none of base 10. -/
theorem ten_le_of_digitValue {val : ℕ} (hc : ¬ IsDigit c) (h : digitValue c = some val) :
    10 ≤ val := by
  have hnot : ¬ (48 ≤ c ∧ c ≤ 57) := hc
  rw [digitValue, if_neg hnot] at h
  split_ifs at h
  rw [← Option.some.inj h]
  exact Nat.le_add_left _ _

/-- In base 10 the leading digits are read. -/
theorem parseInteger_ten (res : ℕ) (s : List UInt8) :
    parseInteger 10 res s =
      ((s.takeWhile isdigit).foldl (fun res d => res * 10 + digit d) res,
        s.dropWhile isdigit) := by
  induction s generalizing res with
  | nil => rfl
  | cons c s ih =>
    by_cases hc : IsDigit c
    · rw [parseInteger, digitValue_of_isDigit hc]
      dsimp only
      rw [if_pos (digit_lt_ten hc), ih, List.takeWhile_cons_of_pos (isdigit_iff.mpr hc),
        List.dropWhile_cons_of_pos (isdigit_iff.mpr hc), List.foldl_cons]
    · rw [List.takeWhile_cons_of_neg (isdigit_iff.not.mpr hc),
        List.dropWhile_cons_of_neg (isdigit_iff.not.mpr hc), parseInteger]
      cases hval : digitValue c with
      | none => rfl
      | some val => exact if_neg (Nat.not_lt.mpr (ten_le_of_digitValue hc hval))

theorem simpleStrtoull_ten (s : List UInt8) :
    simpleStrtoull s 10 =
      (.ofNat (value 10 (s.takeWhile isdigit)), s.dropWhile isdigit) := by
  rw [simpleStrtoull, parseIntegerFixupRadix_ten]
  dsimp only
  rw [parseInteger_ten, Numeral.foldl_value]

/-- A number stored in 32 bits is its residue. -/
theorem toUInt32_ofNat (n : ℕ) : (UInt64.ofNat n).toUInt32 = UInt32.ofNat n := by
  rw [← UInt32.toNat_inj, UInt64.toNat_toUInt32, UInt64.toNat_ofNat', UInt32.toNat_ofNat']
  exact Nat.mod_mod_of_dvd n (by decide)

/-- **What `%u` reads**: the digits behind the white space, if there are any. -/
theorem sscanf_unsigned (fmt : List Directive) (str : List UInt8) :
    sscanf (.unsigned :: fmt) str =
      if (skipSpaces str).takeWhile isdigit = [] then []
      else .ofNat (value 10 ((skipSpaces str).takeWhile isdigit)) ::
        sscanf fmt ((skipSpaces str).dropWhile isdigit) := by
  rw [sscanf]
  cases skipSpaces str with
  | nil => rfl
  | cons d s =>
    dsimp only
    by_cases hd : IsDigit d
    · have hcons : (d :: s).takeWhile isdigit ≠ [] := by
        rw [List.takeWhile_cons_of_pos (isdigit_iff.mpr hd)]
        exact List.cons_ne_nil _ _
      rw [if_pos (isdigit_iff.mpr hd), if_neg hcons, simpleStrtoull_ten]
      dsimp only
      rw [toUInt32_ofNat]
    · rw [if_neg (isdigit_iff.not.mpr hd), List.takeWhile_cons_of_neg (isdigit_iff.not.mpr hd),
        if_pos rfl]

end Unsigned

/-! ## Two numbers -/

/-- A text of two numbers with white space between them. -/
structure NumberPair where
  lead : List UInt8
  first : List UInt8
  gap : List UInt8
  second : List UInt8
  rest : List UInt8
  isspace_lead : ∀ c ∈ lead, isspace c = true
  first_ne_nil : first ≠ []
  isDigit_first : ∀ d ∈ first, IsDigit d
  gap_ne_nil : gap ≠ []
  isspace_gap : ∀ c ∈ gap, isspace c = true
  second_ne_nil : second ≠ []
  isDigit_second : ∀ d ∈ second, IsDigit d
  stops_rest : Stops IsDigit rest

/-- The text. -/
def NumberPair.bytes (w : NumberPair) : List UInt8 :=
  w.lead ++ (w.first ++ (w.gap ++ (w.second ++ w.rest)))

/-- Digits start no white space. -/
theorem stops_isspace_append {ds rest : List UInt8} (hne : ds ≠ []) (hds : ∀ d ∈ ds, IsDigit d) :
    Stops (isspace · = true) (ds ++ rest) := by
  obtain ⟨d, ds, rfl⟩ := List.exists_cons_of_ne_nil hne
  exact Text.stops_cons (not_isspace_of_isDigit (hds d List.mem_cons_self))

/-- White space starts no digits. -/
theorem stops_isDigit_append {gap rest : List UInt8} (hne : gap ≠ [])
    (hgap : ∀ c ∈ gap, isspace c = true) : Stops IsDigit (gap ++ rest) := by
  obtain ⟨c, gap, rfl⟩ := List.exists_cons_of_ne_nil hne
  exact Text.stops_cons fun hc => not_isspace_of_isDigit hc (hgap c List.mem_cons_self)

/-- White space, digits and what stops them are read as such. -/
theorem sscanf_unsigned_append (fmt : List Directive) {lead ds rest : List UInt8}
    (hlead : ∀ c ∈ lead, isspace c = true) (hne : ds ≠ []) (hds : ∀ d ∈ ds, IsDigit d)
    (hrest : Stops IsDigit rest) :
    sscanf (.unsigned :: fmt) (lead ++ (ds ++ rest)) =
      .ofNat (value 10 ds) :: sscanf fmt rest := by
  have hdrop : skipSpaces (lead ++ (ds ++ rest)) = ds ++ rest :=
    Text.dropWhile_append_of_stops hlead (stops_isspace_append hne hds)
  have hstops : Stops (isdigit · = true) rest := fun d t ht hd => hrest d t ht (isdigit_iff.mp hd)
  have htake : (ds ++ rest).takeWhile isdigit = ds :=
    Text.takeWhile_append_of_stops (fun d hd => isdigit_iff.mpr (hds d hd)) hstops
  have hnext : (ds ++ rest).dropWhile isdigit = rest :=
    Text.dropWhile_append_of_stops (fun d hd => isdigit_iff.mpr (hds d hd)) hstops
  rw [sscanf_unsigned, hdrop, htake, hnext, if_neg hne]

theorem NumberPair.sscanf_bytes (w : NumberPair) :
    sscanf [.unsigned, .space, .unsigned] w.bytes =
      [.ofNat (value 10 w.first), .ofNat (value 10 w.second)] := by
  have hgap : skipSpaces (w.gap ++ (w.second ++ w.rest)) = w.second ++ w.rest :=
    Text.dropWhile_append_of_stops w.isspace_gap
      (stops_isspace_append w.second_ne_nil w.isDigit_second)
  have hsecond : sscanf [.unsigned] ([] ++ (w.second ++ w.rest)) =
      .ofNat (value 10 w.second) :: sscanf [] w.rest :=
    sscanf_unsigned_append [] nofun w.second_ne_nil w.isDigit_second w.stops_rest
  rw [bytes, sscanf_unsigned_append _ w.isspace_lead w.first_ne_nil w.isDigit_first
    (stops_isDigit_append w.gap_ne_nil w.isspace_gap), sscanf, hgap]
  exact congrArg _ hsecond

/-- **The texts of two numbers** are those that are scanned completely, and each number is stored
by its residue. -/
theorem sscanf_pair_iff {str : List UInt8} {x y : UInt32} :
    sscanf [.unsigned, .space, .unsigned] str = [x, y] ↔
      ∃ w : NumberPair, w.bytes = str ∧ x = .ofNat (value 10 w.first) ∧
        y = .ofNat (value 10 w.second) := by
  constructor
  · intro h
    set s := skipSpaces str with hs
    set t := s.dropWhile isdigit with ht
    set u := skipSpaces t with hu
    rw [sscanf_unsigned, ← hs, ← ht] at h
    split_ifs at h with hfirst
    obtain ⟨hx, h⟩ := List.cons.inj h
    -- the white space of the format has skipped what `%u` would
    have hskip : skipSpaces u = u := Text.dropWhile_of_stops (Text.stops_dropWhile isspace t)
    rw [sscanf, ← hu, sscanf_unsigned, hskip] at h
    split_ifs at h with hsecond
    have hgap : t.takeWhile isspace ≠ [] := by
      intro hnil
      -- the second number would start where the digits of the first end
      have hut : u = t := by
        have hsplit : t.takeWhile isspace ++ u = t := List.takeWhile_append_dropWhile
        rwa [hnil, List.nil_append] at hsplit
      refine hsecond ?_
      rw [hut, ht]
      exact Text.takeWhile_of_stops (Text.stops_dropWhile _ s)
    have hbytes : str.takeWhile isspace ++ (s.takeWhile isdigit ++ (t.takeWhile isspace ++
        (u.takeWhile isdigit ++ u.dropWhile isdigit))) = str := by
      have hsplit : t.takeWhile isspace ++ u = t := List.takeWhile_append_dropWhile
      have hsplit' : str.takeWhile isspace ++ s = str := List.takeWhile_append_dropWhile
      rw [List.takeWhile_append_dropWhile, hsplit, List.takeWhile_append_dropWhile, hsplit']
    refine ⟨⟨str.takeWhile isspace, s.takeWhile isdigit, t.takeWhile isspace, u.takeWhile isdigit,
      u.dropWhile isdigit, ?_, hfirst, ?_, hgap, ?_, hsecond, ?_, ?_⟩, hbytes, hx.symm,
      (List.cons.inj h).1.symm⟩
    · exact fun c hc => List.mem_takeWhile_imp hc
    · exact fun d hd => isdigit_iff.mp (List.mem_takeWhile_imp hd)
    · exact fun c hc => List.mem_takeWhile_imp hc
    · exact fun d hd => isdigit_iff.mp (List.mem_takeWhile_imp hd)
    · exact fun d r hr hd => Text.stops_dropWhile isdigit u d r hr (isdigit_iff.mpr hd)
  · rintro ⟨w, rfl, rfl, rfl⟩
    exact w.sscanf_bytes

end XiaomiModules
