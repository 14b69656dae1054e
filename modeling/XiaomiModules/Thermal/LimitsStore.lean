import XiaomiModules.Kernel.Scan
import XiaomiModules.Thermal.Selection

/-!
# Writing to cpu_limits

A write to the attribute is scanned as `cpu%u %u`, or else as `%u %u`, and handed to
`cpu_limits_set_level`. Nothing checks the numbers: each is stored by its residue in 32 bits, and
the bit of the CPU is tested wherever its number points. The bits of a policy are a list of indices
here, which may lie behind the end of the mask.

So a write is validated exactly where it is no text of two numbers, or its numbers happen to be
valid.

## Main definitions

* `scanCpuLimits`, `cpuLimitsStore`: the scan, and the store
* `LimitsText`: the texts of a CPU number and a frequency
* `Validated nrCpuIds w`: what a validating store would do with a write

## Main results

* `scanCpuLimits_eq_some_iff`: the texts that are scanned, and the numbers used for them
* `validated_iff`: when a write is validated
* `reached_of_dvd`: how a huge frequency comes to release a cap
-/

namespace XiaomiModules

open Text (ascii decimalNat)
open Numeral (value)

/-! ## The store -/

/-- The two attempts of `cpu_limits_store` to scan a string, `cpu%u %u` and `%u %u`. -/
def scanCpuLimits (str : List UInt8) : Option (UInt32 × UInt32) :=
  match sscanf [.literal 99, .literal 112, .literal 117, .unsigned, .space, .unsigned] str with
  | [cpu, freq] => some (cpu, freq)
  | _ =>
    match sscanf [.unsigned, .space, .unsigned] str with
    | [cpu, freq] => some (cpu, freq)
    | _ => none

/-- A write to the attribute: the bytes, with the device temperature of the call and the kernel's
answers to its updates. -/
structure LimitsWrite where
  buf : List UInt8
  deviceTemp : Int32
  answers : ℤ × ℤ

/-- The string of the write. -/
def LimitsWrite.string (w : LimitsWrite) : List UInt8 := (CString.ofBytes w.buf).chars

/-- The call that the store makes for the numbers scanned. -/
def LimitsWrite.request (w : LimitsWrite) (cpu freq : UInt32) : Request :=
  ⟨cpu.toNat, freq, w.deviceTemp, w.answers.1, w.answers.2⟩

/-- What a write leads to: the return value, the devices, and the CPU number and the frequency
that reached `cpu_limits_set_level`, if they did. -/
structure StoreOutcome where
  ret : ℤ
  devs : List CpufreqDevice
  reached : Option (UInt32 × UInt32)

/-- `cpu_limits_store(kobj, attr, buf, count)`. -/
def cpuLimitsStore (params : CpuLimits) (devs : List CpufreqDevice) (w : LimitsWrite) :
    StoreOutcome :=
  match scanCpuLimits w.string with
  | none => ⟨-EINVAL, devs, none⟩
  | some (cpu, freq) =>
    if ¬ params.enable then ⟨w.buf.length, devs, none⟩
    else
      -- the result of the call is dropped
      let out := cpuLimitsSetLevel params devs (w.request cpu freq)
      ⟨w.buf.length, out.state, some (cpu, freq)⟩

/-! ## The texts scanned -/

/-- A text of a CPU number and a frequency, with or without `cpu` before it. -/
structure LimitsText where
  named : Bool
  numbers : NumberPair

namespace LimitsText

variable (t : LimitsText)

/-- The text. -/
def bytes : List UInt8 := (if t.named then ascii "cpu" else []) ++ t.numbers.bytes

/-- The CPU number written. -/
def cpu : ℕ := value 10 t.numbers.first

/-- The frequency written. -/
def freq : ℕ := value 10 t.numbers.second

end LimitsText

/-- Without the letters before it, a pair of numbers does not match the first format. -/
theorem sscanf_literal_bytes (fmt : List Directive) (p : NumberPair) :
    sscanf (.literal 99 :: fmt) p.bytes = [] := by
  have hhead : ∀ c r, p.bytes = c :: r → c ≠ 99 := by
    rintro c r h rfl
    obtain ⟨d, ds, hfirst⟩ := List.exists_cons_of_ne_nil p.first_ne_nil
    -- the text starts with white space or a digit, and the first format does with a letter
    cases hlead : p.lead with
    | nil =>
      rw [NumberPair.bytes, hlead, hfirst, List.nil_append, List.cons_append] at h
      have hd := p.isDigit_first d (hfirst ▸ List.mem_cons_self)
      rw [(List.cons.inj h).1] at hd
      exact absurd hd (by decide)
    | cons c lead =>
      rw [NumberPair.bytes, hlead, List.cons_append] at h
      have hc := p.isspace_lead c (hlead ▸ List.mem_cons_self)
      rw [(List.cons.inj h).1] at hc
      exact absurd hc (by decide)
  cases hbytes : p.bytes with
  | nil => rfl
  | cons c r => exact if_neg (hhead c r hbytes)

/-- The letters are matched one by one. -/
theorem sscanf_literals {str : List UInt8} (fmt : List Directive) {x y : UInt32}
    (h : sscanf (.literal 99 :: .literal 112 :: .literal 117 :: fmt) str = [x, y]) :
    ∃ rest, str = ascii "cpu" ++ rest ∧ sscanf fmt rest = [x, y] := by
  rcases str with - | ⟨a, - | ⟨b, - | ⟨c, rest⟩⟩⟩
  · exact absurd h (by simp [sscanf])
  · exact absurd h (by simp [sscanf])
  · exact absurd h (by simp [sscanf])
  · simp only [sscanf] at h
    split_ifs at h with ha hb hc
    refine ⟨rest, ?_, h⟩
    rw [ha, hb, hc]
    rfl

/-- **The texts scanned** are those of a CPU number and a frequency, and each number is used by its
residue. -/
theorem scanCpuLimits_eq_some_iff {str : List UInt8} {cpu freq : UInt32} :
    scanCpuLimits str = some (cpu, freq) ↔
      ∃ t : LimitsText, t.bytes = str ∧ cpu = .ofNat t.cpu ∧ freq = .ofNat t.freq := by
  constructor
  · intro h
    unfold scanCpuLimits at h
    split at h
    · -- the first format has stored two numbers
      rename_i x y hscan
      obtain ⟨rest, rfl, hrest⟩ := sscanf_literals _ hscan
      obtain ⟨p, rfl, rfl, rfl⟩ := sscanf_pair_iff.mp hrest
      obtain ⟨rfl, rfl⟩ := Prod.mk.inj (Option.some.inj h)
      exact ⟨⟨true, p⟩, rfl, rfl, rfl⟩
    · -- otherwise the second is tried
      split at h
      · rename_i x y hscan
        obtain ⟨p, rfl, rfl, rfl⟩ := sscanf_pair_iff.mp hscan
        obtain ⟨rfl, rfl⟩ := Prod.mk.inj (Option.some.inj h)
        exact ⟨⟨false, p⟩, rfl, rfl, rfl⟩
      · exact absurd h.symm (Option.some_ne_none _)
  · rintro ⟨⟨named, p⟩, rfl, rfl, rfl⟩
    cases named with
    | true =>
      have hscan : sscanf [.literal 99, .literal 112, .literal 117, .unsigned, .space, .unsigned]
          (ascii "cpu" ++ p.bytes) = [.ofNat (value 10 p.first), .ofNat (value 10 p.second)] :=
        p.sscanf_bytes
      show scanCpuLimits (ascii "cpu" ++ p.bytes) = _
      rw [scanCpuLimits, hscan]
      rfl
    | false =>
      show scanCpuLimits p.bytes = _
      rw [scanCpuLimits, sscanf_literal_bytes]
      dsimp only
      rw [p.sscanf_bytes]
      rfl

/-! ## Validation -/

variable {params : CpuLimits} {devs : List CpufreqDevice} {w : LimitsWrite}

/-- A text of two numbers is never refused. -/
theorem ret_cpuLimitsStore (t : LimitsText) (h : t.bytes = w.string) :
    (cpuLimitsStore params devs w).ret = w.buf.length := by
  have hscan := scanCpuLimits_eq_some_iff.mpr ⟨t, h, rfl, rfl⟩
  rw [cpuLimitsStore, hscan]
  dsimp only
  split_ifs
  · rfl
  · rfl

/-- What reaches the call was scanned. -/
theorem scan_of_reached {cpu freq : UInt32}
    (h : (cpuLimitsStore params devs w).reached = some (cpu, freq)) :
    scanCpuLimits w.string = some (cpu, freq) := by
  unfold cpuLimitsStore at h
  split at h
  · exact absurd h.symm (Option.some_ne_none _)
  · rename_i hscan
    by_cases henable : params.enable = true
    · rw [if_neg (not_not.mpr henable)] at h
      rw [hscan, ← h]
    · rw [if_pos henable] at h
      exact absurd h.symm (Option.some_ne_none _)

/-- The numbers of the text are those of an existing CPU and of a 32-bit frequency. -/
def LimitsText.Valid (t : LimitsText) (nrCpuIds : UInt32) : Prop :=
  t.cpu < nrCpuIds.toNat ∧ t.freq < 2 ^ 32

instance (t : LimitsText) (nrCpuIds : UInt32) : Decidable (t.Valid nrCpuIds) :=
  inferInstanceAs (Decidable (_ ∧ _))

/-- The write is validated: what reaches `cpu_limits_set_level` is the CPU number and the frequency
of the text, the CPU one below `nr_cpu_ids`, and a text with other numbers is rejected without any
change to the requests. -/
structure Validated (nrCpuIds : UInt32) (params : CpuLimits) (devs : List CpufreqDevice)
    (w : LimitsWrite) : Prop where
  reached : ∀ cpu freq, (cpuLimitsStore params devs w).reached = some (cpu, freq) →
    cpu < nrCpuIds ∧
      ∃ t : LimitsText, t.bytes = w.string ∧ cpu.toNat = t.cpu ∧ freq.toNat = t.freq
  rejected : ∀ t : LimitsText, t.bytes = w.string → ¬ t.Valid nrCpuIds →
    (cpuLimitsStore params devs w).ret = -EINVAL ∧
      (cpuLimitsStore params devs w).devs.map (·.qosReq) = devs.map (·.qosReq)

theorem natCast_ne_neg_EINVAL (n : ℕ) : (n : ℤ) ≠ -EINVAL := by
  unfold EINVAL
  omega

/-- With cpu_limits on, a frequency of a multiple of `2 ^ 32` reaches the call as 0, which releases
the cap instead of setting one. -/
theorem reached_of_dvd {t : LimitsText} (henable : params.enable = true) (h : t.bytes = w.string)
    (hdvd : 2 ^ 32 ∣ t.freq) :
    (cpuLimitsStore params devs w).reached = some (.ofNat t.cpu, 0) := by
  have hzero : UInt32.ofNat t.freq = 0 := by
    rw [← UInt32.toNat_inj, UInt32.toNat_ofNat']
    exact Nat.mod_eq_zero_of_dvd hdvd
  have hscan := scanCpuLimits_eq_some_iff.mpr ⟨t, h, rfl, hzero.symm⟩
  rw [cpuLimitsStore, hscan]
  exact congrArg StoreOutcome.reached (if_neg (not_not.mpr henable))

/-- **Validation**: a write is validated exactly where its text, if it is one of two numbers, has
valid ones. -/
theorem validated_iff (nrCpuIds : UInt32) (params : CpuLimits) (devs : List CpufreqDevice)
    (w : LimitsWrite) :
    Validated nrCpuIds params devs w ↔
      ∀ t : LimitsText, t.bytes = w.string → t.Valid nrCpuIds := by
  constructor
  · intro h t ht
    by_contra hvalid
    -- a text of two numbers is never refused
    obtain ⟨hret, -⟩ := h.rejected t ht hvalid
    rw [ret_cpuLimitsStore t ht] at hret
    exact natCast_ne_neg_EINVAL _ hret
  · intro h
    refine ⟨fun cpu freq hreached => ?_, fun t ht hvalid => absurd (h t ht) hvalid⟩
    obtain ⟨t, ht, rfl, rfl⟩ := scanCpuLimits_eq_some_iff.mp (scan_of_reached hreached)
    obtain ⟨hcpu, hfreq⟩ := h t ht
    -- valid numbers are their own residues
    have htoNat : (UInt32.ofNat t.cpu).toNat = t.cpu :=
      UInt32.toNat_ofNat_of_lt' (hcpu.trans nrCpuIds.toNat_lt)
    have htoNat' : (UInt32.ofNat t.freq).toNat = t.freq := UInt32.toNat_ofNat_of_lt' hfreq
    refine ⟨?_, t, ht, htoNat, htoNat'⟩
    rw [UInt32.lt_iff_toNat_lt, htoNat]
    exact hcpu

/-- The text `"cpu 0 4294967296"`: the frequency is 0 in 32 bits. -/
def hugeText : LimitsText where
  named := true
  numbers :=
    { lead := [32]
      first := [48]
      gap := [32]
      second := decimalNat 4294967296
      rest := []
      isspace_lead := isspace_of_mem_blank
      first_ne_nil := List.cons_ne_nil _ _
      isDigit_first := by simp [Text.IsDigit]
      gap_ne_nil := List.cons_ne_nil _ _
      isspace_gap := isspace_of_mem_blank
      second_ne_nil := Text.decimalNat_ne_nil _
      isDigit_second := fun _ => Text.isDigit_of_mem_decimalNat
      stops_rest := nofun }

/-- A write of a huge frequency is accepted. -/
theorem not_validated_hugeText :
    ¬ ∀ (nrCpuIds : UInt32) (params : CpuLimits) (devs : List CpufreqDevice) (w : LimitsWrite),
      Validated nrCpuIds params devs w := by
  intro h
  have hstring : hugeText.bytes = (⟨hugeText.bytes, 20, 0, 0⟩ : LimitsWrite).string := by decide
  have hhuge : ¬ hugeText.Valid 8 := by
    rintro ⟨-, hfreq⟩
    rw [LimitsText.freq, hugeText, Numeral.value_decimalNat] at hfreq
    exact absurd hfreq (by decide)
  obtain ⟨hret, -⟩ := (h 8 {} [twoLevelDevice] _).rejected hugeText hstring hhuge
  rw [ret_cpuLimitsStore hugeText hstring] at hret
  exact natCast_ne_neg_EINVAL _ hret

end XiaomiModules
