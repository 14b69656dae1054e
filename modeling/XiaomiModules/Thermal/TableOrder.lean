import Mathlib.Data.Finset.Sort
import XiaomiModules.Thermal.Words

/-!
# The order of the frequency table

The search of `find_next_max` takes the greatest frequency below the last one, so the table of a
device is the set of its policy's frequencies in falling order, with zeros behind them for the
entries that the policy repeats. This holds of the loop on the allocated words, whatever the
allocation left in them.

## Main definitions

* `frequencies`: the frequencies of a policy's table, as a set without 0
* `Filled`: the table a device should have

## Main results

* `fillFreqTable_eq_sort`: the loop sorts the frequencies and fills up with zeros
* `filled_initCpufreqDevice`: every table filled is as it should be
-/

namespace XiaomiModules

/-- The frequencies of a policy's table: what is marked invalid is no frequency, and neither is
0. -/
def frequencies (table : List UInt32) : Finset UInt32 := (validEntries table).toFinset.erase 0

variable {table : List UInt32}

theorem mem_frequencies {frequency : UInt32} :
    frequency ∈ frequencies table ↔ frequency ∈ validEntries table ∧ frequency ≠ 0 := by
  rw [frequencies, Finset.mem_erase, List.mem_toFinset, and_comm]

/-- All frequencies are below `UINT_MAX`, where the search starts. -/
theorem distinctBelow_uintMax (table : List UInt32) :
    distinctBelow table uintMax = frequencies table := by
  ext frequency
  rw [mem_distinctBelow, mem_frequencies]
  constructor
  · rintro ⟨hmem, hpos, -⟩
    exact ⟨hmem, hpos.ne'⟩
  · rintro ⟨hmem, hne⟩
    exact ⟨hmem, lt_of_le_of_ne (Nat.zero_le _) hne.symm, lt_uintMax_of_mem hmem⟩

/-- Once the search has found nothing, it finds nothing more. -/
theorem fillFreqTable_zero (table : List UInt32) (count : ℕ) :
    fillFreqTable table count 0 = List.replicate count 0 := by
  induction count with
  | zero => rfl
  | succ count ih =>
    have hzero : findNextMax table 0 = 0 := le_antisymm (findNextMax_le table 0) (Nat.zero_le _)
    rw [fillFreqTable, List.replicate_succ, hzero, ih]

/-- **The loop sorts**: with an entry for each frequency below the bound, it puts these in falling
order and zeros behind them. -/
theorem fillFreqTable_eq_sort {count : ℕ} {freq : UInt32}
    (hcount : (distinctBelow table freq).card ≤ count) :
    fillFreqTable table count freq = (distinctBelow table freq).sort (· ≥ ·) ++
      List.replicate (count - (distinctBelow table freq).card) 0 := by
  induction count generalizing freq with
  | zero =>
    rw [Nat.le_zero, Finset.card_eq_zero] at hcount
    rw [hcount, Finset.sort_empty]
    rfl
  | succ count ih =>
    by_cases hzero : findNextMax table freq = 0
    · -- nothing is left: this entry and all behind it are 0
      rw [distinctBelow_eq_empty hzero, Finset.sort_empty, Finset.card_empty, fillFreqTable,
        hzero, fillFreqTable_zero]
      rfl
    · -- the entry is the greatest one left, and the rest of the loop sorts those below it
      have hcard := card_distinctBelow hzero
      have hrest : (distinctBelow table (findNextMax table freq)).card ≤ count := by omega
      have hgreatest : ∀ frequency ∈ distinctBelow table (findNextMax table freq),
          findNextMax table freq ≥ frequency := by
        intro frequency hmem
        exact (mem_distinctBelow.mp hmem).2.2.le
      have hnew : findNextMax table freq ∉ distinctBelow table (findNextMax table freq) := by
        intro hmem
        exact lt_irrefl _ (mem_distinctBelow.mp hmem).2.2
      rw [hcard, Nat.add_sub_add_right, distinctBelow_eq_insert hzero,
        Finset.sort_insert _ hgreatest hnew, fillFreqTable, List.cons_append, ih hrest]

/-- The table filled from the policy's table: the frequencies first, falling strictly, then zeros.
It never rises, and begins with the greatest valid entry. -/
structure Filled (table filled : List UInt32) : Prop where
  length_eq : filled.length = countValidEntries table
  mem_take_iff : ∀ frequency, frequency ∈ filled.take (frequencies table).card ↔
    frequency ∈ validEntries table ∧ frequency ≠ 0
  take_falling : (filled.take (frequencies table).card).Pairwise (· > ·)
  drop_eq_zero : ∀ entry ∈ filled.drop (frequencies table).card, entry = 0
  nonIncreasing : Descending.NonIncreasing filled
  head_eq : filled.head? = (validEntries table).max?

/-- The first entry is the greatest valid one. -/
theorem head?_fillFreqTable (table : List UInt32) :
    (fillFreqTable table (countValidEntries table) uintMax).head? = (validEntries table).max? := by
  by_cases hcount : countValidEntries table = 0
  · rw [hcount, List.length_eq_zero_iff.mp hcount]
    rfl
  have hpos := Nat.pos_of_ne_zero hcount
  rw [List.head?_eq_getElem?, CpufreqDevice.head_fillFreqTable table hpos, max?_validEntries hpos]

theorem Filled.of_fillFreqTable (table : List UInt32) :
    Filled table (fillFreqTable table (countValidEntries table) uintMax) := by
  have hcount : (frequencies table).card ≤ countValidEntries table := by
    rw [← distinctBelow_uintMax]
    exact distinctCount_le table
  have hsort := fillFreqTable_eq_sort (distinctBelow_uintMax table ▸ hcount)
  rw [distinctBelow_uintMax] at hsort
  have hlen : ((frequencies table).sort (· ≥ ·)).length = (frequencies table).card :=
    Finset.length_sort _
  -- the entries in front are the sorted frequencies, and the rest is padding
  have htake : (fillFreqTable table (countValidEntries table) uintMax).take
      (frequencies table).card = (frequencies table).sort (· ≥ ·) := by
    rw [hsort, List.take_left' hlen]
  refine ⟨length_fillFreqTable _ _ _, fun frequency => ?_, ?_, fun entry hmem => ?_,
    nonIncreasing_fillFreqTable _ _ _, head?_fillFreqTable table⟩
  · rw [htake, Finset.mem_sort, mem_frequencies]
  · rw [htake]
    exact (frequencies table).sortedGT_sort.pairwise
  · rw [hsort, List.drop_left' hlen] at hmem
    exact List.eq_of_mem_replicate hmem

/-- **The frequency table**: whatever the policy's table holds, the loop fills its own with the
frequencies in strictly falling order and zeros behind them; and so it does on the words allocated
for a policy with valid entries. -/
theorem filled_initCpufreqDevice (table : List UInt32) :
    Filled table (fillFreqTable table (countValidEntries table) uintMax) ∧
      ∀ (heap : ℕ → UInt32) (cpu : ℕ) (policy : CpufreqPolicy), policy.freqTable = table →
        0 < countValidEntries table →
        Filled table (Words.initCpufreqDevice heap cpu policy).1.freqTable := by
  refine ⟨Filled.of_fillFreqTable table, ?_⟩
  rintro heap cpu policy rfl hpos
  rw [(Words.initCpufreqDevice_words heap cpu policy hpos).1]
  exact Filled.of_fillFreqTable policy.freqTable

/-- A policy whose table repeats a frequency and holds 0, an entry marked invalid and an end. -/
def repeatedFrequency : CpufreqPolicy :=
  ⟨0, [0], [1000000, 0, 2000000, cpufreqEntryInvalid, 1000000, cpufreqTableEnd, 3000000],
    by decide⟩

/-- Its device has two levels with frequencies, and two without. -/
example : (Words.initCpufreqDevice (fun _ => 5) 0 repeatedFrequency).1.freqTable =
    [2000000, 1000000, 0, 0] := by decide

theorem filled_repeatedFrequency : Filled repeatedFrequency.freqTable
    (Words.initCpufreqDevice (fun _ => 5) 0 repeatedFrequency).1.freqTable :=
  (filled_initCpufreqDevice repeatedFrequency.freqTable).2 _ 0 repeatedFrequency rfl (by decide)

end XiaomiModules
