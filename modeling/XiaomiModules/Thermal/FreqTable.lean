import Mathlib.Data.Finset.Card
import Mathlib.Data.List.Basic
import XiaomiModules.Library.Descending
import XiaomiModules.Library.Word

/-!
# The frequency table of a device

A device copies the valid frequencies of its policy in falling order, by asking again and again
for the greatest frequency below the last one. Where the policy's table repeats a frequency the
search runs out of frequencies early and fills the rest with zeros, so the table never rises, but
it need not fall strictly.

## Main definitions

* `validEntries`: the entries that `cpufreq_for_each_valid_entry` visits
* `findNextMax`, `fillFreqTable`: the search and the loop that fills the table
* `distinctCount`: how many distinct frequencies above 0 there are

## Main results

* `findNextMax_eq_zero_or_mem`, `le_findNextMax`: the search finds the greatest valid frequency
  below a bound
* `nonIncreasing_fillFreqTable`: the filled table never rises
* `getElem_fillFreqTable_ne_zero_iff`, `mem_fillFreqTable`: it holds the distinct frequencies, and
  zeros behind them
* `le_findNextMax_uintMax`: its first entry is the greatest valid frequency
-/

namespace XiaomiModules

/-- `CPUFREQ_ENTRY_INVALID`. -/
def cpufreqEntryInvalid : UInt32 := 0xFFFFFFFF

/-- `CPUFREQ_TABLE_END`. -/
def cpufreqTableEnd : UInt32 := 0xFFFFFFFE

/-- The frequencies that `cpufreq_for_each_valid_entry(pos, table)` visits. -/
def validEntries (table : List UInt32) : List UInt32 :=
  (table.takeWhile (· ≠ cpufreqTableEnd)).filter (· ≠ cpufreqEntryInvalid)

/-- `cpufreq_table_count_valid_entries(policy)` of the policy's table. -/
def countValidEntries (table : List UInt32) : ℕ := (validEntries table).length

theorem countValidEntries_le (table : List UInt32) : countValidEntries table ≤ table.length :=
  (List.length_filter_le _ _).trans (List.takeWhile_sublist _).length_le

/-- One entry of the loop of `find_next_max`. -/
def raiseMax (prevMax max frequency : UInt32) : UInt32 :=
  if frequency > max ∧ frequency < prevMax then frequency else max

/-- `find_next_max(table, prev_max)`. -/
def findNextMax (table : List UInt32) (prevMax : UInt32) : UInt32 :=
  (validEntries table).foldl (raiseMax prevMax) 0

/-- The loop of `mi_thermal_init_cpufreq` that fills `count` entries, each below `freq`. -/
def fillFreqTable (table : List UInt32) : ℕ → UInt32 → List UInt32
  | 0, _ => []
  | count + 1, freq =>
    let freq := findNextMax table freq
    freq :: fillFreqTable table count freq

/-- `UINT_MAX`. -/
def uintMax : UInt32 := 0xFFFFFFFF

section Search

variable {table : List UInt32} {prevMax : UInt32}

theorem le_raiseMax (prevMax max frequency : UInt32) : max ≤ raiseMax prevMax max frequency := by
  unfold raiseMax
  split_ifs with h
  · exact h.1.le
  · exact le_rfl

/-- The running maximum of the search. -/
theorem foldl_raiseMax (entries : List UInt32) (prevMax max : UInt32) :
    max ≤ entries.foldl (raiseMax prevMax) max ∧
      (entries.foldl (raiseMax prevMax) max = max ∨
        entries.foldl (raiseMax prevMax) max ∈ entries ∧
          entries.foldl (raiseMax prevMax) max < prevMax) ∧
      ∀ frequency ∈ entries, frequency < prevMax →
        frequency ≤ entries.foldl (raiseMax prevMax) max := by
  induction entries generalizing max with
  | nil => exact ⟨le_rfl, Or.inl rfl, fun _ h => absurd h List.not_mem_nil⟩
  | cons entry entries ih =>
    obtain ⟨hle, hfound, hmax⟩ := ih (raiseMax prevMax max entry)
    rw [List.foldl_cons]
    refine ⟨(le_raiseMax _ _ _).trans hle, ?_, List.forall_mem_cons.mpr ⟨?_, hmax⟩⟩
    · rcases hfound with hfound | ⟨hmem, hlt⟩
      · -- nothing later was found: the maximum is this entry, or the one before it
        by_cases hentry : entry > max ∧ entry < prevMax
        · right
          rw [hfound, raiseMax, if_pos hentry]
          exact ⟨List.mem_cons_self, hentry.2⟩
        · left
          rw [hfound, raiseMax, if_neg hentry]
      · exact Or.inr ⟨List.mem_cons_of_mem _ hmem, hlt⟩
    · intro hlt
      -- the entry itself is not above the maximum after it
      refine le_trans ?_ hle
      unfold raiseMax
      split_ifs with hentry
      · exact le_rfl
      · exact not_lt.mp fun hgt => hentry ⟨hgt, hlt⟩

/-- The search finds a valid frequency below the bound, or nothing. -/
theorem findNextMax_eq_zero_or_mem (table : List UInt32) (prevMax : UInt32) :
    findNextMax table prevMax = 0 ∨
      findNextMax table prevMax ∈ validEntries table ∧ findNextMax table prevMax < prevMax :=
  (foldl_raiseMax (validEntries table) prevMax 0).2.1

/-- No valid frequency below the bound is greater. -/
theorem le_findNextMax {frequency : UInt32} (hmem : frequency ∈ validEntries table)
    (hlt : frequency < prevMax) : frequency ≤ findNextMax table prevMax :=
  (foldl_raiseMax (validEntries table) prevMax 0).2.2 frequency hmem hlt

theorem findNextMax_le (table : List UInt32) (prevMax : UInt32) :
    findNextMax table prevMax ≤ prevMax := by
  rcases findNextMax_eq_zero_or_mem table prevMax with hzero | ⟨-, hlt⟩
  · rw [hzero]
    exact Nat.zero_le _
  · exact hlt.le

end Search

@[simp] theorem length_fillFreqTable (table : List UInt32) (count : ℕ) (freq : UInt32) :
    (fillFreqTable table count freq).length = count := by
  induction count generalizing freq with
  | zero => rfl
  | succ count ih => exact congrArg Nat.succ (ih _)

theorem le_of_mem_fillFreqTable {table : List UInt32} {count : ℕ} {freq entry : UInt32}
    (h : entry ∈ fillFreqTable table count freq) : entry ≤ freq := by
  induction count generalizing freq with
  | zero => exact absurd h List.not_mem_nil
  | succ count ih =>
    rcases List.mem_cons.mp h with rfl | h
    · exact findNextMax_le table freq
    · exact (ih h).trans (findNextMax_le table freq)

/-- An entry is a valid frequency, or 0 where the search found nothing. -/
theorem eq_zero_or_mem_of_mem_fillFreqTable {table : List UInt32} {count : ℕ}
    {freq entry : UInt32} (h : entry ∈ fillFreqTable table count freq) :
    entry = 0 ∨ entry ∈ validEntries table := by
  induction count generalizing freq with
  | zero => exact absurd h List.not_mem_nil
  | succ count ih =>
    rcases List.mem_cons.mp h with rfl | h
    · exact (findNextMax_eq_zero_or_mem table freq).imp_right And.left
    · exact ih h

/-- **The filled table never rises.** -/
theorem nonIncreasing_fillFreqTable (table : List UInt32) (count : ℕ) (freq : UInt32) :
    Descending.NonIncreasing (fillFreqTable table count freq) := by
  induction count generalizing freq with
  | zero => exact List.Pairwise.nil
  | succ count ih =>
    rw [fillFreqTable, Descending.nonIncreasing_cons]
    exact ⟨fun entry h => le_of_mem_fillFreqTable h, ih _⟩

/-! ## Distinct frequencies -/

/-- The distinct valid frequencies above 0 and below a bound. -/
def distinctBelow (table : List UInt32) (freq : UInt32) : Finset UInt32 :=
  (validEntries table).toFinset.filter fun frequency => 0 < frequency ∧ frequency < freq

/-- The number of distinct valid frequencies above 0. -/
def distinctCount (table : List UInt32) : ℕ := (distinctBelow table uintMax).card

section Distinct

variable {table : List UInt32} {freq frequency : UInt32}

theorem mem_distinctBelow :
    frequency ∈ distinctBelow table freq ↔
      frequency ∈ validEntries table ∧ 0 < frequency ∧ frequency < freq := by
  rw [distinctBelow, Finset.mem_filter, List.mem_toFinset]

/-- Where the search finds nothing, no valid frequency above 0 is left. -/
theorem distinctBelow_eq_empty (h : findNextMax table freq = 0) : distinctBelow table freq = ∅ := by
  refine Finset.eq_empty_of_forall_notMem fun frequency hmem => ?_
  obtain ⟨hvalid, hpos, hlt⟩ := mem_distinctBelow.mp hmem
  have hle := le_findNextMax hvalid hlt
  rw [h] at hle
  exact hpos.not_ge hle

/-- What the search finds is the greatest of the frequencies left; the others are those below
it. -/
theorem distinctBelow_eq_insert (h : findNextMax table freq ≠ 0) :
    distinctBelow table freq =
      insert (findNextMax table freq) (distinctBelow table (findNextMax table freq)) := by
  obtain ⟨hvalid, hlt⟩ := (findNextMax_eq_zero_or_mem table freq).resolve_left h
  ext frequency
  rw [Finset.mem_insert, mem_distinctBelow, mem_distinctBelow]
  constructor
  · rintro ⟨hmem, hpos, hbelow⟩
    rcases (le_findNextMax hmem hbelow).eq_or_lt with heq | hnext
    · exact Or.inl heq
    · exact Or.inr ⟨hmem, hpos, hnext⟩
  · rintro (rfl | ⟨hmem, hpos, hbelow⟩)
    · exact ⟨hvalid, lt_of_le_of_ne (Nat.zero_le _) h.symm, hlt⟩
    · exact ⟨hmem, hpos, hbelow.trans hlt⟩

theorem card_distinctBelow (h : findNextMax table freq ≠ 0) :
    (distinctBelow table freq).card =
      (distinctBelow table (findNextMax table freq)).card + 1 := by
  rw [distinctBelow_eq_insert h, Finset.card_insert_of_notMem]
  intro hmem
  exact lt_irrefl _ (mem_distinctBelow.mp hmem).2.2

/-- Below 0 there is nothing, so the rest of the table is zeros. -/
theorem distinctBelow_zero (table : List UInt32) : distinctBelow table 0 = ∅ := by
  refine Finset.eq_empty_of_forall_notMem fun frequency hmem => ?_
  obtain ⟨-, hpos, hlt⟩ := mem_distinctBelow.mp hmem
  exact hlt.not_gt hpos

/-- **The zeros of the filled table** stand behind one entry for each distinct frequency. -/
theorem getElem_fillFreqTable_ne_zero_iff (table : List UInt32) {count : ℕ} (freq : UInt32) {i : ℕ}
    (h : i < (fillFreqTable table count freq).length) :
    (fillFreqTable table count freq)[i] ≠ 0 ↔ i < (distinctBelow table freq).card := by
  induction count generalizing freq i with
  | zero => exact absurd h (Nat.not_lt_zero i)
  | succ count ih =>
    by_cases hzero : findNextMax table freq = 0
    · -- nothing is found, now and in every later search
      rw [distinctBelow_eq_empty hzero, Finset.card_empty]
      cases i with
      | zero => simpa [fillFreqTable] using hzero
      | succ i =>
        simp only [fillFreqTable, List.getElem_cons_succ]
        rw [ih, hzero, distinctBelow_zero, Finset.card_empty]
        simp
    · rw [card_distinctBelow hzero]
      cases i with
      | zero => simpa [fillFreqTable] using hzero
      | succ i =>
        simp only [fillFreqTable, List.getElem_cons_succ]
        rw [ih, Nat.succ_lt_succ_iff]

/-- With an entry for each of them, the filled table holds every distinct frequency. -/
theorem mem_fillFreqTable {count : ℕ} (hcount : (distinctBelow table freq).card ≤ count)
    (h : frequency ∈ distinctBelow table freq) : frequency ∈ fillFreqTable table count freq := by
  induction count generalizing freq with
  | zero =>
    rw [Nat.le_zero, Finset.card_eq_zero] at hcount
    rw [hcount] at h
    exact absurd h (Finset.notMem_empty _)
  | succ count ih =>
    have hfound : findNextMax table freq ≠ 0 := by
      intro hzero
      rw [distinctBelow_eq_empty hzero] at h
      exact absurd h (Finset.notMem_empty _)
    rw [card_distinctBelow hfound] at hcount
    rw [distinctBelow_eq_insert hfound, Finset.mem_insert] at h
    rw [fillFreqTable, List.mem_cons]
    exact h.imp_right (ih (Nat.le_of_succ_le_succ hcount))

theorem lt_uintMax_of_mem (h : frequency ∈ validEntries table) : frequency < uintMax := by
  refine lt_of_le_of_ne (Nat.le_of_lt_succ frequency.toNat_lt) ?_
  have hne := (List.mem_filter.mp h).2
  exact of_decide_eq_true hne

/-- Where no valid frequency is 0, all of them count. -/
theorem mem_distinctBelow_uintMax (hzero : 0 ∉ validEntries table) :
    frequency ∈ distinctBelow table uintMax ↔ frequency ∈ validEntries table := by
  rw [mem_distinctBelow]
  constructor
  · exact fun h => h.1
  · intro h
    refine ⟨h, lt_of_le_of_ne (Nat.zero_le _) ?_, lt_uintMax_of_mem h⟩
    rintro rfl
    exact hzero h

theorem distinctCount_le (table : List UInt32) : distinctCount table ≤ countValidEntries table :=
  (Finset.card_filter_le _ _).trans (List.toFinset_card_le _)

theorem distinctCount_pos (hzero : 0 ∉ validEntries table) (h : frequency ∈ validEntries table) :
    0 < distinctCount table :=
  Finset.card_pos.mpr ⟨frequency, (mem_distinctBelow_uintMax hzero).mpr h⟩

/-- Without repetitions the valid entries are as many as the distinct frequencies. -/
theorem distinctCount_of_nodup (hzero : 0 ∉ validEntries table) (h : (validEntries table).Nodup) :
    distinctCount table = countValidEntries table := by
  have heq : distinctBelow table uintMax = (validEntries table).toFinset := by
    ext frequency
    rw [mem_distinctBelow_uintMax hzero, List.mem_toFinset]
  rw [distinctCount, heq, List.toFinset_card_of_nodup h]
  rfl

end Distinct

/-- No valid frequency is above the first entry. -/
theorem le_findNextMax_uintMax {table : List UInt32} {frequency : UInt32}
    (hmem : frequency ∈ validEntries table) : frequency ≤ findNextMax table uintMax :=
  le_findNextMax hmem (lt_uintMax_of_mem hmem)

/-- The first search finds the greatest valid entry, which may be 0. -/
theorem max?_validEntries {table : List UInt32} (h : 0 < countValidEntries table) :
    (validEntries table).max? = some (findNextMax table uintMax) := by
  rw [List.max?_eq_some_iff]
  refine ⟨?_, fun frequency hmem => le_findNextMax_uintMax hmem⟩
  rcases findNextMax_eq_zero_or_mem table uintMax with hzero | ⟨hmem, -⟩
  · -- nothing above zero was found, so the valid entries are all zero
    obtain ⟨frequency, hmem⟩ := List.exists_mem_of_length_pos h
    have hle := le_findNextMax_uintMax hmem
    rw [hzero] at hle ⊢
    rwa [le_antisymm hle (Nat.zero_le _)] at hmem
  · exact hmem

end XiaomiModules
