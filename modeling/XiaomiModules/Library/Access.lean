import Mathlib.Data.List.DropRight
import Mathlib.Data.List.Infix
import Mathlib.Data.List.TakeWhile
import Mathlib.Tactic.Common

/-!
# Uses of the cells of an array

A piece of code reads and writes the cells of one array by their indices. Nothing keeps an index
inside the array, so every use is recorded, with the array after it; a write behind the array
changes nothing here, but the record shows it.

A terminated array is one whose last cell holds a terminator. A write in front of the last cell
keeps it so, whatever it writes, and a loop that stops at a terminator stops inside the array.

## Main definitions

* `Use`, `Run`: a use of a cell, and the array and the uses a piece of code leads to
* `store`, `copy`, `scan`, `scanBack`: a write, writes one behind the other, and loops that look for
  a cell
* `Run.Within size I`: every use is inside an array of `size` cells, and `I` holds after each
* `Terminated z size`: the array has `size` cells, and the last one holds `z`

## Main results

* `Run.Within.andThen`: one piece of code after the other
* `Terminated.store`, `Terminated.copy`, `Terminated.scan`, `Terminated.scanBack`: what stays inside
  a terminated array
* `cells_copy`, `fst_scan`, `fst_scanBack`: what the loops compute
* `index_lt_of_mem_copy`, `index_le_of_mem_scanFrom`: which cells they use
-/

namespace Access

/-- A use of a cell: its index, and the array after the use. -/
structure Use (α : Type) where
  index : ℕ
  cells : List α

/-- What a piece of code leads to: the array, and its uses of cells. -/
structure Run (α : Type) where
  cells : List α
  uses : List (Use α)

variable {α : Type}

/-- One piece of code, then another. -/
def Run.andThen (run : Run α) (next : List α → Run α) : Run α :=
  ⟨(next run.cells).cells, run.uses ++ (next run.cells).uses⟩

/-- `cells[i] = a`. -/
def store (i : ℕ) (a : α) (cells : List α) : Run α := ⟨cells.set i a, [⟨i, cells.set i a⟩]⟩

/-- The cells from `i` on are written one after the other. -/
def copy : ℕ → List α → List α → Run α
  | _, [], cells => ⟨cells, []⟩
  | i, a :: src, cells => (store i a cells).andThen (copy (i + 1) src)

/-- The loop `while (p(cells[i])) i++` with the rest of the array in front of it: the index at which
it stops, and its uses. It stops behind the array at the latest. -/
def scanFrom (p : α → Bool) (cells : List α) : ℕ → List α → ℕ × List (Use α)
  | i, [] => (i, [⟨i, cells⟩])
  | i, a :: rest =>
    if p a then
      let (stop, uses) := scanFrom p cells (i + 1) rest
      (stop, ⟨i, cells⟩ :: uses)
    else (i, [⟨i, cells⟩])

/-- The loop from the start of the array. -/
def scan (p : α → Bool) (cells : List α) : ℕ × List (Use α) := scanFrom p cells 0 cells

/-- The loop `while (n > 0 && p(cells[n - 1])) n--`: the number at which it stops, and its uses. A
cell behind the array reads as `z`. -/
def scanBack (p : α → Bool) (z : α) (cells : List α) : ℕ → ℕ × List (Use α)
  | 0 => (0, [])
  | n + 1 =>
    if p (cells.getD n z) then
      let (stop, uses) := scanBack p z cells n
      (stop, ⟨n, cells⟩ :: uses)
    else (n + 1, [⟨n, cells⟩])

/-! ## What is computed -/

section Values

variable {p : α → Bool} {cells : List α}

theorem cells_copy {i : ℕ} {src cells : List α} (h : i + src.length ≤ cells.length) :
    (copy i src cells).cells = cells.take i ++ src ++ cells.drop (i + src.length) := by
  induction src generalizing i cells with
  | nil => simp [copy]
  | cons a src ih =>
    have hlt : i < cells.length := by
      rw [List.length_cons] at h
      omega
    have hrest : i + 1 + src.length ≤ (cells.set i a).length := by
      rw [List.length_set]
      rw [List.length_cons] at h
      omega
    rw [copy, Run.andThen]
    change (copy (i + 1) src (cells.set i a)).cells = _
    -- what was written is now in front of what is still to be written
    have htake : (cells.set i a).take (i + 1) = cells.take i ++ [a] := by
      rw [List.take_add_one, List.take_set_of_le le_rfl, List.getElem?_set_self hlt]
      rfl
    have hdrop : (cells.set i a).drop (i + 1 + src.length) =
        cells.drop (i + (a :: src).length) := by
      rw [List.drop_set_of_lt (by omega), List.length_cons]
      congr 1
      omega
    rw [ih hrest, htake, hdrop, List.append_assoc (cells.take i), List.singleton_append]

theorem fst_scanFrom (i : ℕ) (rest : List α) :
    (scanFrom p cells i rest).1 = i + (rest.takeWhile p).length := by
  induction rest generalizing i with
  | nil => rfl
  | cons a rest ih =>
    rw [scanFrom]
    split_ifs with ha
    · rw [List.takeWhile_cons_of_pos ha, List.length_cons]
      exact (ih (i + 1)).trans (by omega)
    · rw [List.takeWhile_cons_of_neg ha]
      rfl

/-- The loop stops behind the longest run of cells that satisfy the condition. -/
theorem fst_scan (p : α → Bool) (cells : List α) :
    (scan p cells).1 = (cells.takeWhile p).length := by
  rw [scan, fst_scanFrom, Nat.zero_add]

/-- Backwards, it stops behind the last cell that does not satisfy the condition. -/
theorem fst_scanBack (z : α) {n : ℕ} (h : n ≤ cells.length) :
    (scanBack p z cells n).1 = ((cells.take n).rdropWhile p).length := by
  induction n with
  | zero => simp [scanBack]
  | succ n ih =>
    have hget : cells.getD n z = cells[n] := (List.getElem_eq_getD z).symm
    rw [scanBack, hget, List.take_succ_eq_append_getElem h]
    split_ifs with hp
    · rw [List.rdropWhile_concat_pos _ _ _ hp]
      exact ih (Nat.le_of_succ_le h)
    · rw [List.rdropWhile_concat_neg _ _ _ hp, List.length_append, List.length_take,
        min_eq_left (Nat.le_of_succ_le h)]
      rfl

/-! ### Which cells are used -/

/-- A copy uses the cells that it writes. -/
theorem index_lt_of_mem_copy {i : ℕ} {src : List α} {use : Use α}
    (h : use ∈ (copy i src cells).uses) : use.index < i + src.length := by
  induction src generalizing i cells with
  | nil => exact absurd h List.not_mem_nil
  | cons a src ih =>
    rw [List.length_cons]
    rcases List.mem_cons.mp h with rfl | h
    · show i < _
      omega
    · have hrest := ih h
      omega

/-- A loop uses no cell behind one that stops it. -/
theorem index_le_of_mem_scanFrom {i k : ℕ} {rest : List α} {z : α} {use : Use α}
    (hz : p z = false) (hstop : rest[k]? = some z) (h : use ∈ (scanFrom p cells i rest).2) :
    use.index ≤ i + k := by
  induction rest generalizing i k with
  | nil => exact absurd hstop (by simp)
  | cons a rest ih =>
    rw [scanFrom] at h
    split_ifs at h with ha
    · cases k with
      | zero =>
        rw [List.getElem?_cons_zero, Option.some.injEq] at hstop
        rw [hstop, hz] at ha
        exact absurd ha Bool.false_ne_true
      | succ k =>
        rw [List.getElem?_cons_succ] at hstop
        rcases List.mem_cons.mp h with rfl | h
        · exact Nat.le_add_right i (k + 1)
        · have hrest := ih hstop h
          omega
    · rw [List.mem_singleton.mp h]
      exact Nat.le_add_right i k

end Values

/-! ## Staying inside -/

/-- The array meets `I` after every use and at the end, and every use is inside an array of `size`
cells. -/
structure Run.Within (size : ℕ) (I : List α → Prop) (run : Run α) : Prop where
  cells : I run.cells
  uses : ∀ use ∈ run.uses, use.index < size ∧ I use.cells

section Within

variable {size : ℕ} {I : List α → Prop} {run : Run α}

theorem Run.Within.andThen {next : List α → Run α} (h : run.Within size I)
    (hnext : ∀ cells, I cells → (next cells).Within size I) : (run.andThen next).Within size I :=
  ⟨(hnext run.cells h.cells).cells,
    List.forall_mem_append.mpr ⟨h.uses, (hnext run.cells h.cells).uses⟩⟩

/-- The array has `size` cells, and the last one holds the terminator `z`. -/
structure Terminated (z : α) (size : ℕ) (cells : List α) : Prop where
  length_eq : cells.length = size
  last_eq : cells[size - 1]? = some z

namespace Terminated

variable {z a : α} {cells : List α}

theorem size_pos (h : Terminated z size cells) : 0 < size := by
  obtain ⟨hlt, -⟩ := List.getElem?_eq_some_iff.mp h.last_eq
  rw [h.length_eq] at hlt
  omega

theorem mem (h : Terminated z size cells) : z ∈ cells := List.mem_of_getElem? h.last_eq

/-- **A write** anywhere but to the last cell, or of a terminator, stays inside and keeps the array
terminated. -/
theorem store (h : Terminated z size cells) {i : ℕ} (hi : i < size) (ha : i = size - 1 → a = z) :
    (store i a cells).Within size (Terminated z size) := by
  have hstored : Terminated z size (cells.set i a) := by
    refine ⟨List.length_set.trans h.length_eq, ?_⟩
    rw [List.getElem?_set]
    split_ifs with heq hlt
    · rw [ha heq]
    · exact absurd (h.length_eq.symm ▸ hi) hlt
    · exact h.last_eq
  exact ⟨hstored, List.forall_mem_singleton.mpr ⟨hi, hstored⟩⟩

/-- **A copy** in front of the last cell. -/
theorem copy (h : Terminated z size cells) {i : ℕ} {src : List α} (hi : i + src.length < size) :
    (copy i src cells).Within size (Terminated z size) := by
  induction src generalizing i cells with
  | nil => exact ⟨h, fun _ hmem => absurd hmem List.not_mem_nil⟩
  | cons b src ih =>
    rw [List.length_cons] at hi
    have hstore : (Access.store i b cells).Within size (Terminated z size) :=
      h.store (by omega) fun heq => by omega
    exact hstore.andThen fun cells hcells => ih hcells (by omega)

/-- **A loop** that stops at the terminator stops inside the array. -/
theorem scanFrom {p : α → Bool} (h : Terminated z size cells) (hz : p z = false) {i : ℕ}
    {rest : List α} (hmem : z ∈ rest) (hi : i + rest.length = size) :
    (scanFrom p cells i rest).1 < size ∧
      ∀ use ∈ (scanFrom p cells i rest).2, use.index < size ∧ Terminated z size use.cells := by
  induction rest generalizing i with
  | nil => exact absurd hmem List.not_mem_nil
  | cons b rest ih =>
    rw [List.length_cons] at hi
    have hlt : i < size := by omega
    rw [Access.scanFrom]
    split_ifs with hb
    · -- the cell read is not the terminator, which is still to come
      have hrest : z ∈ rest := by
        refine (List.mem_cons.mp hmem).resolve_left fun heq => ?_
        rw [heq, hb] at hz
        exact absurd hz nofun
      obtain ⟨hstop, huses⟩ := ih hrest (i := i + 1) (by omega)
      exact ⟨hstop, List.forall_mem_cons.mpr ⟨⟨hlt, h⟩, huses⟩⟩
    · exact ⟨hlt, List.forall_mem_singleton.mpr ⟨hlt, h⟩⟩

theorem scan {p : α → Bool} (h : Terminated z size cells) (hz : p z = false) :
    (scan p cells).1 < size ∧
      ∀ use ∈ (scan p cells).2, use.index < size ∧ Terminated z size use.cells :=
  h.scanFrom hz h.mem ((Nat.zero_add _).trans h.length_eq)

/-- Backwards, a loop stays in front of where it started. -/
theorem scanBack {p : α → Bool} (h : Terminated z size cells) (y : α) {n : ℕ} (hn : n ≤ size) :
    (scanBack p y cells n).1 ≤ n ∧
      ∀ use ∈ (scanBack p y cells n).2, use.index < size ∧ Terminated z size use.cells := by
  induction n with
  | zero => exact ⟨le_rfl, fun _ hmem => absurd hmem List.not_mem_nil⟩
  | succ n ih =>
    rw [Access.scanBack]
    split_ifs
    · obtain ⟨hstop, huses⟩ := ih (Nat.le_of_succ_le hn)
      exact ⟨hstop.trans (Nat.le_succ n), List.forall_mem_cons.mpr ⟨⟨hn, h⟩, huses⟩⟩
    · exact ⟨le_rfl, List.forall_mem_singleton.mpr ⟨hn, h⟩⟩

end Terminated

end Within

end Access
