import XiaomiModules.Kernel.Numbers
import XiaomiModules.Library.Access

/-!
# Strings in an array

The kernel's string functions are given a pointer and find the end of the string themselves. Here
they run on a bare array, with every index they use on record. On an array whose last byte is 0
they stay inside.

## Main definitions

* `Raw.memcpy`, `Raw.strlen`, `Raw.strim`: the functions on a bare array
* `Raw.printString`: what `%s` prints

## Main results

* `Raw.cells_strim`: the array after `strim`
* `Raw.within_strim`, `Raw.within_printString`: trimming and printing stay inside a terminated array
-/

namespace XiaomiModules

namespace Raw

open Access (Run Use Terminated)

/-- `memcpy(dst, src, len)` of the `len` bytes `src`. -/
def memcpy (src dst : List UInt8) : Run UInt8 := Access.copy 0 src dst

/-- `strlen(s)`. -/
def strlen (s : List UInt8) : ℕ × List (Use UInt8) := Access.scan (· ≠ 0) s

/-- `skip_spaces(s)`, as an offset. -/
def skipSpaces (s : List UInt8) : ℕ × List (Use UInt8) := Access.scan isspace s

/-- `strim(s)`, of which the pointer returned is left out. -/
def strim (s : List UInt8) : Run UInt8 :=
  let (size, measured) := strlen s
  if size = 0 then ⟨s, measured⟩
  else
    -- `end` walks back from the last character, and `*(end + 1)` is written
    let (kept, passed) := Access.scanBack isspace 0 s size
    let ended := Access.store kept 0 s
    let (_, skipped) := skipSpaces ended.cells
    ⟨ended.cells, measured ++ passed ++ ended.uses ++ skipped⟩

/-- The characters that `%s` prints of the string at the start of an array. -/
def printString (s : List UInt8) : List UInt8 × Run UInt8 :=
  let (size, measured) := strlen s
  (s.take size, ⟨s, measured⟩)

theorem fst_strlen (s : List UInt8) : (strlen s).1 = (CString.ofBytes s).chars.length :=
  Access.fst_scan _ s

/-- The string is as many bytes as were measured. -/
theorem take_strlen (s : List UInt8) : s.take (strlen s).1 = (CString.ofBytes s).chars := by
  rw [fst_strlen]
  exact (List.prefix_iff_eq_take.mp (List.takeWhile_prefix _)).symm

theorem fst_printString (s : List UInt8) : (printString s).1 = (CString.ofBytes s).chars :=
  take_strlen s

/-- The loops of `strim` leave what trimming in place leaves. -/
theorem cells_strim (s : List UInt8) : (strim s).cells = (XiaomiModules.strim s).2 := by
  have hsize := fst_strlen s
  have hle : (strlen s).1 ≤ s.length := hsize ▸ (List.takeWhile_prefix _).length_le
  have hkept := Access.fst_scanBack (p := isspace) 0 hle
  rw [take_strlen] at hkept
  simp only [strim, XiaomiModules.strim, Access.store, hkept]
  by_cases hnil : (CString.ofBytes s).chars = []
  · rw [hnil, List.length_nil] at hsize
    rw [if_pos hsize, if_pos hnil]
  · rw [if_neg (hsize.symm ▸ (List.length_pos_of_ne_nil hnil).ne'), if_neg hnil]

variable {size : ℕ} {s : List UInt8}

theorem within_memcpy (h : Terminated 0 size s) {src : List UInt8} (hlen : src.length < size) :
    (memcpy src s).Within size (Terminated 0 size) :=
  h.copy ((Nat.zero_add _).trans_lt hlen)

/-- **Trimming** a terminated array stays inside it and keeps it terminated. -/
theorem within_strim (h : Terminated 0 size s) :
    (strim s).Within size (Terminated 0 size) := by
  obtain ⟨hsize, hmeasured⟩ := h.scan (p := (· ≠ 0)) (by decide)
  obtain ⟨hkept, hpassed⟩ := h.scanBack (p := isspace) 0 hsize.le
  have hended := h.store (hkept.trans_lt hsize) fun _ => (rfl : (0 : UInt8) = 0)
  obtain ⟨-, hskipped⟩ := hended.cells.scan (p := isspace) (by decide)
  unfold strim strlen skipSpaces
  dsimp only
  split_ifs
  · exact ⟨h, hmeasured⟩
  · refine ⟨hended.cells, ?_⟩
    exact List.forall_mem_append.mpr ⟨List.forall_mem_append.mpr
      ⟨List.forall_mem_append.mpr ⟨hmeasured, hpassed⟩, hended.uses⟩, hskipped⟩

/-- **Printing** reads up to the terminator. -/
theorem within_printString (h : Terminated 0 size s) :
    (printString s).2.Within size (Terminated 0 size) := by
  obtain ⟨-, hmeasured⟩ := h.scan (p := (· ≠ 0)) (by decide)
  exact ⟨h, hmeasured⟩

end Raw

end XiaomiModules
