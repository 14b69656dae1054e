import Mathlib.Data.List.TakeWhile
import XiaomiModules.Library.BoundedFifo
import XiaomiModules.Library.Text
import XiaomiModules.Library.Word

/-!
# The kernel interfaces the modules rest on

Error numbers, C strings, the bounded print and the byte FIFO, as the kernel documents them.
Text is rendered before it is printed, so a print takes the complete rendering and stores what
fits.

## Main definitions

* `EINVAL`, ..., `errnos`, `CString`: error numbers and NUL-terminated strings
* `unsignedInt x`: the conversion of an `int` to an `unsigned int`
* `CString.ofBytes buf`: the string that starts a buffer
* `scnprintf buf off size text`: the bounded print into `buf + off`
* `multFrac x n d`: scaling by quotient and remainder
* `Kfifo`, `kfifoIn`, `kfifoToUser`: the byte FIFO

## Main results

* `scnprintf_fst`: at most `size - 1` characters are stored
* `length_scnprintf`, `take_scnprintf`, `getElem?_scnprintf`: what a print leaves in the buffer
* `multFrac_toNat`: percentages are scaled without overflow
-/

namespace XiaomiModules

/-! ## Error numbers -/

def ESRCH : ℤ := 3
def EAGAIN : ℤ := 11
def ENOMEM : ℤ := 12
def EFAULT : ℤ := 14
def ENODEV : ℤ := 19
def EINVAL : ℤ := 22
def ENOSPC : ℤ := 28
def ERANGE : ℤ := 34
def ERESTARTSYS : ℤ := 512

/-- The error numbers the modules return. -/
def errnos : List ℤ :=
  [ESRCH, EAGAIN, ENOMEM, EFAULT, ENODEV, EINVAL, ENOSPC, ERANGE, ERESTARTSYS]

/-- An error is returned as a negative number, and taken for neither a success nor a count. -/
theorem neg_errno_lt_zero (e : ℤ) (he : e ∈ errnos := by decide) : -e < 0 := by
  have hall : ∀ e ∈ errnos, -e < 0 := by decide
  exact hall e he

/-- `UINT_MAX + 1`. -/
def uintSize : ℤ := 4294967296

/-- An `int` where the other operand is an `unsigned int`: its value modulo the size of the word. -/
def unsignedInt (x : ℤ) : ℤ := x % uintSize

theorem unsignedInt_natCast {n : ℕ} (h : n < uintSize) : unsignedInt n = n :=
  Int.emod_eq_of_lt (Int.natCast_nonneg n) h

/-- An error that becomes unsigned is no longer negative. -/
theorem unsignedInt_neg_errno (e : ℤ) (he : e ∈ errnos := by decide) :
    unsignedInt (-e) = uintSize - e := by
  have hall : ∀ e ∈ errnos, unsignedInt (-e) = uintSize - e := by decide
  exact hall e he

/-! ## Strings and prints -/

/-- `PAGE_SIZE`. -/
def pageSize : ℕ := 4096

/-- A NUL-terminated string: its characters before the terminator. -/
@[ext]
structure CString where
  chars : List UInt8
  nul_notMem : 0 ∉ chars
deriving DecidableEq

theorem zero_notMem_decimalNat (n : ℕ) : 0 ∉ Text.decimalNat n :=
  Text.notMem_decimalNat (by decide) n

theorem zero_notMem_decimal (z : ℤ) : 0 ∉ Text.decimal z := Text.notMem_decimal (by decide) z

/-- The string that starts a buffer, up to the first NUL. -/
def CString.ofBytes (buf : List UInt8) : CString where
  chars := buf.takeWhile (· ≠ 0)
  nul_notMem h := by simpa using List.mem_takeWhile_imp h

/-- The characters before a terminating NUL are the string. -/
theorem CString.ofBytes_append {chars : List UInt8} (h : 0 ∉ chars) (tail : List UInt8) :
    ofBytes (chars ++ 0 :: tail) = ⟨chars, h⟩ := by
  have hchars : ∀ c ∈ chars, decide (c ≠ 0) = true := by
    intro c hc
    exact decide_eq_true (ne_of_mem_of_not_mem hc h)
  ext1
  show (chars ++ 0 :: tail).takeWhile (· ≠ 0) = chars
  rw [List.takeWhile_append_of_pos hchars, List.takeWhile_cons_of_neg (by simp), List.append_nil]

/-- A text without zeros is the whole string. -/
theorem chars_ofBytes {bytes : List UInt8} (h : 0 ∉ bytes) :
    (CString.ofBytes bytes).chars = bytes := by
  refine List.takeWhile_eq_self_iff.mpr fun c hc => ?_
  exact decide_eq_true (ne_of_mem_of_not_mem hc h)

/-- `scnprintf(buf + off, size, ...)` of the rendering `text`: the characters that fit before a
terminating NUL are stored, and their number is returned; nothing is done for `size` 0. -/
def scnprintf (buf : List UInt8) (off size : ℕ) (text : List UInt8) : ℕ × List UInt8 :=
  if size = 0 then (0, buf)
  else
    let stored := text.take (size - 1)
    (stored.length, buf.take off ++ stored ++ 0 :: buf.drop (off + stored.length + 1))

section Scnprintf

variable {buf text : List UInt8} {off size : ℕ}

theorem scnprintf_of_ne (h0 : size ≠ 0) (buf text : List UInt8) (off : ℕ) :
    scnprintf buf off size text =
      ((text.take (size - 1)).length, (buf.take off ++ text.take (size - 1)) ++
        0 :: buf.drop (off + (text.take (size - 1)).length + 1)) := if_neg h0

theorem scnprintf_fst (buf : List UInt8) (off size : ℕ) (text : List UInt8) :
    (scnprintf buf off size text).1 = min text.length (size - 1) := by
  by_cases h0 : size = 0
  · simp [scnprintf, h0]
  · rw [scnprintf_of_ne h0, List.length_take, min_comm]

/-- A print stays inside its window. -/
theorem length_scnprintf (h : off + size = buf.length) :
    (scnprintf buf off size text).2.length = buf.length := by
  by_cases h0 : size = 0
  · simp [scnprintf, h0]
  · rw [scnprintf_of_ne h0]
    simp only [List.length_append, List.length_take, List.length_cons, List.length_drop]
    omega

/-- The stored characters follow what stood before the window. -/
theorem take_scnprintf (text : List UInt8) (h0 : size ≠ 0) (h : off + size = buf.length) :
    (scnprintf buf off size text).2.take (off + min text.length (size - 1)) =
      buf.take off ++ text.take (size - 1) := by
  rw [scnprintf_of_ne h0, List.take_left']
  simp only [List.length_append, List.length_take]
  omega

/-- The stored characters are terminated. -/
theorem getElem?_scnprintf (text : List UInt8) (h0 : size ≠ 0)
    (h : off + size = buf.length) :
    (scnprintf buf off size text).2[off + min text.length (size - 1)]? = some 0 := by
  have hlen : (buf.take off ++ text.take (size - 1)).length =
      off + min text.length (size - 1) := by
    simp only [List.length_append, List.length_take]
    omega
  rw [scnprintf_of_ne h0, ← hlen, List.getElem?_append_right le_rfl]
  simp

/-- What was printed at the start of a buffer is the string that starts it. -/
theorem ofBytes_scnprintf (h0 : size ≠ 0) (htext : 0 ∉ text) (h : text.length < size) :
    CString.ofBytes (scnprintf buf 0 size text).2 = ⟨text, htext⟩ := by
  rw [scnprintf_of_ne h0, List.take_of_length_le (Nat.le_sub_one_of_lt h), List.take_zero,
    List.nil_append, CString.ofBytes_append htext]

/-- In a window of one byte nothing but the terminator is stored. -/
theorem scnprintf_one (hlast : buf[off]? = some 0) (text : List UInt8) :
    scnprintf buf off 1 text = (0, buf) := by
  obtain ⟨hoff, hnul⟩ := List.getElem?_eq_some_iff.mp hlast
  rw [scnprintf_of_ne Nat.one_ne_zero]
  simp only [Nat.sub_self, List.take_zero, List.length_nil, List.append_nil, Nat.add_zero,
    Prod.mk.injEq, true_and]
  rw [← hnul, ← List.drop_eq_getElem_cons hoff, List.take_append_drop]

end Scnprintf

/-! ## Scaling -/

/-- `mult_frac(x, n, d)` on 32-bit words. -/
def multFrac (x n d : UInt32) : UInt32 :=
  let q := x / d
  let r := x % d
  q * n + r * n / d

/-- Percentages are scaled without overflow. -/
theorem multFrac_toNat (x : UInt32) {pct : UInt32} (h : pct ≤ 100) :
    (multFrac x pct 100).toNat = x.toNat * pct.toNat / 100 :=
  Word.scale_toNat x (by decide) (by decide) h

/-! ## The byte FIFO -/

/-- `struct kfifo`: a byte FIFO of a given size. -/
abbrev Kfifo (size : ℕ) := BoundedFifo UInt8 size

/-- `kfifo_in(fifo, buf, len)`: as many bytes as are free are copied in, and their number is
returned. -/
def kfifoIn {size : ℕ} (fifo : Kfifo size) (buf : List UInt8) : ℕ × Kfifo size := fifo.put buf

/-- `kfifo_is_empty(fifo)`. -/
def kfifoIsEmpty {size : ℕ} (fifo : Kfifo size) : Bool := fifo.content.isEmpty

/-- `kfifo_to_user(fifo, to, len, &copied)`: the return value, the bytes copied out, and the
FIFO without them. Where the user copy faults after `j` bytes, those `j` bytes are consumed. -/
def kfifoToUser {size : ℕ} (fifo : Kfifo size) (len : ℕ) (fault : Option ℕ) :
    ℤ × List UInt8 × Kfifo size :=
  match fault with
  | some j => if j < min len fifo.content.length then (-EFAULT, fifo.take j) else (0, fifo.take len)
  | none => (0, fifo.take len)

end XiaomiModules
