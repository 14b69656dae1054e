import XiaomiModules.Kernel.Basic

/-!
# The miev device

`/dev/miev` carries exception events from kernel writers and user writers to user readers
through one byte FIFO. Every access to the FIFO is one section under the device's lock; the
reader's check for data stands outside the lock.

## Main definitions

* `MievDevice`: the device behind `miev_dev`
* `writeBufInner`, `mievWrite`: the writers
* `mievReadCheck`, `mievReadCopy`: the two parts of a read

## Main results

* `writeBufInner_some`: what a write to a loaded device does
* `mievWrite_eq_of_handedOver`, `mievWrite_of_not_handedOver`: a user write is either refused
  before the FIFO or hands its whole buffer over
-/

namespace XiaomiModules

def mievFifoSize : ℕ := 128 * 1024
def mievMaxEventSize : ℕ := 2048
def mievMaxParamName : ℕ := 64
def mievMaxParamString : ℕ := 512
def mievMaxParams : ℕ := 64

/-- `struct miev_device`, as far as reads and writes use it. -/
structure MievDevice where
  fifo : Kfifo mievFifoSize

/-! ## Writers -/

/-- `write_buf_inner(buf, len)`. -/
def writeBufInner (mievDev : Option MievDevice) (buf : Option (List UInt8)) (len : ℕ) :
    ℤ × Option MievDevice :=
  match mievDev, buf with
  | some dev, some buf =>
    if len = 0 then (-EINVAL, some dev)
    else
      let (ret, fifo) := kfifoIn dev.fifo (buf.take len)
      -- the bytes that fit are in the FIFO before the comparison, and stay there when it fails
      if ret ≠ len then (-ENOSPC, some { dev with fifo })
      else (0, some { dev with fifo })
  | mievDev, _ => (-EINVAL, mievDev)

/-- A buffer a user writes, with the outcome of the allocation and of the user copy. -/
structure UserBuffer where
  bytes : List UInt8
  allocated : Bool
  faults : Bool

/-- `miev_write(file, buf, count, ppos)`. -/
def mievWrite (mievDev : Option MievDevice) (buf : UserBuffer) : ℤ × Option MievDevice :=
  let count := buf.bytes.length
  if count = 0 then (0, mievDev)
  else if count > mievMaxEventSize then (-EINVAL, mievDev)
  else if ¬ buf.allocated then (-ENOMEM, mievDev)
  else if buf.faults then (-EFAULT, mievDev)
  else
    -- the copy is terminated; the NUL is not counted and never reaches the FIFO
    let kbuf := buf.bytes ++ [0]
    let (ret, mievDev) := writeBufInner mievDev (some kbuf) count
    (if ret ≠ 0 then ret else count, mievDev)

/-! ## Readers -/

/-- What the check of a read before the lock leads to. -/
inductive ReadCheck
  | refuse (ret : ℤ)
  | wait
  | copy
deriving DecidableEq

/-- The part of `miev_read` before the lock. -/
def mievReadCheck (mievDev : Option MievDevice) (nonblock : Bool) : ReadCheck :=
  match mievDev with
  | none => .refuse (-ENODEV)
  | some dev =>
    -- another reader may empty the FIFO between this check and the lock
    if kfifoIsEmpty dev.fifo then
      if nonblock then .refuse (-EAGAIN) else .wait
    else .copy

/-- The part of `miev_read` under the lock: the return value, the bytes that reached the user's
buffer, and the device. -/
def mievReadCopy (mievDev : Option MievDevice) (count : ℕ) (fault : Option ℕ) :
    ℤ × List UInt8 × Option MievDevice :=
  match mievDev with
  | none => (-ENODEV, [], none)
  | some dev =>
    let (ret, out, fifo) := kfifoToUser dev.fifo count fault
    let copied := out.length
    -- `ret ? ret : copied` has the type of `copied`, so an error is returned as an `unsigned int`
    (unsignedInt (if ret ≠ 0 then ret else copied), out, some { dev with fifo })

/-! ## What the writers do to the FIFO -/

/-- A write of `buf` to a loaded device. -/
theorem writeBufInner_some (dev : MievDevice) {buf : List UInt8} {len : ℕ} (hlen : 0 < len)
    (hle : len ≤ buf.length) :
    writeBufInner (some dev) (some buf) len =
      (if len ≤ dev.fifo.free then 0 else -ENOSPC,
        some { dev with fifo := (dev.fifo.put (buf.take len)).2 }) := by
  have hfit := BoundedFifo.put_fst_eq_length_iff dev.fifo (buf.take len)
  rw [List.length_take, min_eq_left hle] at hfit
  simp only [writeBufInner, kfifoIn, Nat.pos_iff_ne_zero.mp hlen, if_false, ne_eq, hfit]
  split_ifs <;> rfl

/-- The buffer a user write hands to `write_buf_inner`, where it reaches it. -/
def UserBuffer.handedOver (buf : UserBuffer) : Option (List UInt8) :=
  if 0 < buf.bytes.length ∧ buf.bytes.length ≤ mievMaxEventSize ∧ buf.allocated ∧ ¬ buf.faults
  then some buf.bytes else none

theorem UserBuffer.length_of_handedOver {buf : UserBuffer} {text : List UInt8}
    (h : buf.handedOver = some text) : 0 < text.length ∧ text.length ≤ mievMaxEventSize := by
  unfold handedOver at h
  split_ifs at h with hb
  obtain rfl := Option.some.inj h
  exact ⟨hb.1, hb.2.1⟩

/-- A user write that is not refused hands its whole buffer over. -/
theorem mievWrite_eq_of_handedOver (mievDev : Option MievDevice) {buf : UserBuffer}
    {text : List UInt8} (h : buf.handedOver = some text) :
    mievWrite mievDev buf =
      let (ret, mievDev) := writeBufInner mievDev (some (text ++ [0])) text.length
      (if ret ≠ 0 then ret else text.length, mievDev) := by
  unfold UserBuffer.handedOver at h
  split_ifs at h with hb
  obtain rfl := Option.some.inj h
  obtain ⟨hpos, hmax, halloc, hfault⟩ := hb
  simp [mievWrite, hpos.ne', hmax, halloc, hfault]

/-- A refused user write leaves the device alone and reports no byte. -/
theorem mievWrite_of_not_handedOver (mievDev : Option MievDevice) {buf : UserBuffer}
    (h : buf.handedOver = none) :
    (mievWrite mievDev buf).2 = mievDev ∧ (mievWrite mievDev buf).1 ≤ 0 := by
  unfold UserBuffer.handedOver at h
  rw [ite_eq_right_iff] at h
  -- the four refusals, in the order of the checks
  by_cases h0 : buf.bytes.length = 0
  · simp [mievWrite, h0]
  by_cases hmax : buf.bytes.length > mievMaxEventSize
  · simp [mievWrite, h0, hmax, EINVAL]
  by_cases halloc : buf.allocated = true
  · have hfault : buf.faults = true := by
      by_contra hfault
      exact absurd (h ⟨by omega, by omega, halloc, hfault⟩) (Option.some_ne_none _)
    simp [mievWrite, h0, hmax, halloc, hfault, EFAULT]
  · simp [mievWrite, h0, hmax, halloc, ENOMEM]

end XiaomiModules
