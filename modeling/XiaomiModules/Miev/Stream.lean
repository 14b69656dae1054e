import Mathlib.Algebra.Order.BigOperators.Group.List
import Mathlib.Algebra.Order.Group.Nat
import XiaomiModules.Miev.Event

/-!
# The byte stream of the miev device

Kernel clients write events, users write buffers and users read, in any order; each access to the
FIFO is one section under the lock. A session keeps, beside the device, the bytes delivered to
readers and the buffers of the writes for which `write_buf_inner` returned 0. Seen through the
FIFO, a session is a history of a bounded store: a refused write puts in nothing, and a write
that reaches the FIFO puts in its whole buffer, or what fits of it.

## Main definitions

* `Session`, `Session.step`: the device with the two records, and one locked section
* `LockedSection.handedOver`: the buffer a section hands to `write_buf_inner`
* `Session.history`: a session as a history of a bounded store

## Main results

* `history_step`: a locked section is an action on the bounded store
* `stream_eq_accepted_iff`: the stream is what was accepted exactly when no write was cut
* `along_uncut_of_free`: none is where the FIFO has room for all buffers
-/

namespace XiaomiModules

open BoundedFifo (History)

/-- One section under the lock of the device, with the call it belongs to. -/
inductive LockedSection
  | teventWrite (event : MisightMievent)
  | userWrite (buf : UserBuffer)
  | read (count : ℕ)

/-- The buffer the section hands to `write_buf_inner`, where it reaches it. -/
def LockedSection.handedOver : LockedSection → Option (List UInt8)
  | .teventWrite event => event.handedOver
  | .userWrite buf => buf.handedOver
  | .read _ => none

/-- Every buffer handed over has between 1 and 2048 bytes. -/
theorem LockedSection.length_of_handedOver {sec : LockedSection} {buf : List UInt8}
    (h : sec.handedOver = some buf) : 0 < buf.length ∧ buf.length ≤ mievMaxEventSize := by
  cases sec with
  | teventWrite event => exact MisightMievent.length_of_handedOver h
  | userWrite user => exact UserBuffer.length_of_handedOver h
  | read count => cases h

/-- The device, the bytes delivered to readers, and the buffers of the successful writes. -/
structure Session where
  mievDev : Option MievDevice
  delivered : List UInt8
  accepted : List UInt8

namespace Session

/-- A session on a loaded device, before its first section. -/
def start (dev : MievDevice) : Session := ⟨some dev, [], []⟩

/-- One locked section. A write counts as successful by what its caller is told: 0 for an event,
a positive count for a user. -/
def step (s : Session) : LockedSection → Session
  | .teventWrite event =>
    let (ret, _, mievDev) := cdevTeventWrite s.mievDev event
    { s with
      mievDev
      accepted := if ret = 0 then s.accepted ++ event.handedOver.getD [] else s.accepted }
  | .userWrite buf =>
    let (ret, mievDev) := mievWrite s.mievDev buf
    { s with
      mievDev
      accepted := if 0 < ret then s.accepted ++ buf.handedOver.getD [] else s.accepted }
  | .read count =>
    let (_, out, mievDev) := mievReadCopy s.mievDev count none
    { s with mievDev, delivered := s.delivered ++ out }

/-- The FIFO of the session. -/
def fifo (s : Session) : Kfifo mievFifoSize := (s.mievDev.map (·.fifo)).getD BoundedFifo.empty

/-- The bytes delivered so far, followed by the bytes still in the FIFO. -/
def stream (s : Session) : List UInt8 := s.delivered ++ s.fifo.content

/-- The section finds room for all of its buffer or for none of it. -/
def Uncut (s : Session) (sec : LockedSection) : Prop :=
  ∀ buf, sec.handedOver = some buf → ¬ (0 < s.fifo.free ∧ s.fifo.free < buf.length)

/-- The session as a history of a bounded store. -/
def history (s : Session) : History UInt8 mievFifoSize := ⟨s.fifo, s.delivered, s.accepted⟩

end Session

/-- The section as an action on the bounded store: a refused write puts in the empty block. -/
def LockedSection.action : LockedSection → BoundedFifo.Action UInt8
  | .teventWrite event => .put (event.handedOver.getD [])
  | .userWrite buf => .put (buf.handedOver.getD [])
  | .read count => .take count

namespace Session

variable {s : Session} {dev : MievDevice}

theorem fifo_of_some (h : s.mievDev = some dev) : s.fifo = dev.fifo := by
  simp [fifo, h]

/-- A write that puts `block` into the FIFO, and counts it as accepted when all of it fits, is an
action on the bounded store. -/
theorem history_put (h : s.mievDev = some dev) (block : List UInt8) {t : Session}
    (hdev : t.mievDev = some { dev with fifo := (dev.fifo.put block).2 })
    (hdel : t.delivered = s.delivered)
    (hacc : t.accepted =
      if block.length ≤ dev.fifo.free then s.accepted ++ block else s.accepted) :
    t.history = s.history.step (.put block) := by
  have hstored := BoundedFifo.put_fst_eq_length_iff dev.fifo block
  simp only [history, History.step, fifo_of_some hdev, fifo_of_some h, hdel, hacc, hstored]

/-- A section that leaves the device and the records alone puts in nothing. -/
theorem history_put_nil (h : s.mievDev = some dev) {t : Session} (hdev : t.mievDev = some dev)
    (hdel : t.delivered = s.delivered) (hacc : t.accepted = s.accepted) :
    t.history = s.history.step (.put []) := by
  refine history_put h [] ?_ hdel (by simp [hacc])
  simpa [BoundedFifo.put] using hdev

theorem step_teventWrite (h : s.mievDev = some dev) (event : MisightMievent) :
    (s.step (.teventWrite event)).mievDev.isSome ∧
      (s.step (.teventWrite event)).history =
        s.history.step (.put (event.handedOver.getD [])) := by
  cases hover : event.handedOver with
  | none =>
    -- the terminator was refused, so the device was not reached
    have hstep : s.step (.teventWrite event) = s := by
      simp [step, cdevTeventWrite_of_not_handedOver s.mievDev hover, hover]
    rw [hstep]
    exact ⟨by rw [h]; rfl, history_put_nil h h rfl rfl⟩
  | some bytes =>
    have hwrite := cdevTeventWrite_some dev hover
    have hdev : (s.step (.teventWrite event)).mievDev =
        some { dev with fifo := (dev.fifo.put bytes).2 } := by
      simp only [step, h, hwrite]
    refine ⟨by rw [hdev]; rfl, history_put h bytes hdev rfl ?_⟩
    -- the client is told 0 exactly when the whole text fitted
    simp only [step, h, hwrite, hover, Option.getD_some]
    split_ifs with hfit hret hret
    · rfl
    · exact absurd rfl hret
    · exact absurd hret (by decide)
    · rfl

theorem step_userWrite (h : s.mievDev = some dev) (buf : UserBuffer) :
    (s.step (.userWrite buf)).mievDev.isSome ∧
      (s.step (.userWrite buf)).history =
        s.history.step (.put (buf.handedOver.getD [])) := by
  cases hover : buf.handedOver with
  | none =>
    obtain ⟨hdev, hret⟩ := mievWrite_of_not_handedOver s.mievDev hover
    have hstep : s.step (.userWrite buf) = s := by
      simp [step, hdev, hret.not_gt]
    rw [hstep]
    exact ⟨by rw [h]; rfl, history_put_nil h h rfl rfl⟩
  | some bytes =>
    obtain ⟨hpos, -⟩ := UserBuffer.length_of_handedOver hover
    have hwrite := mievWrite_eq_of_handedOver s.mievDev hover
    -- the NUL behind the copy is not handed over
    have htake : (bytes ++ [0]).take bytes.length = bytes := List.take_left
    rw [h, writeBufInner_some dev hpos (by simp), htake] at hwrite
    have hdev : (s.step (.userWrite buf)).mievDev =
        some { dev with fifo := (dev.fifo.put bytes).2 } := by
      simp only [step, h, hwrite]
    refine ⟨by rw [hdev]; rfl, history_put h bytes hdev rfl ?_⟩
    -- the user is told the count exactly when the whole buffer fitted
    simp only [step, h, hwrite, hover, Option.getD_some]
    by_cases hfit : bytes.length ≤ dev.fifo.free
    · simp [hfit, hpos]
    · simp [hfit, ENOSPC]

theorem step_read (h : s.mievDev = some dev) (count : ℕ) :
    (s.step (.read count)).mievDev.isSome ∧
      (s.step (.read count)).history = s.history.step (.take count) := by
  have hread : (mievReadCopy (some dev) count none).2 =
      ((dev.fifo.take count).1, some { dev with fifo := (dev.fifo.take count).2 }) := rfl
  constructor
  · simp [step, h, hread]
  · simp [history, History.step, step, fifo, h, hread]

/-- What one section does to a loaded device and to the two records. -/
theorem step_of_some (h : s.mievDev = some dev) (sec : LockedSection) :
    (s.step sec).mievDev.isSome ∧ (s.step sec).history = s.history.step sec.action := by
  cases sec with
  | teventWrite event => exact step_teventWrite h event
  | userWrite buf => exact step_userWrite h buf
  | read count => exact step_read h count

theorem isSome_step (s : Session) (sec : LockedSection) (h : s.mievDev.isSome) :
    (s.step sec).mievDev.isSome := by
  obtain ⟨dev, hdev⟩ := Option.isSome_iff_exists.mp h
  exact (step_of_some hdev sec).1

/-- A locked section is an action on the bounded store. -/
theorem history_step (s : Session) (sec : LockedSection) (h : s.mievDev.isSome) :
    (s.step sec).history = s.history.step sec.action := by
  obtain ⟨dev, hdev⟩ := Option.isSome_iff_exists.mp h
  exact (step_of_some hdev sec).2

/-- A section that cuts no buffer is an action that cuts no block. -/
theorem uncut_iff (s : Session) (sec : LockedSection) :
    s.Uncut sec ↔ s.history.Uncut sec.action := by
  have hput : ∀ buf : Option (List UInt8),
      (∀ b, buf = some b → ¬ (0 < s.fifo.free ∧ s.fifo.free < b.length)) ↔
        ¬ s.fifo.Cuts (buf.getD []) := by
    intro buf
    cases buf <;> simp [BoundedFifo.Cuts]
  cases sec with
  | teventWrite event => exact hput event.handedOver
  | userWrite buf => exact hput buf.handedOver
  | read count => simp [Uncut, LockedSection.handedOver, LockedSection.action, History.Uncut]

/-- A run of locked sections is a run of the bounded store. -/
theorem history_after (h : s.mievDev.isSome) (secs : List LockedSection) :
    (Runs.after step s secs).history =
      Runs.after History.step s.history (secs.map LockedSection.action) :=
  Runs.after_simulation isSome_step history_step h secs

theorem along_uncut_iff (h : s.mievDev.isSome) (secs : List LockedSection) :
    Runs.Along step Uncut s secs ↔
      Runs.Along History.step History.Uncut s.history (secs.map LockedSection.action) :=
  Runs.along_simulation isSome_step history_step (fun s sec _ => s.uncut_iff sec) h secs

/-- From a session whose stream is what was accepted behind some bytes, the stream stays so exactly
where no write is cut. -/
theorem stream_eq_iff {before : List UInt8} (h : s.mievDev.isSome)
    (heq : s.stream = before ++ s.accepted) (secs : List LockedSection) :
    (Runs.after step s secs).stream = before ++ (Runs.after step s secs).accepted ↔
      Runs.Along step Uncut s secs := by
  have hhistory : s.history.stream = before ++ s.history.accepted := heq
  rw [along_uncut_iff h, ← History.stream_eq_iff_along hhistory, ← history_after h]
  rfl

/-- Before the first section the stream is what the FIFO holds. -/
theorem stream_start (dev : MievDevice) :
    (start dev).stream = dev.fifo.content ++ (start dev).accepted := by
  simp [stream, start, fifo]

end Session

/-- **Stream integrity, exactly**: over every run of locked sections from every fill level, the
bytes delivered followed by the bytes in the FIFO are the bytes found there followed by the
complete buffers of the successful writes, if and only if no write found room for a part of its
buffer only. -/
theorem stream_eq_accepted_iff (dev : MievDevice) (secs : List LockedSection) :
    (Runs.after Session.step (.start dev) secs).stream =
        dev.fifo.content ++ (Runs.after Session.step (.start dev) secs).accepted ↔
      Runs.Along Session.step Session.Uncut (.start dev) secs :=
  Session.stream_eq_iff rfl (Session.stream_start dev) secs

theorem LockedSection.size_action_le (sec : LockedSection) :
    sec.action.size ≤ mievMaxEventSize := by
  have hput : ∀ buf : Option (List UInt8), sec.handedOver = buf →
      (buf.getD []).length ≤ mievMaxEventSize := by
    intro buf hover
    cases buf with
    | none => exact Nat.zero_le _
    | some bytes => exact (length_of_handedOver hover).2
  cases sec with
  | teventWrite event => exact hput _ rfl
  | userWrite buf => exact hput _ rfl
  | read count => exact Nat.zero_le _

/-- **A run that fits**: where the FIFO has room for a whole buffer of every section, no write is
cut. -/
theorem along_uncut_of_free {dev : MievDevice} {secs : List LockedSection}
    (hfree : secs.length * mievMaxEventSize ≤ dev.fifo.free) :
    Runs.Along Session.step Session.Uncut (.start dev) secs := by
  have hsize : ((secs.map LockedSection.action).map BoundedFifo.Action.size).sum ≤
      secs.length * mievMaxEventSize := by
    have hsum := List.sum_le_card_nsmul ((secs.map LockedSection.action).map
      BoundedFifo.Action.size) mievMaxEventSize (by simp [LockedSection.size_action_le])
    simpa using hsum
  rw [Session.along_uncut_iff rfl]
  exact History.along_uncut_of_size_le (hsize.trans hfree)

section Cut

/-- A user write of two bytes. -/
def twoBytes : UserBuffer := ⟨[1, 2], true, false⟩

/-- With one free byte, a write of two is refused with one byte in the FIFO. -/
theorem userWrite_of_free_eq_one {dev : MievDevice} (hfree : dev.fifo.free = 1) :
    mievWrite (some dev) twoBytes =
      (-ENOSPC, some { dev with fifo := (dev.fifo.put [1, 2]).2 }) := by
  have hover : twoBytes.handedOver = some [1, 2] := by decide
  rw [mievWrite_eq_of_handedOver _ hover, writeBufInner_some _ (by decide) (by decide), hfree]
  rfl

/-- A refused write of two bytes lengthens the stream by one. -/
theorem length_stream_of_free_eq_one {dev : MievDevice} (hfree : dev.fifo.free = 1) :
    ((Session.start dev).step (.userWrite twoBytes)).stream.length =
        dev.fifo.content.length + 1 ∧
      ((Session.start dev).step (.userWrite twoBytes)).accepted = [] := by
  have hstep : (Session.start dev).step (.userWrite twoBytes) =
      ⟨some { dev with fifo := (dev.fifo.put [1, 2]).2 }, [], []⟩ := by
    simp [Session.start, Session.step, userWrite_of_free_eq_one hfree, ENOSPC]
  rw [hstep]
  exact ⟨by simp [Session.stream, Session.fifo, hfree], rfl⟩

/-- A FIFO with one free byte. -/
def nearlyFull : MievDevice := ⟨⟨List.replicate (mievFifoSize - 1) 0, by
  rw [List.length_replicate]
  exact Nat.sub_le _ _⟩⟩

theorem free_nearlyFull : nearlyFull.fifo.free = 1 := by
  have hlen : nearlyFull.fifo.content.length = mievFifoSize - 1 := List.length_replicate
  rw [BoundedFifo.free, hlen]
  decide

/-- The byte of a refused write joins the stream. -/
theorem stream_ne_accepted_of_nearlyFull :
    (Runs.after Session.step (.start nearlyFull) [.userWrite twoBytes]).stream ≠
      nearlyFull.fifo.content ++
        (Runs.after Session.step (.start nearlyFull) [.userWrite twoBytes]).accepted := by
  obtain ⟨hlen, haccepted⟩ := length_stream_of_free_eq_one free_nearlyFull
  intro heq
  -- one side has one byte more than the other
  have hsame := congrArg List.length heq
  rw [Runs.after_cons, Runs.after_nil, hlen, haccepted, List.append_nil] at hsame
  omega

end Cut

end XiaomiModules
