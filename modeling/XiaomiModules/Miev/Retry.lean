import XiaomiModules.Miev.Message

/-!
# Retrying a write

A write prints the terminator into the event before it hands the text to the FIFO, and keeps it
there when the FIFO refuses the text. A client that tries again prints a second terminator behind
the first. So a write that fails can be retried only where it failed before the print took effect,
in a full buffer, in which no retry succeeds either.

## Main definitions

* `Retryable`: a write that fails leaves the event as it was, and a later one that succeeds puts in
  what a first success would have
* `Admits`: the device takes the whole message

## Main results

* `fst_cdevTeventWrite_eq_zero_iff`: when a write succeeds
* `retryable_iff`: a write can be retried exactly where it succeeds or finds the buffer full
-/

namespace XiaomiModules

open Text

/-- If the write fails, the event is as it was, and a later write of it that succeeds puts the
terminated text into the FIFO, as a first success would have. -/
structure Retryable (mievDev : Option MievDevice) (event : MisightMievent) : Prop where
  unchanged : (cdevTeventWrite mievDev event).1 ≠ 0 → (cdevTeventWrite mievDev event).2.1 = event
  retried : (cdevTeventWrite mievDev event).1 ≠ 0 → ∀ later : MievDevice,
    (cdevTeventWrite (some later) (cdevTeventWrite mievDev event).2.1).1 = 0 →
      event.handedOver = some (event.text ++ terminator) ∧
        (cdevTeventWrite (some later) (cdevTeventWrite mievDev event).2.1).2.2.map
            (·.fifo.content) =
          some (later.fifo.content ++ (event.text ++ terminator))

/-- The device is loaded, and its FIFO has room for the text and what the buffer takes of the
terminator. -/
def Admits (mievDev : Option MievDevice) (event : MisightMievent) : Prop :=
  ∃ dev, mievDev = some dev ∧ event.usedSize + min 2 (event.room - 1) ≤ dev.fifo.free

section Write

variable {mievDev : Option MievDevice} {event : MisightMievent}

/-- In a full buffer a write fails and changes nothing. -/
theorem cdevTeventWrite_of_full (hnul : event.Terminated) (hfull : event.room = 1) :
    cdevTeventWrite mievDev event = (-ENOSPC, event, mievDev) := by
  rw [cdevTeventWrite, MisightMievent.print_of_full hnul hfull]
  rfl

/-- A write succeeds exactly where the buffer has room and the device takes the message. -/
theorem fst_cdevTeventWrite_eq_zero_iff (mievDev : Option MievDevice) (hnul : event.Terminated) :
    (cdevTeventWrite mievDev event).1 = 0 ↔ event.room ≠ 1 ∧ Admits mievDev event := by
  by_cases hfull : event.room = 1
  · rw [cdevTeventWrite_of_full hnul hfull]
    exact iff_of_false (neg_errno_lt_zero ENOSPC).ne fun h => h.1 hfull
  have hbytes : event.handedOver = some (event.text ++ terminator.take (event.room - 1)) := by
    rw [MisightMievent.handedOver_eq, if_neg hfull]
  rw [and_iff_right hfull]
  cases mievDev with
  | none =>
    rw [cdevTeventWrite_eq_of_handedOver _ hbytes]
    exact iff_of_false (neg_errno_lt_zero EINVAL).ne
      fun ⟨_, h, _⟩ => absurd h.symm (Option.some_ne_none _)
  | some dev =>
    -- the terminator is cut where the buffer ends
    have hlen : (event.text ++ terminator.take (event.room - 1)).length =
        event.usedSize + min 2 (event.room - 1) := by
      rw [List.length_append, List.length_take, MisightMievent.length_text, length_terminator,
        min_comm]
    rw [cdevTeventWrite_some dev hbytes, hlen]
    constructor
    · intro h
      refine ⟨dev, rfl, ?_⟩
      by_contra hnot
      rw [if_neg hnot] at h
      exact (neg_errno_lt_zero ENOSPC).ne h
    · rintro ⟨dev', hdev, hle⟩
      obtain rfl := Option.some.inj hdev
      exact if_pos hle

/-- Where the buffer has room, a write moves the end of the text, whether it succeeds or not. -/
theorem event_cdevTeventWrite_ne (hroom : event.room ≠ 1) :
    (cdevTeventWrite mievDev event).2.1 ≠ event := by
  have hpos := event.room_pos
  intro hsame
  have hused := congrArg MisightMievent.usedSize hsame
  rw [event_cdevTeventWrite, MisightMievent.usedSize_print, length_terminator] at hused
  omega

/-- **One write**: it can be retried exactly where it succeeds or finds the buffer full. -/
theorem retryable_iff_of_terminated (hnul : event.Terminated) :
    Retryable mievDev event ↔ event.room = 1 ∨ Admits mievDev event := by
  have hsuccess := fst_cdevTeventWrite_eq_zero_iff mievDev hnul
  constructor
  · -- a write that fails behind the print of the terminator has changed the event
    intro h
    by_contra hnot
    rw [not_or] at hnot
    refine event_cdevTeventWrite_ne hnot.1 (h.unchanged fun hret => ?_)
    exact hnot.2 (hsuccess.mp hret).2
  · intro h
    by_cases hfull : event.room = 1
    · -- no write of a full buffer succeeds, so there is no retry to compare
      have hwrite : ∀ mievDev, cdevTeventWrite mievDev event = (-ENOSPC, event, mievDev) :=
        fun _ => cdevTeventWrite_of_full hnul hfull
      refine ⟨fun _ => by rw [hwrite], fun _ later hretry => ?_⟩
      rw [hwrite mievDev, hwrite (some later)] at hretry
      exact absurd hretry (neg_errno_lt_zero ENOSPC).ne
    · have hret := hsuccess.mpr ⟨hfull, h.resolve_left hfull⟩
      exact ⟨fun hfail => absurd hret hfail, fun hfail => absurd hret hfail⟩

/-- What a retry hands over after a write that failed: the text with two terminators, where they
fit. -/
theorem handedOver_cdevTeventWrite (hfits : event.Fits (terminator ++ terminator)) :
    (cdevTeventWrite mievDev event).2.1.handedOver =
      some (event.text ++ terminator ++ terminator) := by
  rw [MisightMievent.Fits, List.length_append, length_terminator] at hfits
  have hwhole : terminator.take (event.room - 1) = terminator :=
    List.take_of_length_le (by rw [length_terminator]; omega)
  -- the first terminator takes two bytes of the room
  have hroom : (event.print terminator).2.room = event.room - 2 := by
    have hadd := event.usedSize_add_room
    have hmin : min 2 (event.room - 1) = 2 := min_eq_left (by omega)
    rw [event.length_msg] at hadd
    rw [MisightMievent.room, MisightMievent.usedSize_print, length_terminator, hmin]
    omega
  have hwhole' : terminator.take (event.room - 2 - 1) = terminator :=
    List.take_of_length_le (by rw [length_terminator]; omega)
  rw [event_cdevTeventWrite, MisightMievent.handedOver_eq, hroom, if_neg (by omega),
    MisightMievent.text_print, hwhole, hwhole']

end Write

/-- **Retrying, exactly**: after any run of additions to a fresh event, a write of the event can be
retried if and only if the buffer is full or the device takes the message. -/
theorem retryable_iff {eventAllocated msgAllocated : Bool} {eventId : UInt32} {seconds : Int64}
    {event : MisightMievent}
    (h : cdevTeventAlloc eventAllocated msgAllocated eventId seconds = some event)
    (calls : List Addition) (mievDev : Option MievDevice) :
    let built := (Runs.after Draft.step (.start event) calls).event
    Retryable mievDev built ↔ built.room = 1 ∨ Admits mievDev built := by
  intro built
  have hnul : built.Terminated := Runs.after_invariant (I := fun d : Draft => d.event.Terminated)
    (fun _ a hnul => Draft.terminated_step a hnul) (Draft.Sound.start h).terminated calls
  exact retryable_iff_of_terminated hnul

section Full

/-- A device whose FIFO has 32 bytes free. -/
def partlyFilledDevice : MievDevice :=
  ⟨⟨List.replicate 131040 0, List.length_replicate.le.trans (by decide)⟩⟩

theorem free_partlyFilledDevice : partlyFilledDevice.fifo.free = 32 := by
  have hlen : partlyFilledDevice.fifo.content.length = 131040 := List.length_replicate
  rw [BoundedFifo.free, hlen]
  rfl

/-- The equivalence for an event with an integer and a string, one more call refused, and a FIFO
that has less room than its text is long. -/
theorem retryable_iff_partlyFilledDevice :
    ∃ event, cdevTeventAlloc true true 7 (-1) = some event ∧
      let built := (Runs.after Draft.step (.start event) (mixedCalls.take 3)).event
      (built.paraCnt = 2 ∧ built.usedSize = 49 ∧ partlyFilledDevice.fifo.free = 32) ∧
      (Retryable (some partlyFilledDevice) built ↔
        built.room = 1 ∨ Admits (some partlyFilledDevice) built) := by
  obtain ⟨event, h⟩ := exists_cdevTeventAlloc 7 (-1)
  have hrun : (cdevTeventAlloc true true 7 (-1)).map (fun event =>
      ((Runs.after Draft.step (.start event) (mixedCalls.take 3)).event.paraCnt,
        (Runs.after Draft.step (.start event) (mixedCalls.take 3)).event.usedSize)) =
      some (2, 49) := by decide +kernel
  rw [h] at hrun
  obtain ⟨hcnt, hused⟩ := Prod.mk.inj (Option.some.inj hrun)
  exact ⟨event, h, ⟨hcnt, hused, free_partlyFilledDevice⟩,
    retryable_iff h (mixedCalls.take 3) (some partlyFilledDevice)⟩

/-- A device whose FIFO is full. -/
def fullDevice : MievDevice := ⟨⟨List.replicate mievFifoSize 0, List.length_replicate.le⟩⟩

/-- A device whose FIFO is empty. -/
def emptyDevice : MievDevice := ⟨BoundedFifo.empty⟩

theorem free_fullDevice : fullDevice.fifo.free = 0 := by
  have hlen : fullDevice.fifo.content.length = mievFifoSize := List.length_replicate
  rw [BoundedFifo.free, hlen, Nat.sub_self]

/-- A fresh event refused by a full FIFO and written again to an empty one arrives with two
terminators. -/
theorem not_retryable_fullDevice :
    ∃ event, cdevTeventAlloc true true 1 0 = some event ∧ ¬ Retryable (some fullDevice) event ∧
      (cdevTeventWrite (some emptyDevice) (cdevTeventWrite (some fullDevice) event).2.1).1 = 0 ∧
      (cdevTeventWrite (some emptyDevice)
          (cdevTeventWrite (some fullDevice) event).2.1).2.2.map (·.fifo.content) =
        some (event.text ++ terminator ++ terminator) := by
  obtain ⟨event, h⟩ := exists_cdevTeventAlloc 1 0
  obtain ⟨htext, hnul, -⟩ := cdevTeventAlloc_some h
  have hused : event.usedSize = 26 := by
    rw [← event.length_text, htext]
    decide
  have hroom : event.room = 2022 := by
    rw [MisightMievent.room, hused]
    rfl
  have hfits : event.Fits (terminator ++ terminator) := by
    rw [MisightMievent.Fits, hroom]
    decide
  -- the failed write has left its terminator in the event
  have hover : (cdevTeventWrite (some fullDevice) event).2.1.handedOver =
      some (event.text ++ terminator ++ terminator) := handedOver_cdevTeventWrite hfits
  have hfree : (event.text ++ terminator ++ terminator).length ≤ emptyDevice.fifo.free := by
    rw [List.length_append, List.length_append, event.length_text, hused]
    decide
  refine ⟨event, h, ?_, ?_, ?_⟩
  · rw [retryable_iff_of_terminated hnul, hroom]
    rintro (hfull | ⟨dev, hdev, hle⟩)
    · exact absurd hfull (by decide)
    · obtain rfl := Option.some.inj hdev
      rw [free_fullDevice, hused] at hle
      exact absurd hle (by omega)
  · rw [cdevTeventWrite_some _ hover, if_pos hfree]
  · rw [cdevTeventWrite_some _ hover]
    exact congrArg some (List.take_of_length_le hfree)

end Full

end XiaomiModules
