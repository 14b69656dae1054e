import XiaomiModules.Miev.Device

/-!
# Events

A kernel client allocates an event, adds parameters to its text, and writes the text to the
device. The text lives in a buffer of fixed size, and every print into it is bounded by the room
left. An event carries its two size facts: the buffer has its full size, and the text leaves room
for a terminator.

## Main definitions

* `MisightMievent`: an event
* `cdevTeventAlloc`, `cdevTeventAddInt`, `cdevTeventAddStr`, `cdevTeventWrite`: the client's calls
* `MisightMievent.handedOver`: the bytes a write of the event hands to `write_buf_inner`

## Main results

* `cdevTeventWrite_eq_of_handedOver`, `cdevTeventWrite_of_not_handedOver`: a write either is
  refused before the FIFO or hands the terminated text over
-/

namespace XiaomiModules

open Text

/-- `struct misight_mievent`. -/
structure MisightMievent where
  eventId : UInt32
  paraCnt : ℕ
  usedSize : ℕ
  msg : List UInt8
  length_msg : msg.length = mievMaxEventSize
  usedSize_lt : usedSize < mievMaxEventSize
deriving DecidableEq

namespace MisightMievent

/-- The size passed to a print: what is left of the buffer. -/
def room (event : MisightMievent) : ℕ := mievMaxEventSize - event.usedSize

theorem usedSize_add_room (event : MisightMievent) :
    event.usedSize + event.room = event.msg.length := by
  rw [event.length_msg, room]
  exact Nat.add_sub_of_le event.usedSize_lt.le

theorem room_pos (event : MisightMievent) : 0 < event.room :=
  Nat.sub_pos_of_lt event.usedSize_lt

/-- The text printed so far. -/
def text (event : MisightMievent) : List UInt8 := event.msg.take event.usedSize

@[simp] theorem length_text (event : MisightMievent) : event.text.length = event.usedSize := by
  rw [text, List.length_take, event.length_msg, min_eq_left event.usedSize_lt.le]

/-- The text is followed by a NUL. -/
def Terminated (event : MisightMievent) : Prop := event.msg[event.usedSize]? = some 0

/-- The print the three writers of the text share: it fails when nothing was stored or when the
number of stored characters reaches the room. -/
def print (event : MisightMievent) (text : List UInt8) : ℤ × MisightMievent :=
  let out := scnprintf event.msg event.usedSize event.room text
  -- the number of stored characters is below the room, so only the first test can fire
  have length_msg : out.2.length = mievMaxEventSize :=
    (length_scnprintf event.usedSize_add_room).trans event.length_msg
  if h : out.1 ≤ 0 ∨ event.room ≤ out.1 then (-ENOSPC, { event with msg := out.2, length_msg })
  else
    (0, { event with
      msg := out.2, length_msg
      usedSize := event.usedSize + out.1
      usedSize_lt := by
        have := event.usedSize_add_room.trans event.length_msg
        omega })

section Print

variable (event : MisightMievent) (new : List UInt8)

/-- A print stores what fits and moves the end of the text behind it, whether it fails or not. -/
theorem print_snd :
    (event.print new).2.usedSize = event.usedSize + min new.length (event.room - 1) ∧
      (event.print new).2.msg = (scnprintf event.msg event.usedSize event.room new).2 ∧
      (event.print new).2.paraCnt = event.paraCnt ∧
      (event.print new).2.eventId = event.eventId := by
  have hret := scnprintf_fst event.msg event.usedSize event.room new
  have hroom := event.room_pos
  unfold print
  dsimp only
  split_ifs with h
  · -- a print that fails stored nothing, so the end of the text is where it was
    refine ⟨?_, rfl, rfl, rfl⟩
    show event.usedSize = _
    omega
  · exact ⟨congrArg (event.usedSize + ·) hret, rfl, rfl, rfl⟩

@[simp] theorem usedSize_print :
    (event.print new).2.usedSize = event.usedSize + min new.length (event.room - 1) :=
  (event.print_snd new).1

@[simp] theorem paraCnt_print : (event.print new).2.paraCnt = event.paraCnt :=
  (event.print_snd new).2.2.1

/-- The stored part of a print follows the text. -/
theorem text_print : (event.print new).2.text = event.text ++ new.take (event.room - 1) := by
  rw [text, (event.print_snd new).2.1, usedSize_print,
    take_scnprintf new event.room_pos.ne' event.usedSize_add_room, text]

theorem terminated_print : (event.print new).2.Terminated := by
  rw [Terminated, (event.print_snd new).2.1, usedSize_print]
  exact getElem?_scnprintf new event.room_pos.ne' event.usedSize_add_room

variable {new}

/-- The check after a print sees only one failure: a room of a single byte. -/
theorem print_fst (hnew : new ≠ []) :
    (event.print new).1 = if event.room = 1 then -ENOSPC else 0 := by
  have hret := scnprintf_fst event.msg event.usedSize event.room new
  have hroom := event.room_pos
  have hlen := List.length_pos_iff.mpr hnew
  unfold print
  dsimp only
  rw [apply_dite Prod.fst, dite_eq_ite]
  refine if_congr ?_ rfl rfl
  rw [hret]
  omega

variable {event}

/-- In a room of a single byte a print fails and changes nothing. -/
theorem print_of_full (hnul : event.Terminated) (hfull : event.room = 1) :
    event.print new = (-ENOSPC, event) := by
  have hone : scnprintf event.msg event.usedSize event.room new = (0, event.msg) := by
    rw [hfull, scnprintf_one hnul]
  unfold print
  simp only [hone]
  simp

end Print

end MisightMievent

/-! ## Allocation -/

/-- The opening of the text. -/
def eventHead (eventId : UInt32) (seconds : Int64) : List UInt8 :=
  ascii "EventId " ++ decimal eventId.toNat ++ ascii " -t " ++ decimal seconds.toInt ++
    ascii " -paraList \x7b"

/-- `cdev_tevent_alloc(event_id)`, with the outcomes of its two allocations and the time. -/
def cdevTeventAlloc (eventAllocated msgAllocated : Bool) (eventId : UInt32) (seconds : Int64) :
    Option MisightMievent :=
  if ¬ eventAllocated then none
  else if ¬ msgAllocated then none
  else
    let out := scnprintf (List.replicate mievMaxEventSize 0) 0 mievMaxEventSize
      (eventHead eventId seconds)
    have length_msg : out.2.length = mievMaxEventSize := by
      rw [length_scnprintf (by simp), List.length_replicate]
    if h : out.1 ≤ 0 ∨ mievMaxEventSize ≤ out.1 then none
    else some
      { eventId
        paraCnt := 0
        usedSize := out.1
        msg := out.2, length_msg
        usedSize_lt := by omega }

theorem length_eventHead_le (eventId : UInt32) (seconds : Int64) :
    (eventHead eventId seconds).length ≤ 56 := by
  -- a 32-bit id has at most 10 digits, a 64-bit time at most 19 and a sign
  have hid : (decimal eventId.toNat).length ≤ 10 + 1 := by
    refine length_decimal_le (by decide) ?_
    have := eventId.toNat_lt
    omega
  have hsec : (decimal seconds.toInt).length ≤ 19 + 1 := by
    refine length_decimal_le (by decide) ?_
    have := seconds.toInt_lt
    have := seconds.le_toInt
    omega
  have hparts : (ascii "EventId ").length = 8 ∧ (ascii " -t ").length = 4 ∧
      (ascii " -paraList \x7b").length = 12 := by decide
  simp only [eventHead, List.length_append]
  omega

/-- A fresh event holds the opening, which always fits. -/
theorem cdevTeventAlloc_some {eventAllocated msgAllocated : Bool} {eventId : UInt32}
    {seconds : Int64} {event : MisightMievent}
    (h : cdevTeventAlloc eventAllocated msgAllocated eventId seconds = some event) :
    event.text = eventHead eventId seconds ∧ event.Terminated ∧ event.paraCnt = 0 := by
  have hhead := length_eventHead_le eventId seconds
  have hsize : mievMaxEventSize = 2048 := rfl
  have hbuf : 0 + mievMaxEventSize = (List.replicate mievMaxEventSize (0 : UInt8)).length := by
    simp
  have hret := scnprintf_fst (List.replicate mievMaxEventSize 0) 0 mievMaxEventSize
    (eventHead eventId seconds)
  have htake := take_scnprintf (eventHead eventId seconds) (by decide) hbuf
  have hnul := getElem?_scnprintf (eventHead eventId seconds) (by decide) hbuf
  rw [← hret, Nat.zero_add] at htake hnul
  unfold cdevTeventAlloc at h
  dsimp only at h
  split_ifs at h
  obtain rfl := Option.some.inj h
  -- of the print into the zeroed buffer only the text is left to read off
  refine ⟨?_, hnul, rfl⟩
  show List.take _ _ = _
  rw [htake, List.take_zero, List.nil_append, List.take_of_length_le (by omega)]

/-- An allocation succeeds when its two buffers are there. -/
theorem exists_cdevTeventAlloc (eventId : UInt32) (seconds : Int64) :
    ∃ event, cdevTeventAlloc true true eventId seconds = some event := by
  have hhead := length_eventHead_le eventId seconds
  have hsize : mievMaxEventSize = 2048 := rfl
  have hpos : 0 < (eventHead eventId seconds).length := by
    have hopening : (ascii "EventId ").length = 8 := by decide
    simp only [eventHead, List.length_append]
    omega
  have hret := scnprintf_fst (List.replicate mievMaxEventSize 0) 0 mievMaxEventSize
    (eventHead eventId seconds)
  unfold cdevTeventAlloc
  dsimp only
  rw [dif_neg (by omega)]
  exact ⟨_, rfl⟩

/-! ## Parameters -/

/-- The separator a parameter is printed with: a comma, except before the first. -/
def separator (event : MisightMievent) : List UInt8 :=
  if event.paraCnt ≠ 0 then ascii "," else []

/-- The rendering of `"%s":%ld`. -/
def intParam (key : CString) (value : Int64) : List UInt8 :=
  ascii "\"" ++ key.chars ++ ascii "\":" ++ decimal value.toInt

/-- The rendering of `"%s":"%s"`. -/
def strParam (key value : CString) : List UInt8 :=
  ascii "\"" ++ key.chars ++ ascii "\":\"" ++ value.chars ++ ascii "\""

/-- What the two additions do once their checks passed: the print, and on success the count. -/
def MisightMievent.addText (event : MisightMievent) (text : List UInt8) : ℤ × MisightMievent :=
  let (ret, event) := event.print text
  if ret ≠ 0 then (ret, event) else (0, { event with paraCnt := event.paraCnt + 1 })

namespace MisightMievent

variable {event : MisightMievent} {text : List UInt8}

/-- The event after a print that succeeded and was counted. -/
def added (event : MisightMievent) (text : List UInt8) : MisightMievent :=
  { (event.print text).2 with paraCnt := event.paraCnt + 1 }

theorem terminated_added : (event.added text).Terminated := event.terminated_print text

theorem text_added : (event.added text).text = event.text ++ text.take (event.room - 1) :=
  event.text_print text

/-- Where the room has more than one byte an addition succeeds. -/
theorem addText_of_room (htext : text ≠ []) (hroom : event.room ≠ 1) :
    event.addText text = (0, event.added text) := by
  have hret : (event.print text).1 = 0 := by rw [print_fst event htext, if_neg hroom]
  simp [addText, added, hret]

/-- In a room of a single byte an addition fails and changes nothing. -/
theorem addText_of_full (hnul : event.Terminated) (hfull : event.room = 1) :
    event.addText text = (-ENOSPC, event) := by
  simp [addText, print_of_full hnul hfull, ENOSPC]

end MisightMievent

/-- `cdev_tevent_add_int(event, key, value)` on an allocated event; the key may be null. -/
def cdevTeventAddInt (event : MisightMievent) (key : Option CString) (value : Int64) :
    ℤ × MisightMievent :=
  match key with
  | none => (-EINVAL, event)
  | some key =>
    if event.paraCnt ≥ mievMaxParams then (-ENOSPC, event)
    else if key.chars.length ≥ mievMaxParamName then (-EINVAL, event)
    else event.addText (separator event ++ intParam key value)

/-- `cdev_tevent_add_str(event, key, value)` on an allocated event; the key and the value may be
null. -/
def cdevTeventAddStr (event : MisightMievent) (key value : Option CString) :
    ℤ × MisightMievent :=
  match key, value with
  | some key, some value =>
    if event.paraCnt ≥ mievMaxParams then (-ENOSPC, event)
    else if key.chars.length ≥ mievMaxParamName ∨ value.chars.length ≥ mievMaxParamString then
      (-EINVAL, event)
    else event.addText (separator event ++ strParam key value)
  | _, _ => (-EINVAL, event)

/-! ## Writing -/

/-- The end of the text. -/
def terminator : List UInt8 := ascii "\x7d\n"

/-- `cdev_tevent_write(event)` on an allocated event. -/
def cdevTeventWrite (mievDev : Option MievDevice) (event : MisightMievent) :
    ℤ × MisightMievent × Option MievDevice :=
  let (ret, event) := event.print terminator
  if ret ≠ 0 then (ret, event, mievDev)
  else
    -- from here on the terminator stays in the event, whatever becomes of the write
    let (ret, mievDev) := writeBufInner mievDev (some event.msg) event.usedSize
    (ret, event, mievDev)

/-- A write leaves the event with the terminator printed, whatever becomes of the write. -/
theorem event_cdevTeventWrite (mievDev : Option MievDevice) (event : MisightMievent) :
    (cdevTeventWrite mievDev event).2.1 = (event.print terminator).2 := by
  unfold cdevTeventWrite
  dsimp only
  split_ifs <;> rfl

/-- The bytes a write of the event hands to `write_buf_inner`, where it reaches it. -/
def MisightMievent.handedOver (event : MisightMievent) : Option (List UInt8) :=
  if (event.print terminator).1 = 0 then some (event.print terminator).2.text else none

theorem terminator_ne_nil : terminator ≠ [] := by decide

@[simp] theorem length_terminator : terminator.length = 2 := rfl

/-- What is handed over is the text with the stored part of the terminator. -/
theorem MisightMievent.handedOver_eq (event : MisightMievent) :
    event.handedOver =
      if event.room = 1 then none else some (event.text ++ terminator.take (event.room - 1)) := by
  rw [handedOver, print_fst event terminator_ne_nil, text_print]
  split_ifs <;> simp_all [ENOSPC]

theorem MisightMievent.length_of_handedOver {event : MisightMievent} {bytes : List UInt8}
    (h : event.handedOver = some bytes) : 0 < bytes.length ∧ bytes.length ≤ mievMaxEventSize := by
  have hroom := event.room_pos
  have hsize := event.usedSize_add_room.trans event.length_msg
  rw [handedOver_eq] at h
  split_ifs at h with hfull
  obtain rfl := Option.some.inj h
  -- a room above 1 stores at least one byte of the terminator
  rw [List.length_append, List.length_take, length_text, length_terminator]
  omega

/-- The bytes handed over stand at the beginning of the buffer. -/
theorem MisightMievent.bytes_of_handedOver (event : MisightMievent) {bytes : List UInt8}
    (h : event.handedOver = some bytes) :
    bytes = (event.print terminator).2.msg.take bytes.length ∧
      bytes.length ≤ (event.print terminator).2.msg.length := by
  unfold handedOver at h
  split_ifs at h with hret
  obtain rfl := Option.some.inj h
  constructor
  · rw [length_text]
    rfl
  · rw [length_text, length_msg]
    exact (usedSize_lt _).le

/-- A write whose terminator is stored hands the terminated text over. -/
theorem cdevTeventWrite_eq_of_handedOver (mievDev : Option MievDevice) {event : MisightMievent}
    {bytes : List UInt8} (h : event.handedOver = some bytes) :
    cdevTeventWrite mievDev event =
      let (ret, mievDev) := writeBufInner mievDev (some (event.print terminator).2.msg) bytes.length
      (ret, (event.print terminator).2, mievDev) := by
  unfold MisightMievent.handedOver at h
  split_ifs at h with hret
  obtain rfl := Option.some.inj h
  simp [cdevTeventWrite, hret]

/-- The same for a loaded device: the FIFO takes what fits, and the write succeeds when all of it
does. -/
theorem cdevTeventWrite_some (dev : MievDevice) {event : MisightMievent} {bytes : List UInt8}
    (h : event.handedOver = some bytes) :
    cdevTeventWrite (some dev) event =
      (if bytes.length ≤ dev.fifo.free then 0 else -ENOSPC, (event.print terminator).2,
        some { dev with fifo := (dev.fifo.put bytes).2 }) := by
  obtain ⟨htake, hle⟩ := event.bytes_of_handedOver h
  rw [cdevTeventWrite_eq_of_handedOver _ h,
    writeBufInner_some dev (MisightMievent.length_of_handedOver h).1 hle, ← htake]

/-- A write whose terminator is refused leaves the device alone. -/
theorem cdevTeventWrite_of_not_handedOver (mievDev : Option MievDevice) {event : MisightMievent}
    (h : event.handedOver = none) :
    cdevTeventWrite mievDev event =
      ((event.print terminator).1, (event.print terminator).2, mievDev) := by
  unfold MisightMievent.handedOver at h
  split_ifs at h with hret
  simp [cdevTeventWrite, hret]

end XiaomiModules
