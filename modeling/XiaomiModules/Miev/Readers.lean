import Mathlib.Logic.Function.Basic
import XiaomiModules.Miev.Event

/-!
# Concurrent readers

A read of `/dev/miev` checks for data, waits for it if there is none, and then copies under the
lock. The check and the copy are separate steps, and any number of readers and writers may take
steps in between; so a copy may find the FIFO emptied by another reader, and then returns 0, which
a user takes for the end of the stream.

## Main definitions

* `ReadCall`, `Reader`: a call of `read`, and how far a reader is with it
* `Readers`, `Readers.step`: the device with its readers, and one step of one of them or of a writer
* `Readers.NoFalseEof`: every read with a valid buffer was served, or refused with its error
* `Readers.FindsData`: the condition on a copy

## Main results

* `Readers.noFalseEof_iff`: no read sees a false end of file exactly when every copy finds data
* `Readers.noFalseEof_of_alone`: readers that do not overlap see none
-/

namespace XiaomiModules

/-- A call of `read`: the count, whether the file is non-blocking, and where the copy to the user's
buffer faults, if it does. -/
structure ReadCall where
  count : ℕ
  nonblock : Bool
  fault : Option ℕ
deriving DecidableEq

/-- How far a reader is: without a call, asleep in the wait, or past the check and before the
lock. -/
inductive Reader
  | idle
  | waiting (call : ReadCall)
  | checked (call : ReadCall)
deriving DecidableEq

/-- The bytes in the FIFO. -/
def contentOf (mievDev : Option MievDevice) : List UInt8 :=
  (mievDev.map (·.fifo.content)).getD []

/-- The device and its readers, the return values of the finished reads, the bytes that left the
FIFO, the bytes that reads with a positive return value put in front of their users, and how many
bytes these return values report. -/
structure Readers where
  mievDev : Option MievDevice
  reader : ℕ → Reader
  returned : List (ReadCall × ℤ)
  removed : List UInt8
  received : List UInt8
  reported : ℕ

/-- A step of a reader or of a writer. -/
inductive ReadersEvent
  | begin (id : ℕ) (call : ReadCall)
  | wake (id : ℕ)
  | interrupt (id : ℕ)
  | copy (id : ℕ)
  | teventWrite (event : MisightMievent)
  | userWrite (buf : UserBuffer)

namespace Readers

/-- A loaded device without readers. -/
def start (dev : MievDevice) : Readers := ⟨some dev, fun _ => .idle, [], [], [], 0⟩

/-- The reader moves on. -/
def moveTo (s : Readers) (id : ℕ) (r : Reader) : Readers :=
  { s with reader := Function.update s.reader id r }

/-- The reader's call returns. -/
def finish (s : Readers) (id : ℕ) (call : ReadCall) (ret : ℤ) : Readers :=
  { s.moveTo id .idle with returned := s.returned ++ [(call, ret)] }

/-- One step; a step that is not the reader's next one does nothing. -/
def step (s : Readers) : ReadersEvent → Readers
  | .begin id call =>
    match s.reader id with
    | .idle =>
      match mievReadCheck s.mievDev call.nonblock with
      | .refuse ret => s.finish id call ret
      | .wait => s.moveTo id (.waiting call)
      | .copy => s.moveTo id (.checked call)
    | _ => s
  | .wake id =>
    match s.reader id with
    | .waiting call => if contentOf s.mievDev = [] then s else s.moveTo id (.checked call)
    | _ => s
  | .interrupt id =>
    match s.reader id with
    -- a signal ends the wait where its last check still finds nothing
    | .waiting call =>
      if contentOf s.mievDev = [] then s.finish id call (-ERESTARTSYS) else s
    | _ => s
  | .copy id =>
    match s.reader id with
    | .checked call =>
      let (ret, out, mievDev) := mievReadCopy s.mievDev call.count call.fault
      let left := (contentOf s.mievDev).length - (contentOf mievDev).length
      { s.finish id call ret with
        mievDev
        removed := s.removed ++ (contentOf s.mievDev).take left
        -- a positive return value tells the user how much of the buffer holds data
        received := s.received ++ out.take ret.toNat
        reported := s.reported + ret.toNat }
    | _ => s
  | .teventWrite event => { s with mievDev := (cdevTeventWrite s.mievDev event).2.2 }
  | .userWrite buf => { s with mievDev := (mievWrite s.mievDev buf).2 }

/-- The read returned at least one byte, or the error of a non-blocking read that finds nothing or
of an interrupted wait. -/
def Served (call : ReadCall) (ret : ℤ) : Prop :=
  0 < ret ∨ ret = -EAGAIN ∧ call.nonblock = true ∨ ret = -ERESTARTSYS ∧ call.nonblock = false

/-- Every finished read with a positive count and a valid buffer was served. -/
def NoFalseEof (s : Readers) : Prop :=
  ∀ r ∈ s.returned, 0 < r.1.count → r.1.fault = none → Served r.1 r.2

/-- The call that a step copies for, if it does. -/
def copying (s : Readers) : ReadersEvent → Option (ℕ × ReadCall)
  | .copy id =>
    match s.reader id with
    | .checked call => some (id, call)
    | _ => none
  | _ => none

/-- A copy with a positive count and a valid buffer finds data in the FIFO. -/
def FindsData (s : Readers) (e : ReadersEvent) : Prop :=
  ∀ id call, s.copying e = some (id, call) → 0 < call.count → call.fault = none →
    contentOf s.mievDev ≠ []

/-- A reader makes its check, or wakes up to it, only while no other is past its own. -/
def Alone (s : Readers) : ReadersEvent → Prop
  | .begin id _ | .wake id => ∀ other, other ≠ id → ∀ call, s.reader other ≠ .checked call
  | _ => True

/-- The device stays loaded while its file is open, and only blocking reads wait. -/
structure Open (s : Readers) : Prop where
  loaded : s.mievDev.isSome
  blocking : ∀ id call, s.reader id = .waiting call → call.nonblock = false

variable {s : Readers}

theorem open_start (dev : MievDevice) : (start dev).Open :=
  ⟨rfl, fun _ _ h => Reader.noConfusion h⟩

theorem reader_moveTo (s : Readers) (id other : ℕ) (r : Reader) :
    (s.moveTo id r).reader other = if other = id then r else s.reader other :=
  Function.update_apply _ _ _ _

/-- A reader that does not start to wait without blocking keeps the device open. -/
theorem Open.moveTo (h : s.Open) {id : ℕ} {r : Reader}
    (hr : ∀ call, r = .waiting call → call.nonblock = false) : (s.moveTo id r).Open := by
  refine ⟨h.loaded, fun other call hwait => ?_⟩
  rw [reader_moveTo] at hwait
  split_ifs at hwait
  · exact hr call hwait
  · exact h.blocking other call hwait

theorem Open.finish (h : s.Open) (id : ℕ) (call : ReadCall) (ret : ℤ) :
    (s.finish id call ret).Open :=
  ⟨h.loaded, (h.moveTo fun _ hr => Reader.noConfusion hr).blocking⟩

/-- What reaches the FIFO of a loaded device goes behind its content. -/
theorem cdevTeventWrite_content (dev : MievDevice) (event : MisightMievent) :
    ∃ dev', (cdevTeventWrite (some dev) event).2.2 = some dev' ∧
      dev.fifo.content <+: dev'.fifo.content := by
  cases hover : event.handedOver with
  | none =>
    rw [cdevTeventWrite_of_not_handedOver _ hover]
    exact ⟨dev, rfl, List.prefix_rfl⟩
  | some bytes =>
    rw [cdevTeventWrite_some dev hover]
    exact ⟨_, rfl, List.prefix_append _ _⟩

theorem mievWrite_content (dev : MievDevice) (buf : UserBuffer) :
    ∃ dev', (mievWrite (some dev) buf).2 = some dev' ∧
      dev.fifo.content <+: dev'.fifo.content := by
  cases hover : buf.handedOver with
  | none =>
    rw [(mievWrite_of_not_handedOver _ hover).1]
    exact ⟨dev, rfl, List.prefix_rfl⟩
  | some bytes =>
    have hle : bytes.length ≤ (bytes ++ [0]).length := by
      rw [List.length_append]
      exact Nat.le_add_right _ _
    rw [mievWrite_eq_of_handedOver _ hover,
      writeBufInner_some dev (UserBuffer.length_of_handedOver hover).1 hle]
    exact ⟨_, rfl, List.prefix_append _ _⟩

/-- The position at which a copy from the device faults, if it does. -/
def faultOf (dev : MievDevice) (call : ReadCall) : Option ℕ :=
  call.fault.filter (· < min call.count dev.fifo.content.length)

/-- How many bytes a copy consumes, where they are there. -/
def consumed (dev : MievDevice) (call : ReadCall) : ℕ := (faultOf dev call).getD call.count

/-- What a copy returns: how many bytes it copied, or the error of a fault as an `unsigned int`. -/
def copyRet (dev : MievDevice) (call : ReadCall) : ℤ :=
  if (faultOf dev call).isSome then uintSize - EFAULT
  else (min call.count dev.fifo.content.length : ℕ)

/-- A copy hands over the bytes it consumes, and says how many unless it faults on the way. -/
theorem mievReadCopy_some (dev : MievDevice) (call : ReadCall) :
    mievReadCopy (some dev) call.count call.fault =
      (copyRet dev call, dev.fifo.content.take (consumed dev call),
        some ⟨(dev.fifo.take (consumed dev call)).2⟩) := by
  cases h : faultOf dev call with
  | none =>
    have hcopy : kfifoToUser dev.fifo call.count call.fault = (0, dev.fifo.take call.count) := by
      unfold kfifoToUser
      cases hfault : call.fault with
      | none => rfl
      | some j =>
        have hj : ¬ j < min call.count dev.fifo.content.length := by
          simpa [faultOf, hfault, Option.filter] using h
        exact if_neg hj
    have hfits : min call.count dev.fifo.content.length ≤ mievFifoSize :=
      (min_le_right _ _).trans dev.fifo.length_le
    have hcopied := unsignedInt_natCast ((Int.ofNat_le.mpr hfits).trans_lt (by decide))
    simp only [mievReadCopy, hcopy, copyRet, consumed, h, BoundedFifo.take_fst, List.length_take,
      hcopied, ne_eq, not_true_eq_false, if_false, Option.isSome_none, Option.getD_none,
      Bool.false_eq_true]
  | some j =>
    obtain ⟨hfault, hj⟩ := Option.filter_eq_some_iff.mp h
    have hcopy : kfifoToUser dev.fifo call.count call.fault = (-EFAULT, dev.fifo.take j) := by
      rw [hfault]
      exact if_pos (of_decide_eq_true hj)
    have herror : unsignedInt (-EFAULT) = uintSize - EFAULT :=
      unsignedInt_neg_errno EFAULT
    have hne : -EFAULT ≠ 0 := (neg_errno_lt_zero EFAULT).ne
    simp [mievReadCopy, hcopy, copyRet, consumed, h, herror, hne]

/-- A copy is never reported short, and in full exactly when it does not fault: the error of a fault
is a greater number than the FIFO holds bytes. -/
theorem length_consumed_le (dev : MievDevice) (call : ReadCall) :
    (dev.fifo.content.take (consumed dev call)).length ≤ (copyRet dev call).toNat ∧
      ((dev.fifo.content.take (consumed dev call)).length = (copyRet dev call).toNat ↔
        faultOf dev call = none) := by
  rw [List.length_take, copyRet, consumed]
  cases h : faultOf dev call with
  | none => exact ⟨le_rfl, iff_of_true rfl rfl⟩
  | some j =>
    have herror : (uintSize - EFAULT).toNat = 4294967282 := rfl
    have hfits : min j dev.fifo.content.length < 4294967282 :=
      ((min_le_right _ _).trans dev.fifo.length_le).trans_lt (by decide)
    simp only [Option.isSome_some, if_true, Option.getD_some, herror]
    exact ⟨hfits.le, iff_of_false hfits.ne (Option.some_ne_none j)⟩

/-- The bytes by which a list has become shorter are those dropped. -/
theorem take_length_sub_length_drop (l : List UInt8) (n : ℕ) :
    l.take (l.length - (l.drop n).length) = l.take n := by
  rw [List.take_eq_take_iff, List.length_drop]
  omega

/-- The readers after a copy for a call: the bytes it consumes leave the FIFO and reach the user's
buffer, and as many as it returns are reported. -/
def copied (s : Readers) (dev : MievDevice) (id : ℕ) (call : ReadCall) : Readers :=
  { s.finish id call (copyRet dev call) with
    mievDev := some ⟨(dev.fifo.take (consumed dev call)).2⟩
    removed := s.removed ++ dev.fifo.content.take (consumed dev call)
    received := s.received ++ dev.fifo.content.take (consumed dev call)
    reported := s.reported + (copyRet dev call).toNat }

theorem step_copy {dev : MievDevice} (hdev : s.mievDev = some dev) {id : ℕ} {call : ReadCall}
    (hreader : s.reader id = .checked call) : s.step (.copy id) = s.copied dev id call := by
  have htake : (dev.fifo.content.take (consumed dev call)).take (copyRet dev call).toNat =
      dev.fifo.content.take (consumed dev call) :=
    List.take_of_length_le (length_consumed_le dev call).1
  simp only [step, copied, hreader, hdev, mievReadCopy_some, htake, contentOf, Option.map_some,
    Option.getD_some, BoundedFifo.take_content, take_length_sub_length_drop]

/-- What a step does to the readers of an open device. -/
inductive Moves (s : Readers) : ReadersEvent → Readers → Prop
  | stay {e : ReadersEvent} (hcopy : s.copying e = none) : Moves s e s
  | pass {e : ReadersEvent} (id : ℕ) (call : ReadCall) (hcopy : s.copying e = none)
      (hidle : ∀ call, s.reader id ≠ .checked call) (hdata : contentOf s.mievDev ≠ [])
      (he : e = .begin id call ∨ e = .wake id) : Moves s e (s.moveTo id (.checked call))
  | sleep {e : ReadersEvent} (id : ℕ) (call : ReadCall) (hcopy : s.copying e = none)
      (hblocking : call.nonblock = false) : Moves s e (s.moveTo id (.waiting call))
  | refuse {e : ReadersEvent} (id : ℕ) (call : ReadCall) (ret : ℤ) (hcopy : s.copying e = none)
      (hserved : Served call ret) : Moves s e (s.finish id call ret)
  | copy {e : ReadersEvent} (id : ℕ) (call : ReadCall) (dev : MievDevice)
      (hcopy : s.copying e = some (id, call)) (hdev : s.mievDev = some dev)
      (hreader : s.reader id = .checked call) : Moves s e (s.copied dev id call)
  | write {e : ReadersEvent} (dev dev' : MievDevice) (hcopy : s.copying e = none)
      (hdev : s.mievDev = some dev) (hcontent : dev.fifo.content <+: dev'.fifo.content) :
      Moves s e { s with mievDev := some dev' }

theorem moves_begin (h : s.Open) (id : ℕ) (call : ReadCall) :
    Moves s (.begin id call) (s.step (.begin id call)) := by
  obtain ⟨dev, hdev⟩ := Option.isSome_iff_exists.mp h.loaded
  cases hreader : s.reader id with
  | waiting _ => simpa only [step, hreader] using Moves.stay rfl
  | checked _ => simpa only [step, hreader] using Moves.stay rfl
  | idle =>
    have hidle : ∀ call, s.reader id ≠ .checked call := by simp [hreader]
    simp only [step, hreader, hdev, mievReadCheck, kfifoIsEmpty, List.isEmpty_iff]
    split_ifs with hempty hnonblock
    · exact Moves.refuse id call _ rfl (Or.inr (Or.inl ⟨rfl, hnonblock⟩))
    · exact Moves.sleep id call rfl (Bool.eq_false_iff.mpr hnonblock)
    · refine Moves.pass id call rfl hidle ?_ (Or.inl rfl)
      rw [hdev]
      exact hempty

theorem moves_step (h : s.Open) (e : ReadersEvent) : Moves s e (s.step e) := by
  obtain ⟨dev, hdev⟩ := Option.isSome_iff_exists.mp h.loaded
  cases e with
  | begin id call => exact moves_begin h id call
  | wake id =>
    cases hreader : s.reader id with
    | idle => simpa only [step, hreader] using Moves.stay rfl
    | checked _ => simpa only [step, hreader] using Moves.stay rfl
    | waiting call =>
      have hidle : ∀ call, s.reader id ≠ .checked call := by simp [hreader]
      simp only [step, hreader]
      split_ifs with hempty
      · -- the condition of the wait is tested again, and fails
        exact Moves.stay rfl
      · exact Moves.pass id call rfl hidle hempty (Or.inr rfl)
  | interrupt id =>
    cases hreader : s.reader id with
    | idle => simpa only [step, hreader] using Moves.stay rfl
    | checked _ => simpa only [step, hreader] using Moves.stay rfl
    | waiting call =>
      simp only [step, hreader]
      split_ifs
      · -- a reader that waits has asked for a blocking read
        exact Moves.refuse id call _ rfl (Or.inr (Or.inr ⟨rfl, h.blocking id call hreader⟩))
      · exact Moves.stay rfl
  | copy id =>
    cases hreader : s.reader id with
    | idle => simpa only [step, hreader] using Moves.stay (by simp [copying, hreader])
    | waiting _ => simpa only [step, hreader] using Moves.stay (by simp [copying, hreader])
    | checked call =>
      rw [step_copy hdev hreader]
      exact Moves.copy id call dev (by simp [copying, hreader]) hdev hreader
  | teventWrite event =>
    obtain ⟨dev', hdev', hcontent⟩ := cdevTeventWrite_content dev event
    simp only [step, hdev, hdev']
    exact Moves.write dev dev' rfl hdev hcontent
  | userWrite buf =>
    obtain ⟨dev', hdev', hcontent⟩ := mievWrite_content dev buf
    simp only [step, hdev, hdev']
    exact Moves.write dev dev' rfl hdev hcontent

/-- Every step keeps the device open. -/
theorem Open.step (h : s.Open) (e : ReadersEvent) : (s.step e).Open := by
  have hmoves := moves_step h e
  generalize s.step e = s' at hmoves ⊢
  cases hmoves with
  | stay => exact h
  | pass id call => exact h.moveTo fun _ hr => Reader.noConfusion hr
  | sleep id call _ hblocking =>
    refine h.moveTo fun other hr => ?_
    obtain rfl := Reader.waiting.inj hr
    exact hblocking
  | refuse id call ret => exact h.finish id call ret
  | copy id call dev => exact ⟨rfl, (h.finish id call (copyRet dev call)).blocking⟩
  | write dev dev' => exact ⟨rfl, h.blocking⟩

/-! ## False end of file -/

theorem noFalseEof_finish (id : ℕ) (call : ReadCall) (ret : ℤ) :
    (s.finish id call ret).NoFalseEof ↔
      s.NoFalseEof ∧ (0 < call.count → call.fault = none → Served call ret) := by
  unfold NoFalseEof finish
  rw [List.forall_mem_append, List.forall_mem_singleton]

theorem not_served_zero (call : ReadCall) : ¬ Served call 0 := by
  rintro (hpos | ⟨hret, -⟩ | ⟨hret, -⟩)
  · exact lt_irrefl 0 hpos
  · exact absurd hret (by decide)
  · exact absurd hret (by decide)

/-- A copy with a positive count and a valid buffer is served exactly when it finds data. -/
theorem served_copyRet_iff {dev : MievDevice} {call : ReadCall} (hcount : 0 < call.count)
    (hfault : call.fault = none) :
    Served call (copyRet dev call) ↔ dev.fifo.content ≠ [] := by
  have hret : copyRet dev call = (min call.count dev.fifo.content.length : ℕ) := by
    simp [copyRet, faultOf, hfault]
  rw [hret]
  by_cases hnil : dev.fifo.content = []
  · rw [hnil, List.length_nil, Nat.min_zero]
    exact iff_of_false (not_served_zero call) fun h => h rfl
  · have hpos : 0 < min call.count dev.fifo.content.length :=
      lt_min hcount (List.length_pos_iff.mpr hnil)
    exact iff_of_true (Or.inl (Int.natCast_pos.mpr hpos)) hnil

/-- A step that copies for nobody finds whatever data it is to find. -/
theorem findsData_of_none {e : ReadersEvent} (hcopy : s.copying e = none) : s.FindsData e := by
  intro id call hsome
  rw [hcopy] at hsome
  exact absurd hsome.symm (Option.some_ne_none _)

/-- **One step**: it adds no false end of file exactly when, being a copy, it finds data. -/
theorem noFalseEof_step_iff (h : s.Open) (e : ReadersEvent) :
    (s.step e).NoFalseEof ↔ s.NoFalseEof ∧ s.FindsData e := by
  have hmoves := moves_step h e
  generalize s.step e = s' at hmoves ⊢
  cases hmoves with
  | stay hcopy => exact (and_iff_left (findsData_of_none hcopy)).symm
  | pass id call hcopy => exact (and_iff_left (findsData_of_none hcopy)).symm
  | sleep id call hcopy => exact (and_iff_left (findsData_of_none hcopy)).symm
  | write dev dev' hcopy => exact (and_iff_left (findsData_of_none hcopy)).symm
  | refuse id call ret hcopy hserved =>
    rw [noFalseEof_finish, and_iff_left (findsData_of_none hcopy)]
    exact and_iff_left fun _ _ => hserved
  | copy id call dev hcopy hdev =>
    have hcontent : contentOf s.mievDev = dev.fifo.content := by
      rw [hdev]
      rfl
    -- only the call that returns is new, and it is served where its copy finds data
    refine (noFalseEof_finish id call (copyRet dev call)).trans (and_congr_right fun _ => ?_)
    constructor
    · intro hserved id' call' hcopy' hcount hfault
      obtain ⟨-, rfl⟩ := Prod.mk.inj (Option.some.inj (hcopy.symm.trans hcopy'))
      rw [hcontent]
      exact (served_copyRet_iff hcount hfault).mp (hserved hcount hfault)
    · intro hfinds hcount hfault
      rw [served_copyRet_iff hcount hfault, ← hcontent]
      exact hfinds id call hcopy hcount hfault

theorem noFalseEof_start (dev : MievDevice) : (start dev).NoFalseEof :=
  fun _ h => absurd h List.not_mem_nil

/-- A run of an open device brings no false end of file exactly where its copies find data. -/
theorem noFalseEof_after_iff (h : s.Open) (events : List ReadersEvent) :
    (Runs.after step s events).NoFalseEof ↔
      s.NoFalseEof ∧ Runs.Along step FindsData s events :=
  Runs.after_iff_along (fun _ e h => h.step e) (fun _ e h => noFalseEof_step_iff h e) h events

/-- **False end of file, exactly**: in a run of any readers and writers on a loaded device, every
read with a positive count and a valid buffer is served if and only if every copy for such a read
finds data. -/
theorem noFalseEof_iff (dev : MievDevice) (events : List ReadersEvent) :
    (Runs.after step (start dev) events).NoFalseEof ↔
      Runs.Along step FindsData (start dev) events := by
  rw [noFalseEof_after_iff (open_start dev)]
  exact and_iff_right (noFalseEof_start dev)

/-- At most one reader is past its check, and there is data for it. -/
structure Solo (s : Readers) : Prop where
  data : ∀ id call, s.reader id = .checked call → contentOf s.mievDev ≠ []
  unique : ∀ id id' call call', s.reader id = .checked call → s.reader id' = .checked call' →
    id = id'

/-- Where no reader gets past a check, at most one still is. -/
theorem Solo.mono (h : s.Solo) {s' : Readers}
    (hreader : ∀ id call, s'.reader id = .checked call → s.reader id = .checked call)
    (hdata : contentOf s.mievDev ≠ [] → contentOf s'.mievDev ≠ []) : s'.Solo where
  data id call hchecked := hdata (h.data id call (hreader id call hchecked))
  unique id id' call call' hchecked hchecked' :=
    h.unique id id' call call' (hreader id call hchecked) (hreader id' call' hchecked')

/-- A reader that moves on, and not past its check, leaves the others where they were. -/
theorem checked_of_moveTo {id other : ℕ} {r : Reader} {call : ReadCall}
    (hr : ∀ call, r ≠ .checked call) (h : (s.moveTo id r).reader other = .checked call) :
    other ≠ id ∧ s.reader other = .checked call := by
  rw [reader_moveTo] at h
  split_ifs at h with hother
  · exact absurd h (hr call)
  · exact ⟨hother, h⟩

/-- A step of readers that do not overlap keeps one reader past its check at most. -/
theorem Solo.step (h : s.Solo) (hopen : s.Open) {e : ReadersEvent} (halone : s.Alone e) :
    (s.step e).Solo := by
  have hmoves := moves_step hopen e
  generalize s.step e = s' at hmoves ⊢
  cases hmoves with
  | stay => exact h
  | sleep id call =>
    refine h.mono (fun other call' hchecked => ?_) fun hdata => hdata
    exact (checked_of_moveTo (fun _ => Reader.noConfusion) hchecked).2
  | refuse id call ret =>
    refine h.mono (fun other call' hchecked => ?_) fun hdata => hdata
    exact (checked_of_moveTo (fun _ => Reader.noConfusion) hchecked).2
  | write dev dev' hcopy hdev hcontent =>
    -- a writer only adds to the data that the reader past its check has found
    refine h.mono (fun _ _ hchecked => hchecked) fun hdata hnil => hdata ?_
    replace hnil : dev'.fifo.content = [] := hnil
    rw [hnil] at hcontent
    rw [hdev]
    exact List.prefix_nil.mp hcontent
  | pass id call _ _ hdata he =>
    -- the reader that passes its check is the only one past it
    have hothers : ∀ other, other ≠ id → ∀ call, s.reader other ≠ .checked call := by
      rcases he with rfl | rfl
      · exact halone
      · exact halone
    have honly : ∀ other call', (s.moveTo id (.checked call)).reader other = .checked call' →
        other = id := by
      intro other call' hchecked
      by_contra hother
      rw [reader_moveTo, if_neg hother] at hchecked
      exact hothers other hother call' hchecked
    exact ⟨fun _ _ _ => hdata, fun other other' call call' hchecked hchecked' =>
      (honly other call hchecked).trans (honly other' call' hchecked').symm⟩
  | copy id call dev _ _ hreader =>
    -- the only reader past its check is the one whose call returns
    have hnone : ∀ other call', (s.copied dev id call).reader other ≠ .checked call' := by
      intro other call' hchecked
      obtain ⟨hother, hchecked'⟩ := checked_of_moveTo (fun _ => Reader.noConfusion) hchecked
      exact hother (h.unique other id call' call hchecked' hreader)
    exact ⟨fun other call' hchecked => absurd hchecked (hnone other call'),
      fun other _ call' _ hchecked => absurd hchecked (hnone other call')⟩

theorem Solo.findsData (h : s.Solo) (e : ReadersEvent) : s.FindsData e := by
  intro id call hcopy _ _
  unfold copying at hcopy
  split at hcopy
  · split at hcopy
    · rename_i hreader
      exact h.data _ _ hreader
    · exact absurd hcopy.symm (Option.some_ne_none _)
  · exact absurd hcopy.symm (Option.some_ne_none _)

/-- **Readers that do not overlap** never see a false end of file. -/
theorem noFalseEof_of_alone (dev : MievDevice) {events : List ReadersEvent}
    (h : Runs.Along step Alone (start dev) events) :
    (Runs.after step (start dev) events).NoFalseEof := by
  have hstart : (start dev).Open ∧ (start dev).Solo :=
    ⟨open_start dev, fun _ _ hchecked => Reader.noConfusion hchecked,
      fun _ _ _ _ hchecked => Reader.noConfusion hchecked⟩
  rw [noFalseEof_after_iff (open_start dev)]
  refine ⟨noFalseEof_start dev, ?_⟩
  exact h.mono_of_invariant (I := fun s => s.Open ∧ s.Solo)
    (fun _ e hs halone => ⟨hs.1.step e, hs.2.step hs.1 halone⟩)
    (fun _ e hs _ => hs.2.findsData e) hstart

section TwoReaders

/-- A device with one byte in its FIFO. -/
def oneByteDevice : MievDevice := ⟨⟨[0], by decide⟩⟩

/-- Two blocking readers check while there is one byte; the first takes it, and the second returns
0. -/
theorem not_noFalseEof_twoReaders :
    ¬ (Runs.after step (start oneByteDevice) [.begin 0 ⟨1, false, none⟩, .begin 1 ⟨1, false, none⟩,
      .copy 0, .copy 1]).NoFalseEof := by
  have hreturned : (Runs.after step (start oneByteDevice) [.begin 0 ⟨1, false, none⟩,
      .begin 1 ⟨1, false, none⟩, .copy 0, .copy 1]).returned =
        [(⟨1, false, none⟩, 1), (⟨1, false, none⟩, 0)] := by decide
  intro h
  refine not_served_zero ⟨1, false, none⟩ (h (⟨1, false, none⟩, 0) ?_ (by decide) rfl)
  rw [hreturned]
  exact List.mem_cons_of_mem _ List.mem_cons_self

end TwoReaders

end Readers

end XiaomiModules
