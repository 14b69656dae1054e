import Mathlib.Logic.Function.Basic
import XiaomiModules.Miev.Lines

/-!
# The wait queue of miev

A blocking read and a poll of `/dev/miev` put themselves on the wait queue of the device and then
look into the FIFO, without the lock. A write stores its buffer under the lock and wakes the queue
after it has released the lock, and only if the whole buffer was stored. Writers, readers and
pollers take their steps in any order.

A write that is cut stores bytes and wakes nobody. No wake-up is lost by this: a buffer is cut only
where there was data already, and whoever stored the first of it has woken the queue or is about to.

## Main definitions

* `mievPoll`: the mask of a poll
* `Waiter`, `Waits`, `Waits.step`: how far a reader or poller is, the device with those who wait,
  and one step
* `Waits.Attended`: where there is data, a wake-up is due for everyone asleep

## Main results

* `Waits.Attended.step`: every step keeps it
* `Waits.served_of_blocked`: whoever waits while there is data is woken, or about to be, and served
-/

namespace XiaomiModules

def EPOLLIN : ℕ := 0x1
def EPOLLERR : ℕ := 0x8
def EPOLLRDNORM : ℕ := 0x40

/-- `miev_poll(file, wait)`: the mask, once `poll_wait` has put the caller on the wait queue. -/
def mievPoll (mievDev : Option MievDevice) : ℕ :=
  match mievDev with
  | none => EPOLLERR
  | some dev => if ¬ kfifoIsEmpty dev.fifo then EPOLLIN ||| EPOLLRDNORM else 0

/-- Who waits for data. -/
inductive WaitCall
  | read
  | poll
deriving DecidableEq

/-- The check of a caller that is on the wait queue. -/
def WaitCall.ready (dev : MievDevice) : WaitCall → Bool
  | .read => ¬ kfifoIsEmpty dev.fifo
  | .poll => mievPoll (some dev) ≠ 0

/-- How far a caller is: not on the wait queue, on it before its check, or past a check that found
nothing. `woken` tells whether the queue was woken since the caller was entered; a caller that was
not sleeps. -/
inductive Waiter
  | idle
  | queued (call : WaitCall) (woken : Bool)
  | blocked (call : WaitCall) (woken : Bool)
deriving DecidableEq

/-- The wake-up of the queue, as a caller sees it. -/
def Waiter.wake : Waiter → Waiter
  | .idle => .idle
  | .queued call _ => .queued call true
  | .blocked call _ => .blocked call true

/-- The device, its callers, and how many writers have stored their buffer and are yet to wake the
queue. -/
structure Waits where
  session : Session
  waiter : ℕ → Waiter
  wakes : ℕ

/-- What happens next: a caller starts, checks, goes on after it was woken, or is interrupted; a
section under the lock; or the wake-up of a writer. -/
inductive WaitEvent
  | start (id : ℕ) (call : WaitCall)
  | check (id : ℕ)
  | resume (id : ℕ)
  | signal (id : ℕ)
  | locked (sec : LockedSection)
  | wake

namespace Waits

/-- A loaded device, with nobody waiting. -/
def start (dev : MievDevice) : Waits := ⟨.start dev, fun _ => .idle, 0⟩

/-- The caller moves on. -/
def moveTo (s : Waits) (id : ℕ) (w : Waiter) : Waits :=
  { s with waiter := Function.update s.waiter id w }

/-- One step; a step that is not the caller's next one does nothing. -/
def step (s : Waits) : WaitEvent → Waits
  | .start id call =>
    match s.waiter id, call with
    | .idle, .read =>
      match mievReadCheck s.session.mievDev false with
      | .wait => s.moveTo id (.queued .read false)
      | _ => s
    | .idle, .poll => if s.session.mievDev.isNone then s else s.moveTo id (.queued .poll false)
    | _, _ => s
  | .check id =>
    match s.waiter id, s.session.mievDev with
    | .queued call woken, some dev =>
      if call.ready dev then s.moveTo id .idle else s.moveTo id (.blocked call woken)
    | _, _ => s
  -- a caller that was woken is entered again before it looks again
  | .resume id =>
    match s.waiter id with
    | .blocked call true => s.moveTo id (.queued call false)
    | _ => s
  | .signal id => s.moveTo id .idle
  -- the writer wakes the queue only if its whole buffer was stored, and without the lock
  | .locked sec =>
    { s with
      session := s.session.step sec
      wakes := if s.session.succeeds sec then s.wakes + 1 else s.wakes }
  | .wake =>
    if s.wakes = 0 then s
    else { s with waiter := fun id => (s.waiter id).wake, wakes := s.wakes - 1 }

/-- Where there is data and someone sleeps, a wake-up is due. -/
structure Attended (s : Waits) : Prop where
  loaded : s.session.mievDev.isSome
  due : s.session.fifo.content ≠ [] → ∀ id call, s.waiter id = .blocked call false → 0 < s.wakes

variable {s : Waits}

theorem attended_start (dev : MievDevice) : (start dev).Attended :=
  ⟨rfl, fun _ _ _ h => Waiter.noConfusion h⟩

theorem waiter_moveTo (s : Waits) (id other : ℕ) (w : Waiter) :
    (s.moveTo id w).waiter other = if other = id then w else s.waiter other :=
  Function.update_apply _ _ _ _

/-- A caller that does not fall asleep over data leaves nobody unattended. -/
theorem Attended.moveTo (h : s.Attended) {id : ℕ} {w : Waiter}
    (hw : s.session.fifo.content ≠ [] → ∀ call, w ≠ .blocked call false ∨ 0 < s.wakes) :
    (s.moveTo id w).Attended := by
  refine ⟨h.loaded, fun hdata other call hother => ?_⟩
  rw [waiter_moveTo] at hother
  split_ifs at hother
  · exact (hw hdata call).resolve_left (not_not.mpr hother)
  · exact h.due hdata other call hother

/-- A check succeeds exactly over data. -/
theorem ready_iff (dev : MievDevice) (call : WaitCall) :
    call.ready dev = true ↔ dev.fifo.content ≠ [] := by
  cases call <;> simp [WaitCall.ready, mievPoll, kfifoIsEmpty, EPOLLIN, EPOLLRDNORM]

/-- A section that does not succeed, and leaves data, found data: an empty FIFO takes every buffer
whole. -/
theorem content_ne_nil_of_not_succeeds {session : Session} (h : session.mievDev.isSome)
    {sec : LockedSection} (hsucceeds : session.succeeds sec = false)
    (hdata : (session.step sec).fifo.content ≠ []) : session.fifo.content ≠ [] := by
  intro hnil
  have hhistory := session.history_step sec h
  have haccepted := session.accepted_step sec
  have hput : ∀ buf : Option (List UInt8), sec.handedOver = buf →
      sec.action = .put (buf.getD []) → False := by
    rintro buf hover haction
    -- the buffer fits, so it would have been accepted
    have hfit : (buf.getD []).length ≤ session.history.store.free := by
      have hfree : session.history.store.free = mievFifoSize := by
        simp [BoundedFifo.free, Session.history, hnil]
      cases buf with
      | none => exact Nat.zero_le _
      | some bytes =>
        have hlen := (LockedSection.length_of_handedOver hover).2
        rw [hfree]
        exact hlen.trans (by decide)
    rw [haction] at hhistory
    have hall : (session.step sec).accepted = session.accepted ++ buf.getD [] :=
      (congrArg (fun history => history.accepted) hhistory).trans
        (BoundedFifo.History.accepted_step_put_of_fits hfit)
    have hempty : buf.getD [] = [] := by simpa [hsucceeds, hall] using haccepted
    have hcontent : (session.step sec).fifo.content =
        session.fifo.content ++ (buf.getD []).take session.fifo.free :=
      congrArg (fun history => history.store.content) hhistory
    exact hdata (by rw [hcontent, hnil, hempty, List.take_nil, List.append_nil])
  cases sec with
  | teventWrite event => exact hput _ rfl rfl
  | userWrite buf => exact hput _ rfl rfl
  | read count =>
    have hcontent : (session.step (.read count)).fifo.content = session.fifo.content.drop count :=
      congrArg (fun history => history.store.content) hhistory
    simp [hcontent, hnil] at hdata

/-- **No step leaves anybody unattended.** -/
theorem Attended.step (h : s.Attended) (e : WaitEvent) : (s.step e).Attended := by
  cases e with
  | start id call =>
    simp only [Waits.step]
    split
    · split
      · exact h.moveTo fun _ call => Or.inl nofun
      · exact h
    · split_ifs
      · exact h
      · exact h.moveTo fun _ call => Or.inl nofun
    · exact h
  | check id =>
    simp only [Waits.step]
    split
    · split_ifs with hready
      · exact h.moveTo fun _ call => Or.inl nofun
      · -- the caller falls asleep over an empty FIFO
        rename_i dev _ hdev
        rw [ready_iff, not_not] at hready
        exact h.moveTo fun hdata _ => absurd (Session.fifo_of_some hdev ▸ hready) hdata
    · exact h
  | resume id =>
    simp only [Waits.step]
    split
    · exact h.moveTo fun _ call => Or.inl nofun
    · exact h
  | signal id => exact h.moveTo fun _ call => Or.inl nofun
  | locked sec =>
    refine ⟨s.session.isSome_step sec h.loaded, fun hdata id call hasleep => ?_⟩
    simp only [Waits.step]
    split_ifs with hsucceeds
    · exact Nat.succ_pos _
    · -- whoever stored the data that was there has a wake-up due
      have hbefore :=
        content_ne_nil_of_not_succeeds h.loaded (Bool.eq_false_iff.mpr hsucceeds) hdata
      exact h.due hbefore id call hasleep
  | wake =>
    simp only [Waits.step]
    split_ifs
    · exact h
    · -- everyone on the queue is woken
      refine ⟨h.loaded, fun _ id call hasleep => ?_⟩
      replace hasleep : (s.waiter id).wake = .blocked call false := hasleep
      cases hwaiter : s.waiter id <;> simp [hwaiter, Waiter.wake] at hasleep

theorem attended_after (dev : MievDevice) (events : List WaitEvent) :
    (Runs.after Waits.step (start dev) events).Attended :=
  Runs.after_invariant (I := Attended) (fun _ e h => h.step e) (attended_start dev) events

@[simp] theorem session_wake (s : Waits) : (s.step .wake).session = s.session := by
  simp only [Waits.step]
  split_ifs <;> rfl

/-- A wake-up that is due wakes whoever waits. -/
theorem waiter_wake {id : ℕ} {call : WaitCall} {woken : Bool}
    (hwaiter : s.waiter id = .blocked call woken) (hdue : woken = true ∨ 0 < s.wakes) :
    (s.step .wake).waiter id = .blocked call true := by
  simp only [Waits.step]
  split_ifs with hwakes
  · rw [hwaiter, hdue.resolve_right (by omega)]
  · simp [hwaiter, Waiter.wake]

/-- A caller that was woken while there is data goes on and is served. -/
theorem waiter_of_woken {id : ℕ} {call : WaitCall} {dev : MievDevice}
    (hdev : s.session.mievDev = some dev) (hdata : dev.fifo.content ≠ [])
    (hwaiter : s.waiter id = .blocked call true) :
    (Runs.after Waits.step s [.resume id, .check id]).waiter id = .idle := by
  have hready : call.ready dev = true := (ready_iff dev call).mpr hdata
  simp [Waits.step, hwaiter, moveTo, hdev, hready]

/-- **No wake-up is lost**: in a run of readers, pollers and writers, whoever has found nothing and
now waits while there is data was woken since, or a writer is about to wake the queue; and with that
wake-up, should it be missing, the next two steps of the caller lead it out of the wait. -/
theorem served_of_blocked (dev : MievDevice) (events : List WaitEvent) {id : ℕ} {call : WaitCall}
    {woken : Bool}
    (hdata : (Runs.after step (start dev) events).session.fifo.content ≠ [])
    (hwaiter : (Runs.after step (start dev) events).waiter id = .blocked call woken) :
    (woken = true ∨ 0 < (Runs.after step (start dev) events).wakes) ∧
      (Runs.after step (Runs.after step (start dev) events) [.wake, .resume id, .check id]).waiter
        id = .idle := by
  have hattended := attended_after dev events
  generalize Runs.after step (start dev) events = s at *
  obtain ⟨dev', hdev⟩ := Option.isSome_iff_exists.mp hattended.loaded
  have hcontent : dev'.fifo.content ≠ [] := by rwa [← Session.fifo_of_some hdev]
  have hdue : woken = true ∨ 0 < s.wakes := by
    cases woken with
    | true => exact Or.inl rfl
    | false => exact Or.inr (hattended.due hdata id call hwaiter)
  exact ⟨hdue, waiter_of_woken (s.session_wake ▸ hdev) hcontent
    (waiter_wake hwaiter hdue)⟩

/-- A reader sleeps while a user writes a line. -/
def sleepingReader : List WaitEvent :=
  [.start 0 .read, .check 0, .locked (.userWrite lineBuffer)]

theorem served_of_blocked_sleepingReader :
    (false = true ∨ 0 < (Runs.after step (start ⟨BoundedFifo.empty⟩) sleepingReader).wakes) ∧
      (Runs.after step (Runs.after step (start ⟨BoundedFifo.empty⟩) sleepingReader)
        [.wake, .resume 0, .check 0]).waiter 0 = .idle := by
  have hwaiter : (Runs.after step (start ⟨BoundedFifo.empty⟩) sleepingReader).waiter 0 =
      .blocked .read false := by decide
  exact served_of_blocked ⟨BoundedFifo.empty⟩ sleepingReader (by decide) hwaiter

end Waits

end XiaomiModules
