import XiaomiModules.Library.Runs
import XiaomiModules.Thermal.Load

/-!
# The screen state

A panel event sets `screen_light` and queues a work item, which compares `screen_state` with it and
sends a notification where the two differ. The work item coalesces: queueing it while it is pending
does nothing, and it is not pending any more when it runs. A callback is midway between its two
statements, and so is the work between its read and its write, so that events may come at any of
these points.

No event is lost: unless a callback is midway or the work is pending, the work has read the last
value or is yet to read it.

## Main definitions

* `miThermalNotify`, `MiThermalDevice.Has`: the notifications of an attribute, and the nodes there
  are
* `screenStateForThermalCallback`: the callback
* `Screen`, `Screen.step`: the module and its steps
* `ScreenEvent.value`, `Screen.Changes`: the value an event stands for, and the steps that change
  the state
* `Screen.AtRest`: nothing is midway, pending or running

## Main results

* `count_miThermalNotify`: every node that is there is notified once
* `Screen.Current.step`: no step loses an event
* `Screen.screenState_of_atRest`: the state at rest
-/

namespace XiaomiModules

/-! ## Notifications -/

/-- `struct mi_thermal_device`: which of its kobjects are there. -/
structure MiThermalDevice where
  classKobj : Bool
  kobj : Bool

/-- A call of `sysfs_notify`: the node, and the attribute. -/
structure Notification where
  node : ThermalNode
  attr : String
deriving DecidableEq

/-- `mi_thermal_notify(mdev, attr)` for the message device. -/
def miThermalNotify (mdev : MiThermalDevice) (attr : String) : List Notification :=
  (if mdev.classKobj then [⟨.messageClass, attr⟩] else []) ++
    if mdev.kobj then [⟨.message, attr⟩] else []

/-- The node is one of the message device, and its kobject is there. -/
def MiThermalDevice.Has (mdev : MiThermalDevice) : ThermalNode → Prop
  | .messageClass => mdev.classKobj = true
  | .message => mdev.kobj = true
  | .powersaveClass | .powersave => False

instance (mdev : MiThermalDevice) : (node : ThermalNode) → Decidable (mdev.Has node)
  | .messageClass => inferInstanceAs (Decidable (mdev.classKobj = true))
  | .message => inferInstanceAs (Decidable (mdev.kobj = true))
  | .powersaveClass | .powersave => isFalse id

/-- **Each node that is there** is notified of the attribute once, and no other is. -/
theorem count_miThermalNotify (mdev : MiThermalDevice) (attr : String) (n : Notification) :
    (miThermalNotify mdev attr).count n = if mdev.Has n.node ∧ n.attr = attr then 1 else 0 := by
  obtain ⟨classKobj, kobj⟩ := mdev
  obtain ⟨node, other⟩ := n
  have hsymm : attr = other ↔ other = attr := eq_comm
  cases node <;> cases classKobj <;> cases kobj <;>
    simp [miThermalNotify, MiThermalDevice.Has, List.count_cons, hsymm]

/-- What a step does to the notifications sent and to whether one is due: nothing; it changes the
attribute and makes a notification due; or it sends the notification that was due. -/
def Notifies (mdev : MiThermalDevice) (attr : String) (s s' : List Notification × Bool)
    (changes : Prop) : Prop :=
  s' = s ∧ ¬ changes ∨
    s' = (s.1, true) ∧ s.2 = false ∧ changes ∨
    s' = (s.1 ++ miThermalNotify mdev attr, false) ∧ s.2 = true ∧ ¬ changes

/-- **Notified once**: where every change makes a notification due and nothing else sends one, and
none is due at the end of a run, every node that is there was notified as often as the attribute
was changed, and nothing else was. -/
theorem count_notified {S A : Type*} {step : S → A → S} {changes : S → A → Prop}
    [∀ s a, Decidable (changes s a)] {mdev : MiThermalDevice} {attr : String}
    (f : S → List Notification × Bool)
    (hstep : ∀ s a, Notifies mdev attr (f s) (f (step s a)) (changes s a)) {s : S} {as : List A}
    (hstart : f s = ([], false)) (hend : (f (Runs.after step s as)).2 = false) (n : Notification) :
    (f (Runs.after step s as)).1.count n =
      if mdev.Has n.node ∧ n.attr = attr then Runs.times step changes s as else 0 := by
  have hledger : ∀ s a, (f (step s a)).1.count n +
        (if (f (step s a)).2 then (miThermalNotify mdev attr).count n else 0) =
      (f s).1.count n + (if (f s).2 then (miThermalNotify mdev attr).count n else 0) +
        if changes s a then (miThermalNotify mdev attr).count n else 0 := by
    intro s a
    rcases hstep s a with ⟨hsame, hno⟩ | ⟨hdue, hbefore, hyes⟩ | ⟨hsent, hbefore, hno⟩
    · simp [hsame, hno]
    · simp [hdue, hbefore, hyes]
    · simp [hsent, hbefore, hno, List.count_append]
  have hcount := Runs.count_add_due (fun s => (f s).1.count n)
    (fun s => if (f s).2 then (miThermalNotify mdev attr).count n else 0) hledger s as
  -- nothing is due at the start and at the end
  simpa only [hstart, hend, List.count_nil, Bool.false_eq_true, if_false, Nat.zero_add,
    Nat.add_zero, count_miThermalNotify, ite_mul, one_mul, zero_mul] using hcount

/-! ## The callback and the work -/

/-- `notif->notif_type`. -/
inductive PanelNotifType
  | unblank
  | blank
  | other
deriving DecidableEq

/-- `screen_state_for_thermal_callback`: the value it gives `screen_light` before it queues the
work, unless it returns early. -/
def screenStateForThermalCallback (notif : Option PanelNotifType) : Option Bool :=
  match notif with
  | none => none
  | some .unblank => some true
  | some .blank => some false
  | some .other => none

/-- How far `screen_state_check` is: not running, started, past its read of `screen_light`, or past
its write of `screen_state`. -/
inductive ScreenWork
  | idle
  | started
  | read (newState : Bool)
  | written
deriving DecidableEq

/-- The state of the module, with the number of callbacks midway and the notifications sent. -/
structure Screen where
  screenLight : Bool
  screenState : Bool
  midway : ℕ
  pending : Bool
  work : ScreenWork
  notified : List Notification

/-- What happens next: a panel event is delivered, a callback midway queues the work, or the work
takes its next step. -/
inductive ScreenEvent
  | panel (notif : Option PanelNotifType)
  | queue
  | start
  | read
  | write
  | notify
deriving DecidableEq

/-- What a panel event says of the screen: unblanked it is on, blanked it is off. -/
def ScreenEvent.value : ScreenEvent → Option Bool
  | .panel (some .unblank) => some true
  | .panel (some .blank) => some false
  | _ => none

namespace Screen

/-- The module before any event. -/
def start : Screen := ⟨false, false, 0, false, .idle, []⟩

/-- One step of a module with the device; a step that cannot be taken changes nothing. -/
def step (mdev : MiThermalDevice) (s : Screen) : ScreenEvent → Screen
  | .panel notif =>
    match screenStateForThermalCallback notif with
    | none => s
    | some light => { s with screenLight := light, midway := s.midway + 1 }
  | .queue => if s.midway = 0 then s else { s with midway := s.midway - 1, pending := true }
  | .start =>
    match s.work with
    | .idle => if s.pending then { s with pending := false, work := .started } else s
    | _ => s
  | .read =>
    match s.work with
    | .started => { s with work := .read s.screenLight }
    | _ => s
  | .write =>
    match s.work with
    | .read newState =>
      if s.screenState = newState then { s with work := .idle }
      else { s with screenState := newState, work := .written }
    | _ => s
  | .notify =>
    match s.work with
    | .written =>
      { s with work := .idle, notified := s.notified ++ miThermalNotify mdev "screen_state" }
    | _ => s

variable (mdev : MiThermalDevice)

/-- The step changes the value of `screen_state`. -/
def Changes (s : Screen) (e : ScreenEvent) : Prop := (s.step mdev e).screenState ≠ s.screenState

instance (s : Screen) (e : ScreenEvent) : Decidable (s.Changes mdev e) :=
  inferInstanceAs (Decidable (_ ≠ _))

/-- No callback is midway, and the work is neither pending nor running. -/
def AtRest (s : Screen) : Prop := s.midway = 0 ∧ s.pending = false ∧ s.work = .idle

instance (s : Screen) : Decidable s.AtRest := inferInstanceAs (Decidable (_ ∧ _ ∧ _))

/-! ## Steps -/

/-- What a step does. -/
inductive Moves (s : Screen) : ScreenEvent → Screen → Prop
  | stay (e : ScreenEvent) (hset : ∀ notif, e = .panel notif →
      screenStateForThermalCallback notif = none) : Moves s e s
  | set (notif : Option PanelNotifType) (light : Bool)
      (hset : screenStateForThermalCallback notif = some light) :
      Moves s (.panel notif) { s with screenLight := light, midway := s.midway + 1 }
  | queue : Moves s .queue { s with midway := s.midway - 1, pending := true }
  | start (hwork : s.work = .idle) : Moves s .start { s with pending := false, work := .started }
  | read (hwork : s.work = .started) : Moves s .read { s with work := .read s.screenLight }
  | same (hwork : s.work = .read s.screenState) : Moves s .write { s with work := .idle }
  | write (newState : Bool) (hwork : s.work = .read newState) (hne : s.screenState ≠ newState) :
      Moves s .write { s with screenState := newState, work := .written }
  | notify (hwork : s.work = .written) :
      Moves s .notify
        { s with work := .idle, notified := s.notified ++ miThermalNotify mdev "screen_state" }

theorem moves_step (s : Screen) (e : ScreenEvent) : Moves mdev s e (s.step mdev e) := by
  cases e with
  | panel notif =>
    cases hset : screenStateForThermalCallback notif with
    | none =>
      simp only [step, hset]
      exact Moves.stay _ fun other heq => ScreenEvent.panel.inj heq ▸ hset
    | some light =>
      simp only [step, hset]
      exact Moves.set notif light hset
  | queue =>
    simp only [step]
    split_ifs
    · exact Moves.stay _ nofun
    · exact Moves.queue
  | start =>
    cases hwork : s.work with
    | idle =>
      simp only [step, hwork]
      split_ifs
      · exact Moves.start hwork
      · exact Moves.stay _ nofun
    | _ => simpa only [step, hwork] using Moves.stay .start nofun
  | read =>
    cases hwork : s.work with
    | started => simpa only [step, hwork] using Moves.read hwork
    | _ => simpa only [step, hwork] using Moves.stay .read nofun
  | write =>
    cases hwork : s.work with
    | read newState =>
      simp only [step, hwork]
      split_ifs with heq
      · exact Moves.same (heq ▸ hwork)
      · exact Moves.write newState hwork heq
    | _ => simpa only [step, hwork] using Moves.stay .write nofun
  | notify =>
    cases hwork : s.work with
    | written => simpa only [step, hwork] using Moves.notify hwork
    | _ => simpa only [step, hwork] using Moves.stay .notify nofun

/-! ## No event is lost -/

/-- What the work is about to leave in `screen_state` is `screen_light`. -/
def Settled (s : Screen) : Prop :=
  match s.work with
  | .started => True
  | .read newState => newState = s.screenLight
  | .idle | .written => s.screenState = s.screenLight

/-- Unless a callback is midway or the work is pending, the last value has been read, or is yet to
be. -/
def Current (s : Screen) : Prop := s.midway ≠ 0 ∨ s.pending = true ∨ s.Settled

variable {mdev : MiThermalDevice} {s : Screen}

theorem Current.of_work (h : s.Current) {s' : Screen} (hmidway : s'.midway = s.midway)
    (hpending : s'.pending = s.pending) (hsettled : s.Settled → s'.Settled) : s'.Current := by
  rw [Current, hmidway, hpending]
  exact Or.imp_right (Or.imp_right hsettled) h

/-- **No step loses an event.** -/
theorem Current.step (h : s.Current) (e : ScreenEvent) : (s.step mdev e).Current := by
  have hmoves := moves_step mdev s e
  generalize s.step mdev e = s' at hmoves ⊢
  cases hmoves with
  | stay => exact h
  -- the callback that has set the value is midway
  | set notif light => exact Or.inl (Nat.succ_ne_zero _)
  | queue => exact Or.inr (Or.inl rfl)
  -- the work is yet to read
  | start hwork => exact Or.inr (Or.inr trivial)
  | read hwork => exact Or.inr (Or.inr rfl)
  -- where the value was set after the read, a callback is midway or the work is pending again
  | same hwork =>
    refine h.of_work rfl rfl fun hsettled => ?_
    rwa [Settled, hwork] at hsettled
  | write newState hwork =>
    refine h.of_work rfl rfl fun hsettled => ?_
    rwa [Settled, hwork] at hsettled
  | notify hwork =>
    refine h.of_work rfl rfl fun hsettled => ?_
    rwa [Settled, hwork] at hsettled

theorem current_start : start.Current := by
  have hsettled : start.Settled := rfl
  exact Or.inr (Or.inr hsettled)

/-- The callback gives `screen_light` the value its event stands for. -/
theorem screenLight_step (s : Screen) (e : ScreenEvent) :
    (s.step mdev e).screenLight = e.value.getD s.screenLight := by
  have hmoves := moves_step mdev s e
  generalize s.step mdev e = s' at hmoves ⊢
  cases hmoves with
  | stay e hset =>
    cases e with
    | panel notif =>
      -- the callback returns early for no notification and for the other types alone
      have hnone := hset notif rfl
      rcases notif with - | - | - | -
      · rfl
      · cases hnone
      · cases hnone
      · rfl
    | _ => rfl
  | set notif light hset =>
    rcases notif with - | - | - | -
    · cases hset
    · exact (Option.some.inj hset).symm
    · exact (Option.some.inj hset).symm
    · cases hset
  | _ => rfl

/-- The notifications sent, and whether the work is about to send one. -/
def notices (s : Screen) : List Notification × Bool := (s.notified, s.work = .written)

/-- A step notifies what it has changed, or leaves it due. -/
theorem notifies_step (s : Screen) (e : ScreenEvent) :
    Notifies mdev "screen_state" s.notices (s.step mdev e).notices (s.Changes mdev e) := by
  have hmoves := moves_step mdev s e
  unfold Changes
  generalize s.step mdev e = s' at hmoves ⊢
  cases hmoves with
  | stay => exact Or.inl ⟨rfl, not_not_intro rfl⟩
  | set notif light => exact Or.inl ⟨rfl, not_not_intro rfl⟩
  | queue => exact Or.inl ⟨rfl, not_not_intro rfl⟩
  | start hwork => exact Or.inl ⟨by simp [notices, hwork], not_not_intro rfl⟩
  | read hwork => exact Or.inl ⟨by simp [notices, hwork], not_not_intro rfl⟩
  | same hwork => exact Or.inl ⟨by simp [notices, hwork], not_not_intro rfl⟩
  | write newState hwork hne =>
    exact Or.inr (Or.inl ⟨rfl, by simp [notices, hwork], hne.symm⟩)
  | notify hwork => exact Or.inr (Or.inr ⟨rfl, by simp [notices, hwork], not_not_intro rfl⟩)

/-! ## At rest -/

/-- **The state at rest**: whatever the order of the events and the steps of callbacks and work,
when nothing is midway, pending or running, `screen_state` is what the last unblank or blank says,
and every node that is there has been notified of it as often as its value has changed; nothing else
has been notified. -/
theorem screenState_of_atRest (mdev : MiThermalDevice) (events : List ScreenEvent)
    (hrest : (Runs.after (step mdev) start events).AtRest) :
    (Runs.after (step mdev) start events).screenState =
        Runs.lastSet ScreenEvent.value false events ∧
      ∀ node attr, (Runs.after (step mdev) start events).notified.count ⟨node, attr⟩ =
        if mdev.Has node ∧ attr = "screen_state" then
          Runs.times (step mdev) (Changes mdev) start events
        else 0 := by
  obtain ⟨hmidway, hpending, hwork⟩ := hrest
  have hcurrent : (Runs.after (step mdev) start events).Current :=
    Runs.after_invariant (I := Current) (fun _ e h => h.step e) current_start events
  have hlight : (Runs.after (step mdev) start events).screenLight =
      Runs.lastSet ScreenEvent.value false events :=
    Runs.after_eq_lastSet screenLight_step start events
  have hdue : (notices (Runs.after (step mdev) start events)).2 = false := by simp [notices, hwork]
  refine ⟨?_, fun node attr => count_notified notices notifies_step rfl hdue ⟨node, attr⟩⟩
  generalize Runs.after (step mdev) start events = s at *
  -- at rest nothing but the first two could have kept the work from the last value
  have hsettled : s.Settled :=
    (hcurrent.resolve_left (not_not.mpr hmidway)).resolve_left (by simp [hpending])
  rw [Settled, hwork] at hsettled
  exact hsettled.trans hlight

/-- A blank that comes between the read and the write of the work for an unblank. -/
def overtaken : List ScreenEvent :=
  [.panel (some .unblank), .queue, .start, .read, .panel (some .blank), .queue, .write, .notify,
    .start, .read, .write, .notify]

/-- The work runs again for the blank, and each of the two nodes gets two notifications. -/
theorem screenState_of_atRest_overtaken :
    (Runs.after (step ⟨true, true⟩) start overtaken).screenState = false ∧
      ∀ node attr, (Runs.after (step ⟨true, true⟩) start overtaken).notified.count ⟨node, attr⟩ =
        if MiThermalDevice.Has ⟨true, true⟩ node ∧ attr = "screen_state" then 2 else 0 :=
  screenState_of_atRest ⟨true, true⟩ overtaken (by decide)

end Screen

end XiaomiModules
