import XiaomiModules.Thermal.ScreenState

/-!
# The usb state

A change of the power supply `usb` is announced to the notifier, which queues a work item. The work
looks the supply up once and keeps the reference, reads whether the supply is online into
`usb_online`, and sends a notification. It is not queued when the module is loaded, so `usb_online`
is 0 until the first announcement.

From then on no change is lost: unless a change is not announced yet or the work is pending, the
work has read the last value or is yet to read it.

## Main definitions

* `usbOnlineCallback`: the notifier
* `Usb`, `Usb.step`: the module and its steps
* `UsbEvent.value`: the value that a change gives the property
* `Usb.Answered`: the lookup finds the supply and the read succeeds
* `Usb.AtRest`: nothing is to be announced, pending or running

## Main results

* `Usb.Current.step`: no step loses a change
* `Usb.notifies_step`: a step notifies what it has written, or leaves it due
* `Usb.usbOnline_of_atRest`: the state at rest
-/

namespace XiaomiModules

/-- `usb_online_callback`: whether it queues the work for a supply with the name. -/
def usbOnlineCallback (psy : Option String) : Bool := psy = some "usb"

/-- How far `usb_online_work` is: not running, started, past the lookup, past the read of the
property, or past its write of `usb_online`. -/
inductive UsbWork
  | idle
  | started
  | found
  | read (intval : ℤ)
  | written
deriving DecidableEq

/-- The state of the module, with the property `online` of the supply, whether a change of it is yet
to be announced and whether anything was announced so far, and the notifications sent. -/
structure Usb where
  online : ℤ
  unannounced : Bool
  announced : Bool
  usbPsy : Bool
  usbOnline : ℤ
  pending : Bool
  work : UsbWork
  notified : List Notification

/-- What happens next: the property changes, a supply is announced to the notifier, or the work
takes its next step, with the kernel's answer. -/
inductive UsbEvent
  | change (online : ℤ)
  | announce (psy : Option String)
  | start
  | lookup (found : Bool)
  | read (ret : ℤ)
  | write
  | notify
deriving DecidableEq

/-- The value that a change gives the property. -/
def UsbEvent.value : UsbEvent → Option ℤ
  | .change online => some online
  | _ => none

namespace Usb

/-- The module after its load. -/
def start (online : ℤ) : Usb := ⟨online, false, false, false, 0, false, .idle, []⟩

/-- One step of a module with the device; a step that cannot be taken changes nothing. -/
def step (mdev : MiThermalDevice) (s : Usb) : UsbEvent → Usb
  | .change online => { s with online, unannounced := true }
  | .announce psy =>
    if usbOnlineCallback psy then
      { s with unannounced := false, announced := true, pending := true }
    else s
  | .start =>
    match s.work with
    | .idle => if s.pending then { s with pending := false, work := .started } else s
    | _ => s
  -- the reference is kept, and never given back
  | .lookup found =>
    match s.work with
    | .started =>
      if s.usbPsy then { s with work := .found }
      else if found then { s with usbPsy := true, work := .found }
      else { s with work := .idle }
    | _ => s
  | .read ret =>
    match s.work with
    | .found => if ret ≠ 0 then { s with work := .idle } else { s with work := .read s.online }
    | _ => s
  | .write =>
    match s.work with
    | .read intval => { s with usbOnline := intval, work := .written }
    | _ => s
  | .notify =>
    match s.work with
    | .written =>
      { s with work := .idle, notified := s.notified ++ miThermalNotify mdev "usb_online" }
    | _ => s

/-- The lookup finds the supply, and the property is read. -/
def Answered (_ : Usb) : UsbEvent → Prop
  | .lookup found => found = true
  | .read ret => ret = 0
  | _ => True

/-- No change is to be announced, and the work is neither pending nor running. -/
def AtRest (s : Usb) : Prop := s.unannounced = false ∧ s.pending = false ∧ s.work = .idle

instance (s : Usb) : (e : UsbEvent) → Decidable (s.Answered e)
  | .lookup found => inferInstanceAs (Decidable (found = true))
  | .read ret => inferInstanceAs (Decidable (ret = 0))
  | .change _ | .announce _ | .start | .write | .notify => isTrue trivial

instance (s : Usb) : Decidable s.AtRest := inferInstanceAs (Decidable (_ ∧ _ ∧ _))

/-! ## Steps -/

variable (mdev : MiThermalDevice)

/-- The event is no change, no announcement of the supply and no write of the work. -/
def Quiet (s : Usb) : UsbEvent → Prop
  | .change _ => False
  | .announce psy => usbOnlineCallback psy = false
  | .write => ∀ intval, s.work ≠ .read intval
  | _ => True

/-- What a step does. -/
inductive Moves (s : Usb) : UsbEvent → Usb → Prop
  | stay (e : UsbEvent) (hquiet : s.Quiet e) : Moves s e s
  | change (online : ℤ) : Moves s (.change online) { s with online, unannounced := true }
  | announce (psy : Option String) (husb : usbOnlineCallback psy = true) :
      Moves s (.announce psy) { s with unannounced := false, announced := true, pending := true }
  | start (hwork : s.work = .idle) (hpending : s.pending = true) :
      Moves s .start { s with pending := false, work := .started }
  | lookup (found : Bool) (hwork : s.work = .started) :
      Moves s (.lookup found) { s with usbPsy := true, work := .found }
  | fail (e : UsbEvent) (hwork : s.work = .started ∨ s.work = .found) (hfail : ¬ s.Answered e) :
      Moves s e { s with work := .idle }
  | read (hwork : s.work = .found) : Moves s (.read 0) { s with work := .read s.online }
  | write (intval : ℤ) (hwork : s.work = .read intval) :
      Moves s .write { s with usbOnline := intval, work := .written }
  | notify (hwork : s.work = .written) :
      Moves s .notify
        { s with work := .idle, notified := s.notified ++ miThermalNotify mdev "usb_online" }

theorem moves_step (s : Usb) (e : UsbEvent) : Moves mdev s e (s.step mdev e) := by
  cases e with
  | change online => exact Moves.change online
  | announce psy =>
    simp only [step]
    split_ifs with husb
    · exact Moves.announce psy husb
    · exact Moves.stay _ (Bool.eq_false_iff.mpr husb)
  | start =>
    cases hwork : s.work with
    | idle =>
      simp only [step, hwork]
      split_ifs with hpending
      · exact Moves.start hwork hpending
      · exact Moves.stay _ trivial
    | _ => simpa only [step, hwork] using Moves.stay .start trivial
  | lookup found =>
    cases hwork : s.work with
    | started =>
      have hmoves : Moves mdev s (.lookup found) { s with usbPsy := true, work := .found } :=
        Moves.lookup found hwork
      simp only [step, hwork]
      split_ifs with hpsy hfound
      · simpa only [hpsy] using hmoves
      · exact hmoves
      · exact Moves.fail _ (Or.inl hwork) hfound
    | _ => simpa only [step, hwork] using Moves.stay (.lookup found) trivial
  | read ret =>
    cases hwork : s.work with
    | found =>
      simp only [step, hwork]
      split_ifs with hret
      · exact Moves.fail _ (Or.inr hwork) hret
      · obtain rfl := not_not.mp hret
        exact Moves.read hwork
    | _ => simpa only [step, hwork] using Moves.stay (.read ret) trivial
  | write =>
    cases hwork : s.work with
    | read intval => simpa only [step, hwork] using Moves.write intval hwork
    | _ => simpa only [step, hwork] using Moves.stay .write (by simp [Quiet, hwork])
  | notify =>
    cases hwork : s.work with
    | written => simpa only [step, hwork] using Moves.notify hwork
    | _ => simpa only [step, hwork] using Moves.stay .notify trivial

/-! ## No change is lost -/

/-- What the work is about to leave in `usb_online` is the property. -/
def Settled (s : Usb) : Prop :=
  match s.work with
  | .started | .found => True
  | .read intval => intval = s.online
  | .idle | .written => s.usbOnline = s.online

/-- Before the first announcement the work has not run. From then on, unless a change is not
announced yet or the work is pending, the last value has been read, or is yet to be. -/
structure Current (s : Usb) : Prop where
  before : s.announced = false → s.usbOnline = 0 ∧ s.pending = false ∧ s.work = .idle
  after : s.announced = true → s.unannounced = true ∨ s.pending = true ∨ s.Settled

variable {mdev : MiThermalDevice} {s : Usb}

theorem current_start (online : ℤ) : (start online).Current :=
  ⟨fun _ => ⟨rfl, rfl, rfl⟩, nofun⟩

/-- The work runs only after an announcement. -/
theorem Current.announced_of_work (h : s.Current) (hwork : s.work ≠ .idle) :
    s.announced = true := by
  by_contra hbefore
  exact hwork (h.before (Bool.eq_false_iff.mpr hbefore)).2.2

/-- A step of the work that reads what there is, or keeps what it has read, keeps the state
current. -/
theorem Current.of_work (h : s.Current) (hwork : s.work ≠ .idle) {s' : Usb}
    (hannounced : s'.announced = s.announced) (hunannounced : s'.unannounced = s.unannounced)
    (hpending : s'.pending = s.pending) (hsettled : s.Settled → s'.Settled) : s'.Current := by
  have hafter := h.announced_of_work hwork
  refine ⟨fun hbefore => ?_, fun _ => ?_⟩
  · rw [hannounced, hafter] at hbefore
    exact absurd hbefore nofun
  · rw [hunannounced, hpending]
    exact (h.after hafter).imp_right (Or.imp_right hsettled)

/-- **No answered step loses a change.** -/
theorem Current.step (h : s.Current) {e : UsbEvent} (hanswered : s.Answered e) :
    (s.step mdev e).Current := by
  have hmoves := moves_step mdev s e
  generalize s.step mdev e = s' at hmoves ⊢
  cases hmoves with
  | stay => exact h
  -- a change is yet to be announced
  | change online => exact ⟨h.before, fun _ => Or.inl rfl⟩
  | announce psy => exact ⟨nofun, fun _ => Or.inr (Or.inl rfl)⟩
  -- the work is yet to read
  | start hwork hpending =>
    refine ⟨fun hbefore => ?_, fun _ => Or.inr (Or.inr trivial)⟩
    exact absurd (hpending.symm.trans (h.before hbefore).2.1) nofun
  | lookup found hwork => exact h.of_work (by simp [hwork]) rfl rfl rfl fun _ => trivial
  | fail e hwork hfail => exact absurd hanswered hfail
  | read hwork => exact h.of_work (by simp [hwork]) rfl rfl rfl fun _ => rfl
  -- where the property has changed since, the change is to be announced or the work is pending
  | write intval hwork =>
    refine h.of_work (by simp [hwork]) rfl rfl rfl fun hsettled => ?_
    rwa [Settled, hwork] at hsettled
  | notify hwork =>
    refine h.of_work (by simp [hwork]) rfl rfl rfl fun hsettled => ?_
    rwa [Settled, hwork] at hsettled

/-- Only a change sets the property. -/
theorem online_step (s : Usb) (e : UsbEvent) :
    (s.step mdev e).online = e.value.getD s.online := by
  have hmoves := moves_step mdev s e
  generalize s.step mdev e = s' at hmoves ⊢
  cases hmoves with
  | stay e hquiet => cases e <;> first | rfl | exact hquiet.elim
  | fail e hwork hfail => cases e <;> first | rfl | exact absurd trivial hfail
  | _ => rfl

/-- Something was announced exactly if the supply was. -/
theorem announced_after (s : Usb) (events : List UsbEvent) :
    (Runs.after (step mdev) s events).announced = true ↔
      s.announced = true ∨ .announce (some "usb") ∈ events := by
  induction events generalizing s with
  | nil => simp
  | cons e events ih =>
    rw [Runs.after_cons, ih, List.mem_cons, ← or_assoc]
    refine or_congr_left ?_
    -- one step announces the supply, or leaves the flag alone
    have hmoves := moves_step mdev s e
    generalize s.step mdev e = s' at hmoves ⊢
    cases hmoves with
    | announce psy husb =>
      refine iff_of_true rfl (Or.inr ?_)
      rw [of_decide_eq_true husb]
    | stay e hquiet =>
      refine (or_iff_left ?_).symm
      rintro rfl
      exact absurd hquiet (by simp [Quiet, usbOnlineCallback])
    | fail e hwork hfail =>
      refine (or_iff_left ?_).symm
      rintro rfl
      exact hfail trivial
    | _ => exact (or_iff_left nofun).symm

/-! ## Notifications -/

/-- The step writes `usb_online`. -/
def writes (s : Usb) : UsbEvent → Bool
  | .write => match s.work with
    | .read _ => true
    | _ => false
  | _ => false

theorem writes_of_quiet {e : UsbEvent} (h : s.Quiet e) : s.writes e = false := by
  cases e with
  | write =>
    cases hwork : s.work with
    | read intval => exact absurd hwork (h intval)
    | _ => simp [writes, hwork]
  | _ => rfl

/-- The notifications sent, and whether the work is about to send one. -/
def notices (s : Usb) : List Notification × Bool := (s.notified, s.work = .written)

/-- A step notifies what it has written, or leaves it due. -/
theorem notifies_step (s : Usb) (e : UsbEvent) :
    Notifies mdev "usb_online" s.notices (s.step mdev e).notices (s.writes e = true) := by
  have hmoves := moves_step mdev s e
  generalize s.step mdev e = s' at hmoves ⊢
  cases hmoves with
  | stay e hquiet => exact Or.inl ⟨rfl, by simp [writes_of_quiet hquiet]⟩
  | fail e hwork hfail =>
    -- a lookup or a read that fails ends the work in front of its write
    have hquiet : s.Quiet e := by
      cases e <;> first | exact trivial | exact absurd trivial hfail
    refine Or.inl ⟨?_, by simp [writes_of_quiet hquiet]⟩
    rcases hwork with hwork | hwork <;> simp [notices, hwork]
  | change online => exact Or.inl ⟨rfl, by simp [writes]⟩
  | announce psy => exact Or.inl ⟨rfl, by simp [writes]⟩
  | start hwork => exact Or.inl ⟨by simp [notices, hwork], by simp [writes]⟩
  | lookup found hwork => exact Or.inl ⟨by simp [notices, hwork], by simp [writes]⟩
  | read hwork => exact Or.inl ⟨by simp [notices, hwork], by simp [writes]⟩
  | write intval hwork =>
    exact Or.inr (Or.inl ⟨rfl, by simp [notices, hwork], by simp [writes, hwork]⟩)
  | notify hwork => exact Or.inr (Or.inr ⟨rfl, by simp [notices, hwork], by simp [writes]⟩)

/-! ## At rest -/

/-- **The usb state at rest**: whatever the order of changes, announcements and steps of the work,
where every lookup and every read of the kernel succeeds and nothing is to be announced, pending or
running, `usb_online` is the property of the supply if that was announced at all, and 0 otherwise;
and every node that is there has been notified of it as often as it was written, and of nothing
else. -/
theorem usbOnline_of_atRest (mdev : MiThermalDevice) (online : ℤ) {events : List UsbEvent}
    (hanswered : Runs.Along (step mdev) Answered (start online) events)
    (hrest : (Runs.after (step mdev) (start online) events).AtRest) :
    (Runs.after (step mdev) (start online) events).usbOnline =
        (if .announce (some "usb") ∈ events then Runs.lastSet UsbEvent.value online events
        else 0) ∧
      ∀ node attr, (Runs.after (step mdev) (start online) events).notified.count ⟨node, attr⟩ =
        if mdev.Has node ∧ attr = "usb_online" then
          Runs.times (step mdev) (fun s e => s.writes e = true) (start online) events
        else 0 := by
  obtain ⟨hunannounced, hpending, hwork⟩ := hrest
  have hcurrent : (Runs.after (step mdev) (start online) events).Current :=
    hanswered.invariant (I := Current) (fun _ _ h hc => h.step hc) (current_start online)
  have honline : (Runs.after (step mdev) (start online) events).online =
      Runs.lastSet UsbEvent.value online events :=
    Runs.after_eq_lastSet online_step (start online) events
  have hannounced : (Runs.after (step mdev) (start online) events).announced = true ↔
      (start online).announced = true ∨ .announce (some "usb") ∈ events :=
    announced_after (start online) events
  have hdue : (notices (Runs.after (step mdev) (start online) events)).2 = false := by
    simp [notices, hwork]
  refine ⟨?_, fun node attr => count_notified notices notifies_step rfl hdue ⟨node, attr⟩⟩
  generalize Runs.after (step mdev) (start online) events = s at *
  split_ifs with hmem
  · -- the work has run since the last change
    have hsettled := ((hcurrent.after (hannounced.mpr (Or.inr hmem))).resolve_left
      (by simp [hunannounced])).resolve_left (by simp [hpending])
    rw [Settled, hwork] at hsettled
    exact hsettled.trans honline
  · -- the supply was never announced, so the work has not run
    refine (hcurrent.before (Bool.eq_false_iff.mpr fun h => ?_)).1
    exact (hannounced.mp h).elim nofun hmem

/-- The cable is pulled while the work runs for its being plugged in. -/
def pulled : List UsbEvent :=
  [.change 1, .announce (some "usb"), .start, .lookup true, .read 0, .change 0,
    .announce (some "usb"), .write, .notify, .start, .lookup true, .read 0, .write, .notify]

/-- The work runs again, and each of the two nodes gets two notifications. -/
theorem usbOnline_of_atRest_pulled :
    (Runs.after (step ⟨true, true⟩) (start 0) pulled).usbOnline =
        (if .announce (some "usb") ∈ pulled then Runs.lastSet UsbEvent.value 0 pulled else 0) ∧
      ∀ node attr,
        (Runs.after (step ⟨true, true⟩) (start 0) pulled).notified.count ⟨node, attr⟩ =
          if MiThermalDevice.Has ⟨true, true⟩ node ∧ attr = "usb_online" then 2 else 0 :=
  usbOnline_of_atRest ⟨true, true⟩ 0 (by decide) (by decide)

end Usb

end XiaomiModules
