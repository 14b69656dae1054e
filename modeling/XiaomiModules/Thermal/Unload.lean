import XiaomiModules.Thermal.ScreenState

/-!
# Unloading mi_thermal_interface

`mi_thermal_interface_exit` cancels the two works, destroys the work queue of one of them, and only
then unregisters the panel callback; the USB notifier it never unregisters. Events are delivered to
whatever is registered, between any two of its steps, and queue the works again.

So a panel event can queue work on the destroyed queue, in the one place where the queue is gone
and the callback is not. The USB notifier stays registered unless it never was.

## Main definitions

* `ExitStage`, `exitStep`: the steps of the function
* `Unload`, `Unload.step`: the works and the callbacks during an unload
* `Unload.Quiescent`: nothing is queued on the destroyed queue, and after the exit nothing of the
  module is registered or pending
* `Unload.Undisturbed`: the events that keep it so

## Main results

* `Unload.Staged.step`: what each stage has done stays done
* `Unload.quiescent_iff`: when an unload is quiescent
* `Unload.not_quiescent_of_usbMonitor`: no exit is, once the USB notifier is registered
-/

namespace XiaomiModules

/-- The steps of `mi_thermal_interface_exit`, by the one that is next. -/
inductive ExitStage
  | loaded
  | cancelScreenState
  | cancelUsbState
  | destroyWorkqueue
  | unregisterPanel
  | destroyMessageNode
  | destroyPowersaveNode
  | destroyCpufreq
  | returned
deriving DecidableEq

/-- The work queue is destroyed. -/
def ExitStage.QueueGone : ExitStage → Prop
  | .unregisterPanel | .destroyMessageNode | .destroyPowersaveNode | .destroyCpufreq | .returned =>
    True
  | _ => False

/-- The panel callback is unregistered. -/
def ExitStage.PanelGone : ExitStage → Prop
  | .destroyMessageNode | .destroyPowersaveNode | .destroyCpufreq | .returned => True
  | _ => False

/-- `screen_state_wq`, what is registered, which works are pending, how far the exit is, and whether
work was queued on the destroyed queue. -/
structure Unload where
  queueAlive : Bool
  panelRegistered : Bool
  usbRegistered : Bool
  screenPending : Bool
  usbPending : Bool
  stage : ExitStage
  queuedLate : Bool

/-- What happens next: an event of the panel or of a power supply with a name, the work queues run
a work, or the exit takes a step. -/
inductive UnloadEvent
  | panel (notif : Option PanelNotifType)
  | powerSupply (psy : Option String)
  | runScreenState
  | runUsbState
  | exit
deriving DecidableEq

/-- The event makes the panel callback queue its work. -/
def UnloadEvent.QueuesScreen (e : UnloadEvent) : Prop :=
  ∃ notif light, e = .panel notif ∧ screenStateForThermalCallback notif = some light

namespace Unload

/-- The module after a load. -/
def start (out : LoadOutcome) : Unload :=
  ⟨true, out.panelCookie, out.usbMonitor, false, false, .loaded, false⟩

/-- `queue_delayed_work(screen_state_wq, &screen_state_dw, 0)`: a pending work is not queued
again. -/
def queueScreenState (s : Unload) : Unload :=
  if s.screenPending then s
  else { s with screenPending := true, queuedLate := s.queuedLate || !s.queueAlive }

/-- One step of `mi_thermal_interface_exit`. -/
def exitStep (s : Unload) : Unload :=
  match s.stage with
  | .loaded => { s with stage := .cancelScreenState }
  | .cancelScreenState => { s with screenPending := false, stage := .cancelUsbState }
  | .cancelUsbState => { s with usbPending := false, stage := .destroyWorkqueue }
  -- destroying the queue runs what is pending on it first
  | .destroyWorkqueue =>
    { s with queueAlive := false, screenPending := false, stage := .unregisterPanel }
  | .unregisterPanel => { s with panelRegistered := false, stage := .destroyMessageNode }
  | .destroyMessageNode => { s with stage := .destroyPowersaveNode }
  | .destroyPowersaveNode => { s with stage := .destroyCpufreq }
  | .destroyCpufreq => { s with stage := .returned }
  | .returned => s

/-- One event; an event that reaches nothing registered changes nothing. -/
def step (s : Unload) : UnloadEvent → Unload
  | .panel notif =>
    if s.panelRegistered then
      match screenStateForThermalCallback notif with
      | none => s
      | some _ => s.queueScreenState
    else s
  -- `usb_online_callback` queues on the work queue of the system
  | .powerSupply psy =>
    if s.usbRegistered ∧ psy = some "usb" then { s with usbPending := true } else s
  | .runScreenState => if s.queueAlive then { s with screenPending := false } else s
  | .runUsbState => { s with usbPending := false }
  | .exit => s.exitStep

/-- No work was queued on the destroyed queue; and once the exit has returned, no callback is
registered and no work is pending. -/
structure Quiescent (s : Unload) : Prop where
  queuedLate_eq : s.queuedLate = false
  returned : s.stage = .returned → s.panelRegistered = false ∧ s.usbRegistered = false ∧
    s.screenPending = false ∧ s.usbPending = false

/-- No panel event queues work while the queue is gone and the callback is not, and the exit does
not return while the USB notifier is registered. -/
structure Undisturbed (s : Unload) (e : UnloadEvent) : Prop where
  panel : s.stage = .unregisterPanel → s.panelRegistered = true → ¬ e.QueuesScreen
  usb : e = .exit → s.stage = .destroyCpufreq → s.usbRegistered = false

/-- What each stage has done. -/
structure Staged (s : Unload) : Prop where
  queueAlive_iff : s.queueAlive = false ↔ s.stage.QueueGone
  panel : s.stage.PanelGone → s.panelRegistered = false
  screen : s.queueAlive = false → s.screenPending = false
  usb : s.usbRegistered = false → s.usbPending = false

theorem staged_start (out : LoadOutcome) : (start out).Staged :=
  ⟨iff_of_false nofun id, False.elim, fun _ => rfl, fun _ => rfl⟩

theorem quiescent_start (out : LoadOutcome) : (start out).Quiescent := ⟨rfl, nofun⟩

variable {s : Unload}

/-- Where the queue is gone and the panel callback is not, that callback is next. -/
theorem Staged.stage_eq (h : s.Staged) (hqueue : s.queueAlive = false)
    (hpanel : s.panelRegistered = true) : s.stage = .unregisterPanel := by
  have hgone := h.queueAlive_iff.mp hqueue
  have hnot : ¬ s.stage.PanelGone := fun hpg => by simp [h.panel hpg] at hpanel
  cases hstage : s.stage with
  | unregisterPanel => rfl
  | _ => simp_all [ExitStage.QueueGone, ExitStage.PanelGone]

/-! ## The exit -/

theorem Staged.exitStep (h : s.Staged) : s.exitStep.Staged := by
  obtain ⟨queueAlive, panelRegistered, usbRegistered, screenPending, usbPending, stage,
    queuedLate⟩ := s
  obtain ⟨hqueue, hpanel, hscreen, husb⟩ := h
  cases stage with
  | cancelScreenState => exact ⟨hqueue, hpanel, fun _ => rfl, husb⟩
  | cancelUsbState => exact ⟨hqueue, hpanel, hscreen, fun _ => rfl⟩
  | destroyWorkqueue => exact ⟨iff_of_true rfl trivial, hpanel, fun _ => rfl, husb⟩
  | unregisterPanel => exact ⟨hqueue, fun _ => rfl, hscreen, husb⟩
  | _ => exact ⟨hqueue, hpanel, hscreen, husb⟩

/-- The last step of the exit leaves the USB notifier behind, if it is registered. -/
theorem quiescent_exitStep_iff (hs : s.Staged) (h : s.Quiescent) :
    s.exitStep.Quiescent ↔ (s.stage = .destroyCpufreq → s.usbRegistered = false) := by
  obtain ⟨queueAlive, panelRegistered, usbRegistered, screenPending, usbPending, stage,
    queuedLate⟩ := s
  obtain ⟨hqueue, hpanel, hscreen, husb⟩ := hs
  cases stage with
  | destroyCpufreq =>
    constructor
    · exact fun hquiescent _ => (hquiescent.returned rfl).2.1
    · -- the queue and the panel callback are gone by now
      intro hnone
      refine ⟨h.queuedLate_eq, fun _ => ⟨hpanel trivial, hnone rfl, ?_, husb (hnone rfl)⟩⟩
      exact hscreen (hqueue.mpr trivial)
  | returned => exact iff_of_true h nofun
  | _ => exact iff_of_true ⟨h.queuedLate_eq, nofun⟩ nofun

/-! ## Panel events -/

theorem Staged.queueScreenState (h : s.Staged) (halive : s.queueAlive = true) :
    s.queueScreenState.Staged := by
  unfold Unload.queueScreenState
  split_ifs
  · exact h
  · refine ⟨h.queueAlive_iff, h.panel, fun hqueue => ?_, h.usb⟩
    exact absurd (halive.symm.trans hqueue) nofun

/-- A registered callback finds the queue, except where the queue is gone and it is next. -/
theorem Staged.queueAlive_of_ne (h : s.Staged) (hpanel : s.panelRegistered = true)
    (hstage : s.stage ≠ .unregisterPanel) : s.queueAlive = true := by
  by_contra hqueue
  exact hstage (h.stage_eq (Bool.eq_false_iff.mpr hqueue) hpanel)

/-- Work is queued on a queue that is there exactly if the callback does not stand to be
unregistered. -/
theorem quiescent_queueScreenState_iff (hs : s.Staged) (h : s.Quiescent)
    (hpanel : s.panelRegistered = true) :
    s.queueScreenState.Quiescent ↔ s.stage ≠ .unregisterPanel := by
  have hnot : s.stage ≠ .returned := fun hreturned => by
    rw [(h.returned hreturned).1] at hpanel
    exact Bool.false_ne_true hpanel
  constructor
  · intro hquiescent hstage
    have hqueue : s.queueAlive = false := hs.queueAlive_iff.mpr (hstage ▸ trivial)
    -- nothing is pending after the queue is destroyed, so the work is queued
    have hlate : s.queueScreenState.queuedLate = true := by
      simp [queueScreenState, hs.screen hqueue, hqueue]
    rw [hquiescent.queuedLate_eq] at hlate
    exact Bool.false_ne_true hlate
  · intro hstage
    have hqueue := hs.queueAlive_of_ne hpanel hstage
    unfold queueScreenState
    split_ifs
    · exact h
    · exact ⟨by simp [h.queuedLate_eq, hqueue], fun hreturned => absurd hreturned hnot⟩

/-! ## Runs -/

/-- A panel event reaches the work queue where the callback is registered and does not return
early. -/
theorem step_panel (s : Unload) (notif : Option PanelNotifType) :
    (s.panelRegistered = true ∧ UnloadEvent.QueuesScreen (.panel notif)) ∧
        s.step (.panel notif) = s.queueScreenState ∨
      ¬ (s.panelRegistered = true ∧ UnloadEvent.QueuesScreen (.panel notif)) ∧
        s.step (.panel notif) = s := by
  by_cases hpanel : s.panelRegistered = true
  · cases hset : screenStateForThermalCallback notif with
    | none =>
      right
      refine ⟨?_, by simp only [step, if_pos hpanel, hset]⟩
      rintro ⟨-, other, light, heq, hlight⟩
      rw [← UnloadEvent.panel.inj heq, hset] at hlight
      exact absurd hlight.symm (Option.some_ne_none _)
    | some light =>
      exact Or.inl ⟨⟨hpanel, notif, light, rfl, hset⟩, by simp only [step, if_pos hpanel, hset]⟩
  · exact Or.inr ⟨fun h => hpanel h.1, if_neg hpanel⟩

theorem not_queuesScreen {e : UnloadEvent} (he : ∀ notif, e ≠ .panel notif) : ¬ e.QueuesScreen := by
  rintro ⟨notif, light, heq, -⟩
  exact he notif heq

/-- **Stages**: an event that does not disturb the unload keeps what the stages have done. -/
theorem Staged.step (hs : s.Staged) {e : UnloadEvent} (he : s.Undisturbed e) :
    (s.step e).Staged := by
  cases e with
  | panel notif =>
    rcases step_panel s notif with ⟨⟨hpanel, hqueues⟩, hstep⟩ | ⟨-, hstep⟩
    · rw [hstep]
      refine hs.queueScreenState (hs.queueAlive_of_ne hpanel fun hstage => ?_)
      exact he.panel hstage hpanel hqueues
    · rw [hstep]
      exact hs
  | powerSupply psy =>
    simp only [Unload.step]
    split_ifs with hpsy
    · refine ⟨hs.queueAlive_iff, hs.panel, hs.screen, fun husb => ?_⟩
      exact absurd (hpsy.1.symm.trans husb) nofun
    · exact hs
  | runScreenState =>
    simp only [Unload.step]
    split_ifs
    · exact ⟨hs.queueAlive_iff, hs.panel, fun _ => rfl, hs.usb⟩
    · exact hs
  | runUsbState => exact ⟨hs.queueAlive_iff, hs.panel, hs.screen, fun _ => rfl⟩
  | exit => exact hs.exitStep

/-- **One event**: the unload stays quiescent exactly if the event does not disturb it. -/
theorem quiescent_step_iff (hs : s.Staged) (h : s.Quiescent) (e : UnloadEvent) :
    (s.step e).Quiescent ↔ s.Undisturbed e := by
  cases e with
  | panel notif =>
    rcases step_panel s notif with ⟨⟨hpanel, hqueues⟩, hstep⟩ | ⟨hnot, hstep⟩
    · rw [hstep, quiescent_queueScreenState_iff hs h hpanel]
      constructor
      · exact fun hstage => ⟨fun hnext => absurd hnext hstage, nofun⟩
      · exact fun hundisturbed hstage => hundisturbed.panel hstage hpanel hqueues
    · rw [hstep]
      exact iff_of_true h ⟨fun _ hpanel hqueues => hnot ⟨hpanel, hqueues⟩, nofun⟩
  | powerSupply psy =>
    refine iff_of_true ?_ ⟨fun _ _ => not_queuesScreen nofun, nofun⟩
    simp only [step]
    split_ifs with hpsy
    · refine ⟨h.queuedLate_eq, fun hreturned => ?_⟩
      exact absurd (hpsy.1.symm.trans (h.returned hreturned).2.1) nofun
    · exact h
  | runScreenState =>
    refine iff_of_true ?_ ⟨fun _ _ => not_queuesScreen nofun, nofun⟩
    simp only [step]
    split_ifs
    · refine ⟨h.queuedLate_eq, fun hreturned => ?_⟩
      obtain ⟨hpanel, husb, -, hpending⟩ := h.returned hreturned
      exact ⟨hpanel, husb, rfl, hpending⟩
    · exact h
  | runUsbState =>
    refine iff_of_true ⟨h.queuedLate_eq, fun hreturned => ?_⟩
      ⟨fun _ _ => not_queuesScreen nofun, nofun⟩
    obtain ⟨hpanel, husb, hpending, -⟩ := h.returned hreturned
    exact ⟨hpanel, husb, hpending, rfl⟩
  | exit =>
    rw [step, quiescent_exitStep_iff hs h]
    constructor
    · exact fun husb => ⟨fun _ _ => not_queuesScreen nofun, fun _ => husb⟩
    · exact fun hundisturbed => hundisturbed.usb rfl

/-- **Unloads**: whatever events come between its steps, an unload is quiescent in every state
exactly if no panel event queues work while the queue is gone and the callback is not, and the exit
does not return with the USB notifier registered. -/
theorem quiescent_iff (out : LoadOutcome) (events : List UnloadEvent) :
    (∀ pre, pre <+: events → (Runs.after step (start out) pre).Quiescent) ↔
      Runs.Along step Undisturbed (start out) events :=
  Runs.forall_prefix_iff_along (I := Staged) (P := Quiescent)
    (fun _ _ hs _ he => hs.step he) (fun _ e hs h => quiescent_step_iff hs h e)
    (staged_start out) (quiescent_start out) events

/-- No event takes the USB notifier back. -/
theorem usbRegistered_step (s : Unload) (e : UnloadEvent) :
    (s.step e).usbRegistered = s.usbRegistered := by
  cases e with
  | panel notif =>
    rcases step_panel s notif with ⟨-, hstep⟩ | ⟨-, hstep⟩
    · rw [hstep, queueScreenState]
      split_ifs
      · rfl
      · rfl
    · rw [hstep]
  | powerSupply psy =>
    rw [step]
    split_ifs
    · rfl
    · rfl
  | runScreenState =>
    rw [step]
    split_ifs
    · rfl
    · rfl
  | runUsbState => rfl
  | exit =>
    rw [step, exitStep]
    split
    all_goals rfl

/-- Where the load registered the USB notifier, no exit that has returned is quiescent. -/
theorem not_quiescent_of_usbMonitor {out : LoadOutcome} (husb : out.usbMonitor = true)
    {events : List UnloadEvent}
    (hreturned : (Runs.after step (start out) events).stage = .returned) :
    ¬ (Runs.after step (start out) events).Quiescent := by
  have hkept : (Runs.after step (start out) events).usbRegistered = true :=
    Runs.after_invariant (I := fun s : Unload => s.usbRegistered = true)
      (fun s e h => (usbRegistered_step s e).trans h) husb events
  intro h
  rw [(h.returned hreturned).2.1] at hkept
  exact Bool.false_ne_true hkept

section LateUnblank

/-- The kernel's answers where the load succeeds. -/
def everythingLoads : LoadAnswers := { noWorkqueue with workqueue := true }

/-- The screen is unblanked between the destruction of the queue and the end of the callback. -/
def lateUnblank : List UnloadEvent := [.exit, .exit, .exit, .exit, .panel (some .unblank)]

/-- The work is queued on the destroyed queue. -/
theorem not_quiescent_lateUnblank :
    ¬ ∀ (enable : Bool) (a : LoadAnswers) (events : List UnloadEvent),
      (miThermalInterfaceInit enable a).ret = 0 →
        (Runs.after step (start (miThermalInterfaceInit enable a)) events).Quiescent := by
  intro h
  have hlate := (h true everythingLoads lateUnblank (by decide)).queuedLate_eq
  exact absurd hlate (by decide)

end LateUnblank

end Unload

end XiaomiModules
