import Mathlib.Logic.Function.Basic
import XiaomiModules.Kernel.Basic
import XiaomiModules.Library.Runs

/-!
# Loading and unloading miev

`miev_init_module` makes seven calls, and the label that the error of each jumps to undoes those
before it in the opposite order; `miev_cleanup_module` undoes them all. How many of the calls are in
effect is therefore one number, whatever way led there. The character device is there from the
third call on and the FIFO from the fourth, so a client may find the one without the other: between
the two calls of a load, and between the two that undo them after an error. The exit goes through
the same states, but no file is open then.

## Main definitions

* `InitCall`, `Teardown`, `MievStage`: the calls, and how far the module is with them
* `MievLife`, `MievLife.step`: the module and its clients
* `MievLife.Working`: while a client operation runs, the FIFO and the device are there
* `MievLife.KeepsOut`: the steps that keep it so

## Main results

* `MievLife.Stacked.step`: the calls in effect are the first ones, as many as the stage says
* `MievLife.working_iff`: when the device is only reachable with its FIFO
* `MievLife.held_of_failed`: a load that failed and an unload leave nothing held
-/

namespace XiaomiModules

/-! ## Stages -/

/-- The calls of `miev_init_module`, in their order. -/
inductive InitCall
  | kzallocDev
  | allocChrdevRegion
  | cdevAdd
  | kfifoAlloc
  | classCreate
  | deviceCreate
  | allocWorkqueue
deriving DecidableEq

/-- How many calls come before. -/
def InitCall.rank : InitCall → ℕ
  | .kzallocDev => 0
  | .allocChrdevRegion => 1
  | .cdevAdd => 2
  | .kfifoAlloc => 3
  | .classCreate => 4
  | .deviceCreate => 5
  | .allocWorkqueue => 6

/-- The calls that undo them, from the label `err_device_destroy` on. -/
inductive Teardown
  | deviceDestroy
  | classDestroy
  | kfifoFree
  | cdevDel
  | unregisterChrdevRegion
  | kfreeDev
deriving DecidableEq

/-- The call that is undone. -/
def Teardown.undoes : Teardown → InitCall
  | .deviceDestroy => .deviceCreate
  | .classDestroy => .classCreate
  | .kfifoFree => .kfifoAlloc
  | .cdevDel => .cdevAdd
  | .unregisterChrdevRegion => .allocChrdevRegion
  | .kfreeDev => .kzallocDev

/-- The next call that undoes one. -/
def Teardown.next : Teardown → Option Teardown
  | .deviceDestroy => some .classDestroy
  | .classDestroy => some .kfifoFree
  | .kfifoFree => some .cdevDel
  | .cdevDel => some .unregisterChrdevRegion
  | .unregisterChrdevRegion => some .kfreeDev
  | .kfreeDev => none

/-- How far the module is, by the call that is next: in the load, loaded, after an error of the
load, with the load failed, in the exit, and gone. -/
inductive MievStage
  | init (call : InitCall)
  | loaded
  | unwind (call : Teardown)
  | failed
  | destroyWorkqueue
  | cleanup (call : Teardown)
  | gone
deriving DecidableEq

/-- The stage after a call of the load that succeeds. -/
def InitCall.next : InitCall → MievStage
  | .kzallocDev => .init .allocChrdevRegion
  | .allocChrdevRegion => .init .cdevAdd
  | .cdevAdd => .init .kfifoAlloc
  | .kfifoAlloc => .init .classCreate
  | .classCreate => .init .deviceCreate
  | .deviceCreate => .init .allocWorkqueue
  | .allocWorkqueue => .loaded

/-- The label that an error of a call jumps to. -/
def InitCall.onError : InitCall → MievStage
  | .kzallocDev => .failed
  | .allocChrdevRegion => .unwind .kfreeDev
  | .cdevAdd => .unwind .unregisterChrdevRegion
  | .kfifoAlloc => .unwind .cdevDel
  | .classCreate => .unwind .kfifoFree
  | .deviceCreate => .unwind .classDestroy
  | .allocWorkqueue => .unwind .deviceDestroy

/-- The stage after a call that undoes one in a load that fails. -/
def Teardown.unwindNext (call : Teardown) : MievStage :=
  match call.next with
  | some next => .unwind next
  | none => .failed

/-- The stage after a call that undoes one in the exit. -/
def Teardown.cleanupNext (call : Teardown) : MievStage :=
  match call.next with
  | some next => .cleanup next
  | none => .gone

/-- What `miev_init_module` returns where a call fails with an error. -/
def InitCall.error (err : ℕ) : InitCall → ℤ
  | .kzallocDev | .allocWorkqueue => -ENOMEM
  | _ => -err

/-- How many of the calls are in effect. -/
def MievStage.height : MievStage → ℕ
  | .init call => call.rank
  | .loaded | .destroyWorkqueue => 7
  | .unwind call | .cleanup call => call.undoes.rank + 1
  | .failed | .gone => 0

/-- The kernel no longer gives out references to the module. -/
def MievStage.going : MievStage → Bool
  | .init _ | .loaded | .unwind _ => false
  | .failed | .destroyWorkqueue | .cleanup _ | .gone => true

/-- The load failed, and the FIFO is not there. -/
def MievStage.PastFifo : MievStage → Prop
  | .unwind .cdevDel | .unwind .unregisterChrdevRegion | .unwind .kfreeDev | .failed => True
  | _ => False

/-- A file that was opened while the FIFO was there may still be open. -/
def MievStage.MayBeOpen : MievStage → Prop
  | .init .classCreate | .init .deviceCreate | .init .allocWorkqueue | .loaded | .unwind _
  | .failed => True
  | _ => False

theorem InitCall.height_next (call : InitCall) : call.next.height = call.rank + 1 := by
  cases call
  all_goals rfl

theorem InitCall.height_onError (call : InitCall) : call.onError.height = call.rank := by
  cases call
  all_goals rfl

theorem Teardown.height_unwindNext (call : Teardown) :
    call.unwindNext.height = call.undoes.rank := by
  cases call
  all_goals rfl

theorem Teardown.height_cleanupNext (call : Teardown) :
    call.cleanupNext.height = call.undoes.rank := by
  cases call
  all_goals rfl

theorem InitCall.rank_injective : Function.Injective InitCall.rank := by
  intro call other h
  cases call
  all_goals
    cases other
    all_goals first
      | rfl
      | exact absurd h (by decide)

theorem mayBeOpen_next {call : InitCall} (h : (MievStage.init call).MayBeOpen) :
    call.next.MayBeOpen := by
  cases call
  all_goals first
    | exact h.elim
    | exact trivial

theorem mayBeOpen_onError {call : InitCall} (h : (MievStage.init call).MayBeOpen) :
    call.onError.MayBeOpen := by
  cases call
  all_goals first
    | exact h.elim
    | exact trivial

theorem mayBeOpen_unwindNext (call : Teardown) : call.unwindNext.MayBeOpen := by
  cases call
  all_goals exact trivial

/-- Where a file may be open, the FIFO is there unless the load failed. -/
theorem MievStage.MayBeOpen.lt_height_iff {stage : MievStage} (h : stage.MayBeOpen) :
    3 < stage.height ↔ ¬ stage.PastFifo := by
  rcases stage with (_ | _ | _ | _ | _ | _ | _) | _ | (_ | _ | _ | _ | _ | _) | _ | _ | _ | _
  all_goals simp_all [MayBeOpen, PastFifo, height, InitCall.rank, Teardown.undoes]

theorem mayBeOpen_of_published {stage : MievStage} (hheight : 2 < stage.height)
    (hgoing : stage.going = false) (hstage : stage ≠ .init .kfifoAlloc) : stage.MayBeOpen := by
  rcases stage with (_ | _ | _ | _ | _ | _ | _) | _ | (_ | _ | _ | _ | _ | _) | _ | _ | _ | _
  all_goals simp_all [MievStage.MayBeOpen, MievStage.going, MievStage.height, InitCall.rank]

/-- Where the device can be opened, the FIFO is there but between two calls. -/
theorem MievStage.lt_height_iff_of_published {stage : MievStage} (hheight : 2 < stage.height)
    (hgoing : stage.going = false) :
    3 < stage.height ↔ stage ≠ .init .kfifoAlloc ∧ stage ≠ .unwind .cdevDel := by
  rcases stage with (_ | _ | _ | _ | _ | _ | _) | _ | (_ | _ | _ | _ | _ | _) | _ | _ | _ | _
  all_goals simp_all [going, height, InitCall.rank, Teardown.undoes]

/-! ## The module and its clients -/

/-- What a client does with an open file. -/
inductive FileOp
  | read
  | write
  | poll
deriving DecidableEq

/-- `miev_open(inode, file)`, where the kernel gives out references to the module or not. -/
def mievOpen (going : Bool) : ℤ :=
  if going = true then -ENODEV else 0

/-- How far the module is, what `ret` holds, which of the calls are in effect; how many calls of
`miev_open` run, and which operations run on each open file. -/
structure MievLife where
  stage : MievStage
  ret : ℤ
  held : InitCall → Bool
  opening : ℕ
  files : List (List FileOp)

/-- What happens next: the module makes its next call, which in a load may fail with an error; it is
told to unload; a client opens the device, in two steps; an operation on a file begins or ends; or a
file is released. -/
inductive LifeEvent
  | advance (err : ℕ)
  | rmmod
  | openBegin
  | openEnd
  | opBegin (file : ℕ) (op : FileOp)
  | opEnd (file : ℕ) (op : FileOp)
  | release (file : ℕ)

namespace MievLife

/-- Before the load. -/
def start : MievLife := ⟨.init .kzallocDev, 0, fun _ => false, 0, []⟩

/-- The next call of `miev_init_module` or of `miev_cleanup_module`. -/
def advance (s : MievLife) (err : ℕ) : MievLife :=
  match s.stage with
  | .init call =>
    if err = 0 then { s with held := Function.update s.held call true, stage := call.next }
    else { s with ret := call.error err, stage := call.onError }
  | .unwind call =>
    { s with
      held := Function.update s.held call.undoes false
      stage := call.unwindNext }
  | .destroyWorkqueue =>
    { s with
      held := Function.update s.held .allocWorkqueue false
      stage := .cleanup .deviceDestroy }
  | .cleanup call =>
    { s with
      held := Function.update s.held call.undoes false
      stage := call.cleanupNext }
  | .loaded | .failed | .gone => s

/-- One event; what is not possible does not happen. A file is released when no operation runs on
it, and the module is unloaded when no file is open. -/
def step (s : MievLife) : LifeEvent → MievLife
  | .advance err => s.advance err
  | .rmmod =>
    if s.stage = .loaded ∧ s.opening = 0 ∧ s.files = [] then { s with stage := .destroyWorkqueue }
    else s
  | .openBegin =>
    if s.held .cdevAdd = true ∧ s.stage.going = false then { s with opening := s.opening + 1 }
    else s
  | .openEnd =>
    if s.opening = 0 then s
    else { s with
      opening := s.opening - 1
      files := if mievOpen s.stage.going = 0 then s.files ++ [[]] else s.files }
  | .opBegin file op => { s with files := s.files.modify file (op :: ·) }
  | .opEnd file op => { s with files := s.files.modify file (·.erase op) }
  | .release file =>
    if s.files[file]? = some [] then { s with files := s.files.eraseIdx file } else s

/-- A client operation runs. -/
def Busy (s : MievLife) : Prop :=
  0 < s.opening ∨ ∃ ops ∈ s.files, ops ≠ []

/-- A file is open, or is being opened. -/
def Occupied (s : MievLife) : Prop :=
  0 < s.opening ∨ s.files ≠ []

/-- While a client operation runs, the FIFO and the device are there. -/
def Working (s : MievLife) : Prop :=
  s.Busy → s.held .kfifoAlloc = true ∧ s.held .kzallocDev = true

/-- No client opens the device between the calls that make it and the FIFO, or undo them; none
begins an operation on a file that a failed load has left without FIFO; and no operation runs when
such a load frees it. -/
structure KeepsOut (s : MievLife) (e : LifeEvent) : Prop where
  opens : e = .openBegin → s.stage ≠ .init .kfifoAlloc ∧ s.stage ≠ .unwind .cdevDel
  begins : ∀ file op, e = .opBegin file op → file < s.files.length → ¬ s.stage.PastFifo
  frees : ∀ err, e = .advance err → s.stage = .unwind .kfifoFree → ¬ s.Busy

/-- The calls in effect are the first ones. -/
def Stacked (s : MievLife) : Prop :=
  ∀ call, s.held call = true ↔ call.rank < s.stage.height

/-- Besides, files are open in some stages only. -/
structure Staged (s : MievLife) : Prop where
  stacked : s.Stacked
  mayBeOpen : s.Occupied → s.stage.MayBeOpen

theorem stacked_start : start.Stacked :=
  fun _ => iff_of_false nofun (Nat.not_lt_zero _)

theorem staged_start : start.Staged where
  stacked := stacked_start
  mayBeOpen h := h.elim (fun hpos => absurd hpos (Nat.lt_irrefl 0)) fun hne => absurd rfl hne

theorem working_start : start.Working := by
  rintro (hpos | ⟨ops, hops, -⟩)
  · exact absurd hpos (Nat.lt_irrefl 0)
  · exact absurd hops List.not_mem_nil

variable {s : MievLife}

theorem Busy.occupied (h : s.Busy) : s.Occupied :=
  h.imp id fun ⟨_, hops, _⟩ => List.ne_nil_of_mem hops

/-- The FIFO is the fourth of the calls. -/
theorem Stacked.working_iff_height (hs : s.Stacked) :
    s.Working ↔ (s.Busy → 3 < s.stage.height) := by
  refine forall_congr' fun _ => ?_
  rw [hs .kfifoAlloc, hs .kzallocDev]
  constructor
  · exact fun h => h.1
  · intro h
    exact ⟨h, (Nat.zero_lt_succ 2).trans h⟩

/-! ### The calls of the module -/

/-- A call that succeeds adds itself to those in effect. -/
theorem Stacked.update {call : InitCall} (hs : s.Stacked) (hheight : s.stage.height = call.rank)
    (other : InitCall) :
    Function.update s.held call true other = true ↔ other.rank < call.rank + 1 := by
  by_cases heq : other = call
  · rw [heq, Function.update_self]
    exact iff_of_true rfl (Nat.lt_succ_self _)
  · rw [Function.update_of_ne heq, hs other, hheight]
    have hrank : other.rank ≠ call.rank := fun hrank => heq (InitCall.rank_injective hrank)
    omega

/-- A call that is undone was the last of those in effect. -/
theorem Stacked.update_false {call : InitCall} (hs : s.Stacked)
    (hheight : s.stage.height = call.rank + 1) (other : InitCall) :
    Function.update s.held call false other = true ↔ other.rank < call.rank := by
  by_cases heq : other = call
  · rw [heq, Function.update_self]
    exact iff_of_false nofun (Nat.lt_irrefl _)
  · rw [Function.update_of_ne heq, hs other, hheight]
    have hrank : other.rank ≠ call.rank := fun hrank => heq (InitCall.rank_injective hrank)
    omega

/-- The clients take no part in the calls of the module. -/
theorem advance_frame (s : MievLife) (err : ℕ) :
    (s.advance err).opening = s.opening ∧ (s.advance err).files = s.files := by
  obtain ⟨stage, ret, held, opening, files⟩ := s
  cases stage with
  | init call =>
    simp only [advance]
    split_ifs
    · exact ⟨rfl, rfl⟩
    · exact ⟨rfl, rfl⟩
  | _ => exact ⟨rfl, rfl⟩

theorem busy_advance (s : MievLife) (err : ℕ) : (s.advance err).Busy ↔ s.Busy := by
  obtain ⟨hopening, hfiles⟩ := advance_frame s err
  rw [Busy, Busy, hopening, hfiles]

theorem occupied_advance (s : MievLife) (err : ℕ) : (s.advance err).Occupied ↔ s.Occupied := by
  obtain ⟨hopening, hfiles⟩ := advance_frame s err
  rw [Occupied, Occupied, hopening, hfiles]

theorem Stacked.advance (hs : s.Stacked) (err : ℕ) : (s.advance err).Stacked := by
  obtain ⟨stage, ret, held, opening, files⟩ := s
  cases stage with
  | init call =>
    simp only [MievLife.advance]
    split_ifs
    · intro other
      rw [hs.update rfl, InitCall.height_next]
    · -- the label undoes what was in effect before the call
      intro other
      rw [InitCall.height_onError]
      exact hs other
  | unwind call =>
    intro other
    rw [MievLife.advance, hs.update_false rfl, Teardown.height_unwindNext]
  | destroyWorkqueue =>
    intro other
    rw [MievLife.advance, hs.update_false rfl]
    rfl
  | cleanup call =>
    intro other
    rw [MievLife.advance, hs.update_false rfl, Teardown.height_cleanupNext]
  | loaded => exact hs
  | failed => exact hs
  | gone => exact hs

/-- A file stays open through the calls of a load, and through those that undo them. -/
theorem mayBeOpen_advance (h : s.stage.MayBeOpen) (err : ℕ) : (s.advance err).stage.MayBeOpen := by
  obtain ⟨stage, ret, held, opening, files⟩ := s
  cases stage with
  | init call =>
    simp only [advance]
    split_ifs
    · exact mayBeOpen_next h
    · exact mayBeOpen_onError h
  | unwind call => exact mayBeOpen_unwindNext call
  | loaded => exact h
  | failed => exact h
  | _ => exact h.elim

/-- Where a file may be open, the calls of the module take the FIFO away in one place only. -/
theorem lt_height_advance_iff (hopen : s.stage.MayBeOpen) (h : 3 < s.stage.height) (err : ℕ) :
    3 < (s.advance err).stage.height ↔ s.stage ≠ .unwind .kfifoFree := by
  obtain ⟨stage, ret, held, opening, files⟩ := s
  cases stage with
  | init call =>
    refine iff_of_true ?_ nofun
    simp only [MievLife.advance]
    split_ifs
    · rw [InitCall.height_next]
      exact h.trans (Nat.lt_succ_self _)
    · rw [InitCall.height_onError]
      exact h
  | unwind call =>
    simp only [MievLife.advance, Teardown.height_unwindNext, ne_eq, MievStage.unwind.injEq]
    cases call
    all_goals simp_all [MievStage.height, Teardown.undoes, InitCall.rank]
  | loaded => exact iff_of_true h nofun
  | failed => exact absurd h (Nat.not_lt_zero 3)
  | _ => exact hopen.elim

theorem working_advance_iff (hs : s.Staged) (h : s.Working) (err : ℕ) :
    (s.advance err).Working ↔ (s.stage = .unwind .kfifoFree → ¬ s.Busy) := by
  rw [(hs.stacked.advance err).working_iff_height, busy_advance]
  by_cases hbusy : s.Busy
  · have hlt := lt_height_advance_iff (hs.mayBeOpen hbusy.occupied)
      (hs.stacked.working_iff_height.mp h hbusy) err
    rw [imp_iff_right hbusy, hlt]
    exact ⟨fun hne heq => absurd heq hne, fun himp heq => himp heq hbusy⟩
  · exact iff_of_true (fun hb => absurd hb hbusy) fun _ => hbusy

/-! ### Clients -/

theorem Stacked.of_frame {t : MievLife} (hs : s.Stacked) (hstage : t.stage = s.stage)
    (hheld : t.held = s.held) : t.Stacked := by
  intro call
  rw [hheld, hstage]
  exact hs call

theorem Working.of_frame {t : MievLife} (h : s.Working) (hheld : t.held = s.held)
    (hbusy : t.Busy → s.Busy) : t.Working := by
  intro hb
  rw [hheld]
  exact h (hbusy hb)

/-- Opening ends, with a file or without. -/
theorem openEnd_frame (s : MievLife) :
    (s.step .openEnd).stage = s.stage ∧ (s.step .openEnd).held = s.held ∧
      ((s.step .openEnd).Busy → s.Busy) ∧ ((s.step .openEnd).Occupied → s.Occupied) := by
  by_cases hopening : s.opening = 0
  · have hsame : s.step .openEnd = s := if_pos hopening
    rw [hsame]
    exact ⟨rfl, rfl, id, id⟩
  · have hpos := Nat.pos_of_ne_zero hopening
    rw [step, if_neg hopening]
    exact ⟨rfl, rfl, fun _ => Or.inl hpos, fun _ => Or.inl hpos⟩

theorem opEnd_busy {file : ℕ} {op : FileOp} (h : (s.step (.opEnd file op)).Busy) : s.Busy := by
  refine h.imp id ?_
  rintro ⟨ops, hops, hne⟩
  by_cases hfile : file < s.files.length
  · obtain ⟨before, old, behind, hfiles, -, hmodify⟩ :=
      List.exists_of_modify (·.erase op) hfile
    change ops ∈ s.files.modify file (·.erase op) at hops
    rw [hmodify, List.mem_append, List.mem_cons] at hops
    rw [hfiles]
    rcases hops with hops | rfl | hops
    · exact ⟨ops, List.mem_append_left _ hops, hne⟩
    · -- an operation is left, so one ran before
      refine ⟨old, List.mem_append_right _ List.mem_cons_self, ?_⟩
      rintro rfl
      exact hne rfl
    · exact ⟨ops, List.mem_append_right _ (List.mem_cons_of_mem _ hops), hne⟩
  · change ops ∈ s.files.modify file (·.erase op) at hops
    rw [List.modify_eq_self (Nat.le_of_not_lt hfile)] at hops
    exact ⟨ops, hops, hne⟩

/-- An operation runs on the file it has begun on. -/
theorem opBegin_busy {file : ℕ} (op : FileOp) (hfile : file < s.files.length) :
    (s.step (.opBegin file op)).Busy := by
  obtain ⟨before, old, behind, -, -, hmodify⟩ := List.exists_of_modify (op :: ·) hfile
  refine Or.inr ⟨op :: old, ?_, List.cons_ne_nil op old⟩
  change op :: old ∈ s.files.modify file (op :: ·)
  rw [hmodify]
  exact List.mem_append_right _ List.mem_cons_self

/-- An operation that begins or ends leaves the files open that are. -/
theorem occupied_modify {file : ℕ} {f : List FileOp → List FileOp}
    (h : ({ s with files := s.files.modify file f } : MievLife).Occupied) : s.Occupied :=
  h.imp id fun hne hnil => hne (List.modify_eq_nil_iff.mpr hnil)

theorem release_frame (s : MievLife) (file : ℕ) :
    (s.step (.release file)).stage = s.stage ∧ (s.step (.release file)).held = s.held ∧
      ((s.step (.release file)).Busy → s.Busy) ∧
      ((s.step (.release file)).Occupied → s.Occupied) := by
  by_cases hempty : s.files[file]? = some []
  · rw [step, if_pos hempty]
    refine ⟨rfl, rfl, fun h => h.imp id ?_, fun h => h.imp id ?_⟩
    · rintro ⟨ops, hops, hne⟩
      exact ⟨ops, List.mem_of_mem_eraseIdx hops, hne⟩
    · intro _ hnil
      rw [hnil] at hempty
      exact absurd hempty nofun
  · have hsame : s.step (.release file) = s := if_neg hempty
    rw [hsame]
    exact ⟨rfl, rfl, id, id⟩

/-- Opening is possible from the third call on. -/
theorem step_openBegin (hs : s.Stacked) :
    ((2 < s.stage.height ∧ s.stage.going = false) ∧
      s.step .openBegin = { s with opening := s.opening + 1 }) ∨
    (¬ (2 < s.stage.height ∧ s.stage.going = false) ∧ s.step .openBegin = s) := by
  have hheld : s.held .cdevAdd = true ↔ 2 < s.stage.height := hs .cdevAdd
  rw [← hheld]
  by_cases hpublished : s.held .cdevAdd = true ∧ s.stage.going = false
  · exact Or.inl ⟨hpublished, if_pos hpublished⟩
  · exact Or.inr ⟨hpublished, if_neg hpublished⟩

/-! ## Runs -/

theorem step_rmmod (s : MievLife) :
    (s.step .rmmod = { s with stage := .destroyWorkqueue } ∧ s.stage = .loaded ∧ ¬ s.Occupied) ∨
      s.step .rmmod = s := by
  by_cases hidle : s.stage = .loaded ∧ s.opening = 0 ∧ s.files = []
  · refine Or.inl ⟨if_pos hidle, hidle.1, ?_⟩
    rintro (hpos | hne)
    · exact absurd hidle.2.1 hpos.ne'
    · exact hne hidle.2.2
  · exact Or.inr (if_neg hidle)

/-- **Stages**: in every step the calls in effect stay the first ones. -/
theorem Stacked.step (hs : s.Stacked) (e : LifeEvent) : (s.step e).Stacked := by
  cases e with
  | advance err => exact hs.advance err
  | rmmod =>
    rcases step_rmmod s with ⟨hstep, hstage, -⟩ | hstep
    · rw [hstep]
      intro call
      have hheld := hs call
      rwa [hstage] at hheld
    · rwa [hstep]
  | openBegin =>
    rcases step_openBegin hs with ⟨-, hstep⟩ | ⟨-, hstep⟩
    · rw [hstep]
      exact hs
    · rwa [hstep]
  | openEnd =>
    obtain ⟨hstage, hheld, -⟩ := openEnd_frame s
    exact hs.of_frame hstage hheld
  | opBegin file op => exact hs
  | opEnd file op => exact hs
  | release file =>
    obtain ⟨hstage, hheld, -⟩ := release_frame s file
    exact hs.of_frame hstage hheld

/-- A step that keeps the clients out of the device without FIFO keeps files to their stages. -/
theorem Staged.step (hs : s.Staged) {e : LifeEvent} (he : s.KeepsOut e) : (s.step e).Staged := by
  refine ⟨hs.stacked.step e, fun hoccupied => ?_⟩
  cases e with
  | advance err =>
    exact mayBeOpen_advance (hs.mayBeOpen ((occupied_advance s err).mp hoccupied)) err
  | rmmod =>
    rcases step_rmmod s with ⟨hstep, -, hfree⟩ | hstep
    · -- the exit starts only when no file is open
      rw [hstep] at hoccupied
      exact absurd hoccupied hfree
    · rw [hstep] at hoccupied ⊢
      exact hs.mayBeOpen hoccupied
  | openBegin =>
    rcases step_openBegin hs.stacked with ⟨⟨hheight, hgoing⟩, hstep⟩ | ⟨-, hstep⟩
    · rw [hstep]
      exact mayBeOpen_of_published hheight hgoing (he.opens rfl).1
    · rw [hstep] at hoccupied ⊢
      exact hs.mayBeOpen hoccupied
  | openEnd =>
    obtain ⟨hstage, -, -, hframe⟩ := openEnd_frame s
    rw [hstage]
    exact hs.mayBeOpen (hframe hoccupied)
  | opBegin file op => exact hs.mayBeOpen (occupied_modify hoccupied)
  | opEnd file op => exact hs.mayBeOpen (occupied_modify hoccupied)
  | release file =>
    obtain ⟨hstage, -, -, hframe⟩ := release_frame s file
    rw [hstage]
    exact hs.mayBeOpen (hframe hoccupied)

/-- A step that has nothing to do with the condition meets it. -/
theorem keepsOut_of_ne {e : LifeEvent} (hopen : e ≠ .openBegin)
    (hbegin : ∀ file op, e ≠ .opBegin file op) (hadvance : ∀ err, e ≠ .advance err) :
    s.KeepsOut e :=
  ⟨fun h => absurd h hopen, fun file op h => absurd h (hbegin file op),
    fun err h => absurd h (hadvance err)⟩

/-- Opening finds the FIFO but between two calls. -/
theorem working_openBegin_iff (hs : s.Stacked) (h : s.Working) :
    (s.step .openBegin).Working ↔ s.stage ≠ .init .kfifoAlloc ∧ s.stage ≠ .unwind .cdevDel := by
  rcases step_openBegin hs with ⟨⟨hheight, hgoing⟩, hstep⟩ | ⟨hnot, hstep⟩
  · have hbusy : (s.step .openBegin).Busy := by
      rw [hstep]
      exact Or.inl (Nat.succ_pos _)
    rw [(hs.step .openBegin).working_iff_height, imp_iff_right hbusy, hstep]
    exact MievStage.lt_height_iff_of_published hheight hgoing
  · -- in both stages the device can be opened
    rw [hstep]
    refine iff_of_true h ⟨fun heq => hnot ?_, fun heq => hnot ?_⟩
    · rw [heq]
      decide
    · rw [heq]
      decide

/-- An operation that begins on an open file finds the FIFO unless a failed load has freed it. -/
theorem working_opBegin_iff (hs : s.Staged) {file : ℕ} (op : FileOp)
    (hfile : file < s.files.length) :
    (s.step (.opBegin file op)).Working ↔ ¬ s.stage.PastFifo := by
  have hopen := hs.mayBeOpen (Or.inr (List.ne_nil_of_length_pos (Nat.zero_lt_of_lt hfile)))
  rw [(hs.stacked.step (.opBegin file op)).working_iff_height,
    imp_iff_right (opBegin_busy op hfile)]
  exact hopen.lt_height_iff

/-- **One step**: the clients keep finding the FIFO exactly if the step keeps them out. -/
theorem working_step_iff (hs : s.Staged) (h : s.Working) (e : LifeEvent) :
    (s.step e).Working ↔ s.KeepsOut e := by
  cases e with
  | advance err =>
    rw [step, working_advance_iff hs h]
    constructor
    · exact fun hfrees => ⟨nofun, nofun, fun _ _ => hfrees⟩
    · exact fun he => he.frees err rfl
  | rmmod =>
    refine iff_of_true ?_ (keepsOut_of_ne nofun nofun nofun)
    rcases step_rmmod s with ⟨hstep, -, -⟩ | hstep
    · rw [hstep]
      exact h
    · rwa [hstep]
  | openBegin =>
    rw [working_openBegin_iff hs.stacked h]
    constructor
    · exact fun hopens => ⟨fun _ => hopens, nofun, nofun⟩
    · exact fun he => he.opens rfl
  | openEnd =>
    obtain ⟨-, hheld, hbusy, -⟩ := openEnd_frame s
    exact iff_of_true (h.of_frame hheld hbusy) (keepsOut_of_ne nofun nofun nofun)
  | opBegin file op =>
    by_cases hfile : file < s.files.length
    · rw [working_opBegin_iff hs op hfile]
      constructor
      · exact fun hbegins => ⟨nofun, fun _ _ _ _ => hbegins, nofun⟩
      · exact fun he => he.begins file op rfl hfile
    · -- there is no such file
      have hsame : s.step (.opBegin file op) = s := by
        rw [step, List.modify_eq_self (Nat.le_of_not_lt hfile)]
      rw [hsame]
      refine iff_of_true h ⟨nofun, fun other _ heq hother => ?_, nofun⟩
      obtain ⟨rfl, -⟩ := LifeEvent.opBegin.inj heq
      exact absurd hother hfile
  | opEnd file op =>
    exact iff_of_true (h.of_frame rfl opEnd_busy) (keepsOut_of_ne nofun nofun nofun)
  | release file =>
    obtain ⟨-, hheld, hbusy, -⟩ := release_frame s file
    exact iff_of_true (h.of_frame hheld hbusy) (keepsOut_of_ne nofun nofun nofun)

/-- **Loads and unloads**: whatever the order of the calls of the module and of its clients, and
whichever call fails, no client operation runs without the FIFO and the device exactly if every step
keeps the clients out. -/
theorem working_iff (events : List LifeEvent) :
    (∀ pre, pre <+: events → (Runs.after step start pre).Working) ↔
      Runs.Along step KeepsOut start events :=
  Runs.forall_prefix_iff_along (I := Staged) (P := Working)
    (fun _ _ hs _ he => hs.step he) (fun _ e hs h => working_step_iff hs h e)
    staged_start working_start events

/-- A load that failed and an unload that has ended leave nothing in effect. -/
theorem held_of_failed {events : List LifeEvent}
    (h : (Runs.after step start events).stage = .failed ∨
      (Runs.after step start events).stage = .gone) (call : InitCall) :
    (Runs.after step start events).held call = false := by
  have hstacked : (Runs.after step start events).Stacked :=
    Runs.after_invariant (fun _ e hs => hs.step e) stacked_start events
  rw [Bool.eq_false_iff, ne_eq, hstacked call]
  rcases h with h | h
  · rw [h]
    exact Nat.not_lt_zero _
  · rw [h]
    exact Nat.not_lt_zero _

/-- A client opens the device right after `cdev_add`, and polls it. -/
def earlyClient : List LifeEvent :=
  [.advance 0, .advance 0, .advance 0, .openBegin, .openEnd, .opBegin 0 .poll]

/-- The FIFO is not allocated yet. -/
theorem not_working_earlyClient :
    ¬ ∀ events : List LifeEvent, (Runs.after step start events).Working := by
  intro h
  have hbusy : (Runs.after step start earlyClient).Busy :=
    Or.inr ⟨[.poll], by decide, List.cons_ne_nil _ _⟩
  exact absurd (h earlyClient hbusy).1 (by decide)

end MievLife

end XiaomiModules
