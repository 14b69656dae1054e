import Mathlib.Algebra.GroupWithZero.Nat
import XiaomiModules.Miev.Event

/-!
# The message of an event

A client adds parameters one call at a time and then writes the event. The message it means to
send is the opening, the renderings of the parameters whose calls returned 0 in call order and
separated by commas, and the terminator. A print that is cut short still returns success, so the
message arrives as meant exactly when no print on the way was cut.

## Main definitions

* `Addition`, `Addition.call`: a call that adds a parameter
* `Draft`, `Draft.step`: an event with the additions that returned 0
* `message`: the message meant
* `Faithful`: every print stores its text whole or is refused, and the message is as meant

## Main results

* `Draft.Sound.step`: an addition that is not cut keeps the text as meant
* `faithful_iff`: a run of additions is faithful exactly when no print is cut
* `Draft.Sound.along_of_fits`: additions that fit together are all accepted and none is cut
-/

namespace XiaomiModules

open Text

/-- A call that adds a parameter; keys and string values may be null. -/
inductive Addition
  | int (key : Option CString) (value : Int64)
  | str (key value : Option CString)
deriving DecidableEq

namespace Addition

/-- The call on an allocated event. -/
def call (event : MisightMievent) : Addition → ℤ × MisightMievent
  | .int key value => cdevTeventAddInt event key value
  | .str key value => cdevTeventAddStr event key value

/-- The arguments pass the checks of the call: none is null, and none is too long. -/
def Admissible : Addition → Prop
  | .int (some key) _ => key.chars.length < mievMaxParamName
  | .str (some key) (some value) =>
    key.chars.length < mievMaxParamName ∧ value.chars.length < mievMaxParamString
  | _ => False

instance : (a : Addition) → Decidable a.Admissible
  | .int (some _) _ => inferInstanceAs (Decidable (_ < _))
  | .str (some _) (some _) => inferInstanceAs (Decidable (_ ∧ _))
  | .int none _ => isFalse id
  | .str none _ => isFalse id
  | .str (some _) none => isFalse id

/-- The full rendering of the parameter; with a null argument there is none. -/
def rendering : Addition → List UInt8
  | .int (some key) value => intParam key value
  | .str (some key) (some value) => strParam key value
  | _ => []

theorem rendering_ne_nil {a : Addition} (h : a.Admissible) : a.rendering ≠ [] := by
  have hquote : ascii "\"" ≠ [] := by decide
  cases a with
  | int key value =>
    cases key with
    | none => exact h.elim
    | some key => simp [rendering, intParam, hquote]
  | str key value =>
    cases key with
    | none => exact h.elim
    | some key =>
      cases value with
      | none => exact h.elim
      | some value => simp [rendering, strParam, hquote]

/-- A call with admissible arguments prints, unless the event has all its parameters. -/
theorem call_of_admissible {a : Addition} (h : a.Admissible) (event : MisightMievent) :
    a.call event =
      if event.paraCnt ≥ mievMaxParams then (-ENOSPC, event)
      else event.addText (separator event ++ a.rendering) := by
  cases a with
  | int key value =>
    cases key with
    | none => exact h.elim
    | some key =>
      have hkey : ¬ key.chars.length ≥ mievMaxParamName := not_le.mpr h
      simp [call, cdevTeventAddInt, rendering, hkey]
  | str key value =>
    cases key with
    | none => exact h.elim
    | some key =>
      cases value with
      | none => exact h.elim
      | some value =>
        have hargs : ¬ (key.chars.length ≥ mievMaxParamName ∨
            value.chars.length ≥ mievMaxParamString) := by
          rw [not_or, not_le, not_le]
          exact h
        simp only [call, cdevTeventAddStr, rendering, hargs, if_false]

/-- A call with other arguments fails and leaves the event alone. -/
theorem call_of_not_admissible {a : Addition} (h : ¬ a.Admissible) (event : MisightMievent) :
    (a.call event).1 ≠ 0 ∧ (a.call event).2 = event := by
  cases a with
  | int key value =>
    cases key with
    | none => exact ⟨by simp [call, cdevTeventAddInt, EINVAL], rfl⟩
    | some key =>
      have hkey : key.chars.length ≥ mievMaxParamName := not_lt.mp h
      -- the parameters are counted before the lengths are looked at
      by_cases hcnt : event.paraCnt ≥ mievMaxParams
      · simp [call, cdevTeventAddInt, hcnt, ENOSPC]
      · simp [call, cdevTeventAddInt, hcnt, hkey, EINVAL]
  | str key value =>
    cases key with
    | none => exact ⟨by simp [call, cdevTeventAddStr, EINVAL], rfl⟩
    | some key =>
      cases value with
      | none => exact ⟨by simp [call, cdevTeventAddStr, EINVAL], rfl⟩
      | some value =>
        have hargs : key.chars.length ≥ mievMaxParamName ∨
            value.chars.length ≥ mievMaxParamString := by
          rw [Admissible, not_and_or, not_lt, not_lt] at h
          exact h
        by_cases hcnt : event.paraCnt ≥ mievMaxParams
        · simp [call, cdevTeventAddStr, hcnt, ENOSPC]
        · have hcall : call event (.str (some key) (some value)) = (-EINVAL, event) := by
            simp only [call, cdevTeventAddStr, hcnt, hargs, if_false, if_true]
          rw [hcall]
          exact ⟨(neg_errno_lt_zero EINVAL).ne, rfl⟩

/-- A call fails and leaves the event alone, or it prints its parameter and counts it. -/
theorem call_cases (a : Addition) {event : MisightMievent} (hnul : event.Terminated) :
    (a.call event).1 ≠ 0 ∧ (a.call event).2 = event ∨
      (a.Admissible ∧ event.paraCnt < mievMaxParams ∧ event.room ≠ 1) ∧
        a.call event = (0, event.added (separator event ++ a.rendering)) := by
  by_cases hadm : a.Admissible
  · have hcall := call_of_admissible hadm event
    -- the event has all its parameters, or no room for a character, or the print succeeds
    by_cases hcnt : event.paraCnt ≥ mievMaxParams
    · left
      rw [hcall, if_pos hcnt]
      exact ⟨(neg_errno_lt_zero ENOSPC).ne, rfl⟩
    rw [if_neg hcnt] at hcall
    by_cases hfull : event.room = 1
    · left
      rw [hcall, MisightMievent.addText_of_full hnul hfull]
      exact ⟨(neg_errno_lt_zero ENOSPC).ne, rfl⟩
    · right
      have htext : separator event ++ a.rendering ≠ [] :=
        List.append_ne_nil_of_right_ne_nil _ (rendering_ne_nil hadm)
      refine ⟨⟨hadm, not_le.mp hcnt, hfull⟩, ?_⟩
      rw [hcall, MisightMievent.addText_of_room htext hfull]
  · exact Or.inl (call_of_not_admissible hadm event)

end Addition

/-! ## Drafts -/

/-- The text and its NUL fit in the room of the event. -/
def MisightMievent.Fits (event : MisightMievent) (text : List UInt8) : Prop :=
  text.length < event.room

instance (event : MisightMievent) (text : List UInt8) : Decidable (event.Fits text) :=
  inferInstanceAs (Decidable (_ < _))

/-- An event, with the additions that returned 0. -/
structure Draft where
  event : MisightMievent
  accepted : List Addition

/-- The parameters as they stand in a message. -/
def paramList (params : List Addition) : List UInt8 :=
  (ascii ",").intercalate (params.map Addition.rendering)

/-- **The message meant** for the parameters. -/
def message (eventId : UInt32) (seconds : Int64) (params : List Addition) : List UInt8 :=
  eventHead eventId seconds ++ paramList params ++ terminator

namespace Draft

/-- A draft without parameters. -/
def start (event : MisightMievent) : Draft := ⟨event, []⟩

/-- One call. -/
def step (d : Draft) (a : Addition) : Draft :=
  let (ret, event) := a.call d.event
  { event, accepted := if ret = 0 then d.accepted ++ [a] else d.accepted }

/-- An admissible parameter that does not fit whole is refused, and the event is as before. -/
def CompleteOrRefused (d : Draft) (a : Addition) : Prop :=
  a.Admissible → ¬ d.event.Fits (separator d.event ++ a.rendering) →
    a.call d.event = (-ENOSPC, d.event)

/-- An admissible parameter that the event still takes fits whole, or not even one character of
it does. -/
def Uncut (d : Draft) (a : Addition) : Prop :=
  a.Admissible → d.event.paraCnt < mievMaxParams →
    d.event.room = 1 ∨ d.event.Fits (separator d.event ++ a.rendering)

/-- The event holds what its accepted additions mean. -/
structure Sound (eventId : UInt32) (seconds : Int64) (d : Draft) : Prop where
  terminated : d.event.Terminated
  text_eq : d.event.text = eventHead eventId seconds ++ paramList d.accepted
  paraCnt_eq : d.event.paraCnt = d.accepted.length

end Draft

/-- **Complete or refused**: every addition and the terminator are stored whole or refused with
the event as before, and what a write hands over is the message of the accepted additions. -/
structure Faithful (eventId : UInt32) (seconds : Int64) (event : MisightMievent)
    (calls : List Addition) : Prop where
  additions : Runs.Along Draft.step Draft.CompleteOrRefused (.start event) calls
  closing : ¬ (Runs.after Draft.step (.start event) calls).event.Fits terminator →
    ∀ mievDev, cdevTeventWrite mievDev (Runs.after Draft.step (.start event) calls).event =
      (-ENOSPC, (Runs.after Draft.step (.start event) calls).event, mievDev)
  handedOver : ∀ bytes,
    (Runs.after Draft.step (.start event) calls).event.handedOver = some bytes →
      bytes = message eventId seconds (Runs.after Draft.step (.start event) calls).accepted

namespace Draft

variable {eventId : UInt32} {seconds : Int64} {d : Draft} {a : Addition}

/-- A step leaves the draft alone, or prints a parameter and accepts it. -/
theorem step_cases (a : Addition) (hnul : d.event.Terminated) :
    d.step a = d ∨
      (a.Admissible ∧ d.event.paraCnt < mievMaxParams ∧ d.event.room ≠ 1) ∧
        d.step a = ⟨d.event.added (separator d.event ++ a.rendering), d.accepted ++ [a]⟩ := by
  rcases a.call_cases hnul with ⟨hret, hevent⟩ | ⟨hreach, hcall⟩
  · left
    simp [step, hret, hevent]
  · right
    refine ⟨hreach, ?_⟩
    simp [step, hcall]

theorem terminated_step (a : Addition) (hnul : d.event.Terminated) :
    (d.step a).event.Terminated := by
  rcases step_cases a hnul with hstep | ⟨-, hstep⟩
  · rwa [hstep]
  · rw [hstep]
    exact MisightMievent.terminated_added

/-- The check of an addition sees only a room of a single byte, so a parameter is complete or
refused exactly when it is not cut. -/
theorem completeOrRefused_iff (a : Addition) (hnul : d.event.Terminated) :
    d.CompleteOrRefused a ↔ d.Uncut a := by
  constructor
  · intro hcomplete hadm hcnt
    by_cases hfits : d.event.Fits (separator d.event ++ a.rendering)
    · exact Or.inr hfits
    left
    by_contra hroom
    -- in a room above 1 a print that is cut returns 0, so the call is not the refusal
    have hcall := hcomplete hadm hfits
    have htext : separator d.event ++ a.rendering ≠ [] :=
      List.append_ne_nil_of_right_ne_nil _ (Addition.rendering_ne_nil hadm)
    rw [Addition.call_of_admissible hadm, if_neg (not_le.mpr hcnt),
      MisightMievent.addText_of_room htext hroom] at hcall
    exact (neg_errno_lt_zero ENOSPC).ne (congrArg Prod.fst hcall).symm
  · intro huncut hadm hfits
    rw [Addition.call_of_admissible hadm]
    split_ifs with hcnt
    · rfl
    -- not fitting, an uncut parameter found a room of one byte
    rcases huncut hadm (not_le.mp hcnt) with hfull | hfits'
    · exact MisightMievent.addText_of_full hnul hfull
    · exact absurd hfits' hfits

theorem Sound.start {eventAllocated msgAllocated : Bool} {event : MisightMievent}
    (h : cdevTeventAlloc eventAllocated msgAllocated eventId seconds = some event) :
    Sound eventId seconds (.start event) := by
  obtain ⟨htext, hnul, hcnt⟩ := cdevTeventAlloc_some h
  refine ⟨hnul, ?_, hcnt⟩
  show event.text = _
  rw [htext]
  simp [paramList, Draft.start]

/-- The separator of the next parameter. -/
theorem Sound.separator_eq (h : Sound eventId seconds d) :
    separator d.event = if d.accepted = [] then [] else ascii "," := by
  rw [separator, h.paraCnt_eq]
  cases d.accepted <;> simp

/-- A parameter that fits is accepted and stands behind the others. -/
theorem Sound.accept (h : Sound eventId seconds d)
    (hfits : d.event.Fits (separator d.event ++ a.rendering)) :
    Sound eventId seconds
      ⟨d.event.added (separator d.event ++ a.rendering), d.accepted ++ [a]⟩ := by
  refine ⟨MisightMievent.terminated_added, ?_, ?_⟩
  · -- the whole parameter is stored, and the separator is the one the list asks for
    have hwhole : (separator d.event ++ a.rendering).take (d.event.room - 1) =
        separator d.event ++ a.rendering :=
      List.take_of_length_le (Nat.le_sub_one_of_lt hfits)
    rw [MisightMievent.text_added, hwhole, h.text_eq, h.separator_eq]
    simp [paramList, intercalate_snoc, List.append_assoc]
  · show d.event.paraCnt + 1 = (d.accepted ++ [a]).length
    rw [h.paraCnt_eq, List.length_append, List.length_singleton]

/-- An addition that is not cut keeps the text as meant. -/
theorem Sound.step (h : Sound eventId seconds d) (a : Addition) (huncut : d.Uncut a) :
    Sound eventId seconds (d.step a) := by
  rcases step_cases a h.terminated with hstep | ⟨⟨hadm, hcnt, hroom⟩, hstep⟩
  · -- a call that fails left the draft alone
    rwa [hstep]
  · rw [hstep]
    exact h.accept ((huncut hadm hcnt).resolve_left hroom)

/-- What a write hands over, where the terminator is stored whole. -/
theorem Sound.handedOver_eq (h : Sound eventId seconds d) (hfits : d.event.Fits terminator) :
    d.event.handedOver = some (message eventId seconds d.accepted) := by
  have hroom : d.event.room ≠ 1 := by
    intro hone
    rw [MisightMievent.Fits, hone] at hfits
    exact absurd hfits (by decide)
  have hwhole : terminator.take (d.event.room - 1) = terminator :=
    List.take_of_length_le (Nat.le_sub_one_of_lt hfits)
  rw [MisightMievent.handedOver_eq, if_neg hroom, hwhole, h.text_eq]
  rfl

/-- Only a room of one byte keeps a write from the FIFO, so unless the terminator is cut the whole
message is handed over. -/
theorem Sound.eq_of_handedOver (h : Sound eventId seconds d) (htwo : d.event.room ≠ 2)
    {bytes : List UInt8} (hbytes : d.event.handedOver = some bytes) :
    bytes = message eventId seconds d.accepted := by
  have hpos := d.event.room_pos
  by_cases hfull : d.event.room = 1
  · rw [MisightMievent.handedOver_eq, if_pos hfull] at hbytes
    exact absurd hbytes (Option.some_ne_none _).symm
  · have hfits : d.event.Fits terminator := by
      rw [MisightMievent.Fits, length_terminator]
      omega
    rw [h.handedOver_eq hfits] at hbytes
    exact (Option.some.inj hbytes).symm

/-- Where a parameter fits, its call succeeds. -/
theorem Sound.step_of_fits (h : Sound eventId seconds d) (hadm : a.Admissible)
    (hcnt : d.accepted.length < mievMaxParams)
    (hfits : d.event.Fits (separator d.event ++ a.rendering)) :
    (a.call d.event).1 = 0 ∧ d.Uncut a ∧
      d.step a = ⟨d.event.added (separator d.event ++ a.rendering), d.accepted ++ [a]⟩ := by
  have htext : separator d.event ++ a.rendering ≠ [] :=
    List.append_ne_nil_of_right_ne_nil _ (Addition.rendering_ne_nil hadm)
  have hroom : d.event.room ≠ 1 := by
    intro hone
    rw [MisightMievent.Fits, hone, Nat.lt_one_iff, List.length_eq_zero_iff] at hfits
    exact htext hfits
  have hcall : a.call d.event = (0, d.event.added (separator d.event ++ a.rendering)) := by
    rw [Addition.call_of_admissible hadm, h.paraCnt_eq, if_neg (not_le.mpr hcnt),
      MisightMievent.addText_of_room htext hroom]
  refine ⟨congrArg Prod.fst hcall, fun _ _ => Or.inr hfits, ?_⟩
  simp [Draft.step, hcall]

theorem Sound.usedSize_eq (h : Sound eventId seconds d) :
    d.event.usedSize = (eventHead eventId seconds).length + (paramList d.accepted).length := by
  rw [← d.event.length_text, h.text_eq, List.length_append]

/-- Additions that fit together are all accepted, and none is cut. -/
theorem Sound.along_of_fits (h : Sound eventId seconds d) (calls : List Addition)
    (hadm : ∀ a ∈ calls, a.Admissible) (hcnt : d.accepted.length + calls.length ≤ mievMaxParams)
    (hsize : d.event.usedSize + (calls.map fun a => a.rendering.length + 1).sum <
      mievMaxEventSize) :
    Runs.Along Draft.step (fun d a => (a.call d.event).1 = 0 ∧ d.Uncut a ∧
        d.event.Fits (separator d.event ++ a.rendering)) d calls ∧
      (Runs.after Draft.step d calls).accepted = d.accepted ++ calls ∧
      (Runs.after Draft.step d calls).event.usedSize ≤
        d.event.usedSize + (calls.map fun a => a.rendering.length + 1).sum := by
  induction calls generalizing d with
  | nil => exact ⟨trivial, (List.append_nil _).symm, le_rfl⟩
  | cons a calls ih =>
    rw [List.map_cons, List.sum_cons] at hsize ⊢
    rw [List.length_cons] at hcnt
    -- each parameter takes its rendering and at most one separator
    have hsep : (separator d.event).length ≤ 1 := by
      rw [h.separator_eq]
      split_ifs <;> decide
    have hfits : d.event.Fits (separator d.event ++ a.rendering) := by
      rw [MisightMievent.Fits, MisightMievent.room, List.length_append]
      omega
    obtain ⟨hret, huncut, hstep⟩ :=
      h.step_of_fits (hadm a List.mem_cons_self) (by omega) hfits
    have hused : (d.step a).event.usedSize ≤ d.event.usedSize + (a.rendering.length + 1) := by
      rw [hstep, ← MisightMievent.length_text, MisightMievent.text_added, List.length_append,
        MisightMievent.length_text, List.length_take, List.length_append]
      omega
    have hacc : (d.step a).accepted = d.accepted ++ [a] := by rw [hstep]
    have hcnt' : (d.step a).accepted.length + calls.length ≤ mievMaxParams := by
      rw [hacc, List.length_append, List.length_singleton]
      omega
    -- the rest of the calls, from the draft after this one
    obtain ⟨halong, hlater, hsize'⟩ := ih (h.step a huncut)
      (fun b hb => hadm b (List.mem_cons_of_mem _ hb)) hcnt' (by omega)
    refine ⟨⟨⟨hret, huncut, hfits⟩, halong⟩, ?_, ?_⟩
    · rw [Runs.after_cons, hlater, hacc, List.append_assoc, List.singleton_append]
    · rw [Runs.after_cons]
      omega

end Draft

/-- A write is refused whole where its terminator does not fit, unless one character fits. -/
theorem closing_iff {event : MisightMievent} (hnul : event.Terminated) :
    (¬ event.Fits terminator → ∀ mievDev, cdevTeventWrite mievDev event =
      (-ENOSPC, event, mievDev)) ↔ event.room ≠ 2 := by
  have hpos := event.room_pos
  constructor
  · intro hrefused htwo
    -- in a room of two bytes the first character is stored and the print succeeds
    have hfits : ¬ event.Fits terminator := by
      rw [MisightMievent.Fits, length_terminator, htwo]
      exact lt_irrefl 2
    have hret : (event.print terminator).1 = 0 := by
      rw [MisightMievent.print_fst event terminator_ne_nil, htwo]
      rfl
    have hwrite := congrArg Prod.fst (hrefused hfits none)
    simp [cdevTeventWrite, hret, writeBufInner, EINVAL, ENOSPC] at hwrite
  · intro htwo hfits mievDev
    have hfull : event.room = 1 := by
      rw [MisightMievent.Fits, length_terminator] at hfits
      omega
    rw [cdevTeventWrite, MisightMievent.print_of_full hnul hfull]
    rfl

/-- **Complete or refused, exactly**: a run of additions to a fresh event, followed by a write, is
faithful if and only if every print finds room for its whole text and a NUL, or no room for any
of it. -/
theorem faithful_iff {eventAllocated msgAllocated : Bool} {eventId : UInt32} {seconds : Int64}
    {event : MisightMievent}
    (h : cdevTeventAlloc eventAllocated msgAllocated eventId seconds = some event)
    (calls : List Addition) :
    Faithful eventId seconds event calls ↔
      Runs.Along Draft.step Draft.Uncut (.start event) calls ∧
        (Runs.after Draft.step (.start event) calls).event.room ≠ 2 := by
  have hstart := Draft.Sound.start h
  -- the conditions on the additions agree step by step, since every step keeps the NUL
  have hadditions : Runs.Along Draft.step Draft.CompleteOrRefused (.start event) calls ↔
      Runs.Along Draft.step Draft.Uncut (.start event) calls :=
    Runs.along_iff_along (I := fun d : Draft => d.event.Terminated)
      (fun _ a hnul _ => Draft.terminated_step a hnul)
      (fun _ a hnul => Draft.completeOrRefused_iff a hnul) hstart.terminated calls
  have hnul : (Runs.after Draft.step (.start event) calls).event.Terminated :=
    Runs.after_invariant (I := fun d : Draft => d.event.Terminated)
      (fun _ a hnul => Draft.terminated_step a hnul) hstart.terminated calls
  constructor
  · rintro ⟨hcomplete, hclosing, -⟩
    exact ⟨hadditions.mp hcomplete, (closing_iff hnul).mp hclosing⟩
  · rintro ⟨huncut, htwo⟩
    have hsound : (Runs.after Draft.step (.start event) calls).Sound eventId seconds :=
      huncut.invariant (fun _ a hs hc => hs.step a hc) hstart
    exact ⟨hadditions.mpr huncut, (closing_iff hnul).mpr htwo,
      fun bytes hbytes => hsound.eq_of_handedOver htwo hbytes⟩

section Cut

/-- A string parameter with the longest value. -/
def longParam : Addition :=
  .str (some ⟨[], List.not_mem_nil⟩)
    (some ⟨List.replicate 511 120, fun h => absurd (List.eq_of_mem_replicate h) (by decide)⟩)

/-- Integers and strings: the third call is refused for its null key, the seventh is cut, and the
last finds no room. -/
def mixedCalls : List Addition :=
  [.int (some (CString.ofBytes (ascii "pid"))) (-5),
    .str (some (CString.ofBytes (ascii "comm"))) (some (CString.ofBytes (ascii "init"))),
    .int none 3, longParam, longParam, longParam, longParam,
    .int (some (CString.ofBytes (ascii "cnt"))) 7]

/-- What is left of an event after the mixed calls: one byte, with the cut parameter accepted. -/
theorem room_after_mixedCalls {event : MisightMievent}
    (h : cdevTeventAlloc true true 7 (-1) = some event) :
    (Runs.after Draft.step (.start event) mixedCalls).accepted =
        mixedCalls.take 2 ++ List.replicate 4 longParam ∧
      (Runs.after Draft.step (.start event) mixedCalls).event.room = 1 := by
  have hrun : (cdevTeventAlloc true true 7 (-1)).map (fun event =>
      ((Runs.after Draft.step (.start event) mixedCalls).accepted,
        (Runs.after Draft.step (.start event) mixedCalls).event.room)) =
      some (mixedCalls.take 2 ++ List.replicate 4 longParam, 1) := by decide +kernel
  rw [h] at hrun
  exact Prod.mk.inj (Option.some.inj hrun)

/-- The equivalence for the mixed calls: one more is accepted than is stored whole. -/
theorem faithful_iff_mixedCalls :
    ∃ event, cdevTeventAlloc true true 7 (-1) = some event ∧
      ((Runs.after Draft.step (.start event) mixedCalls).accepted =
          mixedCalls.take 2 ++ List.replicate 4 longParam ∧
        (Runs.after Draft.step (.start event) mixedCalls).event.room = 1) ∧
      (Faithful 7 (-1) event mixedCalls ↔
        Runs.Along Draft.step Draft.Uncut (.start event) mixedCalls ∧
          (Runs.after Draft.step (.start event) mixedCalls).event.room ≠ 2) := by
  obtain ⟨event, h⟩ := exists_cdevTeventAlloc 7 (-1)
  exact ⟨event, h, room_after_mixedCalls h, faithful_iff h mixedCalls⟩

theorem length_rendering_longParam : longParam.rendering.length = 516 := by
  simp only [longParam, Addition.rendering, strParam, List.length_append, List.length_replicate]
  rfl

theorem length_paramList_longParam : (paramList (List.replicate 3 longParam)).length = 1550 := by
  have hcomma : (ascii ",").length = 1 := by decide
  have hthree : (List.replicate 3 longParam).map Addition.rendering =
      [longParam.rendering, longParam.rendering, longParam.rendering] := rfl
  rw [paramList, hthree, List.intercalate_cons_cons, List.intercalate_cons_cons,
    List.intercalate_singleton]
  simp only [List.length_append, length_rendering_longParam, hcomma]

/-- The fourth of four long parameters is cut, and its call returns 0. -/
theorem not_faithful_longParam :
    ∃ event, cdevTeventAlloc true true 1 0 = some event ∧
      ¬ Faithful 1 0 event (List.replicate 3 longParam ++ [longParam]) := by
  obtain ⟨event, h⟩ := exists_cdevTeventAlloc 1 0
  refine ⟨event, h, fun hfaithful => ?_⟩
  have hstart := Draft.Sound.start h
  have hhead : (eventHead 1 0).length = 26 := by decide
  have hadm : longParam.Admissible := by
    refine ⟨by decide, ?_⟩
    rw [List.length_replicate]
    decide
  obtain ⟨halong, haccepted, -⟩ := hstart.along_of_fits (List.replicate 3 longParam)
    (fun a ha => List.eq_of_mem_replicate ha ▸ hadm) (by decide : 0 + 3 ≤ 64) (by
      rw [hstart.usedSize_eq, hhead, List.map_replicate, length_rendering_longParam]
      exact (by decide : 26 + 0 + (List.replicate 3 517).sum < 2048))
  -- after three parameters 1576 bytes are used, and the room of 472 is too small for the fourth
  have huncut : Runs.Along Draft.step Draft.Uncut (.start event) (List.replicate 3 longParam) :=
    halong.mono fun _ _ hc => hc.2.1
  have hsound := huncut.invariant (I := Draft.Sound 1 0)
    (fun _ a hs hc => Draft.Sound.step hs a hc) hstart
  have hused := hsound.usedSize_eq
  have hthree : (Draft.start event).accepted ++ List.replicate 3 longParam =
      List.replicate 3 longParam := List.nil_append _
  rw [haccepted, hthree, hhead, length_paramList_longParam] at hused
  have hcomplete := ((Runs.along_snoc _ _ _).mp hfaithful.additions).2
  rw [Draft.completeOrRefused_iff _ hsound.terminated] at hcomplete
  have hcnt : (Runs.after Draft.step (.start event) (List.replicate 3 longParam)).event.paraCnt <
      mievMaxParams := by
    rw [hsound.paraCnt_eq, haccepted, hthree, List.length_replicate]
    decide
  rcases hcomplete hadm hcnt with hroom | hfits
  · rw [MisightMievent.room, hused] at hroom
    exact absurd hroom (by decide)
  · rw [MisightMievent.Fits, MisightMievent.room, hused, List.length_append,
      length_rendering_longParam] at hfits
    have : mievMaxEventSize = 2048 := rfl
    omega

end Cut

end XiaomiModules
