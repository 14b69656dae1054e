import XiaomiModules.Miev.Readers

/-!
# Reads that fault

A copy to a user's buffer that faults on its way has taken the bytes before the fault out of the
FIFO. The error of the fault leaves the read through an `unsigned int`, so the user is told of
4294967282 bytes, more than any FIFO holds; the bytes that were copied are gone, and no return value
tells how many they were.

## Main definitions

* `Readers.KeepsOnError`: a read that returns an error leaves the FIFO as it was
* `Readers.Lossless`: so it is along a run, and the bytes removed are the bytes reported
* `Readers.NoFault`: a copy does not fault before its end

## Main results

* `Readers.keepsOnError`: a read that returns an error has not reached the FIFO
* `Readers.booked_step_iff`: one step keeps the books exactly when no copy of it faults
* `Readers.lossless_iff`: a run accounts for every byte exactly when no copy of it faults
-/

namespace XiaomiModules

namespace Readers

/-- A read that returns an error in the step leaves the FIFO as it was. -/
def KeepsOnError (s : Readers) (e : ReadersEvent) : Prop :=
  ∀ call ret, (s.step e).returned = s.returned ++ [(call, ret)] → ret < 0 →
    contentOf (s.step e).mievDev = contentOf s.mievDev

/-- A copy does not fault before it has handed over the bytes that are asked for and there. -/
def NoFault (s : Readers) (e : ReadersEvent) : Prop :=
  ∀ id call, s.copying e = some (id, call) → ∀ j, call.fault = some j →
    min call.count (contentOf s.mievDev).length ≤ j

/-- The bytes removed from the FIFO are those that the users received with a positive return value,
and as many as these values report. -/
structure Booked (s : Readers) : Prop where
  received : s.removed = s.received
  counted : s.removed.length = s.reported

/-- No read that returns an error takes bytes from the FIFO, and the bytes removed from it are the
bytes that positive return values report. -/
structure Lossless (dev : MievDevice) (events : List ReadersEvent) : Prop where
  kept : Runs.Along step KeepsOnError (start dev) events
  booked : (Runs.after step (start dev) events).Booked

/-- An open device whose users received what was removed, and were told of no less. -/
structure Told (s : Readers) : Prop where
  isOpen : s.Open
  received : s.removed = s.received
  covered : s.removed.length ≤ s.reported

variable {s : Readers}

theorem told_start (dev : MievDevice) : (start dev).Told := ⟨open_start dev, rfl, le_rfl⟩

theorem noFault_of_none {e : ReadersEvent} (hcopy : s.copying e = none) : s.NoFault e := by
  intro id call hsome
  rw [hcopy] at hsome
  exact absurd hsome.symm (Option.some_ne_none _)

theorem noFault_copy_iff {e : ReadersEvent} {dev : MievDevice} {id : ℕ} {call : ReadCall}
    (hcopy : s.copying e = some (id, call)) (hdev : s.mievDev = some dev) :
    s.NoFault e ↔ faultOf dev call = none := by
  have hcontent : contentOf s.mievDev = dev.fifo.content := by
    rw [hdev]
    rfl
  rw [faultOf, Option.filter_eq_none_iff]
  constructor
  · -- a fault in front of the end is the one that the copy meets
    intro hnot j hj hlt
    have hle := hnot id call hcopy j hj
    rw [hcontent] at hle
    exact hle.not_gt (of_decide_eq_true hlt)
  · intro hnone id' call' hcopy' j hj
    obtain ⟨-, rfl⟩ := Prod.mk.inj (Option.some.inj (hcopy.symm.trans hcopy'))
    rw [hcontent]
    exact not_lt.mp fun hlt => hnone j hj (decide_eq_true hlt)

/-- What a copy returns is never negative. -/
theorem copyRet_nonneg (dev : MievDevice) (call : ReadCall) : 0 ≤ copyRet dev call := by
  unfold copyRet
  split_ifs
  · decide
  · exact Int.natCast_nonneg _

/-- A read that returns an error has done so before its copy. -/
theorem keepsOnError (h : s.Open) (e : ReadersEvent) : s.KeepsOnError e := by
  have hmoves := moves_step h e
  unfold KeepsOnError
  generalize s.step e = s' at hmoves ⊢
  cases hmoves with
  | stay => exact fun _ _ _ _ => rfl
  | pass => exact fun _ _ _ _ => rfl
  | sleep => exact fun _ _ _ _ => rfl
  | refuse => exact fun _ _ _ _ => rfl
  | write =>
    -- nothing returns in a write
    intro call ret hret
    exact absurd (congrArg List.length hret) (by simp)
  | copy id call dev =>
    intro call' ret hret hneg
    obtain ⟨-, rfl⟩ := Prod.mk.inj (List.cons.inj (List.append_cancel_left hret)).1
    exact absurd hneg (copyRet_nonneg dev call).not_gt

/-- **The books of one step**: no step tells a user of fewer bytes than it removes. -/
theorem Told.step (h : s.Told) (e : ReadersEvent) : (s.step e).Told := by
  have hmoves := moves_step h.isOpen e
  have hopen := h.isOpen.step e
  generalize s.step e = s' at hmoves hopen ⊢
  cases hmoves with
  | stay => exact h
  | pass => exact ⟨hopen, h.received, h.covered⟩
  | sleep => exact ⟨hopen, h.received, h.covered⟩
  | refuse => exact ⟨hopen, h.received, h.covered⟩
  | write => exact ⟨hopen, h.received, h.covered⟩
  | copy id call dev =>
    refine ⟨hopen, congrArg (· ++ _) h.received, ?_⟩
    show (s.removed ++ _).length ≤ s.reported + _
    rw [List.length_append]
    exact Nat.add_le_add h.covered (length_consumed_le dev call).1

/-- **One step** keeps the books exactly when they were kept before it and no copy of it faults. -/
theorem booked_step_iff (h : s.Told) (e : ReadersEvent) :
    (s.step e).Booked ↔ s.Booked ∧ s.NoFault e := by
  have hmoves := moves_step h.isOpen e
  have hreceived := (h.step e).received
  generalize s.step e = s' at hmoves hreceived ⊢
  cases hmoves with
  | stay hcopy => exact (and_iff_left (noFault_of_none hcopy)).symm
  | pass id call hcopy =>
    rw [and_iff_left (noFault_of_none hcopy)]
    exact ⟨fun hb => ⟨hb.received, hb.counted⟩, fun hb => ⟨hb.received, hb.counted⟩⟩
  | sleep id call hcopy =>
    rw [and_iff_left (noFault_of_none hcopy)]
    exact ⟨fun hb => ⟨hb.received, hb.counted⟩, fun hb => ⟨hb.received, hb.counted⟩⟩
  | refuse id call ret hcopy =>
    rw [and_iff_left (noFault_of_none hcopy)]
    exact ⟨fun hb => ⟨hb.received, hb.counted⟩, fun hb => ⟨hb.received, hb.counted⟩⟩
  | write dev dev' hcopy =>
    rw [and_iff_left (noFault_of_none hcopy)]
    exact ⟨fun hb => ⟨hb.received, hb.counted⟩, fun hb => ⟨hb.received, hb.counted⟩⟩
  | copy id call dev hcopy hdev =>
    obtain ⟨hle, heq⟩ := length_consumed_le dev call
    have hlength : (s.copied dev id call).removed.length =
        s.removed.length + (dev.fifo.content.take (consumed dev call)).length :=
      List.length_append
    rw [noFault_copy_iff hcopy hdev, ← heq]
    constructor
    · intro hb
      -- the users were told of no less before the step, so both parts of the sum agree
      have hsum : s.removed.length + (dev.fifo.content.take (consumed dev call)).length =
          s.reported + (copyRet dev call).toNat := hlength.symm.trans hb.counted
      have hcovered := h.covered
      exact ⟨⟨h.received, by omega⟩, by omega⟩
    · rintro ⟨hb, hcopied⟩
      refine ⟨hreceived, hlength.trans ?_⟩
      rw [hb.counted, hcopied]
      rfl

/-- **Lost bytes, exactly**: in a run of any readers and writers on a loaded device, reads that
return errors leave the FIFO as it was, and the bytes removed are the bytes reported, if and only if
no copy faults before its end. -/
theorem lossless_iff (dev : MievDevice) (events : List ReadersEvent) :
    Lossless dev events ↔ Runs.Along step NoFault (start dev) events := by
  have hbooked : (Runs.after step (start dev) events).Booked ↔
      (start dev).Booked ∧ Runs.Along step NoFault (start dev) events :=
    Runs.after_iff_along (fun _ e h => h.step e) (fun _ e h => booked_step_iff h e)
      (told_start dev) events
  rw [and_iff_right ⟨rfl, rfl⟩] at hbooked
  rw [← hbooked]
  constructor
  · exact fun h => h.booked
  · intro h
    refine ⟨?_, h⟩
    exact Runs.along_of_invariant (I := Open) (fun _ e h => h.step e)
      (fun _ e h => keepsOnError h e) (open_start dev) events

section LateFault

/-- A device with two bytes in its FIFO. -/
def twoByteDevice : MievDevice := ⟨⟨[1, 2], by decide⟩⟩

/-- A read of two bytes that faults after the first takes one byte and reports 4294967282. -/
theorem not_lossless_lateFault :
    ¬ Lossless twoByteDevice [.begin 0 ⟨2, false, some 1⟩, .copy 0] := by
  intro h
  have hremoved : (Runs.after step (start twoByteDevice)
      [.begin 0 ⟨2, false, some 1⟩, .copy 0]).removed = [1] := by decide
  have hreported : (Runs.after step (start twoByteDevice)
      [.begin 0 ⟨2, false, some 1⟩, .copy 0]).reported = 4294967282 := by decide
  have heq := h.booked.counted
  rw [hremoved, hreported] at heq
  exact absurd heq (by decide)

end LateFault

end Readers

end XiaomiModules
