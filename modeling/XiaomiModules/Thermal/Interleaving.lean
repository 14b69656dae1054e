import XiaomiModules.Library.Parts
import XiaomiModules.Thermal.Reachable

/-!
# Calls for different devices

A call of `cpu_limits_set_level` stops at the first device whose policy covers its CPU and works on
that device alone. Which device that is depends on the policies, and these never change. So the
calls that stop at a device decide what becomes of it, and in which order those for different
devices come does not matter: neither for the levels, nor for the limits, nor for the answers of the
kernel that they meet.

## Main definitions

* `stopIndex`, `Call.stopsAt`: the device at which a call stops
* `Call.perform`: what a call does to that device
* `deviceParts`: the devices as the parts of the list

## Main results

* `getElem?_after_calls`: a device after a run of calls
* `after_calls_eq`: runs of the same calls for each device
-/

namespace XiaomiModules

/-- The place of the device at which a call for a CPU stops. -/
def stopIndex (policies : List CpufreqPolicy) (cpu : ℕ) : Option ℕ :=
  policies.findIdx? fun policy => cpu ∈ policy.relatedCpus

/-- The call stops at the device of this place. -/
def Call.stopsAt (policies : List CpufreqPolicy) (i : ℕ) (c : Call) : Bool :=
  stopIndex policies c.req.cpu = some i

/-- What a call does to the device at which it stops. -/
def Call.perform (c : Call) (cdev : CpufreqDevice) : CpufreqDevice :=
  if c.params.enable then (setDeviceLevel c.params cdev c.req).state else cdev

/-- The devices after a call, with those of their policies that decide where it stops. -/
theorem getElem?_callStep (devs : List CpufreqDevice) (c : Call) (i : ℕ) :
    (callStep devs c)[i]? =
      if c.stopsAt (devs.map (·.policy)) i then devs[i]?.map c.perform else devs[i]? := by
  cases henable : c.params.enable with
  | false =>
    have hid : c.perform = id := by
      funext cdev
      rw [Call.perform, henable]
      rfl
    rw [callStep, cpuLimitsSetLevel_of_off henable, hid, Option.map_id]
    exact (ite_self _).symm
  | true =>
    rw [callStep, cpuLimitsSetLevel, if_neg (not_not.mpr henable)]
    induction devs generalizing i with
    | nil => simp [setListLevel]
    | cons cdev devs ih =>
      rw [setListLevel, Call.stopsAt, stopIndex, List.map_cons, List.findIdx?_cons]
      by_cases hcpu : c.req.cpu ∈ cdev.policy.relatedCpus
      · -- the walk stops at the head
        cases i with
        | zero => simp [hcpu, Call.perform, henable]
        | succ i => simp [hcpu]
      · cases i with
        | zero => simp [hcpu]
        | succ i =>
          have hrest := ih i
          rw [Call.stopsAt, stopIndex] at hrest
          simp [hcpu, hrest]

theorem map_policy_callStep (devs : List CpufreqDevice) (c : Call) :
    (callStep devs c).map (·.policy) = devs.map (·.policy) := by
  rcases callStep_cases devs c with ⟨-, hstep⟩ | ⟨cdev, pre, post, -, -, rfl, hstep⟩
  · rw [hstep]
  · rw [hstep, List.map_append, List.map_append, List.map_cons, List.map_cons,
      (setDeviceLevel_frame c.params cdev c.req).2.2.1]

/-- **The devices** are parts of the list, while the policies are these. -/
def deviceParts (policies : List CpufreqPolicy) :
    Parts callStep (fun devs => devs.map (·.policy) = policies) ℕ (Option CpufreqDevice) where
  part devs i := devs[i]?
  own := Call.stopsAt policies
  act cdev c := cdev.map c.perform
  invariant devs c h := (map_policy_callStep devs c).trans h
  part_step devs c i h := by rw [getElem?_callStep, h]
  ext _ _ _ _ h := List.ext_getElem? h

/-- **A device after a run** of calls, whatever their parameters, temperatures and answers, is what
the calls that stop at it make of it, one after the other. -/
theorem getElem?_after_calls (devs : List CpufreqDevice) (calls : List Call) (i : ℕ) :
    (Runs.after callStep devs calls)[i]? =
      devs[i]?.map fun cdev =>
        Runs.after (fun cdev c => Call.perform c cdev) cdev
          (calls.filter (Call.stopsAt (devs.map (·.policy)) i)) := by
  refine ((deviceParts (devs.map (·.policy))).after_part rfl calls i).trans ?_
  have hoption : ∀ (cdev : Option CpufreqDevice) (calls : List Call),
      Runs.after (fun cdev c => Option.map (Call.perform c) cdev) cdev calls =
        cdev.map fun cdev => Runs.after (fun cdev c => Call.perform c cdev) cdev calls := by
    intro cdev calls
    induction calls generalizing cdev with
    | nil => exact Option.map_id'.symm
    | cons c calls ih =>
      rw [Runs.after_cons, ih, Option.map_map]
      rfl
  exact hoption _ _

/-- **Interleavings**: runs with the same calls for each device, in the same order, end with the
same devices. -/
theorem after_calls_eq {devs : List CpufreqDevice} {calls calls' : List Call}
    (h : ∀ i, calls.filter (Call.stopsAt (devs.map (·.policy)) i) =
      calls'.filter (Call.stopsAt (devs.map (·.policy)) i)) :
    Runs.after callStep devs calls = Runs.after callStep devs calls' := by
  set policies := devs.map (·.policy) with hpolicies
  exact (deviceParts policies).after_eq_of_filter_eq hpolicies.symm h

end XiaomiModules
