import XiaomiModules.Thermal.Cluster
import XiaomiModules.Thermal.Drift

/-!
# Reachable devices

A call rewrites the device that serves its CPU and leaves the rest of the list alone. So what holds
of every fresh device, and is kept by the body of the function, holds of every device in every
state that calls lead to, whatever the kernel answers.

## Main results

* `callStep_cases`: what a call does to the list
* `forall_mem_after`: what the body keeps holds of every device of every run
* `built_of_mem_after`: every table is the one filled from its policy
* `synced_of_mem_after`: through successful updates every request holds the cap of its device
-/

namespace XiaomiModules

variable {devs : List CpufreqDevice} {c : Call}

/-- A call leaves the list alone, or rewrites the device that serves its CPU. -/
theorem callStep_cases (devs : List CpufreqDevice) (c : Call) :
    (c.params.enable = false ∨ deviceOf c.req.cpu devs = none) ∧ callStep devs c = devs ∨
      ∃ cdev pre post, c.params.enable = true ∧ deviceOf c.req.cpu devs = some cdev ∧
        devs = pre ++ cdev :: post ∧
        callStep devs c = pre ++ (setDeviceLevel c.params cdev c.req).state :: post := by
  cases henable : c.params.enable with
  | false =>
    left
    refine ⟨Or.inl rfl, ?_⟩
    rw [callStep, cpuLimitsSetLevel_of_off henable]
  | true =>
    rcases state_cpuLimitsSetLevel henable devs c.req with
      ⟨hnone, hstate⟩ | ⟨cdev, pre, post, hdev, hdevs, -, -, hstate⟩
    · exact Or.inl ⟨Or.inr hnone, hstate⟩
    · exact Or.inr ⟨cdev, pre, post, rfl, hdev, hdevs, hstate⟩

/-- What the body keeps of the device it runs for, a call keeps of every device. -/
theorem forall_mem_callStep {P : CpufreqDevice → Prop} (h : ∀ cdev ∈ devs, P cdev)
    (hbody : ∀ cdev, c.params.enable = true → deviceOf c.req.cpu devs = some cdev →
      P (setDeviceLevel c.params cdev c.req).state) :
    ∀ cdev ∈ callStep devs c, P cdev := by
  rcases callStep_cases devs c with ⟨-, hstep⟩ | ⟨cdev, pre, post, henable, hdev, hdevs, hstep⟩
  · rw [hstep]
    exact h
  · intro other hother
    rw [hstep, List.mem_append, List.mem_cons] at hother
    rcases hother with hother | rfl | hother
    · exact h other (by simp [hdevs, hother])
    · exact hbody cdev henable hdev
    · exact h other (by simp [hdevs, hother])

theorem mem_of_deviceOf {cpu : ℕ} {cdev : CpufreqDevice} (h : deviceOf cpu devs = some cdev) :
    cdev ∈ devs := by
  obtain ⟨-, pre, post, rfl, -⟩ := deviceOf_eq_some_iff.mp h
  simp

/-- **Every device of every run**: what holds of the fresh devices, and is kept by the body for the
calls of the run, holds of every device the run leads to. -/
theorem forall_mem_after {P : CpufreqDevice → Prop} {C : Call → Prop}
    (hfresh : ∀ cdev : CpufreqDevice, cdev.Fresh → P cdev)
    (hbody : ∀ c cdev, C c → P cdev → P (setDeviceLevel c.params cdev c.req).state)
    (probes : List CpuProbe) {calls : List Call} (hcalls : ∀ c ∈ calls, C c) :
    ∀ cdev ∈ Runs.after callStep (miThermalInitCpufreq 0 [] probes).devs calls, P cdev := by
  have hstart : ∀ cdev ∈ (miThermalInitCpufreq 0 [] probes).devs, P cdev := by
    intro cdev hcdev
    exact hfresh cdev ((mem_miThermalInitCpufreq hcdev).resolve_left List.not_mem_nil).1
  generalize (miThermalInitCpufreq 0 [] probes).devs = devs at hstart ⊢
  induction calls generalizing devs with
  | nil => exact hstart
  | cons c calls ih =>
    rw [List.forall_mem_cons] at hcalls
    refine ih hcalls.2 _ (forall_mem_callStep hstart ?_)
    intro cdev _ hdev
    exact hbody c cdev hcalls.1 (hstart cdev (mem_of_deviceOf hdev))

/-- The body keeps the table and the policy, so it keeps how the one was built from the other. -/
theorem CpufreqDevice.Built.setDeviceLevel {cdev : CpufreqDevice} (h : cdev.Built)
    (params : CpuLimits) (req : Request) : (setDeviceLevel params cdev req).state.Built := by
  obtain ⟨htable, -, hpolicy, -⟩ := setDeviceLevel_frame params cdev req
  rw [Built, htable, hpolicy]
  exact h

theorem built_of_mem_after (probes : List CpuProbe) (calls : List Call) :
    ∀ cdev ∈ Runs.after callStep (miThermalInitCpufreq 0 [] probes).devs calls, cdev.Built :=
  forall_mem_after (C := fun _ => True) (fun _ h => h.built)
    (fun c _ _ h => h.setDeviceLevel c.params c.req) probes fun _ _ => trivial

/-- The updates of the call succeed. -/
def Call.UpdatesSucceed (c : Call) : Prop := 0 ≤ c.req.answer ∧ 0 ≤ c.req.fallbackAnswer

instance (c : Call) : Decidable c.UpdatesSucceed := inferInstanceAs (Decidable (_ ∧ _))

theorem synced_of_mem_after (probes : List CpuProbe) {calls : List Call}
    (hcalls : ∀ c ∈ calls, c.UpdatesSucceed) :
    ∀ cdev ∈ Runs.after callStep (miThermalInitCpufreq 0 [] probes).devs calls, cdev.Synced :=
  forall_mem_after (fun _ h => h.synced)
    (fun _ _ hc h => synced_setDeviceLevel h hc.1 hc.2) probes hcalls

end XiaomiModules
