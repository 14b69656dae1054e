import XiaomiModules.Kernel.Params
import XiaomiModules.Thermal.LimitsStore
import XiaomiModules.Thermal.Reachable

/-!
# Runs of writes

User space reaches the devices through the text of cpu_limits alone. A write that is scanned is a
call of `cpu_limits_set_level`, any other write is nothing, and every call with the numbers of an
`unsigned int` has a text that is scanned as it. So what holds of every run of calls holds of every
run of writes, and nothing less than what runs of calls can do can be done by runs of writes.

The attribute shows a line of this format, the same whatever the devices are at. Written back, it is
a request for the greatest frequency on CPU 0.

## Main definitions

* `LimitsEvent`, `writeStep`: a write with the parameters of its time, and the devices after it
* `LimitsEvent.call`: the call that a write makes, if it is scanned
* `limitsLine`, `cpuLimitsShow`: the text of a request, and the show

## Main results

* `after_writes`: a run of writes is the run of their calls
* `exists_writes_iff`: what is reached by writes
* `level_of_shown`: what writing back what is shown does
-/

namespace XiaomiModules

open Text (ascii decimalNat IsDigit)
open Numeral (value)

/-! ## Writes -/

/-- A write to the attribute, with the parameters at its time. -/
structure LimitsEvent where
  params : CpuLimits
  write : LimitsWrite

/-- The devices after a write. -/
def writeStep (devs : List CpufreqDevice) (e : LimitsEvent) : List CpufreqDevice :=
  (cpuLimitsStore e.params devs e.write).devs

/-- The call that the write makes for the numbers scanned. -/
def LimitsEvent.call (e : LimitsEvent) : Option Call :=
  (scanCpuLimits e.write.string).map fun (cpu, freq) => ⟨e.params, e.write.request cpu freq⟩

/-- **A write** is the call for the numbers scanned, or nothing. -/
theorem writeStep_eq (devs : List CpufreqDevice) (e : LimitsEvent) :
    writeStep devs e = e.call.elim devs (callStep devs) := by
  unfold writeStep LimitsEvent.call cpuLimitsStore
  cases scanCpuLimits e.write.string with
  | none => rfl
  | some numbers =>
    obtain ⟨cpu, freq⟩ := numbers
    show StoreOutcome.devs (if _ then _ else _) = (cpuLimitsSetLevel e.params devs _).state
    cases henable : e.params.enable with
    | false =>
      rw [cpuLimitsSetLevel_of_off henable]
      rfl
    | true => rfl

/-- A run of writes is the run of their calls. -/
theorem after_writes (devs : List CpufreqDevice) (events : List LimitsEvent) :
    Runs.after writeStep devs events =
      Runs.after callStep devs (events.filterMap LimitsEvent.call) :=
  Runs.after_filterMap writeStep_eq devs events

/-! ## Texts of requests -/

/-- The text `"cpu%u %u\n"`. -/
def limitsLine (cpu freq : UInt32) : List UInt8 :=
  ascii "cpu" ++ decimalNat cpu.toNat ++ ascii " " ++ decimalNat freq.toNat ++ ascii "\n"

/-- `cpu_limits_show(kobj, attr, buf)`, on the page that is shown. -/
def cpuLimitsShow (page : List UInt8) : ℕ × List UInt8 :=
  scnprintf page 0 pageSize (limitsLine 0 0xFFFFFFFF)

theorem isspace_of_mem_nil : ∀ c ∈ ([] : List UInt8), isspace c = true :=
  fun _ h => absurd h List.not_mem_nil

theorem blank_ne_nil : ([32] : List UInt8) ≠ [] := List.cons_ne_nil _ _

/-- The line, as a text of two numbers. -/
def limitsText (cpu freq : UInt32) : LimitsText where
  named := true
  numbers := {
    lead := []
    first := decimalNat cpu.toNat
    gap := [32]
    second := decimalNat freq.toNat
    rest := [10]
    isspace_lead := isspace_of_mem_nil
    first_ne_nil := Text.decimalNat_ne_nil _
    isDigit_first := fun _ => Text.isDigit_of_mem_decimalNat
    gap_ne_nil := blank_ne_nil
    isspace_gap := isspace_of_mem_blank
    second_ne_nil := Text.decimalNat_ne_nil _
    isDigit_second := fun _ => Text.isDigit_of_mem_decimalNat
    stops_rest := Text.stops_cons (by decide) }

/-- **The line of a request** is scanned as its numbers. -/
theorem scanCpuLimits_limitsLine (cpu freq : UInt32) :
    scanCpuLimits (limitsLine cpu freq) = some (cpu, freq) := by
  refine scanCpuLimits_eq_some_iff.mpr ⟨limitsText cpu freq, ?_, ?_, ?_⟩
  · have hblank : ascii " " = [32] := rfl
    have hnewline : ascii "\n" = [10] := rfl
    simp [limitsText, limitsLine, LimitsText.bytes, NumberPair.bytes, hblank, hnewline]
  · rw [LimitsText.cpu, limitsText, Numeral.value_decimalNat, UInt32.ofNat_toNat]
  · rw [LimitsText.freq, limitsText, Numeral.value_decimalNat, UInt32.ofNat_toNat]

theorem zero_notMem_limitsLine (cpu freq : UInt32) : 0 ∉ limitsLine cpu freq := by
  simp only [limitsLine, List.mem_append, not_or]
  exact ⟨⟨⟨⟨by decide, zero_notMem_decimalNat _⟩, by decide⟩, zero_notMem_decimalNat _⟩,
    by decide⟩

/-- The write that makes a call. -/
def Call.event (c : Call) : LimitsEvent where
  params := c.params
  write := ⟨limitsLine (.ofNat c.req.cpu) c.req.maxFreq, c.req.deviceTemp,
    (c.req.answer, c.req.fallbackAnswer)⟩

theorem call_event {c : Call} (h : c.req.cpu < 2 ^ 32) : c.event.call = some c := by
  have hstring : c.event.write.string = limitsLine (.ofNat c.req.cpu) c.req.maxFreq :=
    chars_ofBytes (zero_notMem_limitsLine _ _)
  have hcpu : (UInt32.ofNat c.req.cpu).toNat = c.req.cpu := UInt32.toNat_ofNat_of_lt' h
  rw [LimitsEvent.call, hstring, scanCpuLimits_limitsLine, Option.map_some]
  show some (Call.mk c.params ⟨_, c.req.maxFreq, c.req.deviceTemp, _, _⟩) = _
  rw [hcpu]
  rfl

/-- The call of a write has the number of an `unsigned int`. -/
theorem cpu_lt_of_call {e : LimitsEvent} {c : Call} (h : e.call = some c) :
    c.req.cpu < 2 ^ 32 := by
  obtain ⟨⟨cpu, freq⟩, -, rfl⟩ := Option.map_eq_some_iff.mp h
  exact cpu.toNat_lt

/-- **What is reached by writes** is what is reached by calls with the numbers of an
`unsigned int`. -/
theorem exists_writes_iff (devs devs' : List CpufreqDevice) :
    (∃ events, Runs.after writeStep devs events = devs') ↔
      ∃ calls : List Call, (∀ c ∈ calls, c.req.cpu < 2 ^ 32) ∧
        Runs.after callStep devs calls = devs' := by
  constructor
  · rintro ⟨events, rfl⟩
    refine ⟨events.filterMap LimitsEvent.call, fun c hc => ?_, (after_writes devs events).symm⟩
    obtain ⟨e, -, he⟩ := List.mem_filterMap.mp hc
    exact cpu_lt_of_call he
  · rintro ⟨calls, hcpu, rfl⟩
    refine ⟨calls.map Call.event, ?_⟩
    rw [after_writes, List.filterMap_map]
    congr 1
    exact (List.filterMap_congr fun c hc => call_event (hcpu c hc)).trans List.filterMap_some

/-! ## The line that is shown -/

/-- What is read of the attribute. -/
theorem shown_cpuLimitsShow :
    shown (cpuLimitsShow (List.replicate pageSize 0)) = limitsLine 0 0xFFFFFFFF :=
  shown_scnprintf List.length_replicate (by decide)

/-- A request for the greatest frequency chooses level 0. -/
theorem chosenLevel_of_greatest (params : CpuLimits) (cdev : CpufreqDevice) {req : Request}
    (h : req.maxFreq = 0xFFFFFFFF) : chosenLevel params cdev req = 0 := by
  have habove : levelsAbove params cdev req = 0 := by
    refine Nat.eq_zero_of_not_pos fun hpos => ?_
    have hlt := (raisedFreq_lt_frequency_iff (Nat.zero_le cdev.maxLevel)).mpr hpos
    have hle : req.maxFreq ≤ raisedFreq params cdev req := by
      rw [raisedFreq_eq_max]
      exact le_max_left _ _
    rw [h] at hle
    have hword := (cdev.frequency 0 (Nat.zero_le cdev.maxLevel)).toNat_lt
    have hnat := UInt32.lt_iff_toNat_lt.mp (hle.trans_lt hlt)
    rw [show (0xFFFFFFFF : UInt32).toNat = 2 ^ 32 - 1 from rfl] at hnat
    omega
  rw [chosenLevel, if_neg (by rw [h]; decide), if_pos (habove.trans_le (Nat.zero_le _))]
  exact Nat.le_zero.mp ((limitedLevel_le params cdev req).trans_eq habove)

/-- **Writing back what is shown**, whatever the devices are at, takes the device of CPU 0 to level
0, unless the kernel says to the update that there is no device. -/
theorem level_of_shown {e : LimitsEvent} {devs : List CpufreqDevice} {cdev : CpufreqDevice}
    (hbuf : e.write.buf = shown (cpuLimitsShow (List.replicate pageSize 0)))
    (henable : e.params.enable = true) (hanswer : e.write.answers.1 ≠ -ENODEV)
    (hdev : deviceOf 0 devs = some cdev) :
    ∃ cdev', deviceOf 0 (writeStep devs e) = some cdev' ∧ cdev'.cpufreqState = 0 := by
  have hstring : e.write.string = limitsLine 0 0xFFFFFFFF := by
    rw [LimitsWrite.string, hbuf, shown_cpuLimitsShow, chars_ofBytes (zero_notMem_limitsLine _ _)]
  have hcall : e.call = some ⟨e.params, e.write.request 0 0xFFFFFFFF⟩ := by
    rw [LimitsEvent.call, hstring, scanCpuLimits_limitsLine]
    rfl
  refine ⟨(setDeviceLevel e.params cdev (e.write.request 0 0xFFFFFFFF)).state, ?_, ?_⟩
  · rw [writeStep_eq, hcall]
    exact deviceOf_cpuLimitsSetLevel_of_enable e.params (e.write.request 0 0xFFFFFFFF) henable hdev
  · rw [cpufreqState_setDeviceLevel, if_neg (not_bounced hanswer)]
    exact chosenLevel_of_greatest e.params cdev rfl

end XiaomiModules
