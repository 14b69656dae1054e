import XiaomiModules.Kernel.Basic
import XiaomiModules.Thermal.FreqTable

/-!
# The cpu_limits cooling device

Each CPU has a cooling device with the frequency table of its policy and one frequency QoS
request. A cooling level names a table entry, level 0 being the highest frequency.
`cpu_limits_set_level` looks for the first device whose policy covers a CPU and moves it to the
level of a requested frequency, after raising the request to a temperature-dependent floor and
bounding the rise of the level below the hot temperature.

A device carries what its construction establishes: the table has one entry for each level, it
never rises, the levels are 32-bit numbers, and the current level is one of them. Levels are
natural numbers here; the one sum that can leave 32 bits is taken modulo `2 ^ 32`.

## Main definitions

* `CpufreqPolicy`, `FreqQosRequest`, `CpufreqDevice`: a device and what it refers to
* `CpuLimits`: the module parameters, with their defaults
* `cpufreqSetLevel`: moving a device to a level
* `cpuLimitsSetLevel`: the exported function
-/

namespace XiaomiModules

/-- `struct cpufreq_policy`, as far as the module reads it. The entries of the table are counted
by an `int`. -/
structure CpufreqPolicy where
  cpu : ℕ
  relatedCpus : List ℕ
  freqTable : List UInt32
  length_freqTable : freqTable.length < 2 ^ 31
deriving DecidableEq

/-- A frequency QoS request: the CPU it is kept for and the value standing in it. -/
structure FreqQosRequest where
  cpu : ℕ
  value : UInt32
deriving DecidableEq

/-- `freq_qos_update_request(req, new_value)`, with the kernel's answer; an error leaves the
request as it was. -/
def freqQosUpdateRequest (req : FreqQosRequest) (newValue : UInt32) (answer : ℤ) :
    ℤ × FreqQosRequest :=
  (answer, if answer < 0 then req else { req with value := newValue })

/-- `struct cpufreq_device`. -/
structure CpufreqDevice where
  id : ℕ
  cpufreqState : ℕ
  maxLevel : ℕ
  freqTable : List UInt32
  policy : CpufreqPolicy
  qosReq : FreqQosRequest
  maxLevel_lt : maxLevel < 2 ^ 32
  length_freqTable : freqTable.length = maxLevel + 1
  nonIncreasing_freqTable : Descending.NonIncreasing freqTable
  cpufreqState_le : cpufreqState ≤ maxLevel
deriving DecidableEq

/-- `freq_table[level].frequency`. -/
def CpufreqDevice.frequency (cdev : CpufreqDevice) (level : ℕ) (h : level ≤ cdev.maxLevel) :
    UInt32 :=
  have hlt : level < cdev.freqTable.length := cdev.length_freqTable ▸ Nat.lt_succ_of_le h
  cdev.freqTable[level]

/-- `freq_table[0].frequency`. -/
def CpufreqDevice.maxFrequency (cdev : CpufreqDevice) : UInt32 :=
  cdev.frequency 0 (Nat.zero_le _)

/-- What a call leads to: its return value, the state, and the values it passed to
`freq_qos_update_request`, in order. -/
structure Outcome (S : Type) where
  ret : ℤ
  state : S
  attempts : List UInt32
deriving DecidableEq

/-- `cpufreq_set_level(cdev, state)`, with the kernel's answer to its QoS update. -/
def cpufreqSetLevel (cdev : CpufreqDevice) (state : ℕ) (answer : ℤ) : Outcome CpufreqDevice :=
  if h : state > cdev.maxLevel then ⟨-EINVAL, cdev, []⟩
  else if cdev.cpufreqState = state then ⟨0, cdev, []⟩
  else
    let frequency := cdev.frequency state (Nat.le_of_not_gt h)
    -- the level is recorded before the update, and kept when the update fails
    let (ret, qosReq) := freqQosUpdateRequest cdev.qosReq frequency answer
    ⟨ret,
      { cdev with cpufreqState := state, cpufreqState_le := Nat.le_of_not_gt h, qosReq },
      [frequency]⟩

/-- The module parameters of cpu_limits. -/
structure CpuLimits where
  enable : Bool := true
  floorPct : UInt32 := 92
  hotFloorPct : UInt32 := 85
  critFloorPct : UInt32 := 75
  hotTemp : UInt32 := 47
  critTemp : UInt32 := 53
  maxStep : UInt32 := 1
deriving DecidableEq

/-- `cpu_limits_effective_floor_pct(temp)`. -/
def cpuLimitsEffectiveFloorPct (params : CpuLimits) (temp : Int32) : UInt32 :=
  if temp ≥ params.critTemp.toInt32 then params.critFloorPct
  else if temp ≥ params.hotTemp.toInt32 then params.hotFloorPct
  else params.floorPct

/-- One call of `cpu_limits_set_level`: the CPU, the requested frequency and the device
temperature, with the kernel's answers to the QoS update of the chosen level and to that of the
fallback level. -/
structure Request where
  cpu : ℕ
  maxFreq : UInt32
  deviceTemp : Int32
  answer : ℤ
  fallbackAnswer : ℤ
deriving DecidableEq

/-- The request with other answers of the kernel. -/
def Request.answered (req : Request) (answers : ℤ × ℤ) : Request :=
  { req with answer := answers.1, fallbackAnswer := answers.2 }

/-- One call of `cpu_limits_set_level`, with the parameters at its time. -/
structure Call where
  params : CpuLimits
  req : Request

section Device

variable (params : CpuLimits) (cdev : CpufreqDevice) (req : Request)

/-- `floor_freq`. -/
def floorFreq : UInt32 :=
  multFrac cdev.maxFrequency (min (cpuLimitsEffectiveFloorPct params req.deviceTemp) 100) 100

/-- The requested frequency, raised to the floor. -/
def raisedFreq : UInt32 :=
  if req.maxFreq < floorFreq params cdev req then floorFreq params cdev req else req.maxFreq

/-- The step limiter is on: there is a limit, and the device is below the hot temperature. -/
def Limited (params : CpuLimits) (req : Request) : Prop :=
  params.maxStep ≠ 0 ∧ req.deviceTemp < params.hotTemp.toInt32

instance (params : CpuLimits) (req : Request) : Decidable (Limited params req) :=
  inferInstanceAs (Decidable (_ ∧ _))

/-- `cpufreq_state + cpu_limits_max_step` in 32 bits. -/
def stepLimit : ℕ := (cdev.cpufreqState + params.maxStep.toNat) % 2 ^ 32

/-- The level the search stops at, after the step limiter. -/
def searchLevel : Option ℕ :=
  (cdev.freqTable.findIdx? (· ≤ raisedFreq params cdev req)).map fun level =>
    if Limited params req ∧ level > stepLimit params cdev then stepLimit params cdev else level

/-- The body of `cpu_limits_set_level` for the device it found. -/
def setDeviceLevel : Outcome CpufreqDevice :=
  if req.maxFreq = 0 then cpufreqSetLevel cdev 0 req.answer
  else
    let out :=
      match searchLevel params cdev req with
      | some level => cpufreqSetLevel cdev level req.answer
      | none => ⟨-ENODEV, cdev, []⟩
    -- an update that fails with `-ENODEV` is taken for a search that found nothing
    if out.ret = -ENODEV then
      let fallback := cpufreqSetLevel out.state out.state.maxLevel req.fallbackAnswer
      { fallback with attempts := out.attempts ++ fallback.attempts }
    else out

end Device

/-- The walk over `cpufreq_dev_list`: the body runs for the first device whose policy covers the
CPU. -/
def setListLevel (params : CpuLimits) (req : Request) :
    List CpufreqDevice → Outcome (List CpufreqDevice)
  | [] => ⟨-ENODEV, [], []⟩
  | cdev :: devs =>
    if req.cpu ∈ cdev.policy.relatedCpus then
      let out := setDeviceLevel params cdev req
      { out with state := out.state :: devs }
    else
      let out := setListLevel params req devs
      { out with state := cdev :: out.state }

/-- `cpu_limits_set_level(cpu, max_freq)`. -/
def cpuLimitsSetLevel (params : CpuLimits) (devs : List CpufreqDevice) (req : Request) :
    Outcome (List CpufreqDevice) :=
  if ¬ params.enable then ⟨0, devs, []⟩ else setListLevel params req devs

/-! ## Building the devices -/

/-- The device of a CPU as `mi_thermal_init_cpufreq` builds it from a policy with valid entries:
at level 0, with the greatest frequency standing in its request. -/
def initCpufreqDevice (cpu : ℕ) (policy : CpufreqPolicy)
    (h : 0 < countValidEntries policy.freqTable) : CpufreqDevice where
  id := policy.cpu
  cpufreqState := 0
  maxLevel := countValidEntries policy.freqTable - 1
  freqTable := fillFreqTable policy.freqTable (countValidEntries policy.freqTable) uintMax
  policy
  qosReq := ⟨cpu, findNextMax policy.freqTable uintMax⟩
  maxLevel_lt := by
    have hcount := countValidEntries_le policy.freqTable
    have hlen := policy.length_freqTable
    omega
  length_freqTable := by rw [length_fillFreqTable, Nat.sub_add_cancel h]
  nonIncreasing_freqTable := nonIncreasing_fillFreqTable _ _ _
  cpufreqState_le := Nat.zero_le _

/-- A policy with two frequencies. -/
def twoFrequencies : CpufreqPolicy := ⟨0, [0], [1000000, 2000000], by decide⟩

/-- Its device after initialisation. -/
def twoLevelDevice : CpufreqDevice := initCpufreqDevice 0 twoFrequencies (by decide)

end XiaomiModules
