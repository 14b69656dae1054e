import XiaomiModules.Thermal.Attributes
import XiaomiModules.Thermal.Hotter
import XiaomiModules.Thermal.Writes

/-!
# The interface by its history

User space writes the attributes of mi_thermal_interface in any order, among them cpu_limits, whose
store works with a temperature that is computed from the battery and from six other attributes. So
the writes to those act on the devices, but through the temperature alone.

The variables of the attributes can be left out of such a run: what cpu_limits works with is the
greatest of what the battery and the last writes count for. A reading that nobody writes again
counts for good.

## Main definitions

* `InterfaceEvent`, `Interface.step`: a write to an attribute, and the interface after it
* `lastContent start pre attr`: what an attribute holds by the writes so far
* `Source.temp content w src`: what a source counts for in a write to cpu_limits

## Main results

* `content_attrs_after`: an attribute holds what was last written to it
* `le_deviceTemp_after_iff`: the temperature by the writes so far
* `devs_after`: the devices by the writes so far
-/

namespace XiaomiModules

/-! ## The interface -/

/-- A write to cpu_limits: the parameters at its time, the bytes, the battery, what stands in
`temp_buf`, and the kernel's answers. -/
structure LimitsInput where
  params : CpuLimits
  buf : List UInt8
  battery : Option PowerSupply
  tempBuf : List UInt8
  answers : ℤ × ℤ

/-- A write to the interface. -/
inductive InterfaceEvent
  | attr (attr : ThermalAttr) (buf : List UInt8)
  | cpuLimits (w : LimitsInput)

/-- The variables of the attributes, and `cpufreq_dev_list`. -/
structure Interface where
  attrs : ThermalAttrs
  devs : List CpufreqDevice

/-- The sources of the device temperature, with the battery. -/
def ThermalAttrs.sources (s : ThermalAttrs) (battery : Option PowerSupply) : Sources where
  battery
  tempState := s.value .tempState
  displayThermTemp := s.value .displayThermTemp
  boardSensorTemp := (s.buf (.sensor .boardSensorTemp)).string
  boardSensorSecondTemp := (s.buf (.sensor .boardSensorSecondTemp)).string
  boardSensorOtherTemp := (s.buf (.sensor .boardSensorOtherTemp)).string
  ambientSensorTemp := (s.buf (.sensor .ambientSensorTemp)).string

/-- The write, with the temperature that the store works with. -/
def LimitsInput.event (w : LimitsInput) (temp : Int32) : LimitsEvent :=
  ⟨w.params, w.buf, temp, w.answers⟩

namespace Interface

/-- The temperature that a write to cpu_limits works with. -/
def deviceTemp (s : Interface) (w : LimitsInput) : Int32 :=
  miThermalGetDeviceTemp (s.attrs.sources w.battery) w.tempBuf

/-- The interface after a write. -/
def step (s : Interface) : InterfaceEvent → Interface
  | .attr attr buf => { s with attrs := s.attrs.step (attr, buf) }
  -- the temperature is computed before the list is locked, from the variables as they are
  | .cpuLimits w => { s with devs := writeStep s.devs (w.event (s.deviceTemp w)) }

/-- The call of `cpu_limits_set_level` that a write makes. -/
def call (s : Interface) : InterfaceEvent → Option Call
  | .attr _ _ => none
  | .cpuLimits w => (w.event (s.deviceTemp w)).call

end Interface

/-! ## The last writes -/

/-- What a write leaves in an attribute, if it is for it. -/
def InterfaceEvent.storedIn (attr : ThermalAttr) : InterfaceEvent → Option AttrContent
  | .attr attr' buf => attr.storedIn (attr', buf)
  | .cpuLimits _ => none

/-- What an attribute holds by the writes so far. -/
def lastContent (start : ThermalAttrs) (pre : List InterfaceEvent) (attr : ThermalAttr) :
    AttrContent :=
  Runs.lastSet (InterfaceEvent.storedIn attr) (start.content attr) pre

/-- **An attribute** holds what was last written to it. -/
theorem content_attrs_after (s : Interface) (pre : List InterfaceEvent) (attr : ThermalAttr) :
    (Runs.after Interface.step s pre).attrs.content attr = lastContent s.attrs pre attr := by
  refine Runs.after_eq_lastSet (f := fun s : Interface => s.attrs.content attr) ?_ s pre
  intro s e
  cases e with
  | attr attr' buf => exact s.attrs.content_store (attr', buf) attr
  | cpuLimits w => rfl

/-! ## The temperature -/

/-- What the content of an attribute counts for. -/
def AttrContent.temp : AttrContent → Int32
  | .number value => value
  | .text chars => miThermalParseTemp (some (.ofBytes chars))

/-- The attribute of a source. -/
def Source.attr : Source → Option ThermalAttr
  | .battery => none
  | .tempState => some (.int .tempState)
  | .displayThermTemp => some (.int .displayThermTemp)
  | .boardSensorTemp => some (.string (.sensor .boardSensorTemp))
  | .boardSensorSecondTemp => some (.string (.sensor .boardSensorSecondTemp))
  | .boardSensorOtherTemp => some (.string (.sensor .boardSensorOtherTemp))
  | .ambientSensorTemp => some (.string (.sensor .ambientSensorTemp))

/-- What a source counts for, by what the attributes hold. -/
def Source.temp (content : ThermalAttr → AttrContent) (w : LimitsInput) (src : Source) : Int32 :=
  src.attr.elim (miThermalGetBatteryTemp w.battery w.tempBuf) fun attr => (content attr).temp

/-- The sources, in the order in which they are read. -/
def Source.order : List Source :=
  [.battery, .tempState, .displayThermTemp, .boardSensorTemp, .boardSensorSecondTemp,
    .boardSensorOtherTemp, .ambientSensorTemp]

/-- The greatest of what the sources count for. -/
def tempOf (content : ThermalAttr → AttrContent) (w : LimitsInput) : Int32 :=
  Source.order.foldl (fun temp src => max temp (src.temp content w)) Int32.minValue

theorem temp_content_string (s : ThermalAttrs) (attr : ThermalString) :
    (s.content (.string attr)).temp = miThermalParseTemp (some (s.buf attr).string) := by
  have hstring : CString.ofBytes (s.buf attr).string.chars = (s.buf attr).string := by
    have hchars := chars_ofBytes (s.buf attr).string.nul_notMem
    cases hs : (s.buf attr).string with
    | mk chars nul_notMem =>
      rw [hs] at hchars
      cases hof : CString.ofBytes chars with
      | mk chars' _ =>
        rw [hof] at hchars
        cases hchars
        rfl
  rw [ThermalAttrs.content, AttrContent.temp, hstring]

/-- The temperature that a write works with, by what the attributes hold. -/
theorem deviceTemp_eq (s : Interface) (w : LimitsInput) :
    s.deviceTemp w = tempOf s.attrs.content w := by
  simp only [tempOf, Source.order, List.foldl_cons, List.foldl_nil, Source.temp, Source.attr,
    Option.elim_none, Option.elim_some, temp_content_string]
  rfl

theorem le_foldl_max_iff {t : Int32} (f : Source → Int32) (srcs : List Source) (start : Int32) :
    t ≤ srcs.foldl (fun temp src => max temp (f src)) start ↔
      t ≤ start ∨ ∃ src ∈ srcs, t ≤ f src := by
  induction srcs generalizing start with
  | nil => simp
  | cons src srcs ih =>
    rw [List.foldl_cons, ih, le_max_iff, List.exists_mem_cons_iff, or_assoc]

/-- A temperature is reached where some source counts for it. -/
theorem le_tempOf_iff {t : Int32} (content : ThermalAttr → AttrContent) (w : LimitsInput) :
    t ≤ tempOf content w ↔ ∃ src : Source, t ≤ src.temp content w := by
  rw [tempOf, le_foldl_max_iff]
  constructor
  · rintro (h | ⟨src, -, h⟩)
    · -- the least number of an `int` is reached by every source
      exact ⟨.battery, h.trans (Int32.minValue_le _)⟩
    · exact ⟨src, h⟩
  · rintro ⟨src, h⟩
    refine Or.inr ⟨src, ?_, h⟩
    cases src
    all_goals decide

/-- What a write works with, by the writes so far. -/
theorem deviceTemp_after (s : Interface) (pre : List InterfaceEvent) (w : LimitsInput) :
    (Runs.after Interface.step s pre).deviceTemp w = tempOf (lastContent s.attrs pre) w := by
  have hcontent : (Runs.after Interface.step s pre).attrs.content = lastContent s.attrs pre :=
    funext (content_attrs_after s pre)
  rw [deviceTemp_eq, hcontent]

/-- **The temperature** of a write is reached where the battery counts for it, or the last write to
some source does. -/
theorem le_deviceTemp_after_iff (s : Interface) (pre : List InterfaceEvent) (w : LimitsInput)
    (t : Int32) :
    t ≤ (Runs.after Interface.step s pre).deviceTemp w ↔
      ∃ src : Source, t ≤ src.temp (lastContent s.attrs pre) w := by
  rw [deviceTemp_after, le_tempOf_iff]

/-- The step of a write is limited where there is a limit, and the battery and the last writes to
the sources all count for less than the hot temperature. -/
theorem limited_after_iff (s : Interface) (pre : List InterfaceEvent) (w : LimitsInput)
    (cpu freq : UInt32) :
    Limited w.params
        ((w.event ((Runs.after Interface.step s pre).deviceTemp w)).write.request cpu freq) ↔
      w.params.maxStep ≠ 0 ∧
        ∀ src : Source, src.temp (lastContent s.attrs pre) w < w.params.hotTemp.toInt32 := by
  show _ ∧ (Runs.after Interface.step s pre).deviceTemp w < _ ↔ _
  refine and_congr_right fun _ => ?_
  rw [← not_le, deviceTemp_after, le_tempOf_iff, not_exists]
  exact forall_congr' fun src => not_le

/-! ## The devices -/

/-- The call that a write makes, by the writes so far. -/
def callAfter (start : ThermalAttrs) (pre : List InterfaceEvent) : InterfaceEvent → Option Call
  | .attr _ _ => none
  | .cpuLimits w => (w.event (tempOf (lastContent start pre) w)).call

theorem call_after (s : Interface) (pre : List InterfaceEvent) (e : InterfaceEvent) :
    (Runs.after Interface.step s pre).call e = callAfter s.attrs pre e := by
  cases e with
  | attr attr buf => rfl
  | cpuLimits w => rw [Interface.call, callAfter, deviceTemp_after]

/-- A write makes its call. -/
theorem devs_step (s : Interface) (e : InterfaceEvent) :
    (s.step e).devs = (s.call e).elim s.devs (callStep s.devs) := by
  cases e with
  | attr attr buf => rfl
  | cpuLimits w => exact writeStep_eq s.devs _

/-- **The devices**, by the writes so far: they go through the calls of the writes to cpu_limits,
each with the greatest of what the battery and the last writes before it count for. -/
theorem devs_after (s : Interface) (events : List InterfaceEvent) :
    (Runs.after Interface.step s events).devs =
      Runs.after callStep s.devs
        (Runs.outputs (fun pre e => pre ++ [e]) (callAfter s.attrs) [] events) := by
  rw [Runs.after_outputs (f := Interface.devs) devs_step s events]
  congr 1
  -- what the variables hold at a write is what the last writes before it have left
  exact Runs.outputs_history (s := s) (call_after s) [] events

end XiaomiModules
