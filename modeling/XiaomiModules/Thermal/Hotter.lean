import XiaomiModules.Thermal.DeviceTemp
import XiaomiModules.Thermal.Monotone

/-!
# Hotter readings and the device temperature

Two snapshots of the sources are compared, the second with no reading below that of the first.
The device temperature is the greatest of what the sources count for, so it is the greater one of
the second where every source of the first counts for no more than some source of the second. The
two integer sources count for their readings. The decoded ones do not keep the order: what they
count for falls at 100, at 1000, and at two more readings at the end of the range of an `int`.

## Main definitions

* `Source`, `Sources.Reads src r`: the sources, and what they read
* `Source.counts s z`: what the reading of a source counts for
* `Crosses x y`: a reading rises past one at which the decoding falls
* `CrossesNone a b`: no reading that is decoded does
* `NotRelaxed temp₁ temp₂`: throttling is not relaxed

## Main results

* `isGreatest_miThermalGetDeviceTemp`: the device temperature is the greatest of the counts
* `degrees_mono`: the decoding falls nowhere else
* `notRelaxed_iff_counts`: the hotter snapshot relaxes nothing exactly where every count of the
  first is reached by one of the second
* `hotter_of_crossesNone`: it relaxes nothing where no reading passes a drop
* `relaxed_at_drops`: it relaxes at each of the four drops
-/

namespace XiaomiModules

open Text (decimal)

/-! ## Sources and readings -/

/-- The sources of the device temperature. -/
inductive Source
  | battery
  | tempState
  | displayThermTemp
  | boardSensorTemp
  | boardSensorSecondTemp
  | boardSensorOtherTemp
  | ambientSensorTemp
deriving DecidableEq

/-- The number that the battery reads: the least of an `int` where the battery is missing or its
property cannot be read. -/
def batteryReading (psy : Option PowerSupply) : ℤ :=
  match psy with
  | none => -2 ^ 31
  | some psy => if psy.ret ≠ 0 then -2 ^ 31 else psy.intval.toInt

/-- The sources read these numbers, the sensor strings as decimal numerals. -/
structure Sources.Reads (src : Sources) (r : Source → ℤ) : Prop where
  battery : batteryReading src.battery = r .battery
  tempState : src.tempState.toInt = r .tempState
  displayThermTemp : src.displayThermTemp.toInt = r .displayThermTemp
  boardSensorTemp : src.boardSensorTemp.chars = decimal (r .boardSensorTemp)
  boardSensorSecondTemp : src.boardSensorSecondTemp.chars = decimal (r .boardSensorSecondTemp)
  boardSensorOtherTemp : src.boardSensorOtherTemp.chars = decimal (r .boardSensorOtherTemp)
  ambientSensorTemp : src.ambientSensorTemp.chars = decimal (r .ambientSensorTemp)

/-- A source whose reading is decoded. -/
def Source.Decoded (s : Source) : Prop := s ≠ .tempState ∧ s ≠ .displayThermTemp

/-- The degrees that the reading of a source counts for. -/
def Source.counts : Source → ℤ → ℤ
  | tempState, z => z
  | displayThermTemp, z => z
  | _, z => degrees z

theorem Source.counts_of_decoded {s : Source} (h : s.Decoded) (z : ℤ) : s.counts z = degrees z := by
  cases s with
  | tempState => exact absurd rfl h.1
  | displayThermTemp => exact absurd rfl h.2
  | battery | boardSensorTemp | boardSensorSecondTemp | boardSensorOtherTemp | ambientSensorTemp =>
    rfl

/-! ## The greatest of the counts -/

section Greatest

variable {ι κ α : Type*} [Preorder α] {f : ι → α} {g : κ → α} {x y : α}

/-- Greatest values are ordered where each value on the one side is below one on the other. -/
theorem greatest_le_greatest_iff (hx : IsGreatest (Set.range f) x)
    (hy : IsGreatest (Set.range g) y) : x ≤ y ↔ ∀ i, ∃ j, f i ≤ g j := by
  constructor
  · intro h i
    obtain ⟨j, hj⟩ := hy.1
    exact ⟨j, ((hx.2 ⟨i, rfl⟩).trans h).trans hj.ge⟩
  · intro h
    obtain ⟨i, rfl⟩ := hx.1
    obtain ⟨j, hij⟩ := h i
    exact hij.trans (hy.2 ⟨j, rfl⟩)

end Greatest

section Counts

variable {src : Sources} {r : Source → ℤ}

theorem toInt_batteryTemp (psy : Option PowerSupply) (tempBuf : List UInt8) :
    (miThermalGetBatteryTemp psy tempBuf).toInt = degrees (batteryReading psy) := by
  rcases psy with - | ⟨ret, v⟩
  · rfl
  by_cases hret : ret = 0
  · subst hret
    exact toInt_miThermalGetBatteryTemp v tempBuf
  · simp only [miThermalGetBatteryTemp, batteryReading, hret, ne_eq, not_false_eq_true, if_true]
    rfl

/-- **The device temperature** is the greatest of what the sources count for. -/
theorem isGreatest_miThermalGetDeviceTemp (h : src.Reads r) (tempBuf : List UInt8) :
    IsGreatest (Set.range fun s : Source => s.counts (r s))
      (miThermalGetDeviceTemp src tempBuf).toInt := by
  have hbattery : (miThermalGetBatteryTemp src.battery tempBuf).toInt = degrees (r .battery) := by
    rw [toInt_batteryTemp, h.battery]
  have hleast : max Int32.minValue.toInt (degrees (r .battery)) = degrees (r .battery) :=
    max_eq_right (le_degrees _)
  rw [miThermalGetDeviceTemp]
  simp only [Word.toInt_max, hbattery, hleast, h.tempState, h.displayThermTemp,
    toInt_miThermalParseTemp h.boardSensorTemp, toInt_miThermalParseTemp h.boardSensorSecondTemp,
    toInt_miThermalParseTemp h.boardSensorOtherTemp, toInt_miThermalParseTemp h.ambientSensorTemp]
  constructor
  · -- the greater of two counts is one of them
    refine max_rec' (· ∈ Set.range _) ?_ ⟨.ambientSensorTemp, rfl⟩
    refine max_rec' (· ∈ Set.range _) ?_ ⟨.boardSensorOtherTemp, rfl⟩
    refine max_rec' (· ∈ Set.range _) ?_ ⟨.boardSensorSecondTemp, rfl⟩
    refine max_rec' (· ∈ Set.range _) ?_ ⟨.boardSensorTemp, rfl⟩
    refine max_rec' (· ∈ Set.range _) ?_ ⟨.displayThermTemp, rfl⟩
    exact max_rec' (· ∈ Set.range _) ⟨.battery, rfl⟩ ⟨.tempState, rfl⟩
  · rintro _ ⟨s, rfl⟩
    cases s
    all_goals simp only [Source.counts, le_max_iff, le_refl, true_or, or_true]

end Counts

/-! ## Where the decoding falls -/

/-- The readings at which the decoding falls. -/
def drops : List ℤ := [100, 1000, 2 ^ 31 - 500, 2 ^ 31 - 1]

/-- The reading rises past a drop. -/
def Crosses (x y : ℤ) : Prop := ∃ t ∈ drops, x < t ∧ t ≤ y

instance (x y : ℤ) : Decidable (Crosses x y) := inferInstanceAs (Decidable (∃ t ∈ drops, _))

/-- Between two drops the decoding keeps the order. -/
theorem degrees_mono {x y : ℤ} (hxy : x ≤ y) (h : ¬ Crosses x y) : degrees x ≤ degrees y := by
  have hsame : ∀ t ∈ drops, t ≤ y → t ≤ x := by
    intro t ht hty
    by_contra htx
    exact h ⟨t, ht, not_le.mp htx, hty⟩
  simp only [drops, List.forall_mem_cons] at hsame
  obtain ⟨h₁, h₂, h₃, h₄, -⟩ := hsame
  unfold degrees
  split_ifs
  all_goals omega

/-- A source that does not cross a drop keeps the order. -/
theorem Source.counts_mono {s : Source} {x y : ℤ} (hxy : x ≤ y)
    (h : s.Decoded → ¬ Crosses x y) : s.counts x ≤ s.counts y := by
  by_cases hs : s.Decoded
  · rw [counts_of_decoded hs, counts_of_decoded hs]
    exact degrees_mono hxy (h hs)
  · cases s with
    | tempState => exact hxy
    | displayThermTemp => exact hxy
    | battery | boardSensorTemp | boardSensorSecondTemp | boardSensorOtherTemp
    | ambientSensorTemp => exact absurd ⟨nofun, nofun⟩ hs

/-- No reading that is decoded rises past a drop. -/
def CrossesNone (a b : Source → ℤ) : Prop := ∀ s : Source, s.Decoded → ¬ Crosses (a s) (b s)

/-! ## Hotter snapshots -/

/-- Throttling is not relaxed from one device temperature to another: the temperature does not
fall, and with ordered thresholds and floors the floor percentage does not rise. -/
def NotRelaxed (temp₁ temp₂ : Int32) : Prop :=
  temp₁ ≤ temp₂ ∧
    ∀ params : CpuLimits, params.hotTemp ≤ params.critTemp → params.Ordered →
      cpuLimitsEffectiveFloorPct params temp₂ ≤ cpuLimitsEffectiveFloorPct params temp₁

/-- The floors follow the temperature, whatever the thresholds. -/
theorem notRelaxed_iff {temp₁ temp₂ : Int32} : NotRelaxed temp₁ temp₂ ↔ temp₁ ≤ temp₂ :=
  ⟨fun h => h.1, fun h => ⟨h, fun _ _ hordered => cpuLimitsEffectiveFloorPct_anti hordered h⟩⟩

/-- Throttling is not relaxed exactly where every source of the first snapshot counts for no more
than some source of the second. -/
theorem notRelaxed_iff_counts {src₁ src₂ : Sources} {a b : Source → ℤ} (h₁ : src₁.Reads a)
    (h₂ : src₂.Reads b) (tempBuf₁ tempBuf₂ : List UInt8) :
    NotRelaxed (miThermalGetDeviceTemp src₁ tempBuf₁) (miThermalGetDeviceTemp src₂ tempBuf₂) ↔
      ∀ s : Source, ∃ t : Source, s.counts (a s) ≤ t.counts (b t) := by
  rw [notRelaxed_iff, Int32.le_iff_toInt_le]
  exact greatest_le_greatest_iff (isGreatest_miThermalGetDeviceTemp h₁ tempBuf₁)
    (isGreatest_miThermalGetDeviceTemp h₂ tempBuf₂)

/-- **Hotter snapshots** relax nothing where no decoded reading rises past a drop. -/
theorem hotter_of_crossesNone {src₁ src₂ : Sources} {a b : Source → ℤ} (h₁ : src₁.Reads a)
    (h₂ : src₂.Reads b) (hle : a ≤ b) (hcross : CrossesNone a b) (tempBuf₁ tempBuf₂ : List UInt8) :
    NotRelaxed (miThermalGetDeviceTemp src₁ tempBuf₁) (miThermalGetDeviceTemp src₂ tempBuf₂) := by
  rw [notRelaxed_iff_counts h₁ h₂]
  intro s
  -- each source makes up for itself
  exact ⟨s, Source.counts_mono (hle s) (hcross s)⟩

section Snapshots

/-- The sources of a device that has them all. -/
def snapshot (battery tempState displayThermTemp : Int32)
    (board boardSecond boardOther ambient : ℤ) : Sources where
  battery := some ⟨0, battery⟩
  tempState
  displayThermTemp
  boardSensorTemp := ⟨decimal board, zero_notMem_decimal board⟩
  boardSensorSecondTemp := ⟨decimal boardSecond, zero_notMem_decimal boardSecond⟩
  boardSensorOtherTemp := ⟨decimal boardOther, zero_notMem_decimal boardOther⟩
  ambientSensorTemp := ⟨decimal ambient, zero_notMem_decimal ambient⟩

/-- What these sources read. -/
def snapshotReading (battery tempState displayThermTemp : Int32)
    (board boardSecond boardOther ambient : ℤ) : Source → ℤ
  | .battery => battery.toInt
  | .tempState => tempState.toInt
  | .displayThermTemp => displayThermTemp.toInt
  | .boardSensorTemp => board
  | .boardSensorSecondTemp => boardSecond
  | .boardSensorOtherTemp => boardOther
  | .ambientSensorTemp => ambient

theorem reads_snapshot (battery tempState displayThermTemp : Int32)
    (board boardSecond boardOther ambient : ℤ) :
    (snapshot battery tempState displayThermTemp board boardSecond boardOther ambient).Reads
      (snapshotReading battery tempState displayThermTemp board boardSecond boardOther ambient) :=
  ⟨rfl, rfl, rfl, rfl, rfl, rfl, rfl⟩

/-- A phone that warms up: readings in degrees, in tenths and in thousandths, none of which changes
its unit. -/
theorem hotter_of_crossesNone_warming :
    NotRelaxed
      (miThermalGetDeviceTemp (snapshot 290 31 33 40500 36 (-5) 410) [])
      (miThermalGetDeviceTemp (snapshot 350 44 45 52000 36 2 480) []) := by
  refine hotter_of_crossesNone (reads_snapshot 290 31 33 40500 36 (-5) 410)
    (reads_snapshot 350 44 45 52000 36 2 480) ?_ ?_ [] []
  · intro s
    cases s
    all_goals decide
  · intro s _
    cases s
    all_goals decide

/-- The sources of a device whose first board sensor reads `z`, everything else being cold. -/
def boardAt (cold : Int32) (z : ℤ) : Sources :=
  snapshot cold cold cold z cold.toInt cold.toInt cold.toInt

/-- What these sources read. -/
def boardReading (cold : Int32) (z : ℤ) : Source → ℤ :=
  snapshotReading cold cold cold z cold.toInt cold.toInt cold.toInt

theorem reads_boardAt (cold : Int32) (z : ℤ) : (boardAt cold z).Reads (boardReading cold z) :=
  reads_snapshot cold cold cold z cold.toInt cold.toInt cold.toInt

theorem boardReading_mono (cold : Int32) {y z : ℤ} (h : y ≤ z) :
    boardReading cold y ≤ boardReading cold z := by
  intro s
  cases s
  all_goals first | exact h | exact le_rfl

/-- A board sensor that rises from 99 to 100 turns the critical floor into the one below the hot
temperature. -/
theorem not_hotter_boardAt :
    ¬ ∀ (src₁ src₂ : Sources) (a b : Source → ℤ), src₁.Reads a → src₂.Reads b → a ≤ b →
      ∀ tempBuf₁ tempBuf₂ : List UInt8,
        NotRelaxed (miThermalGetDeviceTemp src₁ tempBuf₁)
          (miThermalGetDeviceTemp src₂ tempBuf₂) := by
  intro h
  have hboard := h _ _ _ _ (reads_boardAt 0 99) (reads_boardAt 0 100)
    (boardReading_mono 0 (by decide)) [] []
  have hfloor : (92 : UInt32) ≤ 75 := hboard.2 { } (by decide) ⟨by decide, by decide⟩
  exact absurd hfloor (by decide)

/-- Where everything else is as cold as can be, the board sensor alone decides. -/
theorem notRelaxed_boardAt_iff (x y : ℤ) (tempBuf₁ tempBuf₂ : List UInt8) :
    NotRelaxed (miThermalGetDeviceTemp (boardAt Int32.minValue x) tempBuf₁)
        (miThermalGetDeviceTemp (boardAt Int32.minValue y) tempBuf₂) ↔
      degrees x ≤ degrees y := by
  have hcold : ∀ z, ∀ s : Source, s ≠ .boardSensorTemp →
      s.counts (boardReading Int32.minValue z s) = -2 ^ 31 := by
    intro z s hs
    cases s with
    | boardSensorTemp => exact absurd rfl hs
    | battery | tempState | displayThermTemp | boardSensorSecondTemp | boardSensorOtherTemp
    | ambientSensorTemp => rfl
  rw [notRelaxed_iff_counts (reads_boardAt _ x) (reads_boardAt _ y)]
  constructor
  · intro h
    obtain ⟨t, ht⟩ := h .boardSensorTemp
    replace ht : degrees x ≤ t.counts (boardReading Int32.minValue y t) := ht
    by_cases hboard : t = .boardSensorTemp
    · subst hboard
      exact ht
    · rw [hcold y t hboard] at ht
      exact ht.trans (le_degrees y)
  · intro h s
    refine ⟨.boardSensorTemp, ?_⟩
    by_cases hboard : s = .boardSensorTemp
    · subst hboard
      exact h
    · rw [hcold x s hboard]
      exact le_degrees y

/-- **Each of the four drops** relaxes throttling: a board sensor that rises by one to it makes the
device temperature fall. -/
theorem relaxed_at_drops (tempBuf₁ tempBuf₂ : List UInt8) :
    ∀ t ∈ drops, ¬ NotRelaxed
      (miThermalGetDeviceTemp (boardAt Int32.minValue (t - 1)) tempBuf₁)
      (miThermalGetDeviceTemp (boardAt Int32.minValue t) tempBuf₂) := by
  have hfalls : ∀ t ∈ drops, degrees t < degrees (t - 1) := by decide
  intro t ht
  rw [notRelaxed_boardAt_iff, not_le]
  exact hfalls t ht

end Snapshots

end XiaomiModules
