import XiaomiModules.Thermal.Selection

/-!
# Hotter and lower requests throttle more

Two calls on the same devices are compared: one with the lower request at the higher temperature,
and one with the higher request at the lower temperature. The floors fall with the temperature,
so the raised requests are ordered as the requests are, and the levels the other way. The step
limiter keeps that order, since it is on for the second call wherever it is on for the first.

## Main definitions

* `CpuLimits.Ordered`: the floors fall with the temperature

## Main results

* `cpuLimitsEffectiveFloorPct_anti`, `raisedFreq_mono`, `levelsAbove_anti`: how floor, request and
  level depend on temperature and request
* `cpufreqState_anti`: the hotter, lower request leaves a level at least as high, and a cap at
  most as high
-/

namespace XiaomiModules

/-- The floors fall with the temperature. -/
structure CpuLimits.Ordered (params : CpuLimits) : Prop where
  hotFloorPct_le : params.hotFloorPct ≤ params.floorPct
  critFloorPct_le : params.critFloorPct ≤ params.hotFloorPct

variable {params : CpuLimits} {cdev : CpufreqDevice} {req₁ req₂ : Request}

/-! ## Floors and requests -/

/-- A higher temperature has no higher a floor. -/
theorem cpuLimitsEffectiveFloorPct_anti (h : params.Ordered) {temp₁ temp₂ : Int32}
    (htemp : temp₂ ≤ temp₁) :
    cpuLimitsEffectiveFloorPct params temp₁ ≤ cpuLimitsEffectiveFloorPct params temp₂ := by
  obtain ⟨hfloor, hcrit⟩ := h
  unfold cpuLimitsEffectiveFloorPct
  by_cases hcrit₂ : temp₂ ≥ params.critTemp.toInt32
  · -- both critical
    have hcrit₁ : temp₁ ≥ params.critTemp.toInt32 := Int32.le_trans hcrit₂ htemp
    rw [if_pos hcrit₁, if_pos hcrit₂]
  rw [if_neg hcrit₂]
  by_cases hhot₂ : temp₂ ≥ params.hotTemp.toInt32
  · -- the cooler one hot, the other hot or critical
    have hhot₁ : temp₁ ≥ params.hotTemp.toInt32 := Int32.le_trans hhot₂ htemp
    rw [if_pos hhot₁, if_pos hhot₂]
    split_ifs
    · exact hcrit
    · exact le_rfl
  · rw [if_neg hhot₂]
    split_ifs
    · exact hcrit.trans hfloor
    · exact hfloor
    · exact le_rfl

/-- A higher percentage has no lower a floor. -/
theorem floorFreq_mono (h : cpuLimitsEffectiveFloorPct params req₁.deviceTemp ≤
    cpuLimitsEffectiveFloorPct params req₂.deviceTemp) :
    floorFreq params cdev req₁ ≤ floorFreq params cdev req₂ := by
  show (floorFreq params cdev req₁).toNat ≤ (floorFreq params cdev req₂).toNat
  rw [toNat_floorFreq, toNat_floorFreq]
  exact Nat.div_le_div_right (Nat.mul_le_mul_left _ (min_le_min_right 100 (Word.toNat_mono h)))

/-- The raised requests are ordered as the requests are. -/
theorem raisedFreq_mono (h : params.Ordered) (hmax : req₁.maxFreq ≤ req₂.maxFreq)
    (htemp : req₂.deviceTemp ≤ req₁.deviceTemp) :
    raisedFreq params cdev req₁ ≤ raisedFreq params cdev req₂ := by
  rw [raisedFreq_eq_max, raisedFreq_eq_max]
  exact max_le_max hmax (floorFreq_mono (cpuLimitsEffectiveFloorPct_anti h htemp))

/-- A lower raised request has at least as many levels above it. -/
theorem levelsAbove_anti (h : params.Ordered) (hmax : req₁.maxFreq ≤ req₂.maxFreq)
    (htemp : req₂.deviceTemp ≤ req₁.deviceTemp) :
    levelsAbove params cdev req₂ ≤ levelsAbove params cdev req₁ :=
  Descending.above_anti (raisedFreq_mono h hmax htemp) _

/-! ## Levels -/

/-- The step limiter keeps the order of the levels. -/
theorem limitedLevel_anti (h : params.Ordered) (hmax : req₁.maxFreq ≤ req₂.maxFreq)
    (htemp : req₂.deviceTemp ≤ req₁.deviceTemp) :
    limitedLevel params cdev req₂ ≤ limitedLevel params cdev req₁ := by
  have habove : levelsAbove params cdev req₂ ≤ levelsAbove params cdev req₁ :=
    levelsAbove_anti h hmax htemp
  by_cases hlim₁ : Limited params req₁
  · have hlim₂ : Limited params req₂ := ⟨hlim₁.1, Int32.lt_of_le_of_lt htemp hlim₁.2⟩
    rw [limitedLevel, limitedLevel, if_pos hlim₁, if_pos hlim₂]
    exact min_le_min_right _ habove
  · -- the hotter call is not limited, so its level is the one found
    rw [limitedLevel.eq_def params cdev req₁, if_neg hlim₁]
    exact (limitedLevel_le params cdev req₂).trans habove

/-- **Levels are ordered**: the hotter, lower request leaves at least as high a level. -/
theorem cpufreqState_setDeviceLevel_anti (h : params.Ordered) (h0 : req₁.maxFreq ≠ 0)
    (hmax : req₁.maxFreq ≤ req₂.maxFreq) (htemp : req₂.deviceTemp ≤ req₁.deviceTemp)
    (hanswer : req₂.answer ≠ -ENODEV) :
    (setDeviceLevel params cdev req₂).state.cpufreqState ≤
      (setDeviceLevel params cdev req₁).state.cpufreqState := by
  have h0' : req₂.maxFreq ≠ 0 := by
    intro hzero
    rw [hzero] at hmax
    exact h0 (UInt32.toNat_inj.mp (Nat.le_zero.mp hmax))
  rw [cpufreqState_setDeviceLevel params cdev req₂, if_neg (not_bounced hanswer),
    cpufreqState_setDeviceLevel params cdev req₁]
  split_ifs with hbounced
  · -- a bounce takes the hotter call to the last level
    exact chosenLevel_le params cdev req₂
  by_cases hfound : levelsAbove params cdev req₁ ≤ cdev.maxLevel
  · have hfound' : levelsAbove params cdev req₂ ≤ cdev.maxLevel :=
      (levelsAbove_anti h hmax htemp).trans hfound
    rw [chosenLevel_of_found h0 hfound, chosenLevel_of_found h0' hfound']
    exact limitedLevel_anti h hmax htemp
  · -- and so does the fallback
    rw [chosenLevel.eq_def params cdev req₁, if_neg h0, if_neg hfound]
    exact chosenLevel_le params cdev req₂

/-! ## Calls -/

/-- **Throttling is monotone**: of two calls that reach the same device, the one with the lower
request at the higher temperature leaves at least as high a level and at most as high a cap; and
the values standing in the request are ordered alike where it held the cap before and the updates
succeed. The kernel answers no update of the other call with `-ENODEV`. -/
theorem cpufreqState_anti {devs : List CpufreqDevice} {cdev₁ cdev₂ : CpufreqDevice}
    (h : params.Ordered) (hdev₁ : deviceOf req₁.cpu devs = some cdev)
    (hdev₂ : deviceOf req₂.cpu devs = some cdev) (h0 : req₁.maxFreq ≠ 0)
    (hmax : req₁.maxFreq ≤ req₂.maxFreq) (htemp : req₂.deviceTemp ≤ req₁.deviceTemp)
    (hanswer : req₂.answer ≠ -ENODEV)
    (hafter₁ : deviceOf req₁.cpu (cpuLimitsSetLevel params devs req₁).state = some cdev₁)
    (hafter₂ : deviceOf req₂.cpu (cpuLimitsSetLevel params devs req₂).state = some cdev₂) :
    cdev₂.cpufreqState ≤ cdev₁.cpufreqState ∧ cdev₁.cap ≤ cdev₂.cap ∧
      (cdev.Synced → 0 ≤ req₁.answer → 0 ≤ req₁.fallbackAnswer →
        0 ≤ req₂.answer → 0 ≤ req₂.fallbackAnswer →
          cdev₁.qosReq.value ≤ cdev₂.qosReq.value) := by
  rw [deviceOf_cpuLimitsSetLevel params req₁ hdev₁] at hafter₁
  rw [deviceOf_cpuLimitsSetLevel params req₂ hdev₂] at hafter₂
  obtain rfl := Option.some.inj hafter₁
  obtain rfl := Option.some.inj hafter₂
  by_cases henable : params.enable = true
  · rw [if_pos henable, if_pos henable]
    have hlevel : (setDeviceLevel params cdev req₂).state.cpufreqState ≤
        (setDeviceLevel params cdev req₁).state.cpufreqState :=
      cpufreqState_setDeviceLevel_anti h h0 hmax htemp hanswer
    -- the tables are the same, so the order of the levels is that of the caps
    have htable := (setDeviceLevel_frame params cdev req₁).1.trans
      (setDeviceLevel_frame params cdev req₂).1.symm
    have hcap := cap_anti htable hlevel
    refine ⟨hlevel, hcap, fun hsync ha₁ hf₁ ha₂ hf₂ => ?_⟩
    have hvalue₁ : (setDeviceLevel params cdev req₁).state.qosReq.value =
        (setDeviceLevel params cdev req₁).state.cap := synced_setDeviceLevel hsync ha₁ hf₁
    have hvalue₂ : (setDeviceLevel params cdev req₂).state.qosReq.value =
        (setDeviceLevel params cdev req₂).state.cap := synced_setDeviceLevel hsync ha₂ hf₂
    rwa [hvalue₁, hvalue₂]
  · rw [if_neg henable, if_neg henable]
    exact ⟨le_rfl, le_rfl, fun _ _ _ _ _ => le_rfl⟩

section Comparison

/-- A request at the critical temperature. -/
def criticalRequest : Request := ⟨0, 500000, 60, 0, 0⟩

/-- The greatest request, at a low temperature. -/
def greatestRequest : Request := ⟨0, 2000000, 20, 0, 0⟩

/-- The comparison of the two requests with the default parameters. -/
theorem cpufreqState_anti_criticalRequest :
    ∃ cdev₁ cdev₂,
      deviceOf 0 (cpuLimitsSetLevel { } [twoLevelDevice] criticalRequest).state = some cdev₁ ∧
      deviceOf 0 (cpuLimitsSetLevel { } [twoLevelDevice] greatestRequest).state = some cdev₂ ∧
      (cdev₂.cpufreqState ≤ cdev₁.cpufreqState ∧ cdev₁.cap ≤ cdev₂.cap ∧
        (twoLevelDevice.Synced → (0 : ℤ) ≤ 0 → (0 : ℤ) ≤ 0 →
          (0 : ℤ) ≤ 0 → (0 : ℤ) ≤ 0 → cdev₁.qosReq.value ≤ cdev₂.qosReq.value)) := by
  have hdev : deviceOf 0 [twoLevelDevice] = some twoLevelDevice := rfl
  have hafter₁ := deviceOf_cpuLimitsSetLevel_of_enable { } criticalRequest rfl hdev
  have hafter₂ := deviceOf_cpuLimitsSetLevel_of_enable { } greatestRequest rfl hdev
  exact ⟨_, _, hafter₁, hafter₂, cpufreqState_anti ⟨by decide, by decide⟩ hdev hdev (by decide)
    (by decide) (by decide) (neg_errno_lt_zero ENODEV).ne' hafter₁ hafter₂⟩

end Comparison

end XiaomiModules
