import PathPlanner.Basic

set_option autoImplicit false

/-! # Potential-field forces

`PotentialFieldPlanner` steers along the sum of forces that ribbons pull with and obstacles push
with. Its header is under src, its `plan` is not; what is modelled is what the header defines: the
`Force` vector and the three magnitude functions.

A `Force` is a plane vector built from a magnitude and a direction in radians north of east, added
and subtracted componentwise, and read back by `getDirection() = atan2(Y, X)`. Over ℝ, `atan2(Y, X)`
is the argument of the complex number `X + Y i` (`Complex.arg`); the two differ only on the sign of
a zero, which ℝ does not have. With a positive magnitude, `getDirection` gives back the direction it
was built with, brought into `(-π, π]` (`getDirection_ofPolar`).

The magnitudes fall with distance, with the branches joined as follows. A ribbon pulls with at most
20, and `10 / d` takes over continuously at `d = 0.5`. A static obstacle pushes with `exp(-d / 15)`
up to 7.5 metres and with nothing beyond, a jump from `exp(-1/2)` to 0. A dynamic obstacle pushes
with 1000 when touching and with `exp(-d / 13) · width · length / 10` once apart; the second tends to
`width · length / 10` as the obstacle nears, so the push never grows with distance exactly when
`width · length ≤ 10000`, and for a larger vessel it is weaker touching than just apart
(`antitone_getDynamicObstacleMagnitude_iff`).

The model is over ℝ, with the reals' `cos`, `sin` and `exp`. -/

namespace PathPlanner

namespace PotentialFieldPlanner

noncomputable section

/-! ## Forces -/

/-- `PotentialFieldPlanner::Force`: east and north components. -/
structure Force where
  X : ℝ
  Y : ℝ

namespace Force

/-- `Force(magnitude, direction)`, the direction in radians north of east. -/
def ofPolar (magnitude direction : ℝ) : Force :=
  ⟨magnitude * Real.cos direction, magnitude * Real.sin direction⟩

instance : Add Force := ⟨fun a b => ⟨a.X + b.X, a.Y + b.Y⟩⟩

instance : Sub Force := ⟨fun a b => ⟨a.X - b.X, a.Y - b.Y⟩⟩

/-- `getDirection()`: `atan2(Y, X)`, radians north of east. -/
def getDirection (f : Force) : ℝ := Complex.arg ⟨f.X, f.Y⟩

@[simp] theorem add_X (a b : Force) : (a + b).X = a.X + b.X := rfl
@[simp] theorem add_Y (a b : Force) : (a + b).Y = a.Y + b.Y := rfl
@[simp] theorem sub_X (a b : Force) : (a - b).X = a.X - b.X := rfl
@[simp] theorem sub_Y (a b : Force) : (a - b).Y = a.Y - b.Y := rfl

theorem ofPolar_complex (m θ : ℝ) :
    (⟨(ofPolar m θ).X, (ofPolar m θ).Y⟩ : ℂ) = m * Complex.exp (θ * Complex.I) := by
  apply Complex.ext <;> simp [ofPolar, Complex.exp_ofReal_mul_I_re, Complex.exp_ofReal_mul_I_im]

/-- `getDirection` gives back the direction of a force built with a positive magnitude, brought
    into `(-π, π]`. -/
theorem getDirection_ofPolar {m : ℝ} (hm : 0 < m) (θ : ℝ) :
    (ofPolar m θ).getDirection = toIocMod Real.two_pi_pos (-Real.pi) θ := by
  rw [getDirection, ofPolar_complex, Complex.arg_real_mul _ hm, Complex.arg_exp_mul_I]

theorem getDirection_ofPolar_one :
    (0 : ℝ) < 1 ∧ (ofPolar 1 (3 * Real.pi)).getDirection = toIocMod Real.two_pi_pos (-Real.pi) (3 * Real.pi) :=
  ⟨one_pos, getDirection_ofPolar one_pos _⟩

end Force

/-! ## Magnitudes -/

/-- `getRibbonMagnitude(distance)`: capped at 20 to avoid dividing by 0. -/
def getRibbonMagnitude (distance : ℝ) : ℝ :=
  if distance ≤ 0.5 then 20 else 10 / distance

/-- `getDynamicObstacleMagnitude(distance, width, length)`: 1000 when touching, else decaying
    with distance and scaled by the obstacle's area. -/
def getDynamicObstacleMagnitude (distance width length : ℝ) : ℝ :=
  if distance ≤ 0 then 1000 else Real.exp (-distance / 13) * width * length / 10

/-- `c_StaticObsIgnoreThreshold`. -/
def staticObsIgnoreThreshold : ℝ := 7.5

/-- `getStaticObstacleMagnitude(distance)`: nothing past the threshold. -/
def getStaticObstacleMagnitude (distance : ℝ) : ℝ :=
  if distance > staticObsIgnoreThreshold then 0 else Real.exp (-distance / 15)

/-- The ribbon's pull never grows with distance, never exceeds its cap of 20, and has no jump:
    `10 / d` meets the cap at `d = 0.5`. -/
theorem getRibbonMagnitude_spec :
    Antitone getRibbonMagnitude ∧ Continuous getRibbonMagnitude ∧
      ∀ d, 0 < getRibbonMagnitude d ∧ getRibbonMagnitude d ≤ 20 := by
  have hhalf : ∀ d : ℝ, ¬ d ≤ 0.5 → 1 / 2 < d := fun d hd => by norm_num at hd; exact hd
  have hcap : ∀ d : ℝ, ¬ d ≤ 0.5 → 10 / d ≤ 20 := fun d hd => by
    rw [div_le_iff₀ (by linarith [hhalf d hd])]; linarith [hhalf d hd]
  refine ⟨fun a b hab => ?_, ?_, fun d => ?_⟩
  · unfold getRibbonMagnitude
    split_ifs with hb ha ha
    · rfl
    · exact absurd (hab.trans hb) ha
    · exact hcap b hb
    · exact div_le_div_of_nonneg_left (by norm_num) (by linarith [hhalf a ha]) hab
  · refine continuous_if_le continuous_id continuous_const continuousOn_const ?_ ?_
    · exact continuousOn_const.div continuousOn_id fun d hd => (lt_of_lt_of_le (by norm_num) hd).ne'
    · intro d hd
      simp only [id] at hd
      rw [hd]; norm_num
  · unfold getRibbonMagnitude
    split_ifs with hd
    · norm_num
    · exact ⟨div_pos (by norm_num) (by linarith [hhalf d hd]), hcap d hd⟩

/-- The static push never grows with distance and is at most 1 at any distance; at the threshold
    it drops from `exp(-1/2)` to nothing, so it is not continuous there. -/
theorem getStaticObstacleMagnitude_spec :
    Antitone getStaticObstacleMagnitude ∧
      (∀ d, 0 ≤ d → 0 ≤ getStaticObstacleMagnitude d ∧ getStaticObstacleMagnitude d ≤ 1) ∧
      ¬ ContinuousAt getStaticObstacleMagnitude staticObsIgnoreThreshold := by
  refine ⟨fun a b hab => ?_, fun d hd => ?_, fun hcont => ?_⟩
  · unfold getStaticObstacleMagnitude
    split_ifs with hb ha ha
    · rfl
    · exact (Real.exp_pos _).le
    · exact absurd (lt_of_lt_of_le ha hab) hb
    · exact Real.exp_le_exp.2 (by linarith)
  · unfold getStaticObstacleMagnitude
    split_ifs
    · norm_num
    · exact ⟨(Real.exp_pos _).le, Real.exp_le_one_iff.2 (by linarith)⟩
  · -- from the right the push is 0, at the threshold it is `exp(-1/2)`
    have hright : Filter.Tendsto getStaticObstacleMagnitude
        (nhdsWithin staticObsIgnoreThreshold (Set.Ioi staticObsIgnoreThreshold)) (nhds 0) :=
      tendsto_const_nhds.congr' (eventually_nhdsWithin_of_forall fun d hd => (if_pos hd).symm)
    have hat : getStaticObstacleMagnitude staticObsIgnoreThreshold = Real.exp (-(1 / 2)) := by
      rw [getStaticObstacleMagnitude, if_neg (lt_irrefl _), staticObsIgnoreThreshold]
      norm_num
    have h0 := tendsto_nhds_unique (hcont.tendsto.mono_left nhdsWithin_le_nhds) hright
    exact (Real.exp_pos _).ne' (hat ▸ h0)

/-- Apart from the obstacle, the push is at most the area over 10. -/
theorem getDynamicObstacleMagnitude_le {d : ℝ} (hd : 0 < d) {width length : ℝ}
    (harea : 0 ≤ width * length) :
    getDynamicObstacleMagnitude d width length ≤ width * length / 10 := by
  rw [getDynamicObstacleMagnitude, if_neg (not_le.2 hd), mul_assoc, mul_div_assoc]
  exact mul_le_of_le_one_left (div_nonneg harea (by norm_num)) (Real.exp_le_one_iff.2 (by linarith))

/-- For an area above 10000 the push just apart exceeds the 1000 of touching: at `d = 13 (1 - q)`,
    `q = 10000 / area`, the decay factor `exp(q - 1)` is above `q`. -/
theorem exists_getDynamicObstacleMagnitude_gt {width length : ℝ} (harea : 10000 < width * length) :
    ∃ d, 0 < d ∧ getDynamicObstacleMagnitude 0 width length < getDynamicObstacleMagnitude d width length := by
  set q := 10000 / (width * length) with hq
  have hpos : 0 < width * length := by linarith
  have hq1 : q < 1 := (div_lt_one hpos).2 harea
  refine ⟨13 * (1 - q), by linarith, ?_⟩
  have hexp : q < Real.exp (q - 1) := by
    have := Real.add_one_lt_exp (sub_ne_zero.2 hq1.ne)
    linarith
  rw [getDynamicObstacleMagnitude, getDynamicObstacleMagnitude, if_pos le_rfl,
    if_neg (by linarith), show -(13 * (1 - q)) / 13 = q - 1 by ring]
  calc (1000 : ℝ) = q * (width * length) / 10 := by rw [hq, div_mul_cancel₀ _ hpos.ne']; norm_num
    _ < Real.exp (q - 1) * (width * length) / 10 := by gcongr
    _ = Real.exp (q - 1) * width * length / 10 := by ring

/-- For an obstacle of non-negative area, the push never grows with distance exactly when its area
    `width · length` is at most 10000: the cap of 1000 when touching is then at least the limit
    `width · length / 10` of the push as the obstacle nears. A larger obstacle pushes harder at some
    positive distance than when touching. -/
theorem antitone_getDynamicObstacleMagnitude_iff {width length : ℝ} (harea : 0 ≤ width * length) :
    (Antitone (getDynamicObstacleMagnitude · width length) ↔ width * length ≤ 10000) ∧
      (10000 < width * length → ∃ d, 0 < d ∧
        getDynamicObstacleMagnitude 0 width length < getDynamicObstacleMagnitude d width length) := by
  refine ⟨⟨fun hanti => ?_, fun hle a b hab => ?_⟩, exists_getDynamicObstacleMagnitude_gt⟩
  · by_contra hgt
    obtain ⟨d, hd, hlt⟩ := exists_getDynamicObstacleMagnitude_gt (not_le.1 hgt)
    exact absurd (hanti hd.le) (not_le.2 hlt)
  · by_cases hb : b ≤ 0
    · simp only [getDynamicObstacleMagnitude, if_pos hb, if_pos (hab.trans hb), le_refl]
    by_cases ha : a ≤ 0
    · have hb' := getDynamicObstacleMagnitude_le (not_le.1 hb) harea
      simp only [getDynamicObstacleMagnitude, if_pos ha] at hb' ⊢
      linarith
    · have hexp : Real.exp (-b / 13) ≤ Real.exp (-a / 13) := Real.exp_le_exp.2 (by linarith)
      simp only [getDynamicObstacleMagnitude, if_neg ha, if_neg hb]
      rw [mul_assoc, mul_assoc]
      exact div_le_div_of_nonneg_right (mul_le_mul_of_nonneg_right hexp harea) (by norm_num)

theorem antitone_getDynamicObstacleMagnitude_iff_large :
    (0 : ℝ) ≤ 300 * 40 ∧
      (Antitone (getDynamicObstacleMagnitude · 300 40) ↔ (300 : ℝ) * 40 ≤ 10000) ∧
      ((10000 : ℝ) < 300 * 40 → ∃ d, 0 < d ∧
        getDynamicObstacleMagnitude 0 300 40 < getDynamicObstacleMagnitude d 300 40) :=
  have h : (0 : ℝ) ≤ 300 * 40 := by norm_num
  ⟨h, antitone_getDynamicObstacleMagnitude_iff h⟩

end

end PotentialFieldPlanner

end PathPlanner
