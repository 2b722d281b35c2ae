import PathPlanner.GaussianObstacles

set_option autoImplicit false

/-! # The obstacle's density

`pdf` is `(2π √det Σ)⁻¹ · exp(−½ (x − μ)ᵀ Σ⁻¹ (x − μ))`. For a symmetric positive-definite `Σ`,
this is the bivariate normal density `N(μ, Σ)`: it factors into the marginal normal density of the
first coordinate, `N(μ₀, Σ₀₀)`, times the conditional one of the second given the first,
`N(μ₁ + Σ₁₀/Σ₀₀ · (x₀ − μ₀), det Σ / Σ₀₀)` (`pdf_eq_mul`). Mathlib's one-dimensional normal
densities then give the rest: by Fubini the density integrates to one over the plane, and since
`Σ⁻¹` is positive definite it is strictly largest at the mean.

For `2 × 2` matrices positive definiteness is `Σ₀₁ = Σ₁₀`, `0 < Σ₀₀` and `0 < det Σ`
(`posDef_fin_two_iff`); the default covariance `[[30, 10], [10, 30]]` is one. -/

namespace PathPlanner

namespace GaussianDynamicObstaclesManager

open Matrix MeasureTheory ProbabilityTheory

/-! ## Two-by-two matrices -/

theorem quadform_fin_two (M : Matrix (Fin 2) (Fin 2) ℝ) (d : Fin 2 → ℝ) :
    d ⬝ᵥ (M⁻¹ *ᵥ d) =
      (M 1 1 * d 0 ^ 2 - (M 0 1 + M 1 0) * d 0 * d 1 + M 0 0 * d 1 ^ 2) / M.det := by
  rw [Matrix.inv_def, Matrix.adjugate_fin_two, Ring.inverse_eq_inv']
  simp only [dotProduct, mulVec, smul_apply, of_apply, cons_val', empty_val', cons_val_fin_one,
    smul_eq_mul, Fin.sum_univ_two, cons_val_zero, cons_val_one, head_cons, head_fin_const]
  ring

/-- A binary quadratic form with a positive leading coefficient and discriminant is positive
    away from the origin: `a · q = (a u + b v)² + (a c − b²) v²`. -/
theorem quadratic_pos {a b c u v : ℝ} (ha : 0 < a) (hd : 0 < a * c - b * b)
    (huv : u ≠ 0 ∨ v ≠ 0) : 0 < a * u ^ 2 + 2 * b * u * v + c * v ^ 2 := by
  have key : a * (a * u ^ 2 + 2 * b * u * v + c * v ^ 2) =
      (a * u + b * v) ^ 2 + (a * c - b * b) * v ^ 2 := by ring
  refine pos_of_mul_pos_right (key ▸ ?_) ha.le
  rcases eq_or_ne v 0 with rfl | hv
  · have hu := huv.resolve_right (not_not.2 rfl)
    simp only [mul_zero, add_zero, ne_eq, OfNat.ofNat_ne_zero, not_false_eq_true, zero_pow]
    positivity
  · exact add_pos_of_nonneg_of_pos (sq_nonneg _) (mul_pos hd (by positivity))

/-- Sylvester's criterion in dimension two. -/
theorem posDef_fin_two_iff (M : Matrix (Fin 2) (Fin 2) ℝ) :
    M.PosDef ↔ M 0 1 = M 1 0 ∧ 0 < M 0 0 ∧ 0 < M.det := by
  constructor
  · intro hM
    refine ⟨by simpa using (hM.1.apply 0 1).symm, ?_, hM.det_pos⟩
    simpa [Matrix.mulVec, Matrix.dotProduct, Fin.sum_univ_two] using
      hM.2 (Pi.single 0 1) (ne_of_apply_ne (· 0) (by simp))
  · rintro ⟨hs, ha, hd⟩
    refine ⟨?_, fun v hv => ?_⟩
    · ext i j
      fin_cases i <;> fin_cases j <;> simp [hs]
    · have huv : v 0 ≠ 0 ∨ v 1 ≠ 0 := by
        by_contra h
        push_neg at h
        exact hv (funext fun i => by fin_cases i <;> simp [h.1, h.2])
      rw [Matrix.det_fin_two, hs] at hd
      simp only [star_trivial, Matrix.dotProduct, Matrix.mulVec, Fin.sum_univ_two]
      exact (quadratic_pos ha hd huv).trans_eq (by rw [hs]; ring)

theorem defaultCovariance_posDef : defaultCovariance.PosDef :=
  (posDef_fin_two_iff _).2 ⟨rfl, by norm_num [defaultCovariance],
    by norm_num [defaultCovariance, Matrix.det_fin_two]⟩

/-! ## Marginal times conditional -/

theorem normalizer_eq {a det : ℝ} (ha : 0 < a) :
    (√(2 * Real.pi * a))⁻¹ * (√(2 * Real.pi * (det / a)))⁻¹ = 1 / (2 * Real.pi) / √det := by
  have h : 2 * Real.pi * a * (2 * Real.pi * (det / a)) = (2 * Real.pi) ^ 2 * det := by
    rw [mul_mul_mul_comm, mul_div_cancel₀ det ha.ne', sq]
  rw [← mul_inv, ← Real.sqrt_mul (by positivity), h, Real.sqrt_mul (by positivity),
    Real.sqrt_sq (by positivity), one_div, div_eq_mul_inv, mul_inv]

theorem exponent_eq {a b c d₀ d₁ : ℝ} (ha : 0 < a) (hd : 0 < a * c - b * b) :
    -d₀ ^ 2 / (2 * a) + -(d₁ - b / a * d₀) ^ 2 / (2 * ((a * c - b * b) / a)) =
      -0.5 * ((c * d₀ ^ 2 - (b + b) * d₀ * d₁ + a * d₁ ^ 2) / (a * c - b * b)) := by
  field_simp
  ring

namespace Obstacle

section Density

variable (o : Obstacle) (h : o.covariance.PosDef)
include h

/-- With a positive-definite covariance the density is the normal density of the first
    coordinate times the normal density of the second given the first. -/
theorem pdf_eq_mul (x : Fin 2 → ℝ) :
    o.pdf x = gaussianPDFReal (o.mean 0) (o.covariance 0 0).toNNReal (x 0) *
      gaussianPDFReal (o.mean 1 + o.covariance 1 0 / o.covariance 0 0 * (x 0 - o.mean 0))
        (o.covariance.det / o.covariance 0 0).toNNReal (x 1) := by
  obtain ⟨hs, ha, hd⟩ := (posDef_fin_two_iff _).1 h
  rw [Matrix.det_fin_two, hs] at hd ⊢
  have hx : x 1 - (o.mean 1 + o.covariance 1 0 / o.covariance 0 0 * (x 0 - o.mean 0)) =
      (x 1 - o.mean 1) - o.covariance 1 0 / o.covariance 0 0 * (x 0 - o.mean 0) := by ring
  simp only [gaussianPDFReal, Real.coe_toNNReal _ ha.le, Real.coe_toNNReal _ (div_pos hd ha).le]
  rw [mul_mul_mul_comm, normalizer_eq ha, ← Real.exp_add, hx, exponent_eq ha hd]
  simp only [pdf, quadform_fin_two, Pi.sub_apply, Matrix.det_fin_two, hs]

/-- The density integrates to one over the plane. -/
theorem integral_pdf : ∫ x, o.pdf x = 1 := by
  obtain ⟨-, ha, hd⟩ := (posDef_fin_two_iff _).1 h
  have hv₀ : (o.covariance 0 0).toNNReal ≠ 0 := (Real.toNNReal_pos.2 ha).ne'
  have hv₁ : (o.covariance.det / o.covariance 0 0).toNNReal ≠ 0 :=
    (Real.toNNReal_pos.2 (div_pos hd ha)).ne'
  -- Lebesgue measure is σ-finite, being locally finite on a second-countable space
  haveI : SigmaFinite (volume : Measure ℝ) := sigmaFinite_of_locallyFinite
  -- the factored density on `ℝ × ℝ`
  set F : ℝ × ℝ → ℝ := fun p => gaussianPDFReal (o.mean 0) (o.covariance 0 0).toNNReal p.1 *
    gaussianPDFReal (o.mean 1 + o.covariance 1 0 / o.covariance 0 0 * (p.1 - o.mean 0))
      (o.covariance.det / o.covariance 0 0).toNNReal p.2
  have hinner : ∀ u, ∫ w, F (u, w) = gaussianPDFReal (o.mean 0) (o.covariance 0 0).toNNReal u :=
    fun u => by simp only [F, integral_mul_left, integral_gaussianPDFReal_eq_one _ hv₁, mul_one]
  have hint : Integrable F (volume.prod volume) := by
    have hc : Continuous F := by
      simp only [F, gaussianPDFReal]
      fun_prop
    refine (integrable_prod_iff hc.aestronglyMeasurable).2
      ⟨.of_forall fun u => by simp only [F]; exact (integrable_gaussianPDFReal _ _).const_mul _, ?_⟩
    have hnorm : ∀ u w, ‖F (u, w)‖ = F (u, w) := fun u w =>
      Real.norm_of_nonneg (mul_nonneg (gaussianPDFReal_nonneg _ _ _) (gaussianPDFReal_nonneg _ _ _))
    simp only [hnorm, hinner]
    exact integrable_gaussianPDFReal _ _
  have hpdf : (fun x => o.pdf x) = fun x => F (MeasurableEquiv.finTwoArrow x) :=
    funext (pdf_eq_mul o h)
  rw [hpdf, (volume_preserving_finTwoArrow ℝ).integral_comp' F, Measure.volume_eq_prod,
    integral_prod F hint]
  simp only [hinner, integral_gaussianPDFReal_eq_one _ hv₀]

/-- Away from the mean the quadratic form is positive, so the density is below its value at the
    mean. -/
theorem pdf_lt_pdf_mean {x : Fin 2 → ℝ} (hx : x ≠ o.mean) : o.pdf x < o.pdf o.mean := by
  have hq : 0 < (x - o.mean) ⬝ᵥ (o.covariance⁻¹ *ᵥ (x - o.mean)) := by
    simpa only [star_trivial] using h.inv.2 (x - o.mean) (sub_ne_zero.2 hx)
  have hnorm : 0 < 1 / (2 * Real.pi) / √o.covariance.det :=
    div_pos (div_pos one_pos Real.two_pi_pos) (Real.sqrt_pos.2 h.det_pos)
  simp only [pdf, sub_self, Matrix.mulVec_zero, Matrix.dotProduct_zero, mul_zero, Real.exp_zero,
    mul_one]
  exact mul_lt_of_lt_one_right hnorm (Real.exp_lt_one_iff.2 (mul_neg_of_neg_of_pos (by norm_num) hq))

end Density

/-- For every mean and every symmetric positive-definite covariance, `pdf` is the bivariate
    normal density: marginal times conditional normal density, of integral one, and strictly
    largest at the mean. -/
theorem pdf_bivariateNormal (o : Obstacle) (h : o.covariance.PosDef) :
    (∀ x, o.pdf x = gaussianPDFReal (o.mean 0) (o.covariance 0 0).toNNReal (x 0) *
      gaussianPDFReal (o.mean 1 + o.covariance 1 0 / o.covariance 0 0 * (x 0 - o.mean 0))
        (o.covariance.det / o.covariance 0 0).toNNReal (x 1)) ∧
      ∫ x, o.pdf x = 1 ∧ ∀ x, x ≠ o.mean → o.pdf x < o.pdf o.mean :=
  ⟨pdf_eq_mul o h, integral_pdf o h, fun _ hx => pdf_lt_pdf_mean o h hx⟩

theorem pdf_bivariateNormal_default :
    (ofPose 50 0 0 2 0).covariance.PosDef ∧ ∫ x, (ofPose 50 0 0 2 0).pdf x = 1 ∧
      ∀ x, x ≠ ![50, 0] → (ofPose 50 0 0 2 0).pdf x < (ofPose 50 0 0 2 0).pdf ![50, 0] :=
  ⟨defaultCovariance_posDef, (pdf_bivariateNormal _ defaultCovariance_posDef).2⟩

end Obstacle

end GaussianDynamicObstaclesManager

end PathPlanner
