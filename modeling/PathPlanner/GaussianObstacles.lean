import Mathlib

set_option autoImplicit false

/-! # Gaussian dynamic obstacles

`GaussianDynamicObstaclesManager::Obstacle` is another vessel: its position `(X, Y)` at `Time`, its
course as a mathematical angle `Yaw = π/2 − heading`, its speed, and a bivariate normal over where
it is, with mean `mean` and covariance `covariance`. `project` moves it along its course, `pdf`
evaluates the normal density.

`project(desiredTime)` adds to `(X, Y)` the distance covered from `Time` to `desiredTime`, but
leaves `Time` as it was. A second call therefore measures its displacement from the obstacle's
original time again and adds it to a position already moved: projections compound. Each call is a
translation along the course (`Obstacle.translate`), translations add up, and a run of calls is
the translation by the sum of the elapsed times each call saw (`foldl_project`).

The model is over ℝ: the code's doubles, with `cos`, `sin`, `sqrt`, `exp` and `π` those of the
reals. -/

namespace PathPlanner

namespace GaussianDynamicObstaclesManager

open Matrix

noncomputable section

/-- Lines 18-21 of the header. The copy constructor (lines 31-39) is value semantics here. -/
structure Obstacle where
  x : ℝ
  y : ℝ
  yaw : ℝ
  speed : ℝ
  time : ℝ
  mean : Fin 2 → ℝ
  covariance : Matrix (Fin 2) (Fin 2) ℝ

/-- The covariance of an obstacle built without one (lines 24-25). -/
def defaultCovariance : Matrix (Fin 2) (Fin 2) ℝ := !![30, 10; 10, 30]

namespace Obstacle

/-- Lines 28-29: an obstacle at `(x, y)` on compass `heading` at `speed` at `time`, with the
    given covariance; the mean is the position. -/
def ofPoseCovariance (x y heading speed time : ℝ) (covariance : Matrix (Fin 2) (Fin 2) ℝ) :
    Obstacle :=
  ⟨x, y, Real.pi / 2 - heading, speed, time, ![x, y], covariance⟩

/-- Lines 22-26: the same, with the default covariance. -/
def ofPose (x y heading speed time : ℝ) : Obstacle :=
  ofPoseCovariance x y heading speed time defaultCovariance

/-- Lines 41-47: move the position by `Speed · (desiredTime − Time)` along the yaw, and the mean
    with it. -/
def project (o : Obstacle) (desiredTime : ℝ) : Obstacle :=
  let dt := desiredTime - o.time
  let dx := o.speed * dt * Real.cos o.yaw
  let dy := o.speed * dt * Real.sin o.yaw
  { o with x := o.x + dx, y := o.y + dy, mean := ![o.x + dx, o.y + dy] }

/-- Lines 49-54: the bivariate normal density with the obstacle's mean and covariance. Eigen's
    `inverse()` of a singular matrix has no counterpart here (Mathlib's is `0`); the results on
    the density assume a positive-definite covariance, where both agree. -/
def pdf (o : Obstacle) (x : Fin 2 → ℝ) : ℝ :=
  let twoPi := 2 * Real.pi
  let quadform := (x - o.mean) ⬝ᵥ (o.covariance⁻¹ *ᵥ (x - o.mean))
  let norm := 1 / twoPi / Real.sqrt o.covariance.det
  norm * Real.exp (-0.5 * quadform)

/-! ## Projection as a translation -/

/-- The obstacle moved `d` seconds' worth along its course, with the mean put at the new
    position; its time, course, speed and covariance stay. -/
def translate (o : Obstacle) (d : ℝ) : Obstacle :=
  { o with x := o.x + o.speed * d * Real.cos o.yaw, y := o.y + o.speed * d * Real.sin o.yaw,
           mean := ![o.x + o.speed * d * Real.cos o.yaw, o.y + o.speed * d * Real.sin o.yaw] }

@[simp] theorem translate_time (o : Obstacle) (d : ℝ) : (o.translate d).time = o.time := rfl

theorem project_eq_translate (o : Obstacle) (t : ℝ) : o.project t = o.translate (t - o.time) :=
  rfl

theorem translate_translate (o : Obstacle) (d e : ℝ) :
    (o.translate d).translate e = o.translate (d + e) := by
  have hx : o.x + o.speed * d * Real.cos o.yaw + o.speed * e * Real.cos o.yaw =
      o.x + o.speed * (d + e) * Real.cos o.yaw := by ring
  have hy : o.y + o.speed * d * Real.sin o.yaw + o.speed * e * Real.sin o.yaw =
      o.y + o.speed * (d + e) * Real.sin o.yaw := by ring
  simp only [translate, hx, hy]

/-- A run of projections, none of which advances `Time`, is the translation by the sum of the
    times each call measured from the obstacle's original `Time`. -/
theorem foldl_project (o : Obstacle) (t : ℝ) (ts : List ℝ) :
    (t :: ts).foldl project o = o.translate ((t :: ts).map (· - o.time)).sum := by
  induction ts generalizing o t with
  | nil => simp [project_eq_translate]
  | cons t' ts ih =>
    rw [List.foldl_cons, ih, project_eq_translate, translate_translate, translate_time]
    simp only [List.map_cons, List.sum_cons]

/-- From an obstacle built at `(x, y)` at `time`, the calls `project t₁, …, project tₙ` leave it
    as built but for its position and mean, both moved `speed · Σᵢ (tᵢ − time)` along the course:
    `Time` and the covariance are as they were. -/
theorem project_run_position (x y heading speed time t : ℝ) (ts : List ℝ) :
    (t :: ts).foldl project (ofPose x y heading speed time) =
      { ofPose x y heading speed time with
        x := x + speed * ((t :: ts).map (· - time)).sum * Real.cos (Real.pi / 2 - heading)
        y := y + speed * ((t :: ts).map (· - time)).sum * Real.sin (Real.pi / 2 - heading)
        mean := ![x + speed * ((t :: ts).map (· - time)).sum * Real.cos (Real.pi / 2 - heading),
          y + speed * ((t :: ts).map (· - time)).sum * Real.sin (Real.pi / 2 - heading)] } :=
  foldl_project _ t ts

theorem project_twice_compounds :
    (((ofPose 0 0 (Real.pi / 2) 1 0).project 1).project 1).x = 2 ∧
      (0 : ℝ) + 1 * (1 - 0) * Real.cos (Real.pi / 2 - Real.pi / 2) = 1 := by
  refine ⟨?_, by simp⟩
  simp only [project, ofPose, ofPoseCovariance, sub_self, Real.cos_zero]
  norm_num

/-! ## The density moves with the obstacle -/

/-- A translation moves the density with the position, when the mean is at the position. -/
theorem pdf_translate {o : Obstacle} (hμ : o.mean = ![o.x, o.y]) (d : ℝ) (v : Fin 2 → ℝ) :
    (o.translate d).pdf (v + ![o.speed * d * Real.cos o.yaw, o.speed * d * Real.sin o.yaw]) =
      o.pdf v := by
  have hv : v + ![o.speed * d * Real.cos o.yaw, o.speed * d * Real.sin o.yaw] -
      (o.translate d).mean = v - o.mean := by
    rw [hμ]
    ext i
    fin_cases i <;> simp [translate, Matrix.vecHead, Matrix.vecTail]
  simp only [pdf, hv]
  rfl

/-- From an obstacle built at `(x, y)` at `time`, with any covariance, after the calls
    `project t₁, …, project tₙ` the density at `v` plus the run's displacement
    `speed · Σᵢ (tᵢ − time)` along the course is the density the obstacle had at `v`: the whole
    distribution moves with the compounded position, its shape unchanged. -/
theorem pdf_project_run (x y heading speed time : ℝ) (covariance : Matrix (Fin 2) (Fin 2) ℝ)
    (t : ℝ) (ts : List ℝ) (v : Fin 2 → ℝ) :
    ((t :: ts).foldl project (ofPoseCovariance x y heading speed time covariance)).pdf
        (v + ![speed * ((t :: ts).map (· - time)).sum * Real.cos (Real.pi / 2 - heading),
          speed * ((t :: ts).map (· - time)).sum * Real.sin (Real.pi / 2 - heading)]) =
      (ofPoseCovariance x y heading speed time covariance).pdf v := by
  rw [foldl_project]
  exact pdf_translate rfl _ v

end Obstacle

end

end GaussianDynamicObstaclesManager

end PathPlanner
