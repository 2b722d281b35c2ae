import Mathlib

set_option autoImplicit false

/-! # Vehicle states and Dubins segments

The leaves of the planner's data model: the `State` sample of the vehicle, the `dubins_curves` path
a segment unwraps to, and `DubinsWrapper`, one constant-speed Dubins curve with a start time.

Times, positions and speeds live in an arbitrary linear ordered field `τ`. The code computes in
`double`; every comparison the plan code makes is exact over `τ`, and the results that add times are
stated over exact arithmetic (ℚ and ℝ are both instances). The trigonometry of `State::push` and the
geometry of `dubins_path_sample` have no exact counterpart over such a field, so they enter as the
fields of a `Geometry` record; no result below depends on them.

`State.h`, `DubinsWrapper.h` and `DubinsWrapper.cpp` are not under src. What of them the plan and the
executive use is modelled from the spec: a segment's end time is its start time plus its arc length
over its speed, and it contains exactly the times between the two. -/

namespace PathPlanner

variable {τ : Type} [LinearOrderedField τ]

/-! ## States -/

/-- A pose, speed and time sample of the vehicle (`State`): map metres, compass heading in radians,
    metres per second and seconds. -/
structure State (τ : Type) where
  x : τ
  y : τ
  heading : τ
  speed : τ
  time : τ
  deriving DecidableEq, Repr

/-- Modelled from the spec: `State()`. The executive resets `startState = State()` and later tests
    `startState.time() == -1`, so the default time is the sentinel `-1`. -/
def State.default : State τ := ⟨0, 0, 0, 0, -1⟩

@[simp] theorem State.default_time : (State.default : State τ).time = -1 := rfl

/-- Modelled from the spec: `isCoLocated`, the executive's test that the controller's state lies on
    the plan, "co-located within tolerance" in both map coordinates. -/
def State.isCoLocated (tolerance : τ) (a b : State τ) : Bool :=
  |a.x - b.x| ≤ tolerance ∧ |a.y - b.y| ≤ tolerance

theorem State.isCoLocated_self {tolerance : τ} (h : 0 ≤ tolerance) (a : State τ) :
    a.isCoLocated tolerance a = true := by
  simp [State.isCoLocated, h]

/-! ## Dubins paths -/

inductive DubinsPathType where
  | LSL | LSR | RSL | RSR | RLR | LRL
  deriving DecidableEq, Repr

/-- A `dubins_curves` path as `NodeBase::convertToPlanMsg` reads it: the start pose `qi`
    (x, y, yaw), the three normalised segment lengths `param`, the word and the radius `rho`. -/
structure DubinsPath (τ : Type) where
  qi : τ × τ × τ
  param : τ × τ × τ
  type : DubinsPathType
  rho : τ
  deriving DecidableEq, Repr

/-- `dubins_path_length`: the normalised lengths scaled by the turning radius. -/
def DubinsPath.length (p : DubinsPath τ) : τ :=
  (p.param.1 + p.param.2.1 + p.param.2.2) * p.rho

/-- The functions the planner takes from `<cmath>` and from `dubins_curves`. -/
structure Geometry (τ : Type) where
  sin : τ → τ
  cos : τ → τ
  -- `dubins_path_sample` at an arc length, as map `x`, `y` and compass heading.
  pathSample : DubinsPath τ → τ → τ × τ × τ

/-- A geometry that puts every sample at the origin. No result depends on the geometry; concrete
    runs of the model are evaluated with this one. -/
def Geometry.origin : Geometry τ := ⟨fun _ => 0, fun _ => 0, fun _ _ => (0, 0, 0)⟩

@[simp] theorem Geometry.origin_pathSample (p : DubinsPath τ) (a : τ) :
    (Geometry.origin : Geometry τ).pathSample p a = (0, 0, 0) := rfl

/-- Modelled from the spec: `State::push(dt)`, the straight-line extrapolation along the compass
    heading for `dt` seconds. -/
def State.push (g : Geometry τ) (s : State τ) (dt : τ) : State τ :=
  { s with
    x := s.x + s.speed * dt * g.sin s.heading
    y := s.y + s.speed * dt * g.cos s.heading
    time := s.time + dt }

@[simp] theorem State.push_time (g : Geometry τ) (s : State τ) (dt : τ) :
    (s.push g dt).time = s.time + dt := rfl

/-! ## Segments -/

/-- Modelled from the spec: `DubinsWrapper`, an unwrapped Dubins path driven at constant `speed`
    from `startTime` on. -/
structure DubinsWrapper (τ : Type) where
  path : DubinsPath τ
  speed : τ
  startTime : τ
  deriving DecidableEq, Repr

namespace DubinsWrapper

/-- `getEndTime()`: the start time plus the arc length over the speed. The spec's formula has no
    value at speed zero, where the code's division gives an infinite end time; there Lean's
    `x / 0 = 0` ends the segment at its start, so results about zero-speed segments say nothing of
    the code. -/
def getEndTime (w : DubinsWrapper τ) : τ := w.startTime + w.path.length / w.speed

def containsTime (w : DubinsWrapper τ) (t : τ) : Bool := w.startTime ≤ t ∧ t ≤ w.getEndTime

/-- `sample(s)`: keeps `s.time()` and fills in position and heading at the arc length driven since
    the start time, and the segment's speed. -/
def sample (g : Geometry τ) (w : DubinsWrapper τ) (s : State τ) : State τ :=
  let q := g.pathSample w.path ((s.time - w.startTime) * w.speed)
  { s with x := q.1, y := q.2.1, heading := q.2.2, speed := w.speed }

@[simp] theorem containsTime_iff (w : DubinsWrapper τ) (t : τ) :
    w.containsTime t = true ↔ w.startTime ≤ t ∧ t ≤ w.getEndTime := by
  simp [containsTime]

@[simp] theorem sample_time (g : Geometry τ) (w : DubinsWrapper τ) (s : State τ) :
    (w.sample g s).time = s.time := rfl

@[simp] theorem sample_speed (g : Geometry τ) (w : DubinsWrapper τ) (s : State τ) :
    (w.sample g s).speed = w.speed := rfl

theorem sample_congr (g : Geometry τ) (w : DubinsWrapper τ) {s s' : State τ}
    (h : s.time = s'.time) : w.sample g s = w.sample g s' := by
  simp [sample, h]

end DubinsWrapper

end PathPlanner
