import PathPlanner.Executive.Cycle
import PathPlanner.DubinsPlan.Samples

set_option autoImplicit false

/-! # The turning-radius shrink

With shrinking enabled each cycle takes `c_RadiusShrinkAmount` off both turning radii and adds it to
`m_RadiusShrink`, and a deviation from the plan adds `m_RadiusShrink` back. A cycle whose controller
is on the plan adds `c_RadiusShrinkAmount` to `m_RadiusShrink` a second time (line 335), without
touching the radii, so the radii are not the initial ones less `m_RadiusShrink`: each such cycle
moves them one step up for good, and a deviation restores them to above their initial values.

`radiiDrift_of_run` gives the exact drift over any run: radius plus `m_RadiusShrink` grows by one
step per cycle that ended on the plan, and by nothing else. The run of the first section is the
smallest that shows it: one cycle on the plan and one off it (`radiusShrink_drifts`). -/

namespace PathPlanner

variable {τ : Type} [LinearOrderedField τ]

/-- Both turning radii, each plus `m_RadiusShrink`, are `k` steps of shrink above `R` and `Rc`. -/
def RadiiDrift (R Rc a : τ) (k : ℕ) (s : LoopState τ) : Prop :=
  s.config.turningRadius + s.radiusShrink = R + k * a ∧
    s.config.coverageTurningRadius + s.radiusShrink = Rc + k * a

/-! ## A run on the plan, then off it -/

section Scenario

open DubinsPlan

def shrinkConstants : Constants ℚ := ⟨0, true, true, 1, 0, 1 / 2⟩

def shrinkConfig : PlannerConfig ℚ := ⟨10, 8, 60, 15⟩

def onPlan : State ℚ := ⟨0, 0, 0, 1, 1 / 2⟩

def offPlan : State ℚ := ⟨5, 5, 0, 1, 1 / 2⟩

/-- A cycle in which nothing is cancelled, A* returns the unit plan and the controller replies `r`. -/
def unitPlanCycle (r : State ℚ) : CycleInput ℚ :=
  { cancelBeforeCheck := false, ribbonsDone := false, lastState := .default, now := 0,
    planningTimeIdeal := 0, whichPlanner := .aStar, collisionPenalty := 0,
    planned := .plan unitPlan, reply := .state r, cancelBeforeReplyCheck := false }

def driftState₁ : LoopState ℚ := ⟨onPlan, unitPlan, true, 0, ⟨9, 7, 60, 15⟩, 2, .running, 0⟩

def driftState₂ : LoopState ℚ := ⟨offPlan, ∅, false, 0, ⟨11, 9, 60, 15⟩, 0, .running, 0⟩

theorem unitPlan_getHalfSecondSamples_ok :
    ∃ L, (unitPlan : DubinsPlan ℚ).getHalfSecondSamples .origin shrinkConstants.planTimeDensity =
      some (.ok L) := by
  obtain ⟨L, hL, -⟩ := getHalfSecondSamples_of_contiguous .origin
    (show (0 : ℚ) < shrinkConstants.planTimeDensity by norm_num [shrinkConstants])
    unitPlan_contiguous unitPlan_getStartTime unitPlan_getEndTime
  exact ⟨L, hL⟩

/-- The first cycle plans from scratch, and the controller is on the plan. -/
theorem cycle_onPlan :
    cycle shrinkConstants .origin (.initial shrinkConfig 0) (unitPlanCycle onPlan) =
      (.next driftState₁, [.planned ∅ (.plan unitPlan), .published unitPlan]) := by
  obtain ⟨L, hL⟩ := unitPlan_getHalfSecondSamples_ok
  have hc := cycle_of_prepare _ _ (prepare_of_steps shrinkConstants .origin
    (s := .initial shrinkConfig 0) (i := unitPlanCycle onPlan) (by decide) rfl
    (retain_emptyCollection _ _) (planStep_plan (by simp)) hL)
  rw [conclude_of_ne_nil _ _ (by simp), handleReply_state _ _ rfl,
    checkReply_of_sample _ _ (unitPlan_sample _ (by norm_num [onPlan]) (by norm_num [onPlan])),
    if_pos (by simp [State.isCoLocated, onPlan, shrinkConstants])] at hc
  rw [hc]
  norm_num [driftState₁, shrinkRadius, shrinkConstants, shrinkConfig, LoopState.initial, cancelIf,
    unitPlanCycle]

/-- The second cycle cuts the plan at the reported time, and the controller is off it. -/
theorem cycle_offPlan :
    cycle shrinkConstants .origin driftState₁ (unitPlanCycle offPlan) =
      (.next driftState₂, [.suffix unitPlan (1 / 2), .planned unitPlan (.plan unitPlan),
        .published unitPlan]) := by
  obtain ⟨L, hL⟩ := unitPlan_getHalfSecondSamples_ok
  have hc := cycle_of_prepare _ _ (prepare_of_steps shrinkConstants .origin (s := driftState₁)
    (i := unitPlanCycle offPlan) (by decide) rfl
    (retain_of_changeIntoSuffix _ rfl (by simp [driftState₁])
      (unitPlan_changeIntoSuffix (by norm_num [startOf, driftState₁, onPlan])))
    (planStep_plan (by simp [unitPlanCycle])) hL)
  rw [conclude_of_ne_nil _ _ (by simp), handleReply_state _ _ rfl,
    checkReply_of_sample _ _ (unitPlan_sample _ (by norm_num [offPlan]) (by norm_num [offPlan])),
    if_neg (by simp [State.isCoLocated, offPlan, shrinkConstants])] at hc
  rw [hc]
  norm_num [driftState₁, driftState₂, shrinkRadius, restoreRadius, shrinkConstants, cancelIf,
    unitPlanCycle, startOf, onPlan]

theorem run_drift :
    (run shrinkConstants .origin (.initial shrinkConfig 0)
        [unitPlanCycle onPlan, unitPlanCycle offPlan]).1 = .next driftState₂ := by
  rw [run_cons_of_cycle _ _ _ cycle_onPlan, run_cons_of_cycle _ _ _ cycle_offPlan]
  rfl

end Scenario

section Drift

variable (c : Constants τ) (g : Geometry τ) {R Rc : τ}

theorem radiiDrift_shrinkRadius {k : ℕ} {s : LoopState τ}
    (hs : RadiiDrift R Rc c.radiusShrinkAmount k s) :
    RadiiDrift R Rc c.radiusShrinkAmount k (shrinkRadius c s) := by
  unfold shrinkRadius
  split
  · exact ⟨by rw [← hs.1]; exact sub_add_add_cancel _ _ _, by rw [← hs.2]; exact sub_add_add_cancel _ _ _⟩
  · exact hs

theorem radiiDrift_restoreRadius {k : ℕ} {s : LoopState τ}
    (hs : RadiiDrift R Rc c.radiusShrinkAmount k s) :
    RadiiDrift R Rc c.radiusShrinkAmount k (restoreRadius c s) := by
  unfold restoreRadius
  split
  · exact ⟨(add_zero _).trans hs.1, (add_zero _).trans hs.2⟩
  · exact hs

/-- The reply check keeps the drift, or adds one step when the controller is on the plan. -/
theorem radiiDrift_checkReply {i : CycleInput τ} {k : ℕ} {s s' : LoopState τ}
    (h : checkReply c g i s = .next s') (hs : RadiiDrift R Rc c.radiusShrinkAmount k s) :
    RadiiDrift R Rc c.radiusShrinkAmount k s' ∨ RadiiDrift R Rc c.radiusShrinkAmount (k + 1) s' := by
  obtain ⟨_, _, ⟨_, rfl⟩ | ⟨_, rfl⟩⟩ := checkReply_next c g h
  · refine .inr ⟨?_, ?_⟩ <;> dsimp only
    · rw [← add_assoc, hs.1]; push_cast; ring
    · rw [← add_assoc, hs.2]; push_cast; ring
  · exact .inl (radiiDrift_restoreRadius c hs)

theorem radiiDrift_handleReply {i : CycleInput τ} {k : ℕ} {s s' : LoopState τ}
    (h : handleReply c g i s = .next s') (hs : RadiiDrift R Rc c.radiusShrinkAmount k s) :
    RadiiDrift R Rc c.radiusShrinkAmount k s' ∨ RadiiDrift R Rc c.radiusShrinkAmount (k + 1) s' := by
  rcases handleReply_next c g h with ⟨_, _, h⟩ | ⟨_, h⟩ <;> exact radiiDrift_checkReply c g h hs

variable [FloorRing τ]

/-- One cycle keeps the drift, or adds one step. -/
theorem radiiDrift_cycle {i : CycleInput τ} {k : ℕ} {s s' : LoopState τ}
    (hs : RadiiDrift R Rc c.radiusShrinkAmount k s) (h : (cycle c g s i).1 = .next s') :
    RadiiDrift R Rc c.radiusShrinkAmount k s' ∨ RadiiDrift R Rc c.radiusShrinkAmount (k + 1) s' := by
  obtain ⟨s₁, ev₁, ev₂, hp, hc⟩ := cycle_next c g h
  obtain ⟨kept, _, _, _, _, _, _, _, _, hs₁⟩ := prepare_ok c g hp
  have h₁ : RadiiDrift R Rc c.radiusShrinkAmount k s₁ := by
    rw [hs₁]
    exact radiiDrift_shrinkRadius c hs
  rcases conclude_next c g hc with ⟨_, _, rfl⟩ | ⟨_, _, hr⟩
  · exact .inl (by simpa [RadiiDrift] using h₁)
  · exact radiiDrift_handleReply c g hr h₁

/-- Over any run from `m_RadiusShrink = 0`, each turning radius is its initial value less
    `m_RadiusShrink`, plus one step of shrink for some number of cycles: those that ended on the
    plan. -/
theorem radiiDrift_of_run (config : PlannerConfig τ) (is : List (CycleInput τ)) (s : LoopState τ)
    (hs : (run c g (.initial config 0) is).1 = .next s) :
    ∃ k : ℕ,
      s.config.turningRadius = config.turningRadius - s.radiusShrink + k * c.radiusShrinkAmount ∧
      s.config.coverageTurningRadius =
        config.coverageTurningRadius - s.radiusShrink + k * c.radiusShrinkAmount := by
  have hrun := (run_invariant c g (fun _ => True)
    (fun (_ : Unit) s => ∃ k, RadiiDrift config.turningRadius config.coverageTurningRadius
      c.radiusShrinkAmount k s)
    (fun _ _ => ()) (fun _ _ => True)
    (fun _ _ _ ⟨k, hk⟩ _ => ⟨trivial, fun _ h =>
      (radiiDrift_cycle c g hk h).elim (fun h => ⟨k, h⟩) (fun h => ⟨k + 1, h⟩)⟩)
    is () (.initial config 0) ⟨0, by simp [RadiiDrift, LoopState.initial]⟩
    (fun _ _ => trivial)).1 s hs
  obtain ⟨k, h₁, h₂⟩ := hrun
  exact ⟨k, by rw [sub_add_eq_add_sub, ← h₁, add_sub_cancel_right],
    by rw [sub_add_eq_add_sub, ← h₂, add_sub_cancel_right]⟩

theorem radiiDrift_of_run_drift :
    (run shrinkConstants .origin (.initial shrinkConfig 0)
        [unitPlanCycle onPlan, unitPlanCycle offPlan]).1 = .next driftState₂ ∧
      (∃ k : ℕ,
        driftState₂.config.turningRadius =
          shrinkConfig.turningRadius - driftState₂.radiusShrink + k * shrinkConstants.radiusShrinkAmount ∧
        driftState₂.config.coverageTurningRadius = shrinkConfig.coverageTurningRadius -
          driftState₂.radiusShrink + k * shrinkConstants.radiusShrinkAmount) ∧
      driftState₂.config.turningRadius = shrinkConfig.turningRadius - driftState₂.radiusShrink +
        1 * shrinkConstants.radiusShrinkAmount :=
  ⟨run_drift, radiiDrift_of_run shrinkConstants .origin shrinkConfig _ driftState₂ run_drift,
    by norm_num [driftState₂, shrinkConfig, shrinkConstants]⟩

end Drift

/-! ## The drift -/

/-- From radii 10 and 8 and no shrink, a cycle on the plan leaves the radii one step down but
    `m_RadiusShrink` two steps up; a cycle off the plan then leaves both radii one step above their
    initial values. -/
theorem radiusShrink_drifts :
    ∃ s₁ s₂ : LoopState ℚ,
      (run shrinkConstants .origin (.initial shrinkConfig 0) [unitPlanCycle onPlan]).1 = .next s₁ ∧
      s₁.config.turningRadius = 9 ∧ s₁.config.coverageTurningRadius = 7 ∧ s₁.radiusShrink = 2 ∧
      (run shrinkConstants .origin (.initial shrinkConfig 0)
        [unitPlanCycle onPlan, unitPlanCycle offPlan]).1 = .next s₂ ∧
      s₂.lastPlanAchievable = false ∧ s₂.config.turningRadius = 11 ∧
      s₂.config.coverageTurningRadius = 9 :=
  ⟨driftState₁, driftState₂, by rw [run_cons_of_cycle _ _ _ cycle_onPlan]; rfl, rfl, rfl, rfl,
    run_drift, rfl, rfl, rfl⟩

end PathPlanner
