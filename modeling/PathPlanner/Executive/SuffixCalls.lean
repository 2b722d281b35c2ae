import PathPlanner.Executive.RadiusShrink

set_option autoImplicit false

/-! # Where the loop cuts its plan

Each cycle cuts the retained plan at the start state's time (line 167) before planning. The cut is
safe only at a time the plan contains: past the plan's end the erase loop empties the vector and
calls `front()` on it.

The start state of a cycle is the state the controller reported at the end of the last one, which the
reply check has just sampled from the plan, so the plan contains its time. The exception is the
sentinel: a start state whose time is `-1` is recomputed from the last state and the clock (line 131),
and the recomputed time need not be in the plan. A plan the planner returns that contains time `-1`,
with a controller that reports that time, leads to a cut outside the plan: `suffix_call_outside_plan`.

When no plan the planner returns contains time `-1`, every cut is made at a time the plan contains:
`suffix_calls_inside_plan`. The invariant is that the loop's plan never contains `-1`, and contains
the start state's time when it is not empty. -/

namespace PathPlanner

variable {τ : Type} [LinearOrderedField τ]

/-- The plan never contains the sentinel time, and a non-empty plan contains the start time. -/
def StartInPlan (s : LoopState τ) : Prop :=
  s.plan.containsTime (-1) = false ∧ (s.plan.paths ≠ [] → s.plan.containsTime s.startState.time = true)

theorem containsTime_of_paths_eq_nil {p : DubinsPlan τ} (h : p.paths = []) (t : τ) :
    p.containsTime t = false := by
  simp [DubinsPlan.containsTime, h]

section Invariant

variable (c : Constants τ) (g : Geometry τ)

theorem startOf_of_startInPlan {s : LoopState τ} (hs : StartInPlan s) (hne : s.plan.paths ≠ [])
    (i : CycleInput τ) : startOf c g s.startState i = s.startState := by
  have hne1 : s.startState.time ≠ -1 := fun h => by
    have := hs.2 hne
    rw [h, hs.1] at this
    exact Bool.false_ne_true this
  simp [startOf, hne1]

/-- The plan a cycle keeps after the cut still avoids the sentinel. -/
theorem containsTime_neg_one_of_retain {s : LoopState τ} {t : τ} {kept : DubinsPlan τ}
    {ev : List (Event τ)} (hs : StartInPlan s) (h : retain c s.plan t = (.ok kept, ev)) :
    kept.containsTime (-1) = false := by
  rcases retain_ok c h with ⟨hk, -⟩ | ⟨-, -, hq, -⟩
  · exact containsTime_of_paths_eq_nil hk _
  · cases hm : kept.containsTime (-1)
    · rfl
    · have := DubinsPlan.containsTime_of_changeIntoSuffix hq hm
      rw [hs.1] at this
      exact this.symm

variable [FloorRing τ]

/-- Every cut a cycle makes is at a time its plan contains, and leaves a plan that still contains it. -/
theorem suffix_inside_of_startInPlan {s : LoopState τ} {i : CycleInput τ} {p : DubinsPlan τ} {t : τ}
    (hs : StartInPlan s) (h : Event.suffix p t ∈ (cycle c g s i).2) :
    p.paths ≠ [] ∧ p.containsTime t = true ∧
      ∃ q, p.changeIntoSuffix t = .ok q ∧ q.paths ≠ [] ∧ q.containsTime t = true := by
  obtain ⟨-, rfl, hne, rfl⟩ := suffix_mem_cycle_log c g h
  rw [startOf_of_startInPlan c g hs hne]
  have ht := hs.2 hne
  exact ⟨hne, ht, DubinsPlan.changeIntoSuffix_of_containsTime ht⟩

/-- One cycle keeps the invariant, when the planner's plan avoids the sentinel. -/
theorem startInPlan_cycle {s s' : LoopState τ} {i : CycleInput τ} (hs : StartInPlan s)
    (hplan : ∀ P, i.planned = .plan P → P.containsTime (-1) = false)
    (h : (cycle c g s i).1 = .next s') : StartInPlan s' := by
  obtain ⟨s₁, ev₁, ev₂, hp, hc⟩ := cycle_next c g h
  obtain ⟨kept, _, _, -, -, hr, hpl, -, -, -⟩ := prepare_ok c g hp
  have hkept := containsTime_neg_one_of_retain c hs hr
  have h₁ : s₁.plan.containsTime (-1) = false := by
    rcases planStep_ok hpl with ⟨-, -, hq, -⟩ | ⟨-, -, hq | ⟨-, hq⟩⟩
    · rw [hq]; exact hkept
    · exact hplan _ hq
    · rw [hq]; rfl
  rcases conclude_next_plan c g hc with hnil | ⟨heq, e, he⟩
  · exact ⟨containsTime_of_paths_eq_nil hnil _, fun hne => (hne hnil).elim⟩
  · unfold StartInPlan
    rw [heq]
    exact ⟨h₁, fun _ => DubinsPlan.containsTime_of_sample_eq_ok he⟩

/-- When no plan the planner returns contains time `-1`, every cut of every run is made on a
    non-empty plan at a time it contains, goes through, and leaves a non-empty plan that still
    contains that time. -/
theorem suffix_calls_inside_plan (config : PlannerConfig τ) (radiusShrink : τ)
    (is : List (CycleInput τ))
    (hplans : ∀ i ∈ is, ∀ P, i.planned = .plan P → P.containsTime (-1) = false) :
    ∀ l ∈ (run c g (.initial config radiusShrink) is).2, ∀ p t, Event.suffix p t ∈ l →
      p.paths ≠ [] ∧ p.containsTime t = true ∧
        ∃ q, p.changeIntoSuffix t = .ok q ∧ q.paths ≠ [] ∧ q.containsTime t = true := by
  have hrun := (run_invariant c g (fun i => ∀ P, i.planned = .plan P → P.containsTime (-1) = false)
    (fun (_ : Unit) => StartInPlan) (fun _ _ => ())
    (fun _ l => ∀ p t, Event.suffix p t ∈ l → p.paths ≠ [] ∧ p.containsTime t = true ∧
        ∃ q, p.changeIntoSuffix t = .ok q ∧ q.paths ≠ [] ∧ q.containsTime t = true)
    (fun _ _ _ hs hA => ⟨fun _ _ h => suffix_inside_of_startInPlan c g hs h,
      fun _ h => startInPlan_cycle c g hs hA h⟩)
    is () (.initial config radiusShrink) ⟨rfl, fun h => (h rfl).elim⟩ hplans).2
  intro l hl
  obtain ⟨pre, post, hsplit⟩ := List.append_of_mem hl
  exact hrun pre l post hsplit

theorem unitPlan_containsTime_neg_one : (DubinsPlan.unitPlan : DubinsPlan ℚ).containsTime (-1) = false := by
  norm_num [DubinsPlan.containsTime, DubinsWrapper.containsTime]

theorem suffix_calls_inside_plan_drifting :
    (∀ i ∈ [unitPlanCycle onPlan, unitPlanCycle offPlan], ∀ P,
        i.planned = .plan P → P.containsTime (-1) = false) ∧
      ∀ l ∈ (run shrinkConstants .origin (.initial shrinkConfig 0)
          [unitPlanCycle onPlan, unitPlanCycle offPlan]).2, ∀ p t, Event.suffix p t ∈ l →
        p.paths ≠ [] ∧ p.containsTime t = true ∧
          ∃ q, p.changeIntoSuffix t = .ok q ∧ q.paths ≠ [] ∧ q.containsTime t = true := by
  have hplans : ∀ i ∈ [unitPlanCycle onPlan, unitPlanCycle offPlan], ∀ P,
      i.planned = .plan P → P.containsTime (-1) = false := by
    intro i hi P hP
    simp only [List.mem_cons, List.mem_singleton, List.not_mem_nil, or_false] at hi
    rcases hi with rfl | rfl <;> cases hP <;> exact unitPlan_containsTime_neg_one
  exact ⟨hplans, suffix_calls_inside_plan shrinkConstants .origin shrinkConfig 0 _ hplans⟩

end Invariant

/-! ## A plan that contains the sentinel -/

section Sentinel

open DubinsPlan

def earlyPlan : DubinsPlan ℚ := ⟨[⟨⟨(0, 0, 0), (1, 0, 0), .LSL, 1⟩, 1, -1⟩], false⟩

theorem earlyPlan_contiguous : earlyPlan.Contiguous :=
  ⟨by norm_num [earlyPlan, DubinsWrapper.getEndTime, DubinsPath.length], by simp [earlyPlan]⟩

theorem earlyPlan_getEndTime : earlyPlan.getEndTime = .ok 0 := by
  norm_num [earlyPlan, getEndTime_cons, DubinsWrapper.getEndTime, DubinsPath.length]

theorem earlyPlan_sample (s : State ℚ) (h0 : -1 ≤ s.time) (h1 : s.time ≤ 0) :
    earlyPlan.sample .origin s = .ok { s with x := 0, y := 0, heading := 0, speed := 1 } := by
  rw [sample_eq_ok_iff]
  refine ⟨⟨⟨(0, 0, 0), (1, 0, 0), .LSL, 1⟩, 1, -1⟩, ?_, by simp [DubinsWrapper.sample]⟩
  norm_num [earlyPlan, List.find?, DubinsWrapper.containsTime, DubinsWrapper.getEndTime,
    DubinsPath.length, h0, h1]

def reuseConstants : Constants ℚ := ⟨0, true, false, 0, 0, 1 / 2⟩

def sentinelReply : State ℚ := ⟨0, 0, 0, 1, -1⟩

/-- A cycle at clock `now` in which A* returns the plan over `[-1, 0]` and the controller reports
    the sentinel time. -/
def sentinelCycle (now : ℚ) : CycleInput ℚ :=
  { cancelBeforeCheck := false, ribbonsDone := false, lastState := .default, now := now,
    planningTimeIdeal := 0, whichPlanner := .aStar, collisionPenalty := 0,
    planned := .plan earlyPlan, reply := .state sentinelReply, cancelBeforeReplyCheck := false }

theorem suffix_call_outside_plan :
    run reuseConstants .origin (.initial ⟨10, 8, 60, 15⟩ 0) [sentinelCycle 0, sentinelCycle 5] =
        (.exit .undefinedBehaviour,
          [[.planned ∅ (.plan earlyPlan), .published earlyPlan], [.suffix earlyPlan 5]]) ∧
      earlyPlan.containsTime 5 = false := by
  obtain ⟨L, hL, -⟩ := getHalfSecondSamples_of_contiguous .origin
    (show (0 : ℚ) < reuseConstants.planTimeDensity by norm_num [reuseConstants])
    earlyPlan_contiguous rfl earlyPlan_getEndTime
  -- the first cycle plans, and the controller reports the plan's state at time `-1`
  have hp₁ := prepare_of_steps reuseConstants .origin (s := .initial ⟨10, 8, 60, 15⟩ 0)
    (i := sentinelCycle 0) (by decide) rfl (retain_emptyCollection _ _) (planStep_plan (by simp)) hL
  have hc₁ := cycle_of_prepare _ _ hp₁
  rw [conclude_of_ne_nil _ _ (by simp [earlyPlan]), handleReply_state _ _ rfl,
    checkReply_of_sample _ _ (earlyPlan_sample _ (by norm_num [sentinelReply])
      (by norm_num [sentinelReply])),
    if_pos (by simp [State.isCoLocated, sentinelReply, reuseConstants])] at hc₁
  generalize hs₁ : LoopState.mk _ _ _ _ _ _ _ _ = s₁ at hc₁
  -- the second cycle recomputes the start at time 5 and cuts the plan there
  have ht : (startOf reuseConstants .origin s₁.startState (sentinelCycle 5)).time = 5 := by
    subst hs₁
    norm_num [startOf, sentinelReply, sentinelCycle, reuseConstants]
  have hfront : s₁.plan.changeIntoSuffix 5 = .error .frontOfEmpty := by
    subst hs₁
    norm_num [changeIntoSuffix, earlyPlan, dropPast, DubinsWrapper.getEndTime, DubinsPath.length,
      Except.map]
  have hp₂ := prepare_of_retain_error reuseConstants .origin (s := s₁) (i := sentinelCycle 5)
    (by rw [← hs₁]; decide) rfl
    (retain_of_frontOfEmpty _ rfl (by rw [← hs₁]; simp [earlyPlan]) (by rw [ht]; exact hfront))
  rw [run_cons_of_cycle _ _ _ hc₁, run_cons_of_exit _ _ _ (cycle_of_prepare_error _ _ hp₂), ht]
  subst hs₁
  refine ⟨rfl, ?_⟩
  norm_num [containsTime, earlyPlan, DubinsWrapper.containsTime, DubinsWrapper.getEndTime,
    DubinsPath.length]

end Sentinel

end PathPlanner
