import PathPlanner.Executive.Loop

set_option autoImplicit false

/-! # What one cycle can do

Spec lemmas for the phases of `cycle`: which fields each phase leaves alone, and for `prepare`,
`conclude`, `handleReply` and `checkReply` one inversion lemma each saying every way the phase can
let the loop go on. The invariants of the later modules cite these and never unfold `cycle`.

`run_invariant` is the one induction over runs: a property of the state, indexed by a summary of
the logs so far, that every cycle keeps, together with a property of each cycle's log, holds along
every run. -/

namespace PathPlanner

variable {τ : Type} [LinearOrderedField τ]

section Phases

variable (c : Constants τ) (g : Geometry τ)

/-! ## Frames -/

section Frames

variable (s : LoopState τ)

@[simp] theorem shrinkRadius_plan : (shrinkRadius c s).plan = s.plan := by
  unfold shrinkRadius; split <;> rfl
@[simp] theorem shrinkRadius_startState : (shrinkRadius c s).startState = s.startState := by
  unfold shrinkRadius; split <;> rfl
@[simp] theorem shrinkRadius_failureCount : (shrinkRadius c s).failureCount = s.failureCount := by
  unfold shrinkRadius; split <;> rfl
@[simp] theorem shrinkRadius_timeHorizon :
    (shrinkRadius c s).config.timeHorizon = s.config.timeHorizon := by
  unfold shrinkRadius; split <;> rfl
@[simp] theorem shrinkRadius_timeMinimum :
    (shrinkRadius c s).config.timeMinimum = s.config.timeMinimum := by
  unfold shrinkRadius; split <;> rfl

@[simp] theorem restoreRadius_plan : (restoreRadius c s).plan = s.plan := by
  unfold restoreRadius; split <;> rfl
@[simp] theorem restoreRadius_startState : (restoreRadius c s).startState = s.startState := by
  unfold restoreRadius; split <;> rfl
@[simp] theorem restoreRadius_failureCount : (restoreRadius c s).failureCount = s.failureCount := by
  unfold restoreRadius; split <;> rfl
@[simp] theorem restoreRadius_timeHorizon :
    (restoreRadius c s).config.timeHorizon = s.config.timeHorizon := by
  unfold restoreRadius; split <;> rfl
@[simp] theorem restoreRadius_timeMinimum :
    (restoreRadius c s).config.timeMinimum = s.config.timeMinimum := by
  unfold restoreRadius; split <;> rfl

@[simp] theorem backOff_plan : (backOff s).plan = s.plan := by
  simp only [backOff]; split_ifs <;> rfl
@[simp] theorem backOff_startState : (backOff s).startState = .default := by
  simp only [backOff]; split_ifs <;> rfl
@[simp] theorem backOff_turningRadius :
    (backOff s).config.turningRadius = s.config.turningRadius := by
  simp only [backOff]; split_ifs <;> rfl
@[simp] theorem backOff_coverageTurningRadius :
    (backOff s).config.coverageTurningRadius = s.config.coverageTurningRadius := by
  simp only [backOff]; split_ifs <;> rfl
@[simp] theorem backOff_radiusShrink : (backOff s).radiusShrink = s.radiusShrink := by
  simp only [backOff]; split_ifs <;> rfl
@[simp] theorem backOff_timeMinimum :
    (backOff s).config.timeMinimum = s.config.timeMinimum := by
  simp only [backOff]; split_ifs <;> rfl

@[simp] theorem shrinkRadius_cumulativeCollisionPenalty :
    (shrinkRadius c s).cumulativeCollisionPenalty = s.cumulativeCollisionPenalty := by
  unfold shrinkRadius; split <;> rfl
@[simp] theorem restoreRadius_cumulativeCollisionPenalty :
    (restoreRadius c s).cumulativeCollisionPenalty = s.cumulativeCollisionPenalty := by
  unfold restoreRadius; split <;> rfl
@[simp] theorem backOff_cumulativeCollisionPenalty :
    (backOff s).cumulativeCollisionPenalty = s.cumulativeCollisionPenalty := by
  simp only [backOff]; split_ifs <;> rfl
@[simp] theorem shrinkRadius_plannerState : (shrinkRadius c s).plannerState = s.plannerState := by
  unfold shrinkRadius; split <;> rfl
@[simp] theorem restoreRadius_plannerState : (restoreRadius c s).plannerState = s.plannerState := by
  unfold restoreRadius; split <;> rfl
@[simp] theorem backOff_plannerState : (backOff s).plannerState = s.plannerState := by
  simp only [backOff]; split_ifs <;> rfl

end Frames

/-! ## Inversion lemmas -/

/-- The retain step either leaves an empty plan and calls nothing, or cuts the retained plan. -/
theorem retain_ok {p q : DubinsPlan τ} {t : τ} {ev : List (Event τ)}
    (h : retain c p t = (.ok q, ev)) :
    (q.paths = [] ∧ ev = []) ∨
      (c.reusePlanEnabled = true ∧ p.paths ≠ [] ∧ p.changeIntoSuffix t = .ok q ∧
        ev = [.suffix p t]) := by
  cases hr : c.reusePlanEnabled
  · simp [retain, hr, DubinsPlan.empty] at h
    exact .inl ⟨by rw [← h.1]; rfl, h.2⟩
  · by_cases he : p.paths = []
    · simp [retain, hr, DubinsPlan.empty, he] at h
      exact .inl ⟨h.1 ▸ he, h.2⟩
    · have he' : p.empty = false := by simpa [DubinsPlan.empty] using he
      simp only [retain, hr, if_true, he', Bool.false_eq_true, if_false, Prod.mk.injEq] at h
      refine .inr ⟨rfl, he, ?_, h.2.symm⟩
      have h1 := h.1
      split at h1 <;> simp_all

omit [LinearOrderedField τ] in
/-- The planning step either keeps a BIT* plan or takes what the planner did. -/
theorem planStep_ok {w : WhichPlanner} {p q : DubinsPlan τ} {r : PlannerResult τ}
    {ev : List (Event τ)} (h : planStep w p r = (.ok q, ev)) :
    (w = .bitStar ∧ p.paths ≠ [] ∧ q = p ∧ ev = [.skipped p]) ∨
      (¬(w = .bitStar ∧ p.paths ≠ []) ∧ ev = [.planned p r] ∧
        (r = .plan q ∨ (r = .stdException ∧ q = ∅))) := by
  have hiff : (w = .bitStar ∧ p.empty = false) ↔ (w = .bitStar ∧ p.paths ≠ []) := by
    simp [DubinsPlan.empty]
  unfold planStep at h
  by_cases hb : w = .bitStar ∧ p.empty = false
  · simp only [hb, and_self, if_true, Prod.mk.injEq, Except.ok.injEq] at h
    exact .inl ⟨(hiff.1 hb).1, (hiff.1 hb).2, h.1.symm, h.2.symm⟩
  · rw [if_neg hb, Prod.mk.injEq] at h
    refine .inr ⟨fun h' => hb (hiff.2 h'), h.2.symm, ?_⟩
    cases r <;> simp_all

/-- `checkReply` goes on only after sampling the plan at the reported state; it keeps the plan and
    counts a step of shrink when the controller is on it, and drops both otherwise. -/
theorem checkReply_next {i : CycleInput τ} {s s' : LoopState τ} (h : checkReply c g i s = .next s') :
    ∃ expected, s.plan.sample g s.startState = .ok expected ∧
      ((s.startState.isCoLocated c.coLocationTolerance expected = true ∧
          s' = { s with
            plannerState := cancelIf i.cancelBeforeReplyCheck s.plannerState,
            lastPlanAchievable := true, radiusShrink := s.radiusShrink + c.radiusShrinkAmount }) ∨
        (s.startState.isCoLocated c.coLocationTolerance expected = false ∧
          s' = restoreRadius c { s with
            plannerState := cancelIf i.cancelBeforeReplyCheck s.plannerState, plan := ∅,
            lastPlanAchievable := false })) := by
  simp only [checkReply] at h
  split_ifs at h
  split at h
  · simp at h
  · rename_i expected he
    refine ⟨expected, he, ?_⟩
    split_ifs at h with hc <;> simp only [CycleResult.next.injEq] at h
    · exact .inl ⟨hc, h.symm⟩
    · exact .inr ⟨by simpa using hc, h.symm⟩

/-- `handleReply` goes on from the reported state, or from the old one after a `std::exception`
    that cancelled the planner. -/
theorem handleReply_next {i : CycleInput τ} {s s' : LoopState τ}
    (h : handleReply c g i s = .next s') :
    (∃ r, i.reply = .state r ∧ checkReply c g i { s with startState := r } = .next s') ∨
      (i.reply = .stdException ∧
        checkReply c g i { s with plannerState := cancelPlanner s.plannerState } = .next s') := by
  unfold handleReply at h
  split at h
  · exact .inl ⟨_, ‹_›, h⟩
  · exact .inr ⟨‹_›, h⟩
  · simp at h

/-- A cycle that goes on either failed, with an empty plan, or published its plan and went on
    from the controller's reply. -/
theorem conclude_next {i : CycleInput τ} {s s' : LoopState τ} {ev : List (Event τ)}
    (h : conclude c g i s = (.next s', ev)) :
    (s.plan.paths = [] ∧ ev = [] ∧ s' = backOff s) ∨
      (s.plan.paths ≠ [] ∧ ev = [.published s.plan] ∧
        handleReply c g i { s with failureCount := 0 } = .next s') := by
  unfold conclude at h
  by_cases he : s.plan.empty
  · simp only [he, if_true, Prod.mk.injEq, CycleResult.next.injEq] at h
    exact .inl ⟨(DubinsPlan.empty_iff _).1 he, h.2.symm, h.1.symm⟩
  · simp only [he, Bool.false_eq_true, if_false, Prod.mk.injEq] at h
    exact .inr ⟨fun hp => he ((DubinsPlan.empty_iff _).2 hp), h.2.symm, h.1⟩

theorem conclude_next_plan {i : CycleInput τ} {s s' : LoopState τ} {ev : List (Event τ)}
    (h : conclude c g i s = (.next s', ev)) :
    s'.plan.paths = [] ∨ (s'.plan = s.plan ∧ ∃ e, s.plan.sample g s'.startState = .ok e) := by
  rcases conclude_next c g h with ⟨hp, -, rfl⟩ | ⟨-, -, hr⟩
  · exact .inl (by simpa using hp)
  · have hcheck : ∀ s₀ : LoopState τ, checkReply c g i s₀ = .next s' → s₀.plan = s.plan →
        s'.plan.paths = [] ∨ (s'.plan = s.plan ∧ ∃ e, s.plan.sample g s'.startState = .ok e) := by
      intro s₀ hc hs₀
      obtain ⟨e, he, ⟨-, rfl⟩ | ⟨-, rfl⟩⟩ := checkReply_next c g hc
      · exact .inr ⟨hs₀, e, hs₀ ▸ he⟩
      · exact .inl (by simp)
    rcases handleReply_next c g hr with ⟨_, _, hc⟩ | ⟨_, hc⟩ <;> exact hcheck _ hc rfl

/-! ## Going forward

The converse direction, to follow a run on given inputs. -/

@[simp] theorem retain_emptyCollection (t : τ) : retain c ∅ t = (.ok ∅, []) := by
  simp [retain]

theorem retain_of_changeIntoSuffix {p q : DubinsPlan τ} {t : τ} (hreuse : c.reusePlanEnabled = true)
    (hne : p.paths ≠ []) (h : p.changeIntoSuffix t = .ok q) : retain c p t = (.ok q, [.suffix p t]) := by
  have : p.empty = false := by simpa [DubinsPlan.empty] using hne
  simp [retain, hreuse, this, h]

theorem retain_of_frontOfEmpty {p : DubinsPlan τ} {t : τ} (hreuse : c.reusePlanEnabled = true)
    (hne : p.paths ≠ []) (h : p.changeIntoSuffix t = .error .frontOfEmpty) :
    retain c p t = (.error .undefinedBehaviour, [.suffix p t]) := by
  have : p.empty = false := by simpa [DubinsPlan.empty] using hne
  simp [retain, hreuse, this, h]

omit [LinearOrderedField τ] in
theorem planStep_plan {w : WhichPlanner} {p q : DubinsPlan τ} (h : ¬(w = .bitStar ∧ p.paths ≠ [])) :
    planStep w p (.plan q) = (.ok q, [.planned p (.plan q)]) := by
  have : ¬(w = .bitStar ∧ p.empty = false) := by simpa [DubinsPlan.empty] using h
  simp only [planStep, this, if_false]

omit [LinearOrderedField τ] in
theorem planStep_skip {p : DubinsPlan τ} {r : PlannerResult τ} (hne : p.paths ≠ []) :
    planStep .bitStar p r = (.ok p, [.skipped p]) := by
  have : p.empty = false := by simpa [DubinsPlan.empty] using hne
  simp [planStep, this]

/-- Once the plan can be sampled at the reported state, the check keeps or drops it by co-location
    alone. -/
theorem checkReply_of_sample {i : CycleInput τ} {s : LoopState τ} {expected : State τ}
    (h : s.plan.sample g s.startState = .ok expected) :
    checkReply c g i s =
      if s.startState.isCoLocated c.coLocationTolerance expected then
        .next { s with
          plannerState := cancelIf i.cancelBeforeReplyCheck s.plannerState,
          lastPlanAchievable := true, radiusShrink := s.radiusShrink + c.radiusShrinkAmount }
      else .next (restoreRadius c { s with
          plannerState := cancelIf i.cancelBeforeReplyCheck s.plannerState, plan := ∅,
          lastPlanAchievable := false }) := by
  simp [checkReply, DubinsPlan.containsTime_of_sample_eq_ok h, h]

theorem handleReply_state {i : CycleInput τ} {s : LoopState τ} {r : State τ}
    (h : i.reply = .state r) : handleReply c g i s = checkReply c g i { s with startState := r } := by
  simp [handleReply, h]

theorem conclude_of_ne_nil {i : CycleInput τ} {s : LoopState τ} (h : s.plan.paths ≠ []) :
    conclude c g i s = (handleReply c g i { s with failureCount := 0 }, [.published s.plan]) := by
  have : s.plan.empty = false := by simpa [DubinsPlan.empty] using h
  simp [conclude, this]

/-! ## Logs -/

theorem retain_log (p : DubinsPlan τ) (t : τ) :
    (retain c p t).2 =
      if (if c.reusePlanEnabled then p else ∅).empty then []
      else [.suffix (if c.reusePlanEnabled then p else ∅) t] := by
  simp only [retain]; split_ifs <;> rfl

theorem retain_log_cases (p : DubinsPlan τ) (t : τ) :
    (retain c p t).2 = [] ∨ ∃ p', (retain c p t).2 = [.suffix p' t] := by
  rw [retain_log]
  split_ifs <;> simp

omit [LinearOrderedField τ] in
theorem planStep_log (w : WhichPlanner) (p : DubinsPlan τ) (r : PlannerResult τ) :
    (planStep w p r).2 = if w = .bitStar ∧ p.empty = false then [.skipped p] else [.planned p r] := by
  unfold planStep; split_ifs <;> rfl

theorem conclude_log (i : CycleInput τ) (s : LoopState τ) :
    (conclude c g i s).2 = if s.plan.empty then [] else [.published s.plan] := by
  unfold conclude; split_ifs <;> rfl

variable [FloorRing τ]

/-- The state a cycle has reached when it is about to publish: everything `prepare` does. -/
theorem prepare_ok {s s₁ : LoopState τ} {i : CycleInput τ} {ev : List (Event τ)}
    (h : prepare c g s i = (.ok s₁, ev)) :
    ∃ kept ev₁ ev₂, cancelIf i.cancelBeforeCheck s.plannerState ≠ .cancelled ∧
      i.ribbonsDone = false ∧
      retain c s.plan (startOf c g s.startState i).time = (.ok kept, ev₁) ∧
      planStep i.whichPlanner kept i.planned = (.ok s₁.plan, ev₂) ∧
      (∃ L, s₁.plan.getHalfSecondSamples g c.planTimeDensity = some (.ok L)) ∧ ev = ev₁ ++ ev₂ ∧
      s₁ = { shrinkRadius c { s with
              plannerState := cancelIf i.cancelBeforeCheck s.plannerState,
              startState := startOf c g s.startState i, plan := kept,
              cumulativeCollisionPenalty := s.cumulativeCollisionPenalty + i.collisionPenalty } with
            plan := s₁.plan } := by
  unfold prepare at h
  by_cases hc : cancelIf i.cancelBeforeCheck s.plannerState = .cancelled
  · simp [hc] at h
  cases hd : i.ribbonsDone
  · simp only [hc, hd, if_false, Bool.false_eq_true] at h
    split at h
    · simp at h
    · rename_i kept ev₁ hr
      split at h
      · simp at h
      · rename_i p ev₂ hp
        split at h
        · simp at h
        · simp at h
        · rename_i L hL
          simp only [Prod.mk.injEq, Except.ok.injEq] at h
          obtain ⟨rfl, rfl⟩ := h
          exact ⟨kept, ev₁, ev₂, hc, rfl, hr, by simpa using hp, ⟨L, hL⟩, rfl, rfl⟩
  · simp [hc, hd] at h

/-- The log of `prepare`: nothing when a check at the top stops the loop, else the retain step's
    calls, then the planning step's when the retain step went through. -/
theorem prepare_log (s : LoopState τ) (i : CycleInput τ) :
    (prepare c g s i).2 =
      if cancelIf i.cancelBeforeCheck s.plannerState = .cancelled ∨ i.ribbonsDone = true then []
      else (retain c s.plan (startOf c g s.startState i).time).2 ++
        match (retain c s.plan (startOf c g s.startState i).time).1 with
        | .ok kept => (planStep i.whichPlanner kept i.planned).2
        | .error _ => [] := by
  unfold prepare
  by_cases hc : cancelIf i.cancelBeforeCheck s.plannerState = .cancelled
  · simp [hc]
  cases hd : i.ribbonsDone
  · simp only [hc, hd, if_false, Bool.false_eq_true, or_self]
    rcases hr : retain c s.plan (startOf c g s.startState i).time with ⟨_ | kept, ev₁⟩
    · simp
    · rcases hp : planStep i.whichPlanner kept i.planned with ⟨_ | p, ev₂⟩
      · simp [hp]
      · simp only [shrinkRadius_plan, hp]
        split <;> simp
  · simp [hc, hd]

/-- A cycle's log is that of `prepare`, then that of `conclude` when the loop got that far. -/
theorem cycle_log (s : LoopState τ) (i : CycleInput τ) :
    (cycle c g s i).2 =
      (prepare c g s i).2 ++
        match (prepare c g s i).1 with
        | .ok s₁ => (conclude c g i s₁).2
        | .error _ => [] := by
  unfold cycle
  rcases prepare c g s i with ⟨_ | s₁, ev⟩ <;> simp

theorem planStep_log_subset {s : LoopState τ} {i : CycleInput τ} {kept : DubinsPlan τ}
    {ev₁ : List (Event τ)} (hc : cancelIf i.cancelBeforeCheck s.plannerState ≠ .cancelled)
    (hd : i.ribbonsDone = false) (hr : retain c s.plan (startOf c g s.startState i).time = (.ok kept, ev₁)) :
    (planStep i.whichPlanner kept i.planned).2 ⊆ (cycle c g s i).2 := by
  intro e he
  rw [cycle_log, prepare_log, if_neg (by simp [hc, hd])]
  simp only [hr]
  exact List.mem_append_left _ (List.mem_append_right _ he)

/-- Every cycle's log: nothing; or only the retain step's, when the cut failed; or the retain step's
    and the planning step's, followed by the published plan when the cycle got that far. -/
theorem cycle_log_cases (s : LoopState τ) (i : CycleInput τ) :
    (cycle c g s i).2 = [] ∨
      (∃ e ev₁, retain c s.plan (startOf c g s.startState i).time = (.error e, ev₁) ∧
        (cycle c g s i).2 = ev₁) ∨
      ∃ kept ev₁, retain c s.plan (startOf c g s.startState i).time = (.ok kept, ev₁) ∧
        ((cycle c g s i).2 = ev₁ ++ (planStep i.whichPlanner kept i.planned).2 ∨
          ∃ q, (planStep i.whichPlanner kept i.planned).1 = .ok q ∧
            (cycle c g s i).2 = ev₁ ++ (planStep i.whichPlanner kept i.planned).2 ++ [.published q]) := by
  rcases hp : prepare c g s i with ⟨_ | s₁, ev⟩
  · have hlog : (cycle c g s i).2 = ev := by simp [cycle, hp]
    have hev := prepare_log c g s i
    rw [hp] at hev
    split_ifs at hev
    · exact .inl (hlog.trans hev)
    · rcases hr : retain c s.plan (startOf c g s.startState i).time with ⟨_ | kept, ev₁⟩ <;>
        rw [hr] at hev
      · exact .inr (.inl ⟨_, _, rfl, by simpa [hlog] using hev⟩)
      · exact .inr (.inr ⟨kept, ev₁, rfl, .inl (hlog.trans hev)⟩)
  · obtain ⟨kept, ev₁, ev₂, -, -, hr, hpl, -, rfl, -⟩ := prepare_ok c g hp
    have hlog : (cycle c g s i).2 = ev₁ ++ ev₂ ++ (conclude c g i s₁).2 := by simp [cycle, hp]
    refine .inr (.inr ⟨kept, ev₁, hr, ?_⟩)
    rw [hpl, hlog, conclude_log]
    split_ifs
    · exact .inl (List.append_nil _)
    · exact .inr ⟨s₁.plan, rfl, rfl⟩

theorem cycle_next {s s' : LoopState τ} {i : CycleInput τ} (h : (cycle c g s i).1 = .next s') :
    ∃ s₁ ev₁ ev₂, prepare c g s i = (.ok s₁, ev₁) ∧ conclude c g i s₁ = (.next s', ev₂) := by
  unfold cycle at h
  rcases hp : prepare c g s i with ⟨_ | s₁, ev₁⟩ <;> rw [hp] at h
  · simp at h
  · exact ⟨s₁, ev₁, (conclude c g i s₁).2, rfl, by rw [← h]⟩

theorem prepare_of_steps {s : LoopState τ} {i : CycleInput τ} {kept p : DubinsPlan τ}
    {ev₁ ev₂ : List (Event τ)} {L : List (State τ)}
    (hc : cancelIf i.cancelBeforeCheck s.plannerState ≠ .cancelled) (hd : i.ribbonsDone = false)
    (hr : retain c s.plan (startOf c g s.startState i).time = (.ok kept, ev₁))
    (hp : planStep i.whichPlanner kept i.planned = (.ok p, ev₂))
    (hL : p.getHalfSecondSamples g c.planTimeDensity = some (.ok L)) :
    prepare c g s i = (.ok { shrinkRadius c { s with
        plannerState := cancelIf i.cancelBeforeCheck s.plannerState,
        startState := startOf c g s.startState i, plan := kept,
        cumulativeCollisionPenalty := s.cumulativeCollisionPenalty + i.collisionPenalty } with
      plan := p }, ev₁ ++ ev₂) := by
  simp only [prepare, hc, hd, if_false, Bool.false_eq_true, hr, shrinkRadius_plan, hp, hL]

theorem cycle_of_prepare {s s₁ : LoopState τ} {i : CycleInput τ} {ev : List (Event τ)}
    (h : prepare c g s i = (.ok s₁, ev)) :
    cycle c g s i = ((conclude c g i s₁).1, ev ++ (conclude c g i s₁).2) := by
  simp [cycle, h]

theorem prepare_of_retain_error {s : LoopState τ} {i : CycleInput τ} {e : Exit}
    {ev : List (Event τ)}
    (hc : cancelIf i.cancelBeforeCheck s.plannerState ≠ .cancelled) (hd : i.ribbonsDone = false)
    (hr : retain c s.plan (startOf c g s.startState i).time = (.error e, ev)) :
    prepare c g s i = (.error e, ev) := by
  simp only [prepare, hc, hd, if_false, Bool.false_eq_true, hr]

theorem cycle_of_prepare_error {s : LoopState τ} {i : CycleInput τ} {e : Exit}
    {ev : List (Event τ)} (h : prepare c g s i = (.error e, ev)) : cycle c g s i = (.exit e, ev) := by
  simp [cycle, h]

theorem run_cons_of_exit {s : LoopState τ} {i : CycleInput τ} {e : Exit} {ev : List (Event τ)}
    (is : List (CycleInput τ)) (h : cycle c g s i = (.exit e, ev)) :
    run c g s (i :: is) = (.exit e, [ev]) := by
  simp [run, h]

theorem run_cons_of_cycle {s s' : LoopState τ} {i : CycleInput τ} {ev : List (Event τ)}
    (is : List (CycleInput τ)) (h : cycle c g s i = (.next s', ev)) :
    run c g s (i :: is) = ((run c g s' is).1, ev :: (run c g s' is).2) := by
  simp [run, h]

/-- A cut is logged only with reuse on, on the loop's non-empty plan, at the cycle's start time. -/
theorem suffix_mem_cycle_log {s : LoopState τ} {i : CycleInput τ} {p : DubinsPlan τ} {t : τ}
    (h : Event.suffix p t ∈ (cycle c g s i).2) :
    c.reusePlanEnabled = true ∧ p = s.plan ∧ s.plan.paths ≠ [] ∧
      t = (startOf c g s.startState i).time := by
  rw [cycle_log, List.mem_append] at h
  rcases h with h | h
  · rw [prepare_log] at h
    split_ifs at h
    · simp at h
    · rcases List.mem_append.1 h with h | h
      · rw [retain_log] at h
        split_ifs at h with hreuse he
        · simp at h
        · simp only [List.mem_singleton, Event.suffix.injEq] at h
          exact ⟨by simpa using hreuse, h.1, by simpa [DubinsPlan.empty] using he, h.2⟩
        · simp at h
        · exact absurd rfl ‹¬(∅ : DubinsPlan τ).empty = true›
      · split at h
        · rw [planStep_log] at h
          split_ifs at h <;> simp at h
        · simp at h
  · split at h
    · rw [conclude_log] at h
      split_ifs at h <;> simp at h
    · simp at h

/-! ## Runs -/

/-- The one induction over runs. `Inv a s` is an invariant of the loop state indexed by a summary
    `a` of the logs so far, which `upd` extends by one cycle's log; `Good a l` is what a cycle's log
    `l` satisfies after the logs summed up by `a`; `A` is what the inputs satisfy. -/
theorem run_invariant {α : Type} (A : CycleInput τ → Prop) (Inv : α → LoopState τ → Prop)
    (upd : α → List (Event τ) → α) (Good : α → List (Event τ) → Prop)
    (hstep : ∀ a s i, Inv a s → A i → Good a (cycle c g s i).2 ∧
      ∀ s', (cycle c g s i).1 = .next s' → Inv (upd a (cycle c g s i).2) s') :
    ∀ (is : List (CycleInput τ)) (a : α) (s : LoopState τ), Inv a s → (∀ i ∈ is, A i) →
      (∀ s', (run c g s is).1 = .next s' → Inv ((run c g s is).2.foldl upd a) s') ∧
      ∀ pre l post, (run c g s is).2 = pre ++ l :: post → Good (pre.foldl upd a) l := by
  intro is
  induction is with
  | nil =>
    intro a s hs _
    refine ⟨fun s' h => ?_, fun pre l post h => ?_⟩
    · simp only [run, CycleResult.next.injEq] at h
      exact h ▸ hs
    · simp [run] at h
  | cons i is ih =>
    intro a s hs hA
    obtain ⟨hgood, hnext⟩ := hstep a s i hs (hA i (by simp))
    rcases hc : cycle c g s i with ⟨_ | e, ev⟩
    · rename_i s₁
      rw [hc] at hgood hnext
      obtain ⟨ihrun, ihlog⟩ := ih (upd a ev) s₁ (hnext s₁ rfl) (fun j hj => hA j (by simp [hj]))
      simp only [run, hc]
      refine ⟨fun s' h => ihrun s' h, fun pre l post h => ?_⟩
      cases pre with
      | nil =>
        simp only [List.nil_append, List.cons.injEq] at h
        exact h.1 ▸ hgood
      | cons l₀ pre =>
        simp only [List.cons_append, List.cons.injEq] at h
        obtain ⟨rfl, h⟩ := h
        exact ihlog pre l post h
    · rw [hc] at hgood
      simp only [run, hc]
      refine ⟨fun s' h => by simp at h, fun pre l post h => ?_⟩
      cases pre with
      | nil =>
        simp only [List.nil_append, List.cons.injEq] at h
        exact h.1 ▸ hgood
      | cons l₀ pre => simp at h

/-- The log a run keeps for a cycle is that cycle's own log, from the state the cycles before it
    reached, on its own input. -/
theorem run_log_split (s : LoopState τ) (is : List (CycleInput τ)) {pre post : List (List (Event τ))}
    {l : List (Event τ)} (h : (run c g s is).2 = pre ++ l :: post) :
    ∃ s' i, (run c g s (is.take pre.length)).1 = .next s' ∧ is[pre.length]? = some i ∧
      l = (cycle c g s' i).2 := by
  induction is generalizing s pre with
  | nil => simp [run] at h
  | cons i is ih =>
    rcases hc : cycle c g s i with ⟨_ | e, ev⟩
    · rw [run_cons_of_cycle c g is hc] at h
      cases pre with
      | nil => exact ⟨s, i, rfl, by simp, by rw [hc]; exact (List.cons.inj h).1.symm⟩
      | cons l₀ pre =>
        obtain ⟨s', j, hrun, hj, hl⟩ := ih _ (List.cons.inj h).2
        refine ⟨s', j, ?_, by simpa using hj, hl⟩
        rw [List.length_cons, List.take_succ_cons, run_cons_of_cycle c g _ hc]
        exact hrun
    · rw [run_cons_of_exit c g is hc] at h
      cases pre with
      | nil => exact ⟨s, i, rfl, by simp, by rw [hc]; exact (List.cons.inj h).1.symm⟩
      | cons l₀ pre => simp at h

/-! ## Runs in which the planner finds nothing -/

/-- A cycle that starts with no plan, is not cancelled, and whose planner returns an empty plan or
    throws a `std::exception`, fails: it backs off, and logs the planner call alone. -/
theorem cycle_of_failure {s : LoopState τ} {i : CycleInput τ} (hs : s.plan = ∅)
    (hc : cancelIf i.cancelBeforeCheck s.plannerState ≠ .cancelled) (hd : i.ribbonsDone = false)
    (hp : i.planned = .plan ∅ ∨ i.planned = .stdException) :
    ∃ s', cycle c g s i = (.next s', [.planned ∅ i.planned]) ∧ s'.plan = ∅ ∧
      s'.plannerState = cancelIf i.cancelBeforeCheck s.plannerState := by
  have hr : retain c s.plan (startOf c g s.startState i).time = (.ok ∅, []) := by
    rw [hs]; exact retain_emptyCollection c _
  have hpl : planStep i.whichPlanner ∅ i.planned = (.ok ∅, [.planned ∅ i.planned]) := by
    rcases hp with hp | hp <;> simp [planStep, hp]
  rw [cycle_of_prepare c g (prepare_of_steps c g hc hd hr hpl rfl)]
  simp [conclude]

/-- A run whose cycles are not cancelled, do not finish, and find no plan goes on, each cycle
    logging only its planner call. -/
theorem run_of_failures {s : LoopState τ} (hs : s.plan = ∅) (hps : s.plannerState ≠ .cancelled)
    {is : List (CycleInput τ)}
    (his : ∀ i ∈ is, i.cancelBeforeCheck = false ∧ i.ribbonsDone = false ∧
      (i.planned = .plan ∅ ∨ i.planned = .stdException)) :
    ∃ s', (run c g s is).1 = .next s' ∧ (run c g s is).2 = is.map fun i => [.planned ∅ i.planned] := by
  induction is generalizing s with
  | nil => exact ⟨s, rfl, rfl⟩
  | cons i is ih =>
    obtain ⟨hb, hd, hp⟩ := his i (List.mem_cons_self i is)
    have hc : cancelIf i.cancelBeforeCheck s.plannerState ≠ .cancelled := by
      simpa [cancelIf, hb] using hps
    obtain ⟨s₁, hcyc, hs₁, hps₁⟩ := cycle_of_failure c g hs hc hd hp
    obtain ⟨s', hrun, hlog⟩ := ih hs₁ (by rwa [hps₁]) fun j hj => his j (List.mem_cons_of_mem i hj)
    rw [run_cons_of_cycle c g is hcyc]
    exact ⟨s', hrun, by rw [hlog]; rfl⟩

/-! ## The collision penalty -/

omit [FloorRing τ] in
theorem cumulativeCollisionPenalty_conclude {i : CycleInput τ} {s s' : LoopState τ}
    {ev : List (Event τ)} (h : conclude c g i s = (.next s', ev)) :
    s'.cumulativeCollisionPenalty = s.cumulativeCollisionPenalty := by
  have hcheck : ∀ s₀ : LoopState τ, checkReply c g i s₀ = .next s' →
      s'.cumulativeCollisionPenalty = s₀.cumulativeCollisionPenalty := by
    intro s₀ hc
    obtain ⟨e, -, ⟨-, rfl⟩ | ⟨-, rfl⟩⟩ := checkReply_next c g hc <;> simp
  rcases conclude_next c g h with ⟨-, -, rfl⟩ | ⟨-, -, hr⟩
  · exact backOff_cumulativeCollisionPenalty s
  · rcases handleReply_next c g hr with ⟨_, _, hc⟩ | ⟨_, hc⟩ <;> rw [hcheck _ hc]

/-- A cycle that lets the loop go on adds its penalty once. -/
theorem cumulativeCollisionPenalty_cycle {s s' : LoopState τ} {i : CycleInput τ}
    (h : (cycle c g s i).1 = .next s') :
    s'.cumulativeCollisionPenalty = s.cumulativeCollisionPenalty + i.collisionPenalty := by
  obtain ⟨s₁, ev₁, ev₂, hp, hc⟩ := cycle_next c g h
  obtain ⟨_, _, _, _, _, _, _, _, _, hs₁⟩ := prepare_ok c g hp
  rw [cumulativeCollisionPenalty_conclude c g hc, hs₁]
  simp

/-- Along every run of the loop that has not ended, whatever the planner, the controller and the
    other threads did, `cumulativeCollisionPenalty` is its value at the start plus the collision
    penalty each cycle read: no branch of a cycle drops, resets or counts twice a penalty. -/
theorem cumulativeCollisionPenalty_of_run (s : LoopState τ) (is : List (CycleInput τ))
    {s' : LoopState τ} (h : (run c g s is).1 = .next s') :
    s'.cumulativeCollisionPenalty =
      s.cumulativeCollisionPenalty + (is.map (·.collisionPenalty)).sum := by
  induction is generalizing s with
  | nil =>
    simp only [run, CycleResult.next.injEq] at h
    simp [h]
  | cons i is ih =>
    rcases hc : cycle c g s i with ⟨_ | e, ev⟩
    · rename_i s₁
      rw [run_cons_of_cycle c g is hc] at h
      rw [ih s₁ h, cumulativeCollisionPenalty_cycle c g (by rw [hc]), List.map_cons, List.sum_cons,
        add_assoc]
    · rw [run_cons_of_exit c g is hc] at h
      cases h

/-- A cycle in which nothing is cancelled, A* finds no plan, and the obstacles cost `penalty`. -/
def failedCycle (penalty : ℚ) : CycleInput ℚ :=
  { cancelBeforeCheck := false, ribbonsDone := false, lastState := .default, now := 0,
    planningTimeIdeal := 0, whichPlanner := .aStar, collisionPenalty := penalty,
    planned := .plan ∅, reply := .state .default, cancelBeforeReplyCheck := false }

theorem cumulativeCollisionPenalty_of_run_failures :
    ∃ s', (run ⟨0, true, true, 1, 0, 1 / 2⟩ .origin (.initial (⟨10, 8, 60, 15⟩ : PlannerConfig ℚ) 0)
        [failedCycle 2, failedCycle 3]).1 = .next s' ∧
      s'.cumulativeCollisionPenalty =
        (LoopState.initial (⟨10, 8, 60, 15⟩ : PlannerConfig ℚ) 0).cumulativeCollisionPenalty +
          ([failedCycle 2, failedCycle 3].map (·.collisionPenalty)).sum ∧
      s'.cumulativeCollisionPenalty = 5 := by
  have his : ∀ i ∈ [failedCycle 2, failedCycle 3], i.cancelBeforeCheck = false ∧
      i.ribbonsDone = false ∧ (i.planned = .plan ∅ ∨ i.planned = .stdException) := by
    simp [failedCycle]
  obtain ⟨s', h, -⟩ := run_of_failures ⟨0, true, true, 1, 0, 1 / 2⟩ .origin
    (s := .initial ⟨10, 8, 60, 15⟩ 0) rfl (by decide) his
  have hpen := cumulativeCollisionPenalty_of_run _ .origin _ _ h
  exact ⟨s', h, hpen, by rw [hpen]; norm_num [LoopState.initial, failedCycle]⟩

end Phases

end PathPlanner
