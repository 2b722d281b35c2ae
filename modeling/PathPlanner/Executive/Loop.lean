import PathPlanner.DubinsPlan

set_option autoImplicit false

/-! # The executive's planning loop

`Executive::planLoop` runs one cycle after another until it is cancelled, the ribbons are covered or
an exception escapes. A cycle reads the shared state the other threads write, cuts the retained plan
at the time the next plan must begin, calls the selected planner (BIT* keeps a plan it already has),
displays the plan's samples, hands a non-empty plan to the controller and checks the controller's
reply against it; an empty plan counts as a failure and repeated failures halve the time horizon.

The model is one function `cycle` from the loop's state and a `CycleInput` to the next state or the
reason the loop ended. The input holds everything a cycle reads from outside: the other threads'
`cancelPlanner()` calls, the ribbon manager's verdict, `m_LastState`, the clock, the planner's result
or exception and the controller's reply or exception. The cycle also returns the calls it made that
the spec talks about (`Event`); `run` strings cycles together and keeps one such log per cycle.

Logging, visualisation, the map slot, the ribbon copy and the statistics publications leave the
loop's state unchanged and are not modelled; `executive.h` is not under src, and its constants are
the fields of `Constants`. -/

namespace PathPlanner

variable {τ : Type} [LinearOrderedField τ]

inductive PlannerState where
  | inactive | running | cancelled
  deriving DecidableEq, Repr

inductive WhichPlanner where
  | potentialField | aStar | bitStar
  deriving DecidableEq, Repr

/-- `cancelPlanner()` on the state it guards: only a running planner is cancelled. -/
def cancelPlanner : PlannerState → PlannerState
  | .running => .cancelled
  | s => s

/-- The planner state a check reads when another thread may have called `cancelPlanner()` first. -/
def cancelIf (b : Bool) (ps : PlannerState) : PlannerState := if b then cancelPlanner ps else ps

/-- The constants of the headers that are not under src. -/
structure Constants (τ : Type) where
  -- `c_PlanningTimeOverhead`.
  planningTimeOverhead : τ
  -- `c_ReusePlanEnabled`.
  reusePlanEnabled : Bool
  -- `c_RadiusShrinkEnabled`.
  radiusShrinkEnabled : Bool
  -- `c_RadiusShrinkAmount`.
  radiusShrinkAmount : τ
  -- The tolerance of `State::isCoLocated`.
  coLocationTolerance : τ
  -- `DubinsPlan::planTimeDensity()`.
  planTimeDensity : τ

/-- The fields of `m_PlannerConfig` the loop reads and writes. -/
structure PlannerConfig (τ : Type) where
  turningRadius : τ
  coverageTurningRadius : τ
  timeHorizon : τ
  timeMinimum : τ
  deriving DecidableEq, Repr

/-- What `planner->plan(…)` does: return stats holding a plan, or throw. -/
inductive PlannerResult (τ : Type) where
  | plan (p : DubinsPlan τ)
  | stdException
  | otherException
  deriving DecidableEq, Repr

/-- What `publishPlan(…)` does: return the controller's next start state, or throw. -/
inductive ReplyResult (τ : Type) where
  | state (s : State τ)
  | stdException
  | otherException
  deriving DecidableEq, Repr

/-- Everything one cycle reads from outside the loop. -/
structure CycleInput (τ : Type) where
  -- Another thread's `cancelPlanner()` lands before the check at the top of the cycle.
  cancelBeforeCheck : Bool
  -- `m_RibbonManager.done()`.
  ribbonsDone : Bool
  -- `m_LastState`, as the transport thread last set it.
  lastState : State τ
  -- `getTime()` when the start state is extrapolated.
  now : τ
  -- `m_PlanningTimeIdeal`.
  planningTimeIdeal : τ
  -- `m_WhichPlanner`.
  whichPlanner : WhichPlanner
  -- The obstacle manager's collision penalty at `m_LastState`.
  collisionPenalty : τ
  -- What the planner does.
  planned : PlannerResult τ
  -- What `publishPlan` does.
  reply : ReplyResult τ
  -- Another thread's `cancelPlanner()` lands before the check after the controller's reply.
  cancelBeforeReplyCheck : Bool

/-- The state `planLoop` keeps across cycles, with the executive members it reads and writes. -/
structure LoopState (τ : Type) where
  startState : State τ
  -- `stats.Plan`.
  plan : DubinsPlan τ
  lastPlanAchievable : Bool
  failureCount : ℕ
  -- `m_PlannerConfig`.
  config : PlannerConfig τ
  -- `m_RadiusShrink`.
  radiusShrink : τ
  -- `m_PlannerState`.
  plannerState : PlannerState
  cumulativeCollisionPenalty : τ

/-- The state in which `planLoop` enters its first cycle, having set `PlannerState::Running`. -/
def LoopState.initial (config : PlannerConfig τ) (radiusShrink : τ) : LoopState τ :=
  { startState := .default, plan := ∅, lastPlanAchievable := false, failureCount := 0, config,
    radiusShrink, plannerState := .running, cumulativeCollisionPenalty := 0 }

/-- How the loop ends. -/
inductive Exit where
  -- `break` on `PlannerState::Cancelled`.
  | cancelled
  -- `break` after `allDone()`.
  | allDone
  -- A `std::exception` caught by the outer handler, after `cancelPlanner()`.
  | stdException
  -- Any other exception, re-thrown after `cancelPlanner()`.
  | otherException
  -- `front()` of the vector `changeIntoSuffix` emptied.
  | undefinedBehaviour
  -- `getHalfSecondSamples()` never returns.
  | hang
  deriving DecidableEq, Repr

/-- The end of a cycle: the next cycle's state, or the loop's end. -/
inductive CycleResult (τ : Type) where
  | next (s : LoopState τ)
  | exit (e : Exit)

def CycleResult.state? : CycleResult τ → Option (LoopState τ)
  | .next s => some s
  | .exit _ => none

/-- The calls of a cycle the spec speaks of. -/
inductive Event (τ : Type) where
  -- `stats.Plan.changeIntoSuffix(startState.time())`.
  | suffix (p : DubinsPlan τ) (t : τ)
  -- `planner->plan(…, stats.Plan, …)`, and what it did.
  | planned (previous : DubinsPlan τ) (result : PlannerResult τ)
  -- BIT* keeps the plan it has.
  | skipped (p : DubinsPlan τ)
  -- `publishPlan(stats.Plan, …)`.
  | published (p : DubinsPlan τ)
  deriving DecidableEq, Repr

/-! ## One cycle -/

section Cycle

variable (c : Constants τ) (g : Geometry τ)

/-- Lines 131-136: without a continuation state, extrapolate `m_LastState` to the time the next
    plan must begin. -/
def startOf (start : State τ) (i : CycleInput τ) : State τ :=
  if start.time = -1 then
    i.lastState.push g (i.now + i.planningTimeIdeal - c.planningTimeOverhead - i.lastState.time)
  else start

/-- Lines 163-167: drop the plan when reuse is off, otherwise cut it at the start time. -/
def retain (p : DubinsPlan τ) (t : τ) : Except Exit (DubinsPlan τ) × List (Event τ) :=
  let p := if c.reusePlanEnabled then p else ∅
  if p.empty then (.ok p, [])
  else
    (match p.changeIntoSuffix t with
      | .ok q => .ok q
      | .error .frontOfEmpty => .error .undefinedBehaviour
      | .error _ => .error .stdException,
     [.suffix p t])

/-- Lines 171-176: shrink both turning radii by a fixed step. -/
def shrinkRadius (s : LoopState τ) : LoopState τ :=
  if c.radiusShrinkEnabled then
    { s with
      config := { s.config with
        turningRadius := s.config.turningRadius - c.radiusShrinkAmount
        coverageTurningRadius := s.config.coverageTurningRadius - c.radiusShrinkAmount }
      radiusShrink := s.radiusShrink + c.radiusShrinkAmount }
  else s

/-- Lines 230-267: BIT* keeps a plan it has; otherwise the planner's plan replaces the retained one,
    a `std::exception` empties it and any other exception ends the loop. -/
def planStep (which : WhichPlanner) (p : DubinsPlan τ) (r : PlannerResult τ) :
    Except Exit (DubinsPlan τ) × List (Event τ) :=
  if which = .bitStar ∧ p.empty = false then (.ok p, [.skipped p])
  else
    (match r with
      | .plan q => .ok q
      | .stdException => .ok ∅
      | .otherException => .error .otherException,
     [.planned p r])

/-- Lines 325-331: give back the shrunk turning radius. -/
def restoreRadius (s : LoopState τ) : LoopState τ :=
  if c.radiusShrinkEnabled then
    { s with
      config := { s.config with
        turningRadius := s.config.turningRadius + s.radiusShrink
        coverageTurningRadius := s.config.coverageTurningRadius + s.radiusShrink }
      radiusShrink := 0 }
  else s

/-- Lines 309-337, from the state the controller reported: stop if the plan does not contain it and
    the planner was cancelled, else sample the plan there and keep the plan only if the controller
    is on it. -/
def checkReply (i : CycleInput τ) (s : LoopState τ) : CycleResult τ :=
  let s := { s with plannerState := cancelIf i.cancelBeforeReplyCheck s.plannerState }
  if s.plan.containsTime s.startState.time = false ∧ s.plannerState = .cancelled then
    .exit .cancelled
  else
    match s.plan.sample g s.startState with
    | .error _ => .exit .stdException
    | .ok expected =>
      if s.startState.isCoLocated c.coLocationTolerance expected then
        .next { s with
          lastPlanAchievable := true, radiusShrink := s.radiusShrink + c.radiusShrinkAmount }
      else .next (restoreRadius c { s with plan := ∅, lastPlanAchievable := false })

/-- Lines 294-308: hand the plan to the controller; a `std::exception` cancels the planner and keeps
    the old start state, any other exception ends the loop. -/
def handleReply (i : CycleInput τ) (s : LoopState τ) : CycleResult τ :=
  match i.reply with
  | .state r => checkReply c g i { s with startState := r }
  | .stdException => checkReply c g i { s with plannerState := cancelPlanner s.plannerState }
  | .otherException => .exit .otherException

/-- Lines 338-353: an empty plan is a failure; after more than two in a row the time horizon is
    halved, clamped at `timeMinimum`, and the count restarts unless the clamp fired. -/
def backOff (s : LoopState τ) : LoopState τ :=
  let n := s.failureCount + 1
  let s := { s with startState := .default, failureCount := n }
  if 2 < n then
    if s.config.timeHorizon / 2 < s.config.timeMinimum then
      { s with config := { s.config with timeHorizon := s.config.timeMinimum } }
    else { s with config := { s.config with timeHorizon := s.config.timeHorizon / 2 },
                  failureCount := 0 }
  else s

/-- Lines 291-353: publish a non-empty plan and check the reply; an empty plan is a failure. -/
def conclude (i : CycleInput τ) (s : LoopState τ) : CycleResult τ × List (Event τ) :=
  if s.plan.empty then (.next (backOff s), [])
  else (handleReply c g i { s with failureCount := 0 }, [.published s.plan])

variable [FloorRing τ]

/-- Lines 106-288: the checks at the top of the cycle, the start state, the retained plan, the
    radius shrink, the planner and the display of the plan's samples. -/
def prepare (s : LoopState τ) (i : CycleInput τ) : Except Exit (LoopState τ) × List (Event τ) :=
  let s := { s with plannerState := cancelIf i.cancelBeforeCheck s.plannerState }
  if s.plannerState = .cancelled then (.error .cancelled, [])
  else if i.ribbonsDone then (.error .allDone, [])
  else
    let s := { s with startState := startOf c g s.startState i }
    match retain c s.plan s.startState.time with
    | (.error e, ev₁) => (.error e, ev₁)
    | (.ok kept, ev₁) =>
      let s := shrinkRadius c { s with
        plan := kept,
        cumulativeCollisionPenalty := s.cumulativeCollisionPenalty + i.collisionPenalty }
      match planStep i.whichPlanner s.plan i.planned with
      | (.error e, ev₂) => (.error e, ev₁ ++ ev₂)
      | (.ok p, ev₂) =>
        match p.getHalfSecondSamples g c.planTimeDensity with
        | none => (.error .hang, ev₁ ++ ev₂)
        | some (.error _) => (.error .stdException, ev₁ ++ ev₂)
        | some (.ok _) => (.ok { s with plan := p }, ev₁ ++ ev₂)

/-- One pass of the `while (true)` loop of `planLoop`. -/
def cycle (s : LoopState τ) (i : CycleInput τ) : CycleResult τ × List (Event τ) :=
  match prepare c g s i with
  | (.error e, ev) => (.exit e, ev)
  | (.ok s, ev) => ((conclude c g i s).1, ev ++ (conclude c g i s).2)

/-- Cycles one after another, until the inputs run out or the loop ends; one log per cycle. -/
def run : LoopState τ → List (CycleInput τ) → CycleResult τ × List (List (Event τ))
  | s, [] => (.next s, [])
  | s, i :: is =>
    match cycle c g s i with
    | (.next s', ev) => ((run s' is).1, ev :: (run s' is).2)
    | (.exit e, ev) => (.exit e, [ev])

end Cycle

end PathPlanner
