import PathPlanner.Executive.SuffixCalls

set_option autoImplicit false

/-! # Reusing the BIT* plan

With BIT* the loop calls the planner only when the plan it retains is empty; otherwise it publishes
what is left of the retained plan after cutting it at the cycle's start time (lines 163-167 and
230-249). So every skipped cycle publishes a non-empty suffix of the plan the planner last returned.

Cutting drops the segments that end before the cut time. The start time can go back between cycles
(it is the time the controller reports), so a later cycle can start before an earlier cut: from its
start time on, the suffix it publishes need not sample as the returned plan did, since a dropped
segment may still contain the start time. The suffix samples as the returned plan from every time at
or after all the cuts made since the planner returned it: `reuse_publishes_suffix`. The run of the
last section starts its third cycle at the boundary between two segments of different speeds, one of
them already dropped. -/

namespace PathPlanner

variable {τ : Type} [LinearOrderedField τ]

/-! ## The plan last returned -/

/-- One logged call's effect on the plan `planner.plan` last returned, with the times it has been
    cut at since. -/
def lastReturnStep (a : Option (DubinsPlan τ × List τ)) : Event τ → Option (DubinsPlan τ × List τ)
  | .planned _ (.plan R) => some (R, [])
  | .suffix _ t => a.map fun rc => (rc.1, rc.2 ++ [t])
  | _ => a

/-- The plan `planner.plan` last returned in a run's logs, with the times it has been cut at since. -/
def lastReturn (logs : List (List (Event τ))) : Option (DubinsPlan τ × List τ) :=
  logs.foldl (fun a l => l.foldl lastReturnStep a) none

/-- `p` is what is left of `R` after cuts at the times `cuts`: a suffix of it, each dropped segment
    ending before one of the cuts. -/
def Splice (R : DubinsPlan τ) (cuts : List τ) (p : DubinsPlan τ) : Prop :=
  ∃ pre, R.paths = pre ++ p.paths ∧ ∀ w ∈ pre, ∃ t ∈ cuts, w.getEndTime < t

theorem splice_refl (R : DubinsPlan τ) : Splice R [] R := ⟨[], rfl, by simp⟩

theorem Splice.cut {R p q : DubinsPlan τ} {cuts : List τ} {t : τ} (h : Splice R cuts p)
    (hq : p.changeIntoSuffix t = .ok q) : Splice R (cuts ++ [t]) q := by
  obtain ⟨pre, hR, hpre⟩ := h
  rw [DubinsPlan.changeIntoSuffix_eq_ok hq]
  refine ⟨pre ++ p.paths.takeWhile (DubinsPlan.endsBefore t), ?_, fun w hw => ?_⟩
  · rw [hR, List.append_assoc, List.takeWhile_append_dropWhile]
  · rcases List.mem_append.1 hw with hw | hw
    · obtain ⟨t', ht', hlt⟩ := hpre w hw
      exact ⟨t', List.mem_append_left _ ht', hlt⟩
    · exact ⟨t, by simp, (DubinsPlan.endsBefore_iff _ _).1 (List.mem_takeWhile_imp hw)⟩

theorem Splice.isSuffix {R p : DubinsPlan τ} {cuts : List τ} (h : Splice R cuts p) :
    p.paths <:+ R.paths := by
  obtain ⟨pre, hR, -⟩ := h
  exact ⟨pre, hR.symm⟩

/-- From all the cuts on, what is left of a plan samples as the plan did. -/
theorem Splice.agree (g : Geometry τ) {R p : DubinsPlan τ} {cuts : List τ} (h : Splice R cuts p)
    {u : τ} (hu : ∀ t ∈ cuts, t ≤ u) :
    p.containsTime u = R.containsTime u ∧
      ∀ s : State τ, s.time = u → (p.sample g s).toOption = (R.sample g s).toOption := by
  obtain ⟨pre, hR, hpre⟩ := h
  have hfind : R.paths.find? (·.containsTime u) = p.paths.find? (·.containsTime u) := by
    have hnone : pre.find? (·.containsTime u) = none := List.find?_eq_none.2 fun w hw hwu => by
      obtain ⟨t, ht, hlt⟩ := hpre w hw
      have := (DubinsWrapper.containsTime_iff _ _).1 hwu
      exact absurd (hu t ht) (not_le.2 (lt_of_le_of_lt this.2 hlt))
    rw [hR, List.find?_append, hnone, Option.none_or]
  refine ⟨?_, fun s hs => ?_⟩
  · rw [DubinsPlan.containsTime_eq_isSome, DubinsPlan.containsTime_eq_isSome, hfind]
  · rw [DubinsPlan.sample_toOption, DubinsPlan.sample_toOption, hs, hfind]

/-! ## The invariant -/

/-- The loop's plan, when not empty, is what is left of the plan last returned after its cuts. -/
def FromLastReturn (a : Option (DubinsPlan τ × List τ)) (s : LoopState τ) : Prop :=
  s.plan.paths ≠ [] → ∃ R cuts, a = some (R, cuts) ∧ Splice R cuts s.plan

/-- What a BIT* cycle's log says: the planner is called on an empty retained plan only, and a
    skipped cycle publishes its non-empty retained plan, what is left of the plan last returned. -/
def ReuseLog (a : Option (DubinsPlan τ × List τ)) (l : List (Event τ)) : Prop :=
  (∀ p r, Event.planned p r ∈ l → p.paths = []) ∧
    ∀ p, Event.skipped p ∈ l → p.paths ≠ [] ∧ (∀ q, Event.published q ∈ l → q = p) ∧
      ∃ R cuts, l.foldl lastReturnStep a = some (R, cuts) ∧ Splice R cuts p

section Cycle

variable (c : Constants τ) (g : Geometry τ)

/-- The retain step cuts what is left of the plan last returned, and logs the cut. -/
theorem fromLastReturn_retain {a : Option (DubinsPlan τ × List τ)} {s : LoopState τ} {t : τ}
    {kept : DubinsPlan τ} {ev : List (Event τ)} (hs : FromLastReturn a s)
    (hr : retain c s.plan t = (.ok kept, ev)) (hk : kept.paths ≠ []) :
    ∃ R cuts, ev.foldl lastReturnStep a = some (R, cuts) ∧ Splice R cuts kept := by
  rcases retain_ok c hr with ⟨hnil, -⟩ | ⟨-, hne, hq, rfl⟩
  · exact (hk hnil).elim
  · obtain ⟨R, cuts, rfl, hsp⟩ := hs hne
    exact ⟨R, cuts ++ [t], rfl, hsp.cut hq⟩

theorem foldl_lastReturnStep_conclude (a : Option (DubinsPlan τ × List τ)) (i : CycleInput τ)
    (s : LoopState τ) : (conclude c g i s).2.foldl lastReturnStep a = a := by
  rw [conclude_log]
  split_ifs <;> rfl

variable [FloorRing τ]

theorem reuseLog_cycle {a : Option (DubinsPlan τ × List τ)} {s : LoopState τ} {i : CycleInput τ}
    (hs : FromLastReturn a s) (hw : i.whichPlanner = .bitStar) : ReuseLog a (cycle c g s i).2 := by
  rcases cycle_log_cases c g s i with hl | ⟨e, ev₁, hr, hl⟩ | ⟨kept, ev₁, hr, hl⟩
  · simp [ReuseLog, hl]
  · -- the cut failed: only the cut is logged
    rcases retain_log_cases c s.plan (startOf c g s.startState i).time with h | ⟨p', h⟩ <;>
      rw [hr] at h <;> dsimp only at h <;> simp [ReuseLog, hl, h]
  · by_cases hk : kept.paths = []
    · -- nothing retained: the planner is called
      have hkempty : kept.empty = true := by simpa [DubinsPlan.empty] using hk
      have hpl : (planStep i.whichPlanner kept i.planned).2 = [.planned kept i.planned] := by
        simp [planStep_log, hkempty]
      rcases hl with hl | ⟨q, -, hl⟩ <;> rw [hl, hpl] <;>
        rcases retain_ok c hr with ⟨-, rfl⟩ | ⟨-, -, -, rfl⟩ <;> simp [ReuseLog, hk]
    · -- a non-empty plan retained: the planner is skipped and the cut plan published
      have hkempty : kept.empty = false := by simpa [DubinsPlan.empty] using hk
      have hskip : planStep i.whichPlanner kept i.planned = (.ok kept, [.skipped kept]) := by
        simp [planStep, hw, hkempty]
      obtain ⟨R, cuts, hfold, hsp⟩ := fromLastReturn_retain c hs hr hk
      obtain ⟨-, -, -, rfl⟩ := (retain_ok c hr).resolve_left fun h => hk h.1
      rw [hskip] at hl
      rcases hl with hl | ⟨q, ⟨⟩, hl⟩ <;> rw [hl] <;> refine ⟨by simp, fun p hp => ?_⟩ <;>
        simp only [List.mem_append, List.mem_singleton, reduceCtorEq, Event.skipped.injEq, false_or,
          or_false] at hp <;> subst hp <;>
        exact ⟨hk, by simp, R, cuts, by simp only [List.foldl_append, hfold]; rfl, hsp⟩

/-- One cycle keeps the invariant, with its log added to the summary. -/
theorem fromLastReturn_cycle {a : Option (DubinsPlan τ × List τ)} {s s' : LoopState τ}
    {i : CycleInput τ} (hs : FromLastReturn a s) (h : (cycle c g s i).1 = .next s') :
    FromLastReturn ((cycle c g s i).2.foldl lastReturnStep a) s' := by
  obtain ⟨s₁, ev, ev₃, hp, hc⟩ := cycle_next c g h
  obtain ⟨kept, ev₁, ev₂, -, -, hr, hpl, -, rfl, -⟩ := prepare_ok c g hp
  have hlog : (cycle c g s i).2 = ev₁ ++ ev₂ ++ (conclude c g i s₁).2 := by simp [cycle, hp]
  rw [hlog, List.foldl_append, foldl_lastReturnStep_conclude]
  intro hne
  rcases conclude_next_plan c g hc with hnil | ⟨heq, -⟩
  · exact (hne hnil).elim
  rw [heq] at hne ⊢
  rcases planStep_ok hpl with ⟨-, hk, hq, rfl⟩ | ⟨-, rfl, hq | ⟨-, hq⟩⟩
  · obtain ⟨R, cuts, hfold, hsp⟩ := fromLastReturn_retain c hs hr hk
    rw [hq]
    exact ⟨R, cuts, by simp [List.foldl_append, lastReturnStep, hfold], hsp⟩
  · rw [hq]
    exact ⟨s₁.plan, [], by simp [List.foldl_append, lastReturnStep], splice_refl _⟩
  · rw [hq] at hne
    exact (hne rfl).elim

/-- A BIT* cycle that gets past the checks and the cut calls the planner when the plan it retained is
    empty, and skips it otherwise. -/
theorem planned_of_reaches_planStep {s : LoopState τ} {i : CycleInput τ} {kept : DubinsPlan τ}
    {ev₁ : List (Event τ)} (hw : i.whichPlanner = .bitStar)
    (hc : cancelIf i.cancelBeforeCheck s.plannerState ≠ .cancelled) (hd : i.ribbonsDone = false)
    (hr : retain c s.plan (startOf c g s.startState i).time = (.ok kept, ev₁)) :
    (kept.paths = [] → Event.planned kept i.planned ∈ (cycle c g s i).2) ∧
      (kept.paths ≠ [] → Event.skipped kept ∈ (cycle c g s i).2) := by
  have hsub := planStep_log_subset c g hc hd hr
  rw [planStep_log] at hsub
  exact ⟨fun hk => hsub (by simp [DubinsPlan.empty, hk]),
    fun hk => hsub (by simp [DubinsPlan.empty, List.isEmpty_iff, hk, hw])⟩

/-- Over every BIT* run: a cycle that gets past the checks and the cut calls the planner exactly when
    the plan it retained is empty; a cycle that skips it publishes its retained plan, which is
    non-empty, a suffix of the plan the planner last returned, and samples as that plan at every time
    at or after all the cuts made since. -/
theorem reuse_publishes_suffix (config : PlannerConfig τ) (radiusShrink : τ)
    (is : List (CycleInput τ)) (hbit : ∀ i ∈ is, i.whichPlanner = .bitStar) :
    ∀ pre l post, (run c g (.initial config radiusShrink) is).2 = pre ++ l :: post →
      (∃ s i, (run c g (.initial config radiusShrink) (is.take pre.length)).1 = .next s ∧
        is[pre.length]? = some i ∧ l = (cycle c g s i).2 ∧
        ∀ kept ev₁, cancelIf i.cancelBeforeCheck s.plannerState ≠ .cancelled → i.ribbonsDone = false →
          retain c s.plan (startOf c g s.startState i).time = (.ok kept, ev₁) →
          (kept.paths = [] → Event.planned kept i.planned ∈ l) ∧
          (kept.paths ≠ [] → Event.skipped kept ∈ l)) ∧
      (∀ p r, Event.planned p r ∈ l → p.paths = []) ∧
      ∀ p, Event.skipped p ∈ l → p.paths ≠ [] ∧ (∀ q, Event.published q ∈ l → q = p) ∧
        ∃ R cuts, lastReturn (pre ++ [l]) = some (R, cuts) ∧ p.paths <:+ R.paths ∧
          ∀ u, (∀ t ∈ cuts, t ≤ u) → p.containsTime u = R.containsTime u ∧
            ∀ s : State τ, s.time = u → (p.sample g s).toOption = (R.sample g s).toOption := by
  intro pre l post hsplit
  have hlog := (run_invariant c g (fun i => i.whichPlanner = .bitStar) FromLastReturn
    (fun a l => l.foldl lastReturnStep a) ReuseLog
    (fun _ _ _ hs hw => ⟨reuseLog_cycle c g hs hw, fun _ h => fromLastReturn_cycle c g hs h⟩)
    is none (.initial config radiusShrink) (fun h => (h rfl).elim) hbit).2 pre l post hsplit
  obtain ⟨s, i, hrun, hi, hl⟩ := run_log_split c g _ is hsplit
  have hw := hbit i (List.mem_iff_getElem?.2 ⟨_, hi⟩)
  refine ⟨⟨s, i, hrun, hi, hl, fun kept ev₁ hc hd hr => hl ▸ planned_of_reaches_planStep c g hw hc hd hr⟩,
    hlog.1, fun p hp => ?_⟩
  obtain ⟨hne, hpub, R, cuts, hfold, hsp⟩ := hlog.2 p hp
  refine ⟨hne, hpub, R, cuts, by rw [lastReturn, List.foldl_append]; exact hfold, hsp.isSuffix,
    fun u hu => hsp.agree g hu⟩

end Cycle

/-! ## A start before an earlier cut -/

section Scenario

open DubinsPlan

def bitStarCycle (t : ℚ) : CycleInput ℚ :=
  { cancelBeforeCheck := false, ribbonsDone := false, lastState := .default, now := 0,
    planningTimeIdeal := 0, whichPlanner := .bitStar, collisionPenalty := 0,
    planned := .plan twoSpeedPlan, reply := .state ⟨0, 0, 0, 2, t⟩, cancelBeforeReplyCheck := false }

theorem reuse_suffix_diverges :
    (run reuseConstants .origin (.initial ⟨10, 8, 60, 15⟩ 0)
        [bitStarCycle (3 / 2), bitStarCycle 1, bitStarCycle 1]).2 =
      [[.planned ∅ (.plan twoSpeedPlan), .published twoSpeedPlan],
        [.suffix twoSpeedPlan (3 / 2), .skipped fastPlan, .published fastPlan],
        [.suffix fastPlan 1, .skipped fastPlan, .published fastPlan]] ∧
      fastPlan.sample .origin ⟨0, 0, 0, 2, 1⟩ = .ok ⟨0, 0, 0, 2, 1⟩ ∧
      twoSpeedPlan.sample .origin ⟨0, 0, 0, 2, 1⟩ = .ok ⟨0, 0, 0, 1, 1⟩ := by
  have hΔ : (0 : ℚ) < reuseConstants.planTimeDensity := by norm_num [reuseConstants]
  obtain ⟨L, hL, -⟩ := getHalfSecondSamples_of_contiguous .origin hΔ twoSpeedPlan_contiguous rfl
    twoSpeedPlan_getEndTime
  obtain ⟨L', hL', -⟩ := getHalfSecondSamples_of_contiguous .origin hΔ fastPlan_contiguous rfl
    fastPlan_getEndTime
  have hcut₁ : twoSpeedPlan.changeIntoSuffix (3 / 2) = .ok fastPlan :=
    twoSpeedPlan_changeIntoSuffix (by norm_num) (by norm_num)
  have hcut₂ : fastPlan.changeIntoSuffix 1 = .ok fastPlan := fastPlan_changeIntoSuffix (by norm_num)
  -- the first cycle calls BIT*, and the controller is on the fast segment at time 3/2
  have hc₁ := cycle_of_prepare _ _ (prepare_of_steps reuseConstants .origin
    (s := .initial ⟨10, 8, 60, 15⟩ 0) (i := bitStarCycle (3 / 2)) (by decide) rfl
    (retain_emptyCollection _ _) (planStep_plan (by simp)) hL)
  rw [conclude_of_ne_nil _ _ (by simp [twoSpeedPlan]), handleReply_state _ _ rfl,
    checkReply_of_sample _ _ (twoSpeedPlan_sample_fast _ (by norm_num) (by norm_num)),
    if_pos (by simp [State.isCoLocated, reuseConstants])] at hc₁
  generalize hs₁ : LoopState.mk _ _ _ _ _ _ _ _ = s₁ at hc₁
  -- the second cycle cuts at 3/2 and skips BIT*; the controller is at time 1
  have hst₁ : (startOf reuseConstants .origin s₁.startState (bitStarCycle 1)).time = 3 / 2 := by
    subst hs₁; norm_num [startOf]
  have hc₂ := cycle_of_prepare _ _ (prepare_of_steps reuseConstants .origin (s := s₁)
    (i := bitStarCycle 1) (by rw [← hs₁]; decide) rfl
    (retain_of_changeIntoSuffix _ rfl (by rw [← hs₁]; simp [twoSpeedPlan])
      (by rw [hst₁, ← hs₁]; exact hcut₁))
    (planStep_skip (by simp [fastPlan])) hL')
  rw [conclude_of_ne_nil _ _ (by simp [fastPlan]), handleReply_state _ _ rfl,
    checkReply_of_sample _ _ (fastPlan_sample _ (by norm_num) (by norm_num)),
    if_pos (by simp [State.isCoLocated, reuseConstants])] at hc₂
  generalize hs₂ : LoopState.mk _ _ _ _ _ _ _ _ = s₂ at hc₂
  -- the third cycle starts at time 1, cuts nothing and skips BIT* again
  have hst₂ : (startOf reuseConstants .origin s₂.startState (bitStarCycle 1)).time = 1 := by
    subst hs₂; norm_num [startOf]
  have hc₃ := cycle_of_prepare _ _ (prepare_of_steps reuseConstants .origin (s := s₂)
    (i := bitStarCycle 1) (by rw [← hs₂, ← hs₁]; decide) rfl
    (retain_of_changeIntoSuffix _ rfl (by rw [← hs₂]; simp [fastPlan])
      (by rw [hst₂, ← hs₂]; exact hcut₂))
    (planStep_skip (by simp [fastPlan])) hL')
  rw [conclude_of_ne_nil _ _ (by simp [fastPlan]), handleReply_state _ _ rfl,
    checkReply_of_sample _ _ (fastPlan_sample _ (by norm_num) (by norm_num)),
    if_pos (by simp [State.isCoLocated, reuseConstants])] at hc₃
  refine ⟨?_, fastPlan_sample _ (by norm_num) (by norm_num),
    twoSpeedPlan_sample_slow _ (by norm_num) (by norm_num)⟩
  rw [run_cons_of_cycle _ _ _ hc₁, run_cons_of_cycle _ _ _ hc₂, run_cons_of_cycle _ _ _ hc₃, hst₁,
    hst₂]
  subst hs₂ hs₁
  rfl

theorem reuse_publishes_suffix_diverging :
    (∀ i ∈ [bitStarCycle (3 / 2), bitStarCycle 1, bitStarCycle 1], i.whichPlanner = .bitStar) ∧
      ∀ pre l post, (run reuseConstants .origin (.initial ⟨10, 8, 60, 15⟩ 0)
          [bitStarCycle (3 / 2), bitStarCycle 1, bitStarCycle 1]).2 = pre ++ l :: post →
        (∃ s i, (run reuseConstants .origin (.initial ⟨10, 8, 60, 15⟩ 0)
            ([bitStarCycle (3 / 2), bitStarCycle 1, bitStarCycle 1].take pre.length)).1 = .next s ∧
          [bitStarCycle (3 / 2), bitStarCycle 1, bitStarCycle 1][pre.length]? = some i ∧
          l = (cycle reuseConstants .origin s i).2 ∧
          ∀ kept ev₁, cancelIf i.cancelBeforeCheck s.plannerState ≠ .cancelled →
            i.ribbonsDone = false →
            retain reuseConstants s.plan (startOf reuseConstants .origin s.startState i).time =
              (.ok kept, ev₁) →
            (kept.paths = [] → Event.planned kept i.planned ∈ l) ∧
            (kept.paths ≠ [] → Event.skipped kept ∈ l)) ∧
        (∀ p r, Event.planned p r ∈ l → p.paths = []) ∧
        ∀ p, Event.skipped p ∈ l → p.paths ≠ [] ∧ (∀ q, Event.published q ∈ l → q = p) ∧
          ∃ R cuts, lastReturn (pre ++ [l]) = some (R, cuts) ∧ p.paths <:+ R.paths ∧
            ∀ u, (∀ t ∈ cuts, t ≤ u) → p.containsTime u = R.containsTime u ∧
              ∀ s : State ℚ, s.time = u →
                (p.sample .origin s).toOption = (R.sample .origin s).toOption :=
  have hbit : ∀ i ∈ [bitStarCycle (3 / 2), bitStarCycle 1, bitStarCycle 1],
      i.whichPlanner = .bitStar := by simp [bitStarCycle]
  ⟨hbit, reuse_publishes_suffix reuseConstants .origin ⟨10, 8, 60, 15⟩ 0 _ hbit⟩

end Scenario

end PathPlanner
