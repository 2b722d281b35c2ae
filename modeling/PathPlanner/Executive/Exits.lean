import PathPlanner.Executive.Cycle

set_option autoImplicit false

/-! # How a run of the loop ends

`planLoop` leaves its `while (true)` by `break` when it finds `PlannerState::Cancelled` (lines
106-111 and 312-316) or after `allDone()`, and otherwise only by an exception. The model adds two
ends the C++ code has no name for: the undefined behaviour of `changeIntoSuffix` and a display loop
that never ends.

The loop stops on `Cancelled` only when something cancelled it: another thread's `cancelPlanner()`
before one of the two checks, or the controller's `std::exception`, after which line 302 calls
`cancelPlanner()` itself (`run_exit_cancelled`). A `std::exception` of the planner is not among
them: it empties the plan and the loop goes on. Other throws, `sample` at a reported time outside
the plan among them, end the loop through the outer handler, which calls `cancelPlanner()` as well;
that end is `stdException`, not `Cancelled`. -/

namespace PathPlanner

variable {τ : Type} [LinearOrderedField τ]

theorem cancelIf_eq_cancelled {b : Bool} {ps : PlannerState} (h : cancelIf b ps = .cancelled) :
    b = true ∨ ps = .cancelled := by
  cases b <;> cases ps <;> simp_all [cancelIf, cancelPlanner]

section Exits

variable (c : Constants τ) (g : Geometry τ)

/-! ## What each phase can end with -/

theorem retain_error {p : DubinsPlan τ} {t : τ} {e : Exit} {ev : List (Event τ)}
    (h : retain c p t = (.error e, ev)) :
    e = .undefinedBehaviour ∨ e = .stdException := by
  revert h
  simp only [retain]
  split_ifs <;> (try split) <;> simp_all

omit [LinearOrderedField τ] in
theorem planStep_error {w : WhichPlanner} {p : DubinsPlan τ} {r : PlannerResult τ} {e : Exit}
    {ev : List (Event τ)} (h : planStep w p r = (.error e, ev)) : e = .otherException := by
  revert h
  simp only [planStep]
  split_ifs <;> (try split) <;> simp_all

variable [FloorRing τ]

/-- Every way `prepare` can end the loop. -/
theorem prepare_error {s : LoopState τ} {i : CycleInput τ} {e : Exit}
    (h : (prepare c g s i).1 = .error e) :
    (e = .cancelled ∧ cancelIf i.cancelBeforeCheck s.plannerState = .cancelled) ∨
      e = .allDone ∨ e = .undefinedBehaviour ∨ e = .stdException ∨ e = .otherException ∨
      (e = .hang ∧ ∃ p : DubinsPlan τ, p.getHalfSecondSamples g c.planTimeDensity = none) := by
  revert h
  simp only [prepare]
  split_ifs with hc
  · simpa using fun he => .inl ⟨he.symm, hc⟩
  · simpa using fun he => .inr (.inl he.symm)
  · split
    · next e' ev₁ h =>
      simp only [Except.error.injEq]
      rintro rfl
      rcases retain_error c h with rfl | rfl <;> simp
    · split
      · next e' ev₂ h =>
        simp only [Except.error.injEq]
        rintro rfl
        simp [planStep_error h]
      · next p ev₂ _ =>
        split
        · next hp =>
          simp only [Except.error.injEq]
          rintro rfl
          exact .inr (.inr (.inr (.inr (.inr ⟨rfl, p, hp⟩))))
        · simpa using fun he => .inr (.inr (.inr (.inl he.symm)))
        · simp

omit [FloorRing τ] in
/-- The reply check stops on `Cancelled` when the planner state it reads is `Cancelled`, and
    otherwise only when sampling the plan throws. -/
theorem checkReply_exit {i : CycleInput τ} {s : LoopState τ} {e : Exit}
    (h : checkReply c g i s = .exit e) :
    (e = .cancelled ∧ cancelIf i.cancelBeforeReplyCheck s.plannerState = .cancelled) ∨
      e = .stdException := by
  revert h
  simp only [checkReply]
  split_ifs with hc
  · simpa using fun he => .inl ⟨he.symm, hc.2⟩
  · split
    · simpa using fun he => .inr he.symm
    · split_ifs <;> simp

omit [FloorRing τ] in
/-- Publishing never hangs, and stops on `Cancelled` only after a cancellation or a controller
    `std::exception`, or when the planner was already cancelled. -/
theorem conclude_exit {i : CycleInput τ} {s : LoopState τ} {e : Exit}
    (h : (conclude c g i s).1 = .exit e) :
    e ≠ .hang ∧ (e = .cancelled →
      i.cancelBeforeReplyCheck = true ∨ i.reply = .stdException ∨ s.plannerState = .cancelled) := by
  have hcheck : ∀ s₀ : LoopState τ, checkReply c g i s₀ = .exit e →
      e ≠ .hang ∧ (e = .cancelled → i.cancelBeforeReplyCheck = true ∨ s₀.plannerState = .cancelled) := by
    intro s₀ hc
    rcases checkReply_exit c g hc with ⟨rfl, hcan⟩ | rfl
    · exact ⟨by simp, fun _ => cancelIf_eq_cancelled hcan⟩
    · simp
  revert h
  simp only [conclude, handleReply]
  split_ifs
  · simp
  · split
    · next r hr =>
      intro hc
      obtain ⟨hh, hcan⟩ := hcheck _ hc
      exact ⟨hh, fun he => (hcan he).imp_right .inr⟩
    · next hr =>
      intro hc
      exact ⟨(hcheck _ hc).1, fun _ => .inr (.inl hr)⟩
    · intro hc
      obtain rfl : Exit.otherException = e := by simpa using hc
      simp

/-! ## Stopping on `Cancelled` -/

/-- What a cycle that neither finds a cancellation nor meets a controller exception reads. -/
def Quiet (i : CycleInput τ) : Prop :=
  i.cancelBeforeCheck = false ∧ i.cancelBeforeReplyCheck = false ∧ i.reply ≠ .stdException

/-- A cycle stops on `Cancelled` only after a cancellation, a controller `std::exception`, or when
    the planner was already cancelled. -/
theorem cycle_exit_cancelled {s : LoopState τ} {i : CycleInput τ}
    (h : (cycle c g s i).1 = .exit .cancelled) : ¬ Quiet i ∨ s.plannerState = .cancelled := by
  unfold cycle at h
  rcases hp : prepare c g s i with ⟨_ | s₁, ev₁⟩ <;> rw [hp] at h
  · simp only [CycleResult.exit.injEq] at h
    subst h
    rcases prepare_error c g (by rw [hp]) with ⟨-, hc⟩ | h | h | h | h | ⟨h, -⟩ <;> try cases h
    rcases cancelIf_eq_cancelled hc with hb | hps
    · exact .inl fun hq => by simp [hq.1] at hb
    · exact .inr hps
  · obtain ⟨-, hcan⟩ := conclude_exit c g h
    obtain ⟨_, _, _, _, _, _, _, _, _, hs₁⟩ := prepare_ok c g hp
    have hps : s₁.plannerState = cancelIf i.cancelBeforeCheck s.plannerState := by rw [hs₁]; simp
    rcases hcan rfl with hb | hr | hc
    · exact .inl fun hq => by simp [hq.2.1] at hb
    · exact .inl fun hq => hq.2.2 hr
    · rw [hps] at hc
      rcases cancelIf_eq_cancelled hc with hb | hps'
      · exact .inl fun hq => by simp [hq.1] at hb
      · exact .inr hps'

omit [FloorRing τ] in
theorem conclude_plannerState {i : CycleInput τ} (hq : Quiet i) {s s' : LoopState τ}
    {ev : List (Event τ)} (h : conclude c g i s = (.next s', ev)) : s'.plannerState = s.plannerState := by
  rcases conclude_next c g h with ⟨-, -, rfl⟩ | ⟨-, -, hr⟩
  · exact backOff_plannerState s
  · rcases handleReply_next c g hr with ⟨r, -, hc⟩ | ⟨hr, -⟩
    · obtain ⟨e, -, ⟨-, rfl⟩ | ⟨-, rfl⟩⟩ := checkReply_next c g hc <;> simp [cancelIf, hq.2.1]
    · exact absurd hr hq.2.2

theorem cycle_plannerState {s s' : LoopState τ} {i : CycleInput τ} (hq : Quiet i)
    (h : (cycle c g s i).1 = .next s') : s'.plannerState = s.plannerState := by
  obtain ⟨s₁, ev₁, ev₂, hp, hc⟩ := cycle_next c g h
  obtain ⟨_, _, _, _, _, _, _, _, _, hs₁⟩ := prepare_ok c g hp
  rw [conclude_plannerState c g hq hc, hs₁]
  simp [cancelIf, hq.1]

/-- From a planner that is not cancelled, a run stops on `Cancelled` only if some cycle found
    another thread's `cancelPlanner()` at one of its two checks, or had the controller throw a
    `std::exception`. -/
theorem run_exit_cancelled {s : LoopState τ} (hs : s.plannerState ≠ .cancelled)
    {is : List (CycleInput τ)} (h : (run c g s is).1 = .exit .cancelled) :
    ∃ i ∈ is, i.cancelBeforeCheck = true ∨ i.cancelBeforeReplyCheck = true ∨
      i.reply = .stdException := by
  have hquiet : ∀ i : CycleInput τ, ¬ Quiet i → i.cancelBeforeCheck = true ∨
      i.cancelBeforeReplyCheck = true ∨ i.reply = .stdException := by
    intro i hq
    simp only [Quiet, not_and_or, Bool.not_eq_false, not_not] at hq
    exact hq
  induction is generalizing s with
  | nil => simp [run] at h
  | cons i is ih =>
    by_cases hq : Quiet i
    · rcases hc : cycle c g s i with ⟨_ | e, ev⟩
      · rename_i s₁
        rw [run_cons_of_cycle c g is hc] at h
        obtain ⟨j, hj, hj'⟩ := ih (s := s₁) (by rw [cycle_plannerState c g hq (by rw [hc])]; exact hs) h
        exact ⟨j, List.mem_cons_of_mem i hj, hj'⟩
      · rw [run_cons_of_exit c g is hc] at h
        cases h
        rcases cycle_exit_cancelled c g (s := s) (i := i) (by rw [hc]) with hq' | hps
        · exact absurd hq hq'
        · exact absurd hps hs
    · exact ⟨i, List.mem_cons_self i is, hquiet i hq⟩

def cancelledCycle : CycleInput ℚ :=
  { cancelBeforeCheck := true, ribbonsDone := false, lastState := .default, now := 0,
    planningTimeIdeal := 0, whichPlanner := .aStar, collisionPenalty := 0,
    planned := .plan ∅, reply := .state .default, cancelBeforeReplyCheck := false }

theorem run_exit_cancelled_first :
    (LoopState.initial (⟨10, 8, 60, 15⟩ : PlannerConfig ℚ) 0).plannerState ≠ .cancelled ∧
      (run ⟨0, true, true, 1, 0, 1 / 2⟩ .origin (.initial ⟨10, 8, 60, 15⟩ 0) [cancelledCycle]).1 =
        .exit .cancelled ∧
      ∃ i ∈ [cancelledCycle], i.cancelBeforeCheck = true ∨ i.cancelBeforeReplyCheck = true ∨
        i.reply = .stdException :=
  have hs : (LoopState.initial (⟨10, 8, 60, 15⟩ : PlannerConfig ℚ) 0).plannerState ≠ .cancelled := by
    decide
  have h : (run ⟨0, true, true, 1, 0, 1 / 2⟩ .origin (.initial ⟨10, 8, 60, 15⟩ 0) [cancelledCycle]).1 =
      .exit .cancelled := rfl
  ⟨hs, h, run_exit_cancelled _ .origin hs h⟩

end Exits

end PathPlanner
