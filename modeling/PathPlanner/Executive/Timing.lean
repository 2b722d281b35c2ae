import PathPlanner.Executive.Loop

set_option autoImplicit false

/-! # The planning period

Each cycle of `planLoop` reads the clock as it starts (line 83) and again once its plan is
published (line 274), and then sleeps for what is left of the period
`m_PlanningTimeIdeal - c_PlanningTimeOverhead`: the remainder is scaled to milliseconds and
converted by `(int)`, which truncates toward zero, and a negative count skips the sleep
(lines 275-279). `sleep_for` never sleeps less than asked; it and the step to the next cycle's clock
reading may take longer.

So a cycle lasts at least its own work, and at least the period less one millisecond, the
millisecond the truncation can drop. Whatever the planner and the controller take, cycles start at
least a period less a millisecond apart, and after any run the clock has advanced by at least the
periods of its cycles, less a millisecond each, and by at least their work (`clock_spec`). The
truncation never lengthens a sleep, so a cycle also lasts at most the longer of its work and the
period, plus however late its sleep ends (`clock_le`).

The conversion is modelled on its whole domain; a remainder beyond the range of `int`, some 24 days,
where the C++ conversion is undefined, is not told apart. -/

namespace PathPlanner

variable {τ : Type} [LinearOrderedField τ] [FloorRing τ]

/-- The conversion `(int)` of a `double`: toward zero. -/
def truncToInt (x : τ) : ℤ := if 0 ≤ x then ⌊x⌋ else ⌈x⌉

/-- Line 275: what is left of the planning period after the cycle's work, in whole milliseconds. -/
def sleepTime (c : Constants τ) (planningTimeIdeal startTime endTime : τ) : ℤ :=
  truncToInt ((planningTimeIdeal - c.planningTimeOverhead - (endTime - startTime)) * 1000)

/-- Lines 276-279: the seconds the loop asks to sleep; a negative count skips the sleep. -/
def sleepSeconds (c : Constants τ) (planningTimeIdeal startTime endTime : τ) : τ :=
  if 0 ≤ sleepTime c planningTimeIdeal startTime endTime then
    (sleepTime c planningTimeIdeal startTime endTime : τ) / 1000
  else 0

/-- What the clock sees of one cycle: how long its work took, the `m_PlanningTimeIdeal` it read,
    and how much longer than asked it slept before the next cycle read the clock. -/
structure CycleClock (τ : Type) where
  work : τ
  planningTimeIdeal : τ
  delay : τ

/-- The clock reading at the start of the cycle after `cs`, the first of them starting at `s`. -/
def clock (c : Constants τ) : τ → List (CycleClock τ) → τ
  | s, [] => s
  | s, k :: cs => clock c (s + k.work + sleepSeconds c k.planningTimeIdeal s (s + k.work) + k.delay) cs

/-! ## One cycle -/

section Cycle

variable (c : Constants τ) (ideal s e : τ)

theorem sleepSeconds_nonneg : 0 ≤ sleepSeconds c ideal s e := by
  unfold sleepSeconds
  split_ifs with h
  · positivity
  · exact le_rfl

/-- A cycle that finished its work at `e` is over after its sleep, which truncation shortens by
    less than a millisecond: it ends less than a millisecond before the period is up, or later. -/
theorem add_period_lt :
    s + (ideal - c.planningTimeOverhead) - 1 / 1000 < e + sleepSeconds c ideal s e := by
  -- a sleep of `z` milliseconds with `z` above the remainder less one is long enough
  have key : ∀ z : ℤ, (ideal - c.planningTimeOverhead - (e - s)) * 1000 < z + 1 →
      s + (ideal - c.planningTimeOverhead) - 1 / 1000 < e + z / 1000 := fun z hz => by
    linarith only [hz]
  unfold sleepSeconds sleepTime truncToInt
  split_ifs with h₁ h₂ h₂
  · exact key _ (Int.lt_floor_add_one _)
  · exact absurd (Int.floor_nonneg.2 h₁) h₂
  · -- a remainder in `(-1, 0)` truncates to a sleep of 0
    have h0 := le_antisymm (Int.ceil_le.2 (by exact_mod_cast (not_le.1 h₁).le)) h₂
    simpa [h0] using key 0 (by push_cast; linarith only [h₁])
  · linarith only [h₁]

/-- Truncation never lengthens the sleep: a cycle is over by the end of its period or the end of its
    work, whichever is later. -/
theorem add_sleepSeconds_le :
    e + sleepSeconds c ideal s e ≤ max e (s + (ideal - c.planningTimeOverhead)) := by
  unfold sleepSeconds sleepTime truncToInt
  split_ifs with h₁ h₂ h₂
  · have := Int.floor_le ((ideal - c.planningTimeOverhead - (e - s)) * 1000)
    exact le_max_of_le_right (by linarith only [this])
  · exact le_max_of_le_left (add_zero e).le
  · -- a negative remainder truncates to a sleep of at most 0
    have : (⌈(ideal - c.planningTimeOverhead - (e - s)) * 1000⌉ : τ) ≤ 0 :=
      Int.cast_nonpos.2 (Int.ceil_le.2 (by exact_mod_cast (not_le.1 h₁).le))
    exact le_max_of_le_left (by linarith only [this])
  · exact le_max_of_le_left (add_zero e).le

end Cycle

/-! ## Runs -/

/-- Over any run, the clock advances by at least each cycle's period less a millisecond, and by at
    least each cycle's work, whatever the work takes and however late each sleep ends. -/
theorem clock_spec (c : Constants τ) :
    ∀ (cs : List (CycleClock τ)) (s : τ), (∀ k ∈ cs, 0 ≤ k.delay) →
      s + (cs.map fun k => k.planningTimeIdeal - c.planningTimeOverhead - 1 / 1000).sum ≤ clock c s cs ∧
        s + (cs.map (·.work)).sum ≤ clock c s cs := by
  intro cs
  induction cs with
  | nil => intro s _; simp [clock]
  | cons k cs ih =>
    intro s hd
    have hk := hd k (List.mem_cons_self k cs)
    obtain ⟨ih₁, ih₂⟩ := ih (s + k.work + sleepSeconds c k.planningTimeIdeal s (s + k.work) + k.delay)
      fun k' hk' => hd k' (List.mem_cons_of_mem k hk')
    have hlt := add_period_lt c k.planningTimeIdeal s (s + k.work)
    have hsleep := sleepSeconds_nonneg c k.planningTimeIdeal s (s + k.work)
    simp only [clock, List.map_cons, List.sum_cons]
    constructor <;> linarith

/-- Over any run, the clock advances by at most each cycle's work or period, whichever is longer,
    plus how late each sleep ends. -/
theorem clock_le (c : Constants τ) :
    ∀ (cs : List (CycleClock τ)) (s : τ),
      clock c s cs ≤ s + (cs.map fun k => max k.work (k.planningTimeIdeal - c.planningTimeOverhead) +
        k.delay).sum := by
  intro cs
  induction cs with
  | nil => intro s; simp [clock]
  | cons k cs ih =>
    intro s
    have hk := add_sleepSeconds_le c k.planningTimeIdeal s (s + k.work)
    rw [max_add_add_left] at hk
    have := ih (s + k.work + sleepSeconds c k.planningTimeIdeal s (s + k.work) + k.delay)
    simp only [clock, List.map_cons, List.sum_cons]
    linarith

theorem clock_spec_one :
    (∀ k ∈ [(⟨3, 1, 0⟩ : CycleClock ℚ)], 0 ≤ k.delay) ∧
      (0 : ℚ) + ([(⟨3, 1, 0⟩ : CycleClock ℚ)].map fun k =>
          k.planningTimeIdeal - (⟨0, true, true, 1, 0, 1 / 2⟩ : Constants ℚ).planningTimeOverhead -
            1 / 1000).sum ≤
        clock ⟨0, true, true, 1, 0, 1 / 2⟩ 0 [⟨3, 1, 0⟩] ∧
      (0 : ℚ) + ([(⟨3, 1, 0⟩ : CycleClock ℚ)].map (·.work)).sum ≤
        clock ⟨0, true, true, 1, 0, 1 / 2⟩ 0 [⟨3, 1, 0⟩] :=
  have hd : ∀ k ∈ [(⟨3, 1, 0⟩ : CycleClock ℚ)], 0 ≤ k.delay := by simp
  ⟨hd, clock_spec _ [⟨3, 1, 0⟩] 0 hd⟩

end PathPlanner
