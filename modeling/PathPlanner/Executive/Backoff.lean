import PathPlanner.Executive.Cycle

set_option autoImplicit false

/-! # Backing off the time horizon

A cycle whose plan is empty (the planner found none, or threw a `std::exception`) counts a failure;
when more than two have happened in a row the loop halves `timeHorizon`, clamps it at `timeMinimum`,
and restarts the count unless the clamp fired. The count is not restarted when the clamp fires, so
after a clamp every further failure halves and clamps again; the horizon stays at the minimum.

Over any run, with `timeMinimum ≥ 0`, the horizon after each cycle is the initial horizon halved once
per three failures of each maximal streak of failures, floored at the minimum once halved at all.
The invariant behind it distinguishes whether the clamp has fired in the current streak. -/

namespace PathPlanner

variable {τ : Type} [LinearOrderedField τ]

/-! ## Streaks of failures -/

/-- The lengths of the maximal streaks of failed cycles (`true`) in a list of cycle outcomes, in
    order; the last one is the current streak, possibly empty. -/
def failureStreaks : List Bool → List ℕ
  | [] => [0]
  | b :: bs =>
    match failureStreaks bs with
    | n :: ns => if b then (n + 1) :: ns else 0 :: n :: ns
    | [] => []

/-- The halvings of the time horizon so far: one per three failures of each streak, rounded down. -/
def halvings (outcomes : List Bool) : ℕ := ((failureStreaks outcomes).map (· / 3)).sum

/-- The horizon after `h` halvings from `T0`, floored at `m` once halved at all. -/
def horizonAfter (T0 m : τ) (h : ℕ) : τ := if h = 0 then T0 else max (T0 / 2 ^ h) m

/-- The halvings counted so far and the length of the current streak, one outcome at a time. -/
def tally (a : ℕ × ℕ) (failed : Bool) : ℕ × ℕ :=
  if failed then (if (a.2 + 1) % 3 = 0 then a.1 + 1 else a.1, a.2 + 1) else (a.1, 0)

theorem foldl_tally (l : List Bool) (h L : ℕ) :
    ∃ n ns, failureStreaks l = n :: ns ∧
      (l.foldl tally (h, L)).1 + L / 3 = h + (L + n) / 3 + (ns.map (· / 3)).sum := by
  induction l generalizing h L with
  | nil => exact ⟨0, [], rfl, by simp⟩
  | cons b bs ih =>
    cases b with
    | true =>
      obtain ⟨n, ns, hs, hf⟩ := ih (if (L + 1) % 3 = 0 then h + 1 else h) (L + 1)
      refine ⟨n + 1, ns, by simp [failureStreaks, hs], ?_⟩
      simp only [List.foldl_cons, tally, if_true] at hf ⊢
      have hh : (if (L + 1) % 3 = 0 then h + 1 else h) + L / 3 = h + (L + 1) / 3 := by
        split_ifs <;> omega
      rw [show L + (n + 1) = L + 1 + n by omega]
      omega
    | false =>
      obtain ⟨n, ns, hs, hf⟩ := ih h 0
      refine ⟨0, n :: ns, by simp [failureStreaks, hs], ?_⟩
      simp only [List.foldl_cons, tally, Bool.false_eq_true, if_false] at hf ⊢
      simp only [List.map_cons, List.sum_cons]
      omega

/-- Counting halvings one outcome at a time gives `halvings`. -/
theorem foldl_tally_fst (l : List Bool) : (l.foldl tally (0, 0)).1 = halvings l := by
  obtain ⟨n, ns, hs, hf⟩ := foldl_tally l 0 0
  simp [halvings, hs] at hf ⊢
  omega

/-! ## Halving arithmetic -/

theorem div_pow_le_horizonAfter (T0 m : τ) (h : ℕ) : T0 / 2 ^ h ≤ horizonAfter T0 m h := by
  unfold horizonAfter
  split_ifs with h0
  · simp [h0]
  · exact le_max_left _ _

section Arithmetic

variable {T0 m : τ}

theorem div_pow_succ_le_half (h : ℕ) : T0 / 2 ^ (h + 1) ≤ horizonAfter T0 m h / 2 := by
  rw [pow_succ, ← div_div]
  exact div_le_div_of_nonneg_right (div_pow_le_horizonAfter T0 m h) zero_le_two

theorem div_pow_succ_le (hm : 0 ≤ m) {h : ℕ} (hle : T0 / 2 ^ h ≤ m) : T0 / 2 ^ (h + 1) ≤ m := by
  rw [pow_succ, ← div_div]
  exact (div_le_div_of_nonneg_right hle zero_le_two).trans (half_le_self hm)

theorem horizonAfter_of_le {h : ℕ} (h1 : 1 ≤ h) (hle : T0 / 2 ^ h ≤ m) :
    horizonAfter T0 m h = m := by
  simp [horizonAfter, show h ≠ 0 by omega, hle]

/-- Halving once more, when the half is still above the floor. -/
theorem horizonAfter_half (hm : 0 ≤ m) (h : ℕ) (hhalf : m ≤ horizonAfter T0 m h / 2) :
    horizonAfter T0 m h / 2 = horizonAfter T0 m (h + 1) := by
  have hdiv : T0 / 2 ^ (h + 1) = T0 / 2 ^ h / 2 := by rw [pow_succ, div_div]
  simp only [horizonAfter, Nat.add_one_ne_zero, if_false, hdiv] at hhalf ⊢
  split_ifs at hhalf ⊢ with h0
  · subst h0
    simp only [pow_zero, div_one] at hhalf ⊢
    exact (max_eq_left hhalf).symm
  · rcases le_total (T0 / 2 ^ h) m with hle | hle
    · -- the floor is already reached, so it is zero
      rw [max_eq_right hle] at hhalf ⊢
      have hm0 : m / 2 = m := le_antisymm (half_le_self hm) hhalf
      rw [hm0, max_eq_right ((div_le_div_of_nonneg_right hle zero_le_two).trans hm0.le)]
    · rw [max_eq_left hle] at hhalf ⊢
      exact (max_eq_left hhalf).symm

end Arithmetic

/-! ## The invariant -/

/-- `Backoff T0 m (h, L) s`: the horizon is `horizonAfter T0 m h`, and either the failure count is the
    current streak length mod 3, or the horizon has been halved down to the floor for good. -/
def Backoff (T0 m : τ) (a : ℕ × ℕ) (s : LoopState τ) : Prop :=
  s.config.timeMinimum = m ∧ s.config.timeHorizon = horizonAfter T0 m a.1 ∧
    (s.failureCount = a.2 % 3 ∨ (1 ≤ a.1 ∧ T0 / 2 ^ a.1 ≤ m))

/-- What one failure does: the count goes up, and past two the horizon is clamped or halved;
    only a halving restarts the count. -/
theorem backOff_spec (s : LoopState τ) :
    (backOff s).config.timeMinimum = s.config.timeMinimum ∧
      ((s.failureCount < 2 ∧ (backOff s).config.timeHorizon = s.config.timeHorizon ∧
          (backOff s).failureCount = s.failureCount + 1) ∨
        (2 ≤ s.failureCount ∧ s.config.timeHorizon / 2 < s.config.timeMinimum ∧
          (backOff s).config.timeHorizon = s.config.timeMinimum) ∨
        (2 ≤ s.failureCount ∧ s.config.timeMinimum ≤ s.config.timeHorizon / 2 ∧
          (backOff s).config.timeHorizon = s.config.timeHorizon / 2 ∧ (backOff s).failureCount = 0)) := by
  simp only [backOff]
  split_ifs with h2 hlt
  · exact ⟨rfl, .inr (.inl ⟨by omega, hlt, rfl⟩)⟩
  · exact ⟨rfl, .inr (.inr ⟨by omega, not_lt.1 hlt, rfl, rfl⟩)⟩
  · exact ⟨rfl, .inl ⟨by omega, rfl, rfl⟩⟩

/-- One failure keeps the invariant. -/
theorem backoff_backOff {T0 m : τ} (hm : 0 ≤ m) {a : ℕ × ℕ} {s : LoopState τ}
    (hs : Backoff T0 m a s) : Backoff T0 m (tally a true) (backOff s) := by
  obtain ⟨h, L⟩ := a
  obtain ⟨hmin, hhor, hcount⟩ := hs
  dsimp only at hhor hcount
  obtain ⟨hmin', hcases⟩ := backOff_spec s
  simp only [Backoff, tally, if_true]
  generalize hh' : (if (L + 1) % 3 = 0 then h + 1 else h) = h'
  have hsucc : (L + 1) % 3 = 0 → h' = h + 1 := fun hL => by rw [← hh', if_pos hL]
  have hsame : (L + 1) % 3 ≠ 0 → h' = h := fun hL => by rw [← hh', if_neg hL]
  -- once clamped, the horizon stays at the floor whatever the count does
  have hclamped : 1 ≤ h → T0 / 2 ^ h ≤ m → 1 ≤ h' ∧ T0 / 2 ^ h' ≤ m ∧ horizonAfter T0 m h' = m := by
    intro h1 hle
    rcases (show h' = h ∨ h' = h + 1 by split_ifs at hh' <;> omega) with rfl | rfl
    · exact ⟨h1, hle, horizonAfter_of_le h1 hle⟩
    · have hle' := div_pow_succ_le hm hle
      exact ⟨by omega, hle', horizonAfter_of_le (by omega) hle'⟩
  refine ⟨hmin' ▸ hmin, ?_⟩
  rcases hcases with ⟨hlt, hhor', hfc'⟩ | ⟨hge, hlt, hhor'⟩ | ⟨hge, hle, hhor', hfc'⟩
  · -- fewer than three failures in a row: only the count moves
    rw [hhor', hhor]
    rcases hcount with hc | ⟨h1, hle⟩
    · rw [hsame (by omega)]
      exact ⟨rfl, .inl (by omega)⟩
    · rw [(hclamped h1 hle).2.2, horizonAfter_of_le h1 hle]
      exact ⟨rfl, .inr ⟨(hclamped h1 hle).1, (hclamped h1 hle).2.1⟩⟩
  · -- the clamp fires and the count runs on
    rw [hhor', hmin]
    rcases hcount with hc | ⟨h1, hle⟩
    · rw [hsucc (by omega)]
      have hle' : T0 / 2 ^ (h + 1) ≤ m :=
        (div_pow_succ_le_half h).trans (by rw [← hhor, ← hmin]; exact hlt.le)
      exact ⟨(horizonAfter_of_le (by omega) hle').symm, .inr ⟨by omega, hle'⟩⟩
    · exact ⟨(hclamped h1 hle).2.2.symm, .inr ⟨(hclamped h1 hle).1, (hclamped h1 hle).2.1⟩⟩
  · -- halved, and the count restarts
    rw [hhor', hfc']
    rcases hcount with hc | ⟨h1, hle'⟩
    · rw [hsucc (by omega), hhor]
      rw [hhor, hmin] at hle
      exact ⟨horizonAfter_half hm h hle, .inl (by omega)⟩
    · -- already at the floor, which must then be zero
      rw [hhor, horizonAfter_of_le h1 hle', (hclamped h1 hle').2.2]
      rw [hhor, hmin, horizonAfter_of_le h1 hle'] at hle
      exact ⟨le_antisymm (half_le_self hm) hle, .inr ⟨(hclamped h1 hle').1, (hclamped h1 hle').2.1⟩⟩

theorem backoff_success {T0 m : τ} {a : ℕ × ℕ} {s s' : LoopState τ} (hs : Backoff T0 m a s)
    (hcount : s'.failureCount = 0) (hhor : s'.config.timeHorizon = s.config.timeHorizon)
    (hmin : s'.config.timeMinimum = s.config.timeMinimum) : Backoff T0 m (tally a false) s' :=
  ⟨hmin ▸ hs.1, hhor ▸ hs.2.1, .inl (by simp [tally, hcount])⟩

/-! ## Runs -/

/-- A cycle failed when its log shows no plan published. -/
def cycleFailed (log : List (Event τ)) : Bool :=
  !log.any fun e => match e with | .published _ => true | _ => false

section Runs

variable (c : Constants τ) (g : Geometry τ)

theorem handleReply_backoff {i : CycleInput τ} {s s' : LoopState τ}
    (h : handleReply c g i s = .next s') :
    s'.failureCount = s.failureCount ∧ s'.config.timeHorizon = s.config.timeHorizon ∧
      s'.config.timeMinimum = s.config.timeMinimum := by
  have hcheck : ∀ s₀ : LoopState τ, checkReply c g i s₀ = .next s' → s₀.config = s.config →
      s₀.failureCount = s.failureCount → s'.failureCount = s.failureCount ∧
        s'.config.timeHorizon = s.config.timeHorizon ∧ s'.config.timeMinimum = s.config.timeMinimum := by
    intro s₀ h hc hf
    obtain ⟨_, _, ⟨_, rfl⟩ | ⟨_, rfl⟩⟩ := checkReply_next c g h <;> simp [hc, hf]
  rcases handleReply_next c g h with ⟨_, _, h⟩ | ⟨_, h⟩ <;> exact hcheck _ h rfl rfl

variable [FloorRing τ]

theorem cycleFailed_prepare (s : LoopState τ) (i : CycleInput τ) :
    cycleFailed (prepare c g s i).2 = true := by
  rw [prepare_log]
  split_ifs
  · rfl
  · rw [retain_log]
    generalize (retain c s.plan (startOf c g s.startState i).time).1 = r
    rcases r with _ | kept
    · split_ifs <;> rfl
    · dsimp only
      rw [planStep_log]; split_ifs <;> rfl

/-- A cycle that goes on either failed and backed off from the state `prepare` left, or published
    and went on with the count restarted; nothing else in a cycle touches the horizon or the count. -/
theorem cycle_backoff {s s' : LoopState τ} {i : CycleInput τ} (h : (cycle c g s i).1 = .next s') :
    ∃ s₁ : LoopState τ, s₁.failureCount = s.failureCount ∧
      s₁.config.timeHorizon = s.config.timeHorizon ∧ s₁.config.timeMinimum = s.config.timeMinimum ∧
      ((cycleFailed (cycle c g s i).2 = true ∧ s' = backOff s₁) ∨
        (cycleFailed (cycle c g s i).2 = false ∧ s'.failureCount = 0 ∧
          s'.config.timeHorizon = s.config.timeHorizon ∧
          s'.config.timeMinimum = s.config.timeMinimum)) := by
  obtain ⟨s₁, ev₁, ev₂, hp, hc⟩ := cycle_next c g h
  obtain ⟨kept, _, _, _, _, _, _, _, _, hs₁⟩ := prepare_ok c g hp
  have hframe : s₁.failureCount = s.failureCount ∧ s₁.config.timeHorizon = s.config.timeHorizon ∧
      s₁.config.timeMinimum = s.config.timeMinimum := by
    rw [hs₁]; simp
  have hlog : (cycle c g s i).2 = ev₁ ++ ev₂ := by
    rw [cycle_log, hp]; dsimp only; rw [hc]
  have hfail₁ : cycleFailed ev₁ = true := by simpa [hp] using cycleFailed_prepare c g s i
  refine ⟨s₁, hframe.1, hframe.2.1, hframe.2.2, ?_⟩
  rcases conclude_next c g hc with ⟨_, rfl, rfl⟩ | ⟨_, rfl, hr⟩
  · exact .inl ⟨by simpa [hlog] using hfail₁, rfl⟩
  · obtain ⟨hf, hh, hm⟩ := handleReply_backoff c g hr
    refine .inr ⟨by simp [hlog, cycleFailed], hf, hh.trans hframe.2.1, hm.trans hframe.2.2⟩

theorem backoff_cycle {T0 m : τ} (hm : 0 ≤ m) {a : ℕ × ℕ} {s s' : LoopState τ} {i : CycleInput τ}
    (hs : Backoff T0 m a s) (h : (cycle c g s i).1 = .next s') :
    Backoff T0 m (tally a (cycleFailed (cycle c g s i).2)) s' := by
  obtain ⟨s₁, hf, hh, hmin, ⟨hfail, rfl⟩ | ⟨hfail, hf', hh', hm'⟩⟩ := cycle_backoff c g h
  · rw [hfail]
    exact backoff_backOff hm ⟨hmin ▸ hs.1, hh ▸ hs.2.1, hf ▸ hs.2.2⟩
  · rw [hfail]
    exact backoff_success hs hf' hh' hm'

/-- The time horizon after any run: the initial horizon, halved once per three failures in each
    maximal streak of failed cycles, floored at the minimum once halved at all. -/
theorem timeHorizon_of_run (config : PlannerConfig τ) (radiusShrink : τ)
    (hmin : 0 ≤ config.timeMinimum) (is : List (CycleInput τ)) (s : LoopState τ)
    (hs : (run c g (.initial config radiusShrink) is).1 = .next s) :
    s.config.timeHorizon = horizonAfter config.timeHorizon config.timeMinimum
      (halvings ((run c g (.initial config radiusShrink) is).2.map cycleFailed)) := by
  have hrun := (run_invariant c g (fun _ => True) (Backoff config.timeHorizon config.timeMinimum)
    (fun a l => tally a (cycleFailed l)) (fun _ _ => True)
    (fun _ _ _ hs _ => ⟨trivial, fun _ h => backoff_cycle c g hmin hs h⟩) is (0, 0)
    (.initial config radiusShrink) ⟨rfl, rfl, .inl rfl⟩ (fun _ _ => trivial)).1 s hs
  rw [hrun.2.1, ← foldl_tally_fst, List.foldl_map]

theorem timeHorizon_of_run_failures :
    (0 : ℚ) ≤ 15 ∧
      ∃ s, (run (⟨0, true, true, 1, 0, 1 / 2⟩ : Constants ℚ) .origin (.initial ⟨10, 8, 60, 15⟩ 0)
          [failedCycle 0, failedCycle 0, failedCycle 0]).1 = .next s ∧
        s.config.timeHorizon = horizonAfter 60 15 (halvings ((run (⟨0, true, true, 1, 0, 1 / 2⟩ :
          Constants ℚ) .origin (.initial ⟨10, 8, 60, 15⟩ 0)
            [failedCycle 0, failedCycle 0, failedCycle 0]).2.map cycleFailed)) ∧
        s.config.timeHorizon = 30 := by
  have his : ∀ i ∈ [failedCycle 0, failedCycle 0, failedCycle 0], i.cancelBeforeCheck = false ∧
      i.ribbonsDone = false ∧ (i.planned = .plan ∅ ∨ i.planned = .stdException) := by
    simp [failedCycle]
  obtain ⟨s, h, hlog⟩ := run_of_failures (⟨0, true, true, 1, 0, 1 / 2⟩ : Constants ℚ) .origin
    (s := .initial ⟨10, 8, 60, 15⟩ 0) rfl (by decide) his
  have hth := timeHorizon_of_run _ .origin ⟨10, 8, 60, 15⟩ 0 (by norm_num) _ s h
  refine ⟨by norm_num, s, h, hth, ?_⟩
  rw [hth, hlog]
  norm_num [halvings, failureStreaks, cycleFailed, horizonAfter]

end Runs

end PathPlanner
