import PathPlanner.DubinsPlan

set_option autoImplicit false

/-! # Splicing a plan at a time

The executive keeps the plan it sent last and, at the start of each cycle, cuts it at the time the
next plan has to begin with `changeIntoSuffix`. The erase loop drops only a leading run of segments
ending before the cut time, and its guard reads `front()` once more after each erase.

Below: the suffix samples exactly as the plan does from the cut time on (the same segment is found
first); when every segment ends before the cut time the loop reaches `front()` of an emptied vector;
under the spec's ordering invariant the loop removes exactly the segments ending before the cut
time and keeps the invariant; and cuts compose, the later time winning. -/

namespace PathPlanner

namespace DubinsPlan

variable {τ : Type} [LinearOrderedField τ]

/-- A segment spanning `[0, 1]` at unit speed, and the plan made of it alone. -/
def unitSegment : DubinsWrapper τ := ⟨⟨(0, 0, 0), (1, 0, 0), .LSL, 1⟩, 1, 0⟩

def unitPlan : DubinsPlan τ := ⟨[unitSegment], false⟩

@[simp] theorem unitSegment_getEndTime : (unitSegment : DubinsWrapper τ).getEndTime = 1 := by
  simp [unitSegment, DubinsWrapper.getEndTime, DubinsPath.length]

@[simp] theorem unitSegment_startTime : (unitSegment : DubinsWrapper τ).startTime = 0 := rfl

@[simp] theorem unitPlan_paths : (unitPlan : DubinsPlan τ).paths = [unitSegment] := rfl

theorem unitPlan_sample (s : State τ) (h0 : 0 ≤ s.time) (h1 : s.time ≤ 1) :
    (unitPlan : DubinsPlan τ).sample .origin s = .ok { s with x := 0, y := 0, heading := 0, speed := 1 } := by
  have hin : (unitSegment : DubinsWrapper τ).containsTime s.time = true := by simp [h0, h1]
  rw [sample_eq_ok_iff]
  exact ⟨unitSegment, by simp [List.find?, hin], by simp [DubinsWrapper.sample, unitSegment]⟩

theorem unitPlan_changeIntoSuffix {t : τ} (h : t ≤ 1) :
    (unitPlan : DubinsPlan τ).changeIntoSuffix t = .ok unitPlan := by
  have hkeep : endsBefore t (unitSegment : DubinsWrapper τ) = false := by simpa using h
  rw [changeIntoSuffix_eq ⟨unitSegment, by simp, by simpa using h⟩]
  simp [unitPlan, List.dropWhile, hkeep]

/-- A segment spanning `[1, 2]` at speed two; the plan of the unit segment and then it, and the plan
    of it alone. -/
def fastSegment : DubinsWrapper ℚ := ⟨⟨(0, 0, 0), (2, 0, 0), .LSL, 1⟩, 2, 1⟩

def twoSpeedPlan : DubinsPlan ℚ := ⟨[unitSegment, fastSegment], false⟩

def fastPlan : DubinsPlan ℚ := ⟨[fastSegment], false⟩

@[simp] theorem fastSegment_startTime : fastSegment.startTime = 1 := rfl

@[simp] theorem fastSegment_getEndTime : fastSegment.getEndTime = 2 := by
  norm_num [fastSegment, DubinsWrapper.getEndTime, DubinsPath.length]

theorem twoSpeedPlan_getEndTime : twoSpeedPlan.getEndTime = .ok 2 := by
  simp [twoSpeedPlan, getEndTime_cons]

theorem fastPlan_getEndTime : fastPlan.getEndTime = .ok 2 := by
  simp [fastPlan, getEndTime_cons]

theorem fastPlan_sample (s : State ℚ) (h1 : 1 ≤ s.time) (h2 : s.time ≤ 2) :
    fastPlan.sample .origin s = .ok { s with x := 0, y := 0, heading := 0, speed := 2 } := by
  have hin : fastSegment.containsTime s.time = true := by simp [h1, h2]
  rw [sample_eq_ok_iff]
  exact ⟨fastSegment, by simp [fastPlan, List.find?, hin], by simp [DubinsWrapper.sample, fastSegment]⟩

theorem twoSpeedPlan_sample_fast (s : State ℚ) (h1 : 1 < s.time) (h2 : s.time ≤ 2) :
    twoSpeedPlan.sample .origin s = .ok { s with x := 0, y := 0, heading := 0, speed := 2 } := by
  have hout : (unitSegment : DubinsWrapper ℚ).containsTime s.time = false := by
    simp [DubinsWrapper.containsTime, h1]
  have hin : fastSegment.containsTime s.time = true := by simp [h1.le, h2]
  rw [sample_eq_ok_iff]
  exact ⟨fastSegment, by simp [twoSpeedPlan, List.find?, hout, hin],
    by simp [DubinsWrapper.sample, fastSegment]⟩

theorem twoSpeedPlan_sample_slow (s : State ℚ) (h0 : 0 ≤ s.time) (h1 : s.time ≤ 1) :
    twoSpeedPlan.sample .origin s = .ok { s with x := 0, y := 0, heading := 0, speed := 1 } := by
  have hin : (unitSegment : DubinsWrapper ℚ).containsTime s.time = true := by simp [h0, h1]
  rw [sample_eq_ok_iff]
  exact ⟨unitSegment, by simp [twoSpeedPlan, List.find?, hin],
    by simp [DubinsWrapper.sample, unitSegment]⟩

theorem twoSpeedPlan_changeIntoSuffix {t : ℚ} (h1 : 1 < t) (h2 : t ≤ 2) :
    twoSpeedPlan.changeIntoSuffix t = .ok fastPlan := by
  have hdrop : endsBefore t (unitSegment : DubinsWrapper ℚ) = true := by simpa using h1
  have hkeep : endsBefore t fastSegment = false := by simpa using h2
  rw [changeIntoSuffix_eq ⟨fastSegment, by simp [twoSpeedPlan], by simpa using h2⟩]
  simp [twoSpeedPlan, fastPlan, List.dropWhile, hdrop, hkeep]

theorem fastPlan_changeIntoSuffix {t : ℚ} (h : t ≤ 2) : fastPlan.changeIntoSuffix t = .ok fastPlan := by
  have hkeep : endsBefore t fastSegment = false := by simpa using h
  rw [changeIntoSuffix_eq ⟨fastSegment, by simp [fastPlan], by simpa using h⟩]
  simp [fastPlan, List.dropWhile, hkeep]

/-! ## The same segment is found first -/

theorem find?_dropWhile_endsBefore {t u : τ} (hu : t ≤ u) (l : List (DubinsWrapper τ)) :
    (l.dropWhile (endsBefore t)).find? (·.containsTime u) = l.find? (·.containsTime u) := by
  induction l with
  | nil => rfl
  | cons w ws ih =>
    by_cases hw : w.getEndTime < t
    · have hout : w.containsTime u = false := by
        simp only [Bool.eq_false_iff, ne_eq, DubinsWrapper.containsTime_iff, not_and, not_le]
        exact fun _ => hw.trans_le hu
      simp [List.dropWhile_cons, hw, ih, List.find?_cons, hout]
    · simp [List.dropWhile_cons, hw]

theorem sample_toOption (g : Geometry τ) (p : DubinsPlan τ) (s : State τ) :
    (p.sample g s).toOption = (p.paths.find? (·.containsTime s.time)).map (·.sample g s) := by
  cases h : (p.sample g s) with
  | ok r =>
    obtain ⟨w, hw, rfl⟩ := (sample_eq_ok_iff g p s r).1 h
    simp [Except.toOption, hw]
  | error e =>
    cases hw : p.paths.find? (·.containsTime s.time) with
    | none => rfl
    | some w => simp [(sample_eq_ok_iff g p s _).2 ⟨w, hw, rfl⟩] at h

/-- Splicing never changes the trajectory from the cut time on. -/
theorem changeIntoSuffix_preserves_trajectory (g : Geometry τ) (p : DubinsPlan τ) {t₀ : τ}
    (hend : ∃ w ∈ p.paths, t₀ ≤ w.getEndTime) :
    ∃ q, p.changeIntoSuffix t₀ = .ok q ∧ ∀ u, t₀ ≤ u →
      q.containsTime u = p.containsTime u ∧
      ∀ s : State τ, s.time = u → (q.sample g s).toOption = (p.sample g s).toOption := by
  refine ⟨_, changeIntoSuffix_eq hend, fun u hu => ⟨?_, fun s hs => ?_⟩⟩
  · rw [containsTime_eq_isSome, containsTime_eq_isSome, find?_dropWhile_endsBefore hu]
  · rw [sample_toOption, sample_toOption, hs, find?_dropWhile_endsBefore hu]

theorem changeIntoSuffix_preserves_trajectory_twoSpeed :
    twoSpeedPlan.changeIntoSuffix (3 / 2) = .ok fastPlan ∧
      (∃ w ∈ twoSpeedPlan.paths, 3 / 2 ≤ w.getEndTime) ∧
      ∃ q, twoSpeedPlan.changeIntoSuffix (3 / 2) = .ok q ∧ ∀ u, 3 / 2 ≤ u →
        q.containsTime u = twoSpeedPlan.containsTime u ∧
        ∀ s : State ℚ, s.time = u →
          (q.sample .origin s).toOption = (twoSpeedPlan.sample .origin s).toOption :=
  have hend : ∃ w ∈ twoSpeedPlan.paths, (3 / 2 : ℚ) ≤ w.getEndTime :=
    ⟨fastSegment, by simp [twoSpeedPlan], by norm_num⟩
  ⟨twoSpeedPlan_changeIntoSuffix (by norm_num) (by norm_num), hend,
    changeIntoSuffix_preserves_trajectory .origin twoSpeedPlan hend⟩

/-! ## What a cut keeps -/

/-- A cut that goes through keeps the segments from the first one that does not end before the
    cut time. -/
theorem changeIntoSuffix_eq_ok {p q : DubinsPlan τ} {t : τ} (h : p.changeIntoSuffix t = .ok q) :
    q = { p with paths := p.paths.dropWhile (endsBefore t) } := by
  by_cases hend : ∃ w ∈ p.paths, t ≤ w.getEndTime
  · rw [changeIntoSuffix_eq hend] at h
    exact (Except.ok.inj h).symm
  · push_neg at hend
    by_cases hne : p.paths = []
    · simp [changeIntoSuffix, hne] at h
    · simp [changeIntoSuffix, hne, dropPast_of_forall hend, Except.map] at h

theorem containsTime_of_changeIntoSuffix {p q : DubinsPlan τ} {t u : τ}
    (h : p.changeIntoSuffix t = .ok q) (hu : q.containsTime u = true) : p.containsTime u = true := by
  rw [changeIntoSuffix_eq_ok h, containsTime_iff] at hu
  obtain ⟨w, hw, hwu⟩ := hu
  exact (containsTime_iff p u).2 ⟨w, (List.dropWhile_suffix _).subset hw, hwu⟩

/-- Cutting a plan at a time it contains goes through, and keeps that time. -/
theorem changeIntoSuffix_of_containsTime {p : DubinsPlan τ} {t : τ} (ht : p.containsTime t = true) :
    ∃ q, p.changeIntoSuffix t = .ok q ∧ q.paths ≠ [] ∧ q.containsTime t = true := by
  obtain ⟨w, hw, hwt⟩ := (containsTime_iff p t).1 ht
  have hend : ∃ w ∈ p.paths, t ≤ w.getEndTime := ⟨w, hw, ((DubinsWrapper.containsTime_iff _ _).1 hwt).2⟩
  have hq : ({ p with paths := p.paths.dropWhile (endsBefore t) } : DubinsPlan τ).containsTime t =
      true := by
    rw [containsTime_eq_isSome, find?_dropWhile_endsBefore le_rfl, ← containsTime_eq_isSome, ht]
  refine ⟨_, changeIntoSuffix_eq hend, fun hnil => ?_, hq⟩
  rw [containsTime, hnil] at hq
  simp at hq

/-- A cut that goes through leaves a plan with segments, the first of which ends at or after the
    cut time, and it keeps the plan's end time. -/
theorem changeIntoSuffix_getEndTime {p q : DubinsPlan τ} {t : τ} (h : p.changeIntoSuffix t = .ok q) :
    ∃ w ws, q.paths = w :: ws ∧ t ≤ w.getEndTime ∧ q.getEndTime = p.getEndTime := by
  have hp : p.paths ≠ [] := by rintro hp; simp [changeIntoSuffix, hp] at h
  have hne : p.paths.dropWhile (endsBefore t) ≠ [] := by
    intro hnil
    have hall : ∀ w ∈ p.paths, w.getEndTime < t := fun w hw => by
      simpa using List.dropWhile_eq_nil_iff.1 hnil w hw
    simp [changeIntoSuffix, hp, dropPast_of_forall hall, Except.map] at h
  rw [changeIntoSuffix_eq_ok h]
  obtain ⟨w, ws, hws⟩ := List.exists_cons_of_ne_nil hne
  have hlast := (List.dropWhile_suffix (endsBefore t)).getLast hne
  refine ⟨w, ws, hws, ?_, ?_⟩
  · have := List.head_dropWhile_not (endsBefore t) p.paths hne
    simpa [hws] using this
  · simp [getEndTime, List.getLast?_eq_getLast _ hne, List.getLast?_eq_getLast _ hp, hlast]

theorem changeIntoSuffix_getEndTime_twoSpeed :
    twoSpeedPlan.changeIntoSuffix (3 / 2) = .ok fastPlan ∧
      ∃ w ws, fastPlan.paths = w :: ws ∧ 3 / 2 ≤ w.getEndTime ∧
        fastPlan.getEndTime = twoSpeedPlan.getEndTime :=
  have h : twoSpeedPlan.changeIntoSuffix (3 / 2) = .ok fastPlan :=
    twoSpeedPlan_changeIntoSuffix (by norm_num) (by norm_num)
  ⟨h, changeIntoSuffix_getEndTime h⟩

/-! ## Cutting past the end -/

/-- When every segment ends before the cut time, the erase loop empties the vector and then calls
    `front()` on it. -/
theorem changeIntoSuffix_past_end (p : DubinsPlan τ) {t₀ : τ} (hne : p.paths ≠ [])
    (hpast : ∀ w ∈ p.paths, w.getEndTime < t₀) : p.changeIntoSuffix t₀ = .error .frontOfEmpty := by
  simp [changeIntoSuffix, hne, dropPast_of_forall hpast, Except.map]

theorem changeIntoSuffix_past_end_unit :
    (unitPlan : DubinsPlan ℚ).paths ≠ [] ∧ (∀ w ∈ (unitPlan : DubinsPlan ℚ).paths, w.getEndTime < 2) ∧
      (unitPlan : DubinsPlan ℚ).changeIntoSuffix 2 = .error .frontOfEmpty :=
  have hpast : ∀ w ∈ (unitPlan : DubinsPlan ℚ).paths, w.getEndTime < 2 := by norm_num
  ⟨by simp, hpast, changeIntoSuffix_past_end unitPlan (by simp) hpast⟩

/-! ## Ordered plans -/

/-- The spec's ordering invariant: every segment ends no earlier than it starts, and no later than
    the next one starts. -/
def Ordered (p : DubinsPlan τ) : Prop :=
  (∀ w ∈ p.paths, w.startTime ≤ w.getEndTime) ∧
    p.paths.Chain' (fun a b => a.getEndTime ≤ b.startTime)

theorem pairwise_getEndTime_of_ordered {l : List (DubinsWrapper τ)}
    (hle : ∀ w ∈ l, w.startTime ≤ w.getEndTime)
    (hc : l.Chain' (fun a b => a.getEndTime ≤ b.startTime)) :
    l.Pairwise (fun a b => a.getEndTime ≤ b.getEndTime) := by
  haveI : IsTrans (DubinsWrapper τ) (fun a b => a.getEndTime ≤ b.getEndTime) :=
    ⟨fun _ _ _ => le_trans⟩
  refine List.chain'_iff_pairwise.1 ?_
  induction l with
  | nil => exact List.chain'_nil
  | cons a l ih =>
    cases l with
    | nil => exact List.chain'_singleton a
    | cons b l =>
      rw [List.chain'_cons] at hc ⊢
      exact ⟨hc.1.trans (hle b (by simp)), ih (fun w hw => hle w (by simp [hw])) hc.2⟩

theorem dropWhile_eq_filter_of_pairwise {t : τ} {l : List (DubinsWrapper τ)}
    (hl : l.Pairwise (fun a b => a.getEndTime ≤ b.getEndTime)) :
    l.dropWhile (endsBefore t) = l.filter (fun w => !endsBefore t w) := by
  induction l with
  | nil => rfl
  | cons w ws ih =>
    rw [List.pairwise_cons] at hl
    by_cases hw : w.getEndTime < t
    · simp [List.dropWhile_cons, hw, ih hl.2, List.filter_cons]
    · have hkeep : ∀ v ∈ ws, (!endsBefore t v) = true := fun v hv => by
        simpa using (not_lt.1 hw).trans (hl.1 v hv)
      simp [List.dropWhile_cons, hw, List.filter_cons, List.filter_eq_self.2 hkeep, not_lt.1 hw]

/-- On an ordered plan, `changeIntoSuffix` removes exactly the segments ending before the cut
    time, keeps the invariant and the end time. -/
theorem changeIntoSuffix_ordered (p : DubinsPlan τ) {t₀ : τ} (hord : p.Ordered)
    (hend : ∃ w ∈ p.paths, t₀ ≤ w.getEndTime) :
    ∃ q, p.changeIntoSuffix t₀ = .ok q ∧
      q.paths = p.paths.filter (fun w => !endsBefore t₀ w) ∧ q.dangerous = p.dangerous ∧
      q.Ordered ∧ (∀ w ∈ q.paths, t₀ ≤ w.getEndTime) ∧ q.getEndTime = p.getEndTime := by
  obtain ⟨hle, hc⟩ := hord
  have hsuf := List.dropWhile_suffix (endsBefore t₀) (l := p.paths)
  have hfilter := dropWhile_eq_filter_of_pairwise (t := t₀) (pairwise_getEndTime_of_ordered hle hc)
  have hne : p.paths.dropWhile (endsBefore t₀) ≠ [] := by
    obtain ⟨w, hw, hwt⟩ := hend
    rw [hfilter]
    exact List.ne_nil_of_mem (List.mem_filter.2 ⟨hw, by simpa using hwt⟩)
  refine ⟨_, changeIntoSuffix_eq hend, hfilter, rfl,
    ⟨fun w hw => hle w (hsuf.subset hw), hc.suffix hsuf⟩, fun w hw => ?_, ?_⟩
  · rw [hfilter] at hw
    simpa using (List.mem_filter.1 hw).2
  · obtain ⟨pre, hpre⟩ := hsuf
    have hlast := congrArg List.getLast? hpre
    simp only [List.getLast?_append, List.getLast?_eq_none_iff.not.2 hne] at hlast
    simp only [getEndTime, ← hlast]
    cases h : (p.paths.dropWhile (endsBefore t₀)).getLast? with
    | none => exact absurd (List.getLast?_eq_none_iff.1 h) hne
    | some w => rfl

theorem changeIntoSuffix_ordered_twoSpeed :
    twoSpeedPlan.Ordered ∧ (∃ w ∈ twoSpeedPlan.paths, 3 / 2 ≤ w.getEndTime) ∧
    ∃ q, twoSpeedPlan.changeIntoSuffix (3 / 2) = .ok q ∧
      q.paths = twoSpeedPlan.paths.filter (fun w => !endsBefore (3 / 2) w) ∧
      q.dangerous = twoSpeedPlan.dangerous ∧ q.Ordered ∧
      (∀ w ∈ q.paths, 3 / 2 ≤ w.getEndTime) ∧ q.getEndTime = twoSpeedPlan.getEndTime :=
  have hord : twoSpeedPlan.Ordered := ⟨by norm_num [twoSpeedPlan], by simp [twoSpeedPlan]⟩
  have hend : ∃ w ∈ twoSpeedPlan.paths, (3 / 2 : ℚ) ≤ w.getEndTime :=
    ⟨fastSegment, by simp [twoSpeedPlan], by norm_num⟩
  ⟨hord, hend, changeIntoSuffix_ordered twoSpeedPlan hord hend⟩

/-! ## Composing cuts -/

theorem dropWhile_endsBefore_dropWhile {t₀ t₁ : τ} (h01 : t₀ ≤ t₁) (l : List (DubinsWrapper τ)) :
    (l.dropWhile (endsBefore t₀)).dropWhile (endsBefore t₁) = l.dropWhile (endsBefore t₁) := by
  induction l with
  | nil => rfl
  | cons w ws ih =>
    by_cases hw : w.getEndTime < t₀
    · simp [List.dropWhile_cons, hw, hw.trans_le h01, ih]
    · simp [List.dropWhile_cons, hw]

/-- Cutting at `t₀` then at `t₁ ≥ t₀` is cutting at `t₁`, and cutting at the plan's own start time
    changes nothing. -/
theorem changeIntoSuffix_compose (p : DubinsPlan τ) :
    (∀ t₀ t₁ : τ, t₀ ≤ t₁ → (∃ w ∈ p.paths, t₁ ≤ w.getEndTime) →
      (p.changeIntoSuffix t₀ >>= (·.changeIntoSuffix t₁)) = p.changeIntoSuffix t₁) ∧
    (∀ w ∈ p.paths.head?, w.startTime ≤ w.getEndTime →
      (p.getStartTime >>= p.changeIntoSuffix) = .ok p) := by
  constructor
  · intro t₀ t₁ h01 hend
    obtain ⟨w, hw, hwt⟩ := hend
    have hend₀ : ∃ w ∈ p.paths, t₀ ≤ w.getEndTime := ⟨w, hw, h01.trans hwt⟩
    have hend₁ : ∃ v ∈ p.paths.dropWhile (endsBefore t₀), t₁ ≤ v.getEndTime := by
      refine ⟨w, ?_, hwt⟩
      rw [← List.takeWhile_append_dropWhile (endsBefore t₀) p.paths] at hw
      rcases List.mem_append.1 hw with hw | hw
      · have := List.mem_takeWhile_imp hw
        simp only [endsBefore_iff] at this
        exact absurd (h01.trans hwt) (not_le.2 this)
      · exact hw
    rw [changeIntoSuffix_eq hend₀, changeIntoSuffix_eq ⟨w, hw, hwt⟩]
    simp only [bind, Except.bind]
    rw [changeIntoSuffix_eq hend₁]
    simp [dropWhile_endsBefore_dropWhile h01]
  · intro w hw hle
    obtain ⟨paths, d⟩ := p
    cases paths with
    | nil => simp at hw
    | cons v ws =>
      simp only [List.head?_cons, Option.mem_def, Option.some.injEq] at hw
      subst hw
      simp only [getStartTime_cons, bind, Except.bind]
      rw [changeIntoSuffix_eq ⟨v, by simp, hle⟩]
      simp [List.dropWhile_cons, not_lt.2 hle]

theorem changeIntoSuffix_compose_twoSpeed :
    (twoSpeedPlan.changeIntoSuffix (1 / 2) >>= (·.changeIntoSuffix (3 / 2))) =
      twoSpeedPlan.changeIntoSuffix (3 / 2) ∧
    (twoSpeedPlan.getStartTime >>= twoSpeedPlan.changeIntoSuffix) = .ok twoSpeedPlan :=
  ⟨(changeIntoSuffix_compose twoSpeedPlan).1 (1 / 2) (3 / 2) (by norm_num)
      ⟨fastSegment, by simp [twoSpeedPlan], by norm_num⟩,
    (changeIntoSuffix_compose twoSpeedPlan).2 unitSegment (by simp [twoSpeedPlan]) (by norm_num)⟩

end DubinsPlan

end PathPlanner
