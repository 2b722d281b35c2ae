import PathPlanner.DubinsPlan.Samples

set_option autoImplicit false

/-! # Appending plans

`append(plan)` (lines 4-6) pushes the other plan's segments one at a time, so the joined plan holds
the segments of both, in order, under the first plan's `dangerous` flag (`appendPlan_eq`). Every
other operation reads the segments front to back, and on a joined plan each one is the first
plan's answer where the first plan has one:

* `containsTime` is the disjunction of the two plans';
* `sample` answers from the first plan wherever the first plan contains the time, and from the
  second elsewhere, so where the two overlap in time the first one wins (`sample_appendPlan`);
* `changeIntoSuffix` cuts in the first plan while one of its segments reaches the cut time; past
  that it drops the first plan whole and cuts in the second (`changeIntoSuffix_appendPlan`).

Two contiguous plans, the first ending when the second starts, join into a contiguous plan over
both their spans whose total time is the sum of theirs, and which therefore samples without
throwing (`appendPlan_contiguous`).

`totalTime()` (lines 50-53) is the span from the first start to the last end, gaps included: on an
ordered plan it is at least the time the segments take, and equal to it exactly when they abut
(`totalTime_ordered`). -/

namespace PathPlanner

namespace DubinsPlan

variable {τ : Type}

@[simp] theorem append_paths (p : DubinsPlan τ) (w : DubinsWrapper τ) :
    (p.append w).paths = p.paths ++ [w] := rfl

@[simp] theorem append_dangerous (p : DubinsPlan τ) (w : DubinsWrapper τ) :
    (p.append w).dangerous = p.dangerous := rfl

theorem foldl_append (p : DubinsPlan τ) (ws : List (DubinsWrapper τ)) :
    ws.foldl append p = ⟨p.paths ++ ws, p.dangerous⟩ := by
  induction ws generalizing p with
  | nil => simp
  | cons w ws ih => simp [ih]

theorem appendPlan_eq (p q : DubinsPlan τ) : p.appendPlan q = ⟨p.paths ++ q.paths, p.dangerous⟩ :=
  foldl_append p q.paths

@[simp] theorem appendPlan_paths (p q : DubinsPlan τ) : (p.appendPlan q).paths = p.paths ++ q.paths := by
  rw [appendPlan_eq]

@[simp] theorem appendPlan_dangerous (p q : DubinsPlan τ) :
    (p.appendPlan q).dangerous = p.dangerous := by
  rw [appendPlan_eq]

theorem getStartTime_appendPlan {p q : DubinsPlan τ} (hp : p.paths ≠ []) :
    (p.appendPlan q).getStartTime = p.getStartTime := by
  obtain ⟨_ | ⟨w, ws⟩, d⟩ := p
  · exact absurd rfl hp
  · rw [appendPlan_eq]; rfl

theorem paths_ne_nil_of_getStartTime {p : DubinsPlan τ} {a : τ} (ha : p.getStartTime = .ok a) :
    p.paths ≠ [] := by
  rintro hp
  simp [getStartTime, hp] at ha

variable [LinearOrderedField τ]

theorem getEndTime_appendPlan (p : DubinsPlan τ) {q : DubinsPlan τ} (hq : q.paths ≠ []) :
    (p.appendPlan q).getEndTime = q.getEndTime := by
  obtain ⟨w, hw⟩ := Option.ne_none_iff_exists'.1 (mt List.getLast?_eq_none_iff.1 hq)
  simp [getEndTime, List.getLast?_append, hw]

/-! ## Reading a joined plan -/

theorem containsTime_appendPlan (p q : DubinsPlan τ) (t : τ) :
    (p.appendPlan q).containsTime t = (p.containsTime t || q.containsTime t) := by
  simp [containsTime, List.any_append]

/-- `sample` on a joined plan: the first plan's sample where it has one, else the second's; it
    throws exactly where both throw. -/
theorem sample_appendPlan (g : Geometry τ) (p q : DubinsPlan τ) (s : State τ) :
    ((p.appendPlan q).sample g s).toOption = ((p.sample g s).toOption).or (q.sample g s).toOption := by
  rw [sample_toOption, sample_toOption, sample_toOption, appendPlan_paths, List.find?_append]
  cases p.paths.find? (·.containsTime s.time) <;> rfl

/-! ## Cutting a joined plan -/

theorem dropPast_append_of_forall {t : τ} {l₁ : List (DubinsWrapper τ)}
    (h : ∀ w ∈ l₁, w.getEndTime < t) (l₂ : List (DubinsWrapper τ)) :
    dropPast t (l₁ ++ l₂) = dropPast t l₂ := by
  induction l₁ with
  | nil => rfl
  | cons w ws ih =>
    simp only [List.mem_cons, forall_eq_or_imp] at h
    rw [List.cons_append, dropPast, if_pos h.1, ih h.2]

theorem dropPast_append_of_exists {t : τ} {l₁ : List (DubinsWrapper τ)}
    (h : ∃ w ∈ l₁, t ≤ w.getEndTime) (l₂ : List (DubinsWrapper τ)) :
    dropPast t (l₁ ++ l₂) = (dropPast t l₁).map (· ++ l₂) := by
  induction l₁ with
  | nil => simp at h
  | cons w ws ih =>
    by_cases hw : w.getEndTime < t
    · have h' : ∃ v ∈ ws, t ≤ v.getEndTime := by
        obtain ⟨v, hv, hle⟩ := h
        rcases List.mem_cons.1 hv with rfl | hv
        · exact absurd hle (not_le.2 hw)
        · exact ⟨v, hv, hle⟩
      rw [List.cons_append, dropPast, if_pos hw, ih h', dropPast, if_pos hw]
    · rw [List.cons_append, dropPast, if_neg hw, dropPast, if_neg hw]
      rfl

/-- Cutting a joined plan whose second part has segments: while some segment of the first plan
    reaches the cut time, the cut stays in the first plan and the second is kept whole; otherwise
    the first plan is dropped whole and the second is cut, under the first plan's flag. -/
theorem changeIntoSuffix_appendPlan (p : DubinsPlan τ) {q : DubinsPlan τ} (hq : q.paths ≠ [])
    (t : τ) :
    (p.appendPlan q).changeIntoSuffix t =
      if p.paths.all (endsBefore t) then
        (q.changeIntoSuffix t).map fun r => { r with dangerous := p.dangerous }
      else (p.changeIntoSuffix t).map (·.appendPlan q) := by
  have hpq : p.paths ++ q.paths ≠ [] := by simp [hq]
  rw [appendPlan_eq]
  split_ifs with hall
  · have h : ∀ w ∈ p.paths, w.getEndTime < t := by simpa using hall
    simp only [changeIntoSuffix, List.isEmpty_iff, hpq, hq, if_false,
      dropPast_append_of_forall h]
    cases dropPast t q.paths <;> rfl
  · have h : ∃ w ∈ p.paths, t ≤ w.getEndTime := by simpa using hall
    have hp : p.paths ≠ [] := by rintro hp; simp [hp] at h
    simp only [changeIntoSuffix, List.isEmpty_iff, hpq, hp, if_false,
      dropPast_append_of_exists h]
    cases dropPast t p.paths <;> simp [Except.map, appendPlan_eq]

theorem changeIntoSuffix_appendPlan_unit :
    (unitPlan : DubinsPlan ℚ).paths ≠ [] ∧
      ((unitPlan : DubinsPlan ℚ).appendPlan unitPlan).changeIntoSuffix 2 =
        if (unitPlan : DubinsPlan ℚ).paths.all (endsBefore 2) then
          ((unitPlan : DubinsPlan ℚ).changeIntoSuffix 2).map
            fun r => { r with dangerous := (unitPlan : DubinsPlan ℚ).dangerous }
        else ((unitPlan : DubinsPlan ℚ).changeIntoSuffix 2).map (·.appendPlan (unitPlan : DubinsPlan ℚ)) :=
  have hq : (unitPlan : DubinsPlan ℚ).paths ≠ [] := by simp [unitPlan]
  ⟨hq, changeIntoSuffix_appendPlan unitPlan hq 2⟩

/-! ## Joining contiguous plans -/

theorem totalTime_eq {p : DubinsPlan τ} {a b : τ} (ha : p.getStartTime = .ok a)
    (hb : p.getEndTime = .ok b) : p.totalTime = b - a := by
  obtain ⟨_ | ⟨w, ws⟩, d⟩ := p
  · simp [getStartTime] at ha
  · rw [getStartTime_cons, Except.ok.injEq] at ha
    rw [getEndTime_cons, Except.ok.injEq] at hb
    simp [totalTime, List.getLast?_eq_getLast (w :: ws) (List.cons_ne_nil w ws), ha, hb]

/-- Over ordered segments the span from the first start to the last end is the segments' own times
    plus the gaps between them, so it is at least their sum, with equality exactly when they abut. -/
theorem span_ordered (w : DubinsWrapper τ) (ws : List (DubinsWrapper τ))
    (hle : ∀ v ∈ w :: ws, v.startTime ≤ v.getEndTime)
    (hc : (w :: ws).Chain' (fun a b => a.getEndTime ≤ b.startTime)) :
    ((w :: ws).map fun v => v.getEndTime - v.startTime).sum ≤
        ((w :: ws).getLast (List.cons_ne_nil w ws)).getEndTime - w.startTime ∧
      (((w :: ws).getLast (List.cons_ne_nil w ws)).getEndTime - w.startTime =
          ((w :: ws).map fun v => v.getEndTime - v.startTime).sum ↔
        (w :: ws).Chain' (fun a b => a.getEndTime = b.startTime)) := by
  induction ws generalizing w with
  | nil => simp
  | cons v vs ih =>
    rw [List.chain'_cons] at hc
    obtain ⟨hsum, hiff⟩ := ih v (fun u hu => hle u (List.mem_cons_of_mem w hu)) hc.2
    -- the span from `w` is `w`'s own time, the gap after it, and the span from `v`
    have hgap := hc.1
    simp only [List.map_cons, List.sum_cons, List.getLast_cons (List.cons_ne_nil v vs),
      List.chain'_cons] at hsum hiff ⊢
    refine ⟨by linarith only [hsum, hgap], ⟨fun h => ?_, fun ⟨h, h'⟩ => ?_⟩⟩
    · have hw : w.getEndTime = v.startTime := by linarith only [hsum, hgap, h]
      exact ⟨hw, hiff.1 (by linarith only [h, hw])⟩
    · linarith only [hiff.2 h', h]

/-- On an ordered plan `totalTime()` is at least the time its segments take, and equal to it exactly
    when each segment ends where the next starts. -/
theorem totalTime_ordered {p : DubinsPlan τ} (hp : p.Ordered) :
    (p.paths.map fun w => w.getEndTime - w.startTime).sum ≤ p.totalTime ∧
      (p.totalTime = (p.paths.map fun w => w.getEndTime - w.startTime).sum ↔ p.Contiguous) := by
  obtain ⟨_ | ⟨w, ws⟩, d⟩ := p
  · simp [totalTime, Contiguous]
  · rw [totalTime_eq (getStartTime_cons w ws d) (getEndTime_cons w ws d)]
    obtain ⟨hsum, hiff⟩ := span_ordered w ws hp.1 hp.2
    exact ⟨hsum, hiff.trans ⟨fun h => ⟨hp.1, h⟩, fun h => h.2⟩⟩

theorem totalTime_ordered_gapPlan :
    (gapPlan : DubinsPlan ℚ).Ordered ∧
      ((gapPlan : DubinsPlan ℚ).paths.map fun w => w.getEndTime - w.startTime).sum ≤
          (gapPlan : DubinsPlan ℚ).totalTime ∧
        ((gapPlan : DubinsPlan ℚ).totalTime =
            ((gapPlan : DubinsPlan ℚ).paths.map fun w => w.getEndTime - w.startTime).sum ↔
          (gapPlan : DubinsPlan ℚ).Contiguous) :=
  have hord : (gapPlan : DubinsPlan ℚ).Ordered := by
    constructor <;> norm_num [gapPlan, DubinsWrapper.getEndTime, unitSegment, DubinsPath.length]
  ⟨hord, totalTime_ordered hord⟩

theorem contiguous_appendPlan {p q : DubinsPlan τ} (hp : p.Contiguous) (hq : q.Contiguous) {m : τ}
    (hm₁ : p.getEndTime = .ok m) (hm₂ : q.getStartTime = .ok m) : (p.appendPlan q).Contiguous := by
  refine ⟨by rw [appendPlan_paths]; exact List.forall_mem_append.2 ⟨hp.1, hq.1⟩, ?_⟩
  rw [appendPlan_paths, List.chain'_append]
  refine ⟨hp.2, hq.2, fun x hx y hy => ?_⟩
  have hx' : p.getEndTime = .ok x.getEndTime := by simp [getEndTime, Option.mem_def.1 hx]
  obtain ⟨_ | ⟨w, ws⟩, d⟩ := q
  · simp at hy
  · simp only [List.head?_cons, Option.mem_def, Option.some.injEq] at hy
    subst hy
    rw [getStartTime_cons, Except.ok.injEq] at hm₂
    rw [hm₁, Except.ok.injEq] at hx'
    rw [← hx', hm₂]

/-- Two contiguous plans, the first ending at `m` when the second starts: joined, they make a
    contiguous plan that contains exactly the times from the first's start to the second's end and
    lasts as long as both together, and with a positive spacing its `getHalfSecondSamples` returns
    without throwing one sample at each `a + k * Δ` before `b`, the joined plan's state there. -/
theorem appendPlan_contiguous (g : Geometry τ) [FloorRing τ] {Δ : τ} (hΔ : 0 < Δ)
    {p q : DubinsPlan τ} (hp : p.Contiguous) (hq : q.Contiguous) {a m b : τ}
    (ha : p.getStartTime = .ok a) (hm₁ : p.getEndTime = .ok m) (hm₂ : q.getStartTime = .ok m)
    (hb : q.getEndTime = .ok b) :
    (p.appendPlan q).Contiguous ∧
      (∀ t, (p.appendPlan q).containsTime t = true ↔ a ≤ t ∧ t ≤ b) ∧
      (p.appendPlan q).totalTime = p.totalTime + q.totalTime ∧
      ∃ L, (p.appendPlan q).getHalfSecondSamples g Δ = some (.ok L) ∧
        (∀ k : ℕ, k < L.length ↔ a + k * Δ < b) ∧
        L.map State.time = (List.range L.length).map (fun k : ℕ => a + k * Δ) ∧
        ∀ x ∈ L, ∀ s : State τ, s.time = x.time → (p.appendPlan q).sample g s = .ok x := by
  have hc := contiguous_appendPlan hp hq hm₁ hm₂
  have ha' : (p.appendPlan q).getStartTime = .ok a := by
    rw [getStartTime_appendPlan (paths_ne_nil_of_getStartTime ha), ha]
  have hb' : (p.appendPlan q).getEndTime = .ok b := by
    rw [getEndTime_appendPlan p (paths_ne_nil_of_getStartTime hm₂), hb]
  refine ⟨hc, containsTime_of_contiguous hc ha' hb', ?_,
    getHalfSecondSamples_of_contiguous g hΔ hc ha' hb'⟩
  calc (p.appendPlan q).totalTime = b - a := totalTime_eq ha' hb'
    _ = (m - a) + (b - m) := by ring
    _ = p.totalTime + q.totalTime := by rw [totalTime_eq ha hm₁, totalTime_eq hm₂ hb]

def laterUnitPlan : DubinsPlan τ := ⟨[{ unitSegment with startTime := 1 }], false⟩

theorem appendPlan_contiguous_unit :
    (0 : ℚ) < 1 / 2 ∧ (unitPlan : DubinsPlan ℚ).Contiguous ∧ (laterUnitPlan : DubinsPlan ℚ).Contiguous ∧
      (unitPlan : DubinsPlan ℚ).getStartTime = .ok 0 ∧ (unitPlan : DubinsPlan ℚ).getEndTime = .ok 1 ∧
      (laterUnitPlan : DubinsPlan ℚ).getStartTime = .ok 1 ∧
      (laterUnitPlan : DubinsPlan ℚ).getEndTime = .ok 2 ∧
      ((unitPlan : DubinsPlan ℚ).appendPlan laterUnitPlan).Contiguous ∧
      (∀ t, ((unitPlan : DubinsPlan ℚ).appendPlan laterUnitPlan).containsTime t = true ↔
        0 ≤ t ∧ t ≤ 2) ∧
      ((unitPlan : DubinsPlan ℚ).appendPlan laterUnitPlan).totalTime =
        (unitPlan : DubinsPlan ℚ).totalTime + (laterUnitPlan : DubinsPlan ℚ).totalTime ∧
      ∃ L, ((unitPlan : DubinsPlan ℚ).appendPlan laterUnitPlan).getHalfSecondSamples .origin (1 / 2) =
          some (.ok L) ∧
        (∀ k : ℕ, k < L.length ↔ (0 : ℚ) + k * (1 / 2) < 2) ∧
        L.map State.time = (List.range L.length).map (fun k : ℕ => (0 : ℚ) + k * (1 / 2)) ∧
        ∀ x ∈ L, ∀ s : State ℚ, s.time = x.time →
          ((unitPlan : DubinsPlan ℚ).appendPlan laterUnitPlan).sample .origin s = .ok x :=
  have hΔ : (0 : ℚ) < 1 / 2 := by norm_num
  have hq : (laterUnitPlan : DubinsPlan ℚ).Contiguous :=
    ⟨by norm_num [laterUnitPlan, DubinsWrapper.getEndTime, unitSegment, DubinsPath.length],
      by simp [laterUnitPlan]⟩
  have hb : (laterUnitPlan : DubinsPlan ℚ).getEndTime = .ok 2 := by
    norm_num [laterUnitPlan, getEndTime_cons, DubinsWrapper.getEndTime, unitSegment, DubinsPath.length]
  ⟨hΔ, unitPlan_contiguous, hq, unitPlan_getStartTime, unitPlan_getEndTime, rfl, hb,
    appendPlan_contiguous .origin hΔ unitPlan_contiguous hq unitPlan_getStartTime unitPlan_getEndTime
      rfl hb⟩

end DubinsPlan

end PathPlanner
