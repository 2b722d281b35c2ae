import PathPlanner.DubinsPlan.Suffix

set_option autoImplicit false

/-! # Sampling a contiguous plan

Every cycle the executive displays `getHalfSecondSamples()` of its plan, and a throw there ends the
mission. The loop samples at `getStartTime()`, then every `planTimeDensity()` seconds while the time
is before `getEndTime()`; `sample` throws at a time no segment contains.

A plan whose segments abut (each ends where the next starts) contains exactly the times between its
start and its end, so with a positive spacing the loop never throws: it returns one sample per
`getStartTime() + k * Δ < getEndTime()`, in order, each the plan's state at its time. -/

namespace PathPlanner

namespace DubinsPlan

variable {τ : Type} [LinearOrderedField τ]

/-- The segments abut: each ends no earlier than it starts, and exactly where the next starts. -/
def Contiguous (p : DubinsPlan τ) : Prop :=
  (∀ w ∈ p.paths, w.startTime ≤ w.getEndTime) ∧
    p.paths.Chain' (fun a b => a.getEndTime = b.startTime)

theorem Contiguous.ordered {p : DubinsPlan τ} (h : p.Contiguous) : p.Ordered :=
  ⟨h.1, h.2.imp fun _ _ hab => hab.le⟩

/-- Abutting segments cover exactly the interval from the first start to the last end. -/
theorem any_containsTime_of_contiguous (t : τ) :
    ∀ (w : DubinsWrapper τ) (ws : List (DubinsWrapper τ)),
      (∀ v ∈ w :: ws, v.startTime ≤ v.getEndTime) →
      (w :: ws).Chain' (fun a b => a.getEndTime = b.startTime) →
      w.startTime ≤ ((w :: ws).getLast (List.cons_ne_nil w ws)).getEndTime ∧
      ((w :: ws).any (·.containsTime t) = true ↔
        w.startTime ≤ t ∧ t ≤ ((w :: ws).getLast (List.cons_ne_nil w ws)).getEndTime) := by
  intro w ws
  induction ws generalizing w with
  | nil => intro hle _; simpa using hle w (by simp)
  | cons v vs ih =>
    intro hle hc
    rw [List.chain'_cons] at hc
    obtain ⟨hv, hiff⟩ := ih v (fun u hu => hle u (List.mem_cons_of_mem w hu)) hc.2
    have hw := hle w (by simp)
    simp only [List.getLast_cons (List.cons_ne_nil v vs), List.any_cons, Bool.or_eq_true,
      DubinsWrapper.containsTime_iff] at hiff ⊢
    rw [hiff, ← hc.1]
    refine ⟨hw.trans (hc.1 ▸ hv), ⟨?_, fun ⟨ha, hb⟩ => ?_⟩⟩
    · rintro (⟨ha, hb⟩ | ⟨ha, hb⟩)
      · exact ⟨ha, hb.trans (hc.1 ▸ hv)⟩
      · exact ⟨hw.trans ha, hb⟩
    · rcases le_total t w.getEndTime with h | h
      · exact .inl ⟨ha, h⟩
      · exact .inr ⟨h, hb⟩

theorem containsTime_of_contiguous {p : DubinsPlan τ} (hc : p.Contiguous) {a b : τ}
    (ha : p.getStartTime = .ok a) (hb : p.getEndTime = .ok b) (t : τ) :
    p.containsTime t = true ↔ a ≤ t ∧ t ≤ b := by
  obtain ⟨paths, d⟩ := p
  cases paths with
  | nil => simp [getStartTime] at ha
  | cons w ws =>
    rw [getStartTime_cons, Except.ok.injEq] at ha
    rw [getEndTime_cons, Except.ok.injEq] at hb
    subst ha hb
    exact (any_containsTime_of_contiguous t w ws hc.1 hc.2).2

theorem sampleLoop_of_le (g : Geometry τ) (p : DubinsPlan τ) {Δ b t : τ} (h : b ≤ t) (n : ℕ)
    (s : State τ) : p.sampleLoop g Δ b n t s = some (.ok []) := by
  cases n <;> simp [sampleLoop, not_lt.2 h]

/-- With enough fuel, and every visited time contained, the loop returns the plan's samples at
    `t, t + Δ, …` while they are before `b`. -/
theorem sampleLoop_spec (g : Geometry τ) (p : DubinsPlan τ) {Δ b : τ} (hΔ : 0 < Δ) :
    ∀ (n : ℕ) (t : τ) (s : State τ), b ≤ t + n * Δ →
      (∀ j : ℕ, t + j * Δ < b → p.containsTime (t + j * Δ) = true) →
      ∃ L, p.sampleLoop g Δ b n t s = some (.ok L) ∧ (∀ k : ℕ, k < L.length ↔ t + k * Δ < b) ∧
        L.map State.time = (List.range L.length).map (fun k : ℕ => t + k * Δ) ∧
        ∀ x ∈ L, ∀ s' : State τ, s'.time = x.time → p.sample g s' = .ok x := by
  have hstop : ∀ t : τ, b ≤ t → ∀ k : ℕ, ¬ t + k * Δ < b := fun t h k =>
    not_lt.2 (h.trans (le_add_of_nonneg_right (mul_nonneg (Nat.cast_nonneg k) hΔ.le)))
  intro n
  induction n with
  | zero =>
    intro t s hfuel _
    simp only [Nat.cast_zero, zero_mul, add_zero] at hfuel
    exact ⟨[], sampleLoop_of_le g p hfuel 0 s, fun k => iff_of_false (Nat.not_lt_zero k) (hstop t hfuel k),
      rfl, by simp⟩
  | succ n ih =>
    intro t s hfuel hcont
    by_cases ht : t < b
    · obtain ⟨r, hr⟩ := sample_ok_of_containsTime g (s := { s with time := t })
        (by simpa using hcont 0 (by simpa using ht))
      have hrt : r.time = t := time_of_sample_eq_ok hr
      have hshift : ∀ k : ℕ, t + Δ + k * Δ = t + ((k + 1 : ℕ) : τ) * Δ := fun k => by
        push_cast; ring
      obtain ⟨L, hL, hlen, htimes, hsample⟩ := ih (t + Δ) r
        (by rw [hshift]; simpa using hfuel) (fun j hj => by rw [hshift] at hj ⊢; exact hcont _ hj)
      refine ⟨r :: L, by simp [sampleLoop, ht, hr, hL, Except.map], fun k => ?_, ?_, ?_⟩
      · cases k with
        | zero => exact iff_of_true (Nat.succ_pos _) (by rwa [Nat.cast_zero, zero_mul, add_zero])
        | succ k => rw [← hshift k, List.length_cons, Nat.succ_lt_succ_iff]; exact hlen k
      · simp only [List.map_cons, hrt, List.length_cons, List.range_succ_eq_map, List.map_map,
          htimes, Nat.cast_zero, zero_mul, add_zero, List.cons.injEq, true_and]
        exact List.map_congr_left fun k _ => hshift k
      · rintro x (_ | ⟨_, hx⟩) s' hs'
        · exact (sample_congr g p (hs'.trans hrt)).trans hr
        · exact hsample x hx s' hs'
    · have hbt := not_lt.1 ht
      exact ⟨[], sampleLoop_of_le g p hbt _ s, fun k => iff_of_false (Nat.not_lt_zero k) (hstop t hbt k), rfl,
        by simp⟩

theorem unitPlan_contiguous : (unitPlan : DubinsPlan τ).Contiguous := ⟨by simp, by simp⟩

theorem twoSpeedPlan_contiguous : twoSpeedPlan.Contiguous :=
  ⟨by norm_num [twoSpeedPlan], by simp [twoSpeedPlan]⟩

theorem fastPlan_contiguous : fastPlan.Contiguous := ⟨by norm_num [fastPlan], by simp [fastPlan]⟩

@[simp] theorem unitPlan_getStartTime : (unitPlan : DubinsPlan τ).getStartTime = .ok 0 := rfl

@[simp] theorem unitPlan_getEndTime : (unitPlan : DubinsPlan τ).getEndTime = .ok 1 := by
  simp [unitPlan, getEndTime_cons]

section Density

variable [FloorRing τ]

@[simp] theorem getHalfSecondSamples_emptyCollection (g : Geometry τ) (Δ : τ) :
    (∅ : DubinsPlan τ).getHalfSecondSamples g Δ = some (.ok []) := rfl

/-- With a positive spacing, `getHalfSecondSamples` of a contiguous plan ends without throwing and
    returns the plan's state at each `start + k * Δ` before the end. -/
theorem getHalfSecondSamples_of_contiguous (g : Geometry τ) {Δ : τ} (hΔ : 0 < Δ)
    {p : DubinsPlan τ} (hc : p.Contiguous) {a b : τ} (ha : p.getStartTime = .ok a)
    (hb : p.getEndTime = .ok b) :
    ∃ L, p.getHalfSecondSamples g Δ = some (.ok L) ∧ (∀ k : ℕ, k < L.length ↔ a + k * Δ < b) ∧
      L.map State.time = (List.range L.length).map (fun k : ℕ => a + k * Δ) ∧
      ∀ x ∈ L, ∀ s : State τ, s.time = x.time → p.sample g s = .ok x := by
  have hcont := containsTime_of_contiguous hc ha hb
  have hfuel : b ≤ a + ((⌈(b - a) / Δ⌉₊ + 1 : ℕ) : τ) * Δ := by
    have hceil := Nat.le_ceil ((b - a) / Δ)
    have : b - a ≤ (⌈(b - a) / Δ⌉₊ : τ) * Δ := (div_le_iff₀ hΔ).1 hceil
    push_cast
    rw [add_mul, one_mul]
    exact sub_le_iff_le_add'.1 (this.trans (le_add_of_nonneg_right hΔ.le))
  have hne : p.empty = false := by
    cases h : p.empty
    · rfl
    · simp [getStartTime, (empty_iff p).1 h] at ha
  obtain ⟨L, hL, hrest⟩ := sampleLoop_spec g p hΔ _ a State.default hfuel
    (fun j hj => (hcont _).2 ⟨le_add_of_nonneg_right (mul_nonneg (Nat.cast_nonneg j) hΔ.le), hj.le⟩)
  exact ⟨L, by simp [getHalfSecondSamples, hne, ha, hb, hL], hrest⟩

/-- A contiguous plan contains exactly the times between its start and end; with a positive
    spacing `getHalfSecondSamples` ends, does not throw, and returns the plan's state at each
    `start + k * Δ` before the end, in increasing time. -/
theorem contiguous_getHalfSecondSamples (g : Geometry τ) (Δ : τ) (p : DubinsPlan τ)
    (hc : p.Contiguous) {a b : τ} (ha : p.getStartTime = .ok a) (hb : p.getEndTime = .ok b) :
    (∀ t, p.containsTime t = true ↔ a ≤ t ∧ t ≤ b) ∧
    (0 < Δ → ∃ L, p.getHalfSecondSamples g Δ = some (.ok L) ∧
      (∀ k : ℕ, k < L.length ↔ a + k * Δ < b) ∧
      L.map State.time = (List.range L.length).map (fun k : ℕ => a + k * Δ) ∧
      (L.map State.time).Pairwise (· < ·) ∧
      ∀ x ∈ L, ∀ s : State τ, s.time = x.time → p.sample g s = .ok x) := by
  refine ⟨containsTime_of_contiguous hc ha hb, fun hΔ => ?_⟩
  obtain ⟨L, hL, hlen, htimes, hsample⟩ := getHalfSecondSamples_of_contiguous g hΔ hc ha hb
  refine ⟨L, hL, hlen, htimes, ?_, hsample⟩
  rw [htimes, List.pairwise_map]
  exact (List.pairwise_lt_range _).imp fun hij =>
    add_lt_add_left (mul_lt_mul_of_pos_right (Nat.cast_lt.2 hij) hΔ) a

theorem twoSpeedPlan_getHalfSecondSamples :
    twoSpeedPlan.Contiguous ∧ twoSpeedPlan.getStartTime = .ok 0 ∧ twoSpeedPlan.getEndTime = .ok 2 ∧
      (∀ t, twoSpeedPlan.containsTime t = true ↔ 0 ≤ t ∧ t ≤ 2) ∧
      ∃ L, twoSpeedPlan.getHalfSecondSamples .origin (1 / 2) = some (.ok L) ∧
        L.map State.time = [0, 1 / 2, 1, 3 / 2] := by
  obtain ⟨hcont, hsamples⟩ := contiguous_getHalfSecondSamples .origin (1 / 2 : ℚ) twoSpeedPlan
    twoSpeedPlan_contiguous rfl twoSpeedPlan_getEndTime
  obtain ⟨L, hL, hlen, htimes, -⟩ := hsamples (by norm_num)
  have h3 := (hlen 3).2 (by norm_num)
  have h4 := mt (hlen 4).1 (by norm_num)
  have hL4 : L.length = 4 := by omega
  refine ⟨twoSpeedPlan_contiguous, rfl, twoSpeedPlan_getEndTime, hcont, L, hL, ?_⟩
  rw [htimes, hL4]
  norm_num [List.range_succ]

end Density

/-! ## Plans with gaps

Without contiguity the loop still ends for a positive spacing; it throws at the first grid time
`getStartTime() + j * Δ` before `getEndTime()` that no segment contains, and the message names that
time and the plan's bounds. -/

theorem sample_of_containsTime_eq_false (g : Geometry τ) {p : DubinsPlan τ} {s : State τ} {a b : τ}
    (hs : p.containsTime s.time = false) (ha : p.getStartTime = .ok a) (hb : p.getEndTime = .ok b) :
    p.sample g s = .error (.outsideBounds s.time a b) := by
  have hfind : p.paths.find? (·.containsTime s.time) = none := by
    simpa [containsTime_eq_isSome] using hs
  simp [sample, hfind, ha, hb, bind, Except.bind]

/-- The loop throws at the first grid time it reaches that the plan does not contain. -/
theorem sampleLoop_of_gap (g : Geometry τ) (p : DubinsPlan τ) {Δ b first last : τ} (hΔ : 0 < Δ)
    (ha : p.getStartTime = .ok first) (hb : p.getEndTime = .ok last) :
    ∀ (n j : ℕ) (t : τ) (s : State τ), j < n → t + j * Δ < b →
      p.containsTime (t + j * Δ) = false → (∀ i < j, p.containsTime (t + i * Δ) = true) →
      p.sampleLoop g Δ b n t s = some (.error (.outsideBounds (t + j * Δ) first last)) := by
  intro n
  induction n with
  | zero => intro j _ _ hj; exact absurd hj (Nat.not_lt_zero j)
  | succ n ih =>
    intro j t s hj hjb hgap hbefore
    have ht : t < b := lt_of_le_of_lt (le_add_of_nonneg_right
      (mul_nonneg (Nat.cast_nonneg j) hΔ.le)) hjb
    cases j with
    | zero =>
      simp only [Nat.cast_zero, zero_mul, add_zero] at hgap ⊢
      have hs := sample_of_containsTime_eq_false g (s := { s with time := t }) hgap ha hb
      simp [sampleLoop, ht, hs]
    | succ j =>
      have hshift : t + Δ + j * Δ = t + ((j + 1 : ℕ) : τ) * Δ := by push_cast; ring
      obtain ⟨r, hr⟩ := sample_ok_of_containsTime g (s := { s with time := t })
        (by simpa using hbefore 0 (Nat.succ_pos j))
      have hrest := ih j (t + Δ) r (Nat.lt_of_succ_lt_succ hj) (by rwa [hshift])
        (by rwa [hshift]) fun i hi => by
          rw [show t + Δ + i * Δ = t + ((i + 1 : ℕ) : τ) * Δ by push_cast; ring]
          exact hbefore (i + 1) (Nat.succ_lt_succ hi)
      rw [hshift] at hrest
      simp [sampleLoop, ht, hr, hrest, Except.map]

theorem sampleLoop_isSome (g : Geometry τ) (p : DubinsPlan τ) {Δ b : τ} :
    ∀ (n : ℕ) (t : τ) (s : State τ), b ≤ t + n * Δ → (p.sampleLoop g Δ b n t s).isSome := by
  intro n
  induction n with
  | zero => intro t s hfuel; simp [sampleLoop_of_le g p (by simpa using hfuel)]
  | succ n ih =>
    intro t s hfuel
    by_cases ht : t < b
    · rcases hr : p.sample g { s with time := t } with e | r
      · simp [sampleLoop, ht, hr]
      · have := ih (t + Δ) r (by push_cast at hfuel; linarith only [hfuel])
        simpa [sampleLoop, ht, hr] using this
    · simp [sampleLoop_of_le g p (not_lt.1 ht)]

/-- A loop that returned its samples met a segment at every grid time before the end. -/
theorem sampleLoop_ok_containsTime (g : Geometry τ) (p : DubinsPlan τ) {Δ b : τ} (hΔ : 0 ≤ Δ) :
    ∀ (n : ℕ) (t : τ) (s : State τ) (L : List (State τ)), p.sampleLoop g Δ b n t s = some (.ok L) →
      ∀ j : ℕ, t + j * Δ < b → p.containsTime (t + j * Δ) = true := by
  have hstart : ∀ (t : τ) (j : ℕ), t + j * Δ < b → t < b := fun t j =>
    lt_of_le_of_lt (le_add_of_nonneg_right (mul_nonneg (Nat.cast_nonneg j) hΔ))
  intro n
  induction n with
  | zero => intro t s L h j hj; simp [sampleLoop, hstart t j hj] at h
  | succ n ih =>
    intro t s L h j hj
    have ht := hstart t j hj
    rcases hr : p.sample g { s with time := t } with e | r
    · simp [sampleLoop, ht, hr] at h
    rcases hrest : p.sampleLoop g Δ b n (t + Δ) r with _ | _ | L'
    · simp [sampleLoop, ht, hr, hrest] at h
    · simp [sampleLoop, ht, hr, hrest, Except.map] at h
    cases j with
    | zero => simpa using containsTime_of_sample_eq_ok hr
    | succ j =>
      have hshift : t + Δ + j * Δ = t + ((j + 1 : ℕ) : τ) * Δ := by push_cast; ring
      rw [← hshift] at hj ⊢
      exact ih (t + Δ) r L' hrest j hj

variable [FloorRing τ]

theorem le_add_fuel_mul {Δ : τ} (hΔ : 0 < Δ) (a b : τ) :
    b ≤ a + ((⌈(b - a) / Δ⌉₊ + 1 : ℕ) : τ) * Δ := by
  have : b - a ≤ (⌈(b - a) / Δ⌉₊ : τ) * Δ := (div_le_iff₀ hΔ).1 (Nat.le_ceil _)
  push_cast
  linarith

theorem getHalfSecondSamples_isSome (g : Geometry τ) {Δ : τ} (hΔ : 0 < Δ) (p : DubinsPlan τ) :
    (p.getHalfSecondSamples g Δ).isSome := by
  obtain ⟨_ | ⟨w, ws⟩, d⟩ := p
  · rfl
  · have hne : (⟨w :: ws, d⟩ : DubinsPlan τ).empty = false := rfl
    simpa [getHalfSecondSamples, hne, getStartTime_cons, getEndTime_cons] using
      sampleLoop_isSome g _ _ _ State.default (le_add_fuel_mul hΔ _ _)

/-- Where `getHalfSecondSamples` returns its samples, every grid time before the plan's end lies
    in a segment: the plan has no gap at any time the loop samples. -/
theorem getHalfSecondSamples_ok_containsTime (g : Geometry τ) {Δ : τ} (hΔ : 0 ≤ Δ) {p : DubinsPlan τ}
    {L : List (State τ)} (h : p.getHalfSecondSamples g Δ = some (.ok L)) {a b : τ}
    (ha : p.getStartTime = .ok a) (hb : p.getEndTime = .ok b) (j : ℕ) (hj : a + j * Δ < b) :
    p.containsTime (a + j * Δ) = true := by
  have hne : p.empty = false := by
    cases h : p.empty
    · rfl
    · simp [getStartTime, (empty_iff p).1 h] at ha
  simp only [getHalfSecondSamples, hne, ha, hb, Bool.false_eq_true, if_false] at h
  exact sampleLoop_ok_containsTime g p hΔ _ a _ L h j hj

/-- The unit plan, then a unit segment after a one-second gap. -/
def gapPlan : DubinsPlan τ := ⟨[unitSegment, { unitSegment with startTime := 2 }], false⟩

end DubinsPlan

end PathPlanner
