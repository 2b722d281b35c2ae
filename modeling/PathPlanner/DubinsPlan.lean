import PathPlanner.Basic

set_option autoImplicit false

/-! # Dubins plans

`DubinsPlan` (`DubinsPlan.cpp`) is the planners' output and the executive's working copy of the
trajectory: an ordered vector of `DubinsWrapper` segments and an advisory `dangerous` bit.

Every operation that can throw returns `Except PlanError`. The two `std::runtime_error`s of the
source are constructors carrying what their messages print. `changeIntoSuffix` erases leading
segments while `front().getEndTime() < startTime`; once the vector is empty the guard calls `front()`
on it, which is undefined behaviour and is kept apart as `PlanError.frontOfEmpty`.

The spec lemmas at the end say what `changeIntoSuffix`, `sample` and `containsTime` compute in terms
of `List.dropWhile` and `List.find?`; the modules on splicing and on sampling cite only those. -/

namespace PathPlanner

variable {τ : Type}

/-- The failures of the plan operations. -/
inductive PlanError (τ : Type) where
  -- `std::runtime_error("Cannot access empty plan")`.
  | emptyPlan
  -- `std::runtime_error`: "Requested time `requested` outside DubinsPlan bounds, which spans from
  -- `first` to `last`".
  | outsideBounds (requested first last : τ)
  -- `front()` on the vector `changeIntoSuffix` has emptied: undefined behaviour.
  | frontOfEmpty
  deriving DecidableEq, Repr

/-- A plan: the segments `m_DubinsPaths` and the flag `m_Dangerous`. -/
structure DubinsPlan (τ : Type) where
  paths : List (DubinsWrapper τ)
  dangerous : Bool
  deriving DecidableEq, Repr

namespace DubinsPlan

/-- `DubinsPlan()`: no segments, not dangerous. -/
instance : EmptyCollection (DubinsPlan τ) := ⟨⟨[], false⟩⟩

@[simp] theorem paths_emptyCollection : (∅ : DubinsPlan τ).paths = [] := rfl

def empty (p : DubinsPlan τ) : Bool := p.paths.isEmpty

/-- `append(dubinsPath)`: pushes a segment to the tail. -/
def append (p : DubinsPlan τ) (w : DubinsWrapper τ) : DubinsPlan τ :=
  { p with paths := p.paths ++ [w] }

/-- `append(plan)`: appends the other plan's segments one by one. -/
def appendPlan (p q : DubinsPlan τ) : DubinsPlan τ := q.paths.foldl append p

def getStartTime (p : DubinsPlan τ) : Except (PlanError τ) τ :=
  match p.paths with
  | [] => .error .emptyPlan
  | w :: _ => .ok w.startTime

def setDangerous (p : DubinsPlan τ) (b : Bool) : DubinsPlan τ := { p with dangerous := b }

@[simp] theorem empty_iff (p : DubinsPlan τ) : p.empty = true ↔ p.paths = [] := by
  simp [empty]

theorem getStartTime_cons (w : DubinsWrapper τ) (ws : List (DubinsWrapper τ)) (b : Bool) :
    getStartTime ⟨w :: ws, b⟩ = .ok w.startTime := rfl

@[simp] theorem getStartTime_emptyCollection : (∅ : DubinsPlan τ).getStartTime = .error .emptyPlan :=
  rfl

variable [LinearOrderedField τ]

def getEndTime (p : DubinsPlan τ) : Except (PlanError τ) τ :=
  match p.paths.getLast? with
  | none => .error .emptyPlan
  | some w => .ok w.getEndTime

def totalTime (p : DubinsPlan τ) : τ :=
  match p.paths.head?, p.paths.getLast? with
  | some a, some b => b.getEndTime - a.startTime
  | _, _ => 0

def containsTime (p : DubinsPlan τ) (t : τ) : Bool := p.paths.any (·.containsTime t)

/-- `sample(s)`: the first segment containing `s.time()` fills in the state; otherwise the
    out-of-bounds error, whose message itself calls `getStartTime()` and `getEndTime()`. -/
def sample (g : Geometry τ) (p : DubinsPlan τ) (s : State τ) : Except (PlanError τ) (State τ) :=
  match p.paths.find? (·.containsTime s.time) with
  | some w => .ok (w.sample g s)
  | none => do
    let first ← p.getStartTime
    let last ← p.getEndTime
    .error (.outsideBounds s.time first last)

/-- The segments `changeIntoSuffix` drops: those ending before the cut time. -/
def endsBefore (t : τ) (w : DubinsWrapper τ) : Bool := w.getEndTime < t

/-- The erase loop of `changeIntoSuffix`. -/
def dropPast (t : τ) : List (DubinsWrapper τ) → Except (PlanError τ) (List (DubinsWrapper τ))
  | [] => .error .frontOfEmpty
  | w :: ws => if w.getEndTime < t then dropPast t ws else .ok (w :: ws)

/-- `changeIntoSuffix(startTime)`: drop the segments now in the past. -/
def changeIntoSuffix (p : DubinsPlan τ) (t : τ) : Except (PlanError τ) (DubinsPlan τ) :=
  if p.paths.isEmpty then .error .emptyPlan
  else (dropPast t p.paths).map fun ws => { p with paths := ws }

/-! ## Sampling at a fixed density -/

section Samples

variable [FloorRing τ]

/-- The loop of `getHalfSecondSamples` from `time` on, with the reused state `s` and the sample
    spacing `Δ`; `none` when the fuel runs out. The time advances by exact addition, where line 38
    adds `planTimeDensity()` to a `double`: results on which grid times the loop meets hold over
    exact arithmetic only. -/
def sampleLoop (g : Geometry τ) (p : DubinsPlan τ) (Δ last : τ) :
    Nat → τ → State τ → Option (Except (PlanError τ) (List (State τ)))
  | 0, time, _ => if time < last then none else some (.ok [])
  | fuel + 1, time, s =>
    if time < last then
      match p.sample g { s with time := time } with
      | .error e => some (.error e)
      | .ok s' => (sampleLoop g p Δ last fuel (time + Δ) s').map (·.map (s' :: ·))
    else some (.ok [])

/-- `getHalfSecondSamples()` with the spacing `Δ = planTimeDensity()`. Over exact arithmetic a
    positive `Δ` ends the loop within `⌈(last - first) / Δ⌉₊ + 1` tests, so the loop is run with that
    fuel; running out of it stands for the C++ loop never ending, as it does when `Δ ≤ 0`. -/
def getHalfSecondSamples (g : Geometry τ) (Δ : τ) (p : DubinsPlan τ) :
    Option (Except (PlanError τ) (List (State τ))) :=
  if p.empty then some (.ok [])
  else match p.getStartTime, p.getEndTime with
    | .ok first, .ok last =>
      sampleLoop g p Δ last (⌈(last - first) / Δ⌉₊ + 1) first State.default
    | _, _ => some (.error .emptyPlan)

end Samples

/-! ## Spec lemmas -/

@[simp] theorem endsBefore_iff (t : τ) (w : DubinsWrapper τ) :
    endsBefore t w = true ↔ w.getEndTime < t := by
  simp [endsBefore]

@[simp] theorem endsBefore_eq_false_iff (t : τ) (w : DubinsWrapper τ) :
    endsBefore t w = false ↔ t ≤ w.getEndTime := by
  simp [endsBefore]

theorem containsTime_iff (p : DubinsPlan τ) (t : τ) :
    p.containsTime t = true ↔ ∃ w ∈ p.paths, w.containsTime t = true := by
  simp [containsTime]

theorem containsTime_eq_isSome (p : DubinsPlan τ) (t : τ) :
    p.containsTime t = (p.paths.find? (·.containsTime t)).isSome := by
  rw [Bool.eq_iff_iff, containsTime_iff, List.find?_isSome]

theorem getEndTime_cons (w : DubinsWrapper τ) (ws : List (DubinsWrapper τ)) (b : Bool) :
    getEndTime ⟨w :: ws, b⟩ = .ok ((w :: ws).getLast (List.cons_ne_nil w ws)).getEndTime := by
  simp [getEndTime, List.getLast?_eq_getLast (w :: ws) (List.cons_ne_nil w ws)]

/-- While some segment ends at or after `t`, the erase loop stops at the first of them. -/
theorem dropPast_of_exists {t : τ} {l : List (DubinsWrapper τ)}
    (h : ∃ w ∈ l, t ≤ w.getEndTime) : dropPast t l = .ok (l.dropWhile (endsBefore t)) := by
  induction l with
  | nil => simp at h
  | cons w ws ih =>
    by_cases hw : w.getEndTime < t
    · have h' : ∃ v ∈ ws, t ≤ v.getEndTime := by
        obtain ⟨v, hv, hle⟩ := h
        rcases List.mem_cons.1 hv with rfl | hv
        · exact absurd hle (not_le.2 hw)
        · exact ⟨v, hv, hle⟩
      simp [dropPast, hw, ih h', List.dropWhile_cons]
    · simp [dropPast, hw, List.dropWhile_cons]

/-- When every segment ends before `t`, the erase loop reaches `front()` of the emptied vector. -/
theorem dropPast_of_forall {t : τ} {l : List (DubinsWrapper τ)}
    (h : ∀ w ∈ l, w.getEndTime < t) : dropPast t l = .error .frontOfEmpty := by
  induction l with
  | nil => rfl
  | cons w ws ih =>
    simp only [List.mem_cons, forall_eq_or_imp] at h
    simp [dropPast, h.1, ih h.2]

theorem changeIntoSuffix_eq {p : DubinsPlan τ} {t : τ} (h : ∃ w ∈ p.paths, t ≤ w.getEndTime) :
    p.changeIntoSuffix t = .ok { p with paths := p.paths.dropWhile (endsBefore t) } := by
  have hne : p.paths ≠ [] := by rintro hp; simp [hp] at h
  simp [changeIntoSuffix, hne, dropPast_of_exists h, Except.map]

/-- `sample` returns the state of the first segment containing the requested time. -/
theorem sample_eq_ok_iff (g : Geometry τ) (p : DubinsPlan τ) (s r : State τ) :
    p.sample g s = .ok r ↔ ∃ w, p.paths.find? (·.containsTime s.time) = some w ∧ w.sample g s = r := by
  unfold sample
  cases p.paths.find? (·.containsTime s.time) with
  | some w => simp
  | none =>
    simp only [reduceCtorEq, false_and, exists_false, iff_false]
    cases getStartTime p <;> cases getEndTime p <;> simp [bind, Except.bind]

theorem time_of_sample_eq_ok {g : Geometry τ} {p : DubinsPlan τ} {s r : State τ}
    (h : p.sample g s = .ok r) : r.time = s.time := by
  obtain ⟨w, -, rfl⟩ := (sample_eq_ok_iff g p s r).1 h
  rfl

theorem sample_congr (g : Geometry τ) (p : DubinsPlan τ) {s s' : State τ} (h : s.time = s'.time) :
    p.sample g s = p.sample g s' := by
  unfold sample
  rw [h]
  cases p.paths.find? (·.containsTime s'.time) with
  | some w => simp [DubinsWrapper.sample_congr g w h]
  | none => rfl

theorem containsTime_of_sample_eq_ok {g : Geometry τ} {p : DubinsPlan τ} {s r : State τ}
    (h : p.sample g s = .ok r) : p.containsTime s.time = true := by
  obtain ⟨w, hw, -⟩ := (sample_eq_ok_iff g p s r).1 h
  rw [containsTime_eq_isSome, hw]
  rfl

theorem sample_ok_of_containsTime (g : Geometry τ) {p : DubinsPlan τ} {s : State τ}
    (h : p.containsTime s.time = true) : ∃ r, p.sample g s = .ok r := by
  rw [containsTime_eq_isSome, Option.isSome_iff_exists] at h
  obtain ⟨w, hw⟩ := h
  exact ⟨_, (sample_eq_ok_iff g p s _).2 ⟨w, hw, rfl⟩⟩

end DubinsPlan

end PathPlanner
