import PathPlanner.Basic

set_option autoImplicit false

/-! # The map slot

The static map reaches the planning thread through a one-place slot, `m_NewMap`, guarded by
`m_MapMutex`. `setMap` and the detached thread of each `refreshMap` call post into it under the
lock. Once a cycle the planning thread tries the lock without waiting; when it gets it, it moves a
posted map into `m_PlannerConfig`, empties the slot and asks the configuration's map whether the
start state is blocked (lines 138-160). `startPlanner` gives the configuration an empty map when it
has none (lines 521-523).

Every locked section is one atomic `Action`, and an interleaving is any list of them; a `try_lock`
may fail whenever another thread holds the lock, and `std::mutex::try_lock` may also fail
spuriously, so a failed try is allowed anywhere. `step` returns `none` when the planning thread
would call `isBlocked` through a null pointer.

Two things hold over every interleaving. The planner never dereferences a null map once
`startPlanner` has run (`run_configMap_isSome`): a null slot is never moved into the configuration.
And between two successful tries only the last posting counts (`run_window_cycle`): earlier
postings are overwritten, and a load that fails sets the slot to `nullptr` in its `catch`, which
discards a map posted before it, so the planner keeps the map it had.

`m_CurrentMapPath` is written and never read, and the log output and `displayMap` calls are taken
not to throw; none of them is modelled. -/

namespace PathPlanner

namespace MapSlot

variable {M : Type}

/-- The two map readers `refreshMap` chooses between. -/
inductive MapFormat where
  | gridWorld | geoTiff
  deriving DecidableEq, Repr

/-- Line 440: a path containing `.map` is read as a grid world, any other as a GeoTIFF. -/
def formatOf (pathToMapFile : String) : MapFormat :=
  if pathToMapFile.containsSubstr ".map".toSubstring then .gridWorld else .geoTiff

/-- What the detached thread of one `refreshMap(pathToMapFile, …)` call meets: whether the file is
    there (`access(…, F_OK)`), and what each reader's constructor returns, `none` when it throws. -/
structure Load (M : Type) where
  pathToMapFile : String
  fileExists : Bool
  read : MapFormat → Option M

/-- Lines 418-457: what the thread leaves in `m_NewMap`; `empty` is the map `make_shared<Map>()`
    makes. A constructor that throws lands in the `catch`, which sets the slot to `nullptr`. -/
def refreshMap (empty : M) (l : Load M) : Option M :=
  if l.pathToMapFile.isEmpty then some empty
  else if !l.fileExists then some empty
  else l.read (formatOf l.pathToMapFile)

/-- The sections that touch the slot or the planner's map. -/
inductive Action (M : Type) where
  -- `setMap(new_map)`, lines 409-414.
  | setMap (newMap : Option M)
  -- The locked body of one `refreshMap` thread, lines 418-463.
  | refreshMap (l : Load M)
  -- `startPlanner()`, lines 521-523.
  | startPlanner
  -- The map block of a planning cycle, lines 139-160: the `try_lock` succeeds or fails.
  | cycle (locked : Bool)

/-- The slot and the planner's map. -/
structure Slots (M : Type) where
  -- `m_NewMap`.
  newMap : Option M
  -- `m_PlannerConfig.map()`.
  configMap : Option M

section Step

variable (empty : M)

/-- One atomic section; `none` when `map()->isBlocked(…)` is called on a null map. -/
def step (σ : Slots M) : Action M → Option (Slots M)
  | .setMap m => some { σ with newMap := m }
  | .refreshMap l => some { σ with newMap := refreshMap empty l }
  | .startPlanner => some { σ with configMap := if σ.configMap.isNone then some empty else σ.configMap }
  | .cycle false => some σ
  | .cycle true =>
    let configMap := if σ.newMap.isSome then σ.newMap else σ.configMap
    if configMap.isNone then none else some { newMap := none, configMap }

/-- An interleaving of sections, stopped by the first null dereference. -/
def run : Slots M → List (Action M) → Option (Slots M)
  | σ, [] => some σ
  | σ, a :: as => (step empty σ a).bind (run · as)

/-- What an action posts into the slot, if it posts. -/
def posting : Action M → Option (Option M)
  | .setMap m => some m
  | .refreshMap l => some (refreshMap empty l)
  | _ => none

/-- What the last posting of a list of actions put into the slot, if any posted. -/
def lastPosting : List (Action M) → Option (Option M)
  | [] => none
  | a :: as => (lastPosting as).or (posting empty a)

@[simp] theorem run_nil (σ : Slots M) : run empty σ [] = some σ := rfl

theorem run_cons (σ : Slots M) (a : Action M) (as : List (Action M)) :
    run empty σ (a :: as) = (step empty σ a).bind (run empty · as) := rfl

theorem run_append (σ : Slots M) (as bs : List (Action M)) :
    run empty σ (as ++ bs) = (run empty σ as).bind (run empty · bs) := by
  induction as generalizing σ with
  | nil => rfl
  | cons a as ih =>
    simp only [List.cons_append, run_cons]
    cases step empty σ a <;> simp [ih]

/-! ## Steps that keep the planner's map -/

/-- Every action but a successful try leaves the planner's map alone once it has one, and sets the
    slot to what the action posted, if it posted. -/
theorem step_of_ne_cycle {n c : Option M} (hc : c.isSome) {a : Action M} (ha : a ≠ .cycle true) :
    step empty ⟨n, c⟩ a = some ⟨(posting empty a).getD n, c⟩ := by
  cases a with
  | setMap m => rfl
  | refreshMap l => rfl
  | startPlanner =>
    obtain ⟨m, rfl⟩ := Option.isSome_iff_exists.1 hc
    rfl
  | cycle b =>
    cases b
    · rfl
    · exact absurd rfl ha

theorem step_cycle {n c : Option M} (hc : c.isSome) :
    step empty ⟨n, c⟩ (.cycle true) = some ⟨none, n.or c⟩ := by
  obtain ⟨m, rfl⟩ := Option.isSome_iff_exists.1 hc
  cases n <;> rfl

/-- A run without a successful try: the planner's map stays, and the slot holds the last posting. -/
theorem run_of_no_cycle {n c : Option M} (hc : c.isSome) {as : List (Action M)}
    (has : Action.cycle true ∉ as) :
    run empty ⟨n, c⟩ as = some ⟨(lastPosting empty as).getD n, c⟩ := by
  induction as generalizing n with
  | nil => rfl
  | cons a as ih =>
    rw [List.mem_cons, not_or] at has
    rw [run_cons, step_of_ne_cycle empty hc (Ne.symm has.1), Option.some_bind, ih has.2,
      lastPosting]
    cases lastPosting empty as <;> rfl

end Step

/-! ## Over every interleaving -/

section Interleavings

variable (empty : M)

/-- Once the planner has a map, every action keeps one and none dereferences a null map. -/
theorem step_isSome {σ : Slots M} (hσ : σ.configMap.isSome) (a : Action M) :
    ∃ σ', step empty σ a = some σ' ∧ σ'.configMap.isSome := by
  obtain ⟨n, c⟩ := σ
  by_cases ha : a = .cycle true
  · subst ha
    exact ⟨_, step_cycle empty hσ, by cases n <;> simp [hσ]⟩
  · exact ⟨_, step_of_ne_cycle empty hσ ha, hσ⟩

theorem run_isSome {σ : Slots M} (hσ : σ.configMap.isSome) (as : List (Action M)) :
    ∃ σ', run empty σ as = some σ' ∧ σ'.configMap.isSome := by
  induction as generalizing σ with
  | nil => exact ⟨σ, rfl, hσ⟩
  | cons a as ih =>
    obtain ⟨σ₁, h₁, hσ₁⟩ := step_isSome empty hσ a
    rw [run_cons, h₁, Option.some_bind]
    exact ih hσ₁

/-- Before the planning thread exists no action dereferences the map. -/
theorem run_of_no_cycles (σ : Slots M) {as : List (Action M)} (has : ∀ l, Action.cycle l ∉ as) :
    ∃ σ', run empty σ as = some σ' := by
  induction as generalizing σ with
  | nil => exact ⟨σ, rfl⟩
  | cons a as ih =>
    simp only [List.mem_cons, not_or] at has
    have hs : ∃ σ₁, step empty σ a = some σ₁ := by
      cases a with
      | cycle l => exact absurd rfl (has l).1
      | _ => exact ⟨_, rfl⟩
    obtain ⟨σ₁, h₁⟩ := hs
    rw [run_cons, h₁, Option.some_bind]
    exact ih σ₁ fun l => (has l).2

/-- From any executive, in every interleaving in which the planning thread's cycles come after
    `startPlanner`, whatever `setMap` and `refreshMap` post and whenever each `try_lock` succeeds,
    the planner never calls `isBlocked` through a null map, and it always has a map. -/
theorem run_configMap_isSome (σ : Slots M) (pre post : List (Action M))
    (hpre : ∀ l, Action.cycle l ∉ pre) :
    ∃ σ', run empty σ (pre ++ .startPlanner :: post) = some σ' ∧ σ'.configMap.isSome := by
  obtain ⟨σ₁, h₁⟩ := run_of_no_cycles empty σ hpre
  -- `startPlanner` gives the configuration the empty map if it has none
  have hσ₂ : (if σ₁.configMap.isNone then some empty else σ₁.configMap).isSome := by
    cases σ₁.configMap <;> rfl
  obtain ⟨σ', h', hσ'⟩ := run_isSome empty (σ := { σ₁ with configMap := _ }) hσ₂ post
  exact ⟨σ', by rw [run_append, h₁, Option.some_bind, run_cons]; exact h', hσ'⟩

theorem run_configMap_isSome_nullPosting :
    (∀ l, Action.cycle l ∉ ([.setMap none] : List (Action ℕ))) ∧
      ∃ σ', run 0 ⟨none, none⟩ ([.setMap none] ++ .startPlanner :: [.cycle true]) = some σ' ∧
        σ'.configMap.isSome :=
  have h : ∀ l, Action.cycle l ∉ ([.setMap none] : List (Action ℕ)) := fun l => by simp
  ⟨h, run_configMap_isSome 0 ⟨none, none⟩ [.setMap none] [.cycle true] h⟩

/-- Between two successful tries only the last posting counts. Once the planner has a map, after
    any actions without a successful try and then one, the slot is empty and the planner holds the
    map the last posting put in the slot. When that posting was `setMap(nullptr)` or a failed load
    the planner keeps the map it had, and a map posted earlier is lost; with no posting in between
    the slot's earlier content counts. -/
theorem run_window_cycle {σ : Slots M} (hσ : σ.configMap.isSome) {mid : List (Action M)}
    (hmid : Action.cycle true ∉ mid) :
    run empty σ (mid ++ [.cycle true]) =
      some { newMap := none,
             configMap := ((lastPosting empty mid).getD σ.newMap).or σ.configMap } := by
  rw [run_append, run_of_no_cycle empty hσ hmid, Option.some_bind, run_cons, step_cycle empty hσ,
    Option.some_bind, run_nil]

theorem run_window_cycle_failedLoad :
    (⟨none, some 0⟩ : Slots ℕ).configMap.isSome ∧
      Action.cycle true ∉ [.setMap (some 1), .refreshMap ⟨"harbour.map", true, fun _ => none⟩] ∧
      run 0 ⟨none, some 0⟩
          [.setMap (some 1), .refreshMap ⟨"harbour.map", true, fun _ => none⟩, .cycle true] =
        some { newMap := none,
               configMap := ((lastPosting 0 [.setMap (some 1),
                 .refreshMap ⟨"harbour.map", true, fun _ => none⟩]).getD none).or (some 0) } :=
  have hmid : Action.cycle true ∉
      [.setMap (some 1), .refreshMap ⟨"harbour.map", true, fun _ => none⟩] := by simp
  ⟨rfl, hmid, run_window_cycle 0 (σ := ⟨none, some 0⟩) rfl hmid⟩

end Interleavings

end MapSlot

end PathPlanner
