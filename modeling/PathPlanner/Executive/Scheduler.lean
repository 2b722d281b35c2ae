import PathPlanner.Executive.Loop

set_option autoImplicit false

/-! # Starting and cancelling the planning thread

`startPlanner` runs `planLoop` on a new thread with `std::async` when the planner is not `Running`,
and stores the future in `m_PlanningFuture`; `cancelPlanner` moves `Running` to `Cancelled`, and the
worker, seeing `Cancelled` at a check, leaves its loop and sets `Inactive` (lines 58-70, 106-111,
372-379, 520-537). Every section under `m_PlannerStateMutex` is one step here.

Assigning to `m_PlanningFuture` releases the future it held, and the future of an `async` call
waits, on release, for its thread to return. `startPlanner` makes that assignment with the mutex
still held. So a start while the previous worker still has a section under the mutex ahead of it,
its initialisation or setting `Inactive`, waits for a worker that waits for the mutex:
`startPlanner_deadlocks`, after a start and a cancel, or after two starts in a row.

The waiting start also keeps the new worker from its first section, so two workers are never both
past setting `Running` and before setting `Inactive`: `workers_exclusive_of_run`. -/

namespace PathPlanner

/-- Where a `planLoop` thread is, between its sections under the mutex. -/
inductive WorkerPc where
  -- Started by `async`, before the section at line 59.
  | launched
  -- In `m_CancelCV.wait_for` at line 60, with the mutex released.
  | waiting
  -- Past setting `Running` at line 69, in the plan loop.
  | running
  -- Out of the plan loop, before the section at line 376 that sets `Inactive`.
  | finishing
  -- `planLoop` has returned.
  | returned
  deriving DecidableEq, Repr

/-- A worker between setting `Running` and setting `Inactive`. -/
def WorkerPc.active : WorkerPc → Bool
  | .running | .finishing => true
  | _ => false

/-- Where the control thread is: `.assigning previous new` is `startPlanner` at line 528, holding the
    mutex, having launched worker `new`, while the release of the future of worker `previous` waits
    for that worker to return. -/
inductive ControlPc where
  | idle
  | assigning (previous : Option ℕ) (new : ℕ)
  deriving DecidableEq, Repr

/-- The threads: the planner state, the workers in launch order, the worker whose future
    `m_PlanningFuture` holds, and the control thread. -/
structure Threads where
  plannerState : PlannerState
  workers : List WorkerPc
  future : Option ℕ
  control : ControlPc
  deriving DecidableEq, Repr

def Threads.initial : Threads := ⟨.inactive, [], none, .idle⟩

/-- The steps of the threads. The control thread's are `startPlanner`, split at the assignment, and
    `cancelPlanner`; a worker's are its sections under the mutex and leaving its loop without it. -/
inductive Action where
  -- `startPlanner` up to the assignment to `m_PlanningFuture`.
  | startPlanner
  -- The assignment completes and `startPlanner` releases the mutex.
  | assignFuture
  | cancelPlanner
  -- Lines 59-69: wait while `Cancelled`, else set `Running`.
  | initialise (w : ℕ)
  -- Line 60: the wait ends, notified or timed out; lines 61-66 return if still `Cancelled`.
  | wake (w : ℕ)
  -- Lines 106-111 or 312-316: leave the loop if `Cancelled`.
  | checkCancelled (w : ℕ)
  -- The loop ends without the mutex: the ribbons are covered, or an unknown exception.
  | leaveLoop (w : ℕ)
  -- A `std::exception` escapes the loop and line 360 calls `cancelPlanner()`.
  | throw (w : ℕ)
  -- Lines 376-379: set `Inactive`, and return.
  | setInactive (w : ℕ)
  deriving DecidableEq, Repr

namespace Threads

def setWorker (σ : Threads) (w : ℕ) (pc : WorkerPc) : Threads := { σ with workers := σ.workers.set w pc }

/-- One step, `none` when the action is not enabled: the control thread holds the mutex while it
    assigns, and every other section needs it free. -/
def step (σ : Threads) : Action → Option Threads
  | .startPlanner =>
    match σ.control with
    | .idle =>
      if σ.plannerState = .running then some σ
      else some { σ with
        workers := σ.workers ++ [.launched], control := .assigning σ.future σ.workers.length }
    | .assigning _ _ => none
  | .assignFuture =>
    match σ.control with
    | .assigning previous new =>
      if previous.all (fun w => σ.workers[w]? == some .returned) then
        some { σ with future := some new, control := .idle }
      else none
    | .idle => none
  | .cancelPlanner =>
    if σ.control = .idle then some { σ with plannerState := cancelPlanner σ.plannerState } else none
  | .initialise w =>
    if σ.control = .idle ∧ σ.workers[w]? = some .launched then
      if σ.plannerState = .cancelled then some (σ.setWorker w .waiting)
      else some { σ.setWorker w .running with plannerState := .running }
    else none
  | .wake w =>
    if σ.control = .idle ∧ σ.workers[w]? = some .waiting then
      if σ.plannerState = .cancelled then some (σ.setWorker w .returned)
      else some { σ.setWorker w .running with plannerState := .running }
    else none
  | .checkCancelled w =>
    if σ.control = .idle ∧ σ.workers[w]? = some .running then
      if σ.plannerState = .cancelled then some (σ.setWorker w .finishing) else some σ
    else none
  | .leaveLoop w =>
    if σ.workers[w]? = some .running then some (σ.setWorker w .finishing) else none
  | .throw w =>
    if σ.control = .idle ∧ σ.workers[w]? = some .running then
      some { σ.setWorker w .finishing with plannerState := cancelPlanner σ.plannerState }
    else none
  | .setInactive w =>
    if σ.control = .idle ∧ σ.workers[w]? = some .finishing then
      some { σ.setWorker w .returned with plannerState := .inactive }
    else none

/-- The actions one after another; `none` as soon as one is not enabled. -/
def run (σ : Threads) : List Action → Option Threads
  | [] => some σ
  | a :: as => (σ.step a).bind (·.run as)

def Stuck (σ : Threads) : Prop := ∀ a, σ.step a = none

/-- A state in which `startPlanner` waits for worker `w` and `w` has a section under the mutex ahead
    of it, and nothing else moves: the threads are stuck for good. -/
theorem stuck_of_waiting_on {σ : Threads} {w new : ℕ}
    (hc : σ.control = .assigning (some w) new)
    (hw : σ.workers[w]? = some .launched ∨ σ.workers[w]? = some .finishing)
    (hrest : ∀ v pc, σ.workers[v]? = some pc → v ≠ w → pc = .launched ∨ pc = .returned) :
    σ.Stuck := by
  intro a
  cases a with
  | startPlanner => simp [step, hc]
  | assignFuture => rcases hw with hw | hw <;> simp [step, hc, hw]
  | leaveLoop v =>
    simp only [step]
    split_ifs with hv
    · by_cases hvw : v = w
      · subst hvw; rcases hw with hw | hw <;> simp [hw] at hv
      · rcases hrest v _ hv hvw with h | h <;> cases h
    · rfl
  | _ => simp [step, hc]

/-- `startPlanner` deadlocks: after a start and a cancel, the worker leaves its loop and a second
    start waits, holding the mutex, for that worker, which waits for the mutex to set `Inactive`;
    after two starts in a row, the second waits for the first worker before its first section. -/
theorem startPlanner_deadlocks :
    (∃ σ, initial.run [.startPlanner, .assignFuture, .initialise 0, .cancelPlanner,
        .checkCancelled 0, .startPlanner] = some σ ∧
      σ.control = .assigning (some 0) 1 ∧ σ.workers = [.finishing, .launched] ∧ σ.Stuck) ∧
    ∃ σ, initial.run [.startPlanner, .assignFuture, .startPlanner] = some σ ∧
      σ.control = .assigning (some 0) 1 ∧ σ.workers = [.launched, .launched] ∧ σ.Stuck := by
  refine ⟨⟨⟨.cancelled, [.finishing, .launched], some 0, .assigning (some 0) 1⟩, rfl, rfl, rfl,
      stuck_of_waiting_on rfl (.inr rfl) ?_⟩,
    ⟨⟨.inactive, [.launched, .launched], some 0, .assigning (some 0) 1⟩, rfl, rfl, rfl,
      stuck_of_waiting_on rfl (.inl rfl) ?_⟩⟩ <;>
  · intro v pc hv hvw
    rcases v with _ | _ | v
    · exact (hvw rfl).elim
    · simp at hv; exact .inl hv.symm
    · simp at hv

/-! ## Only the last worker moves -/

def lastWorker (n : ℕ) : Option ℕ := if n = 0 then none else some (n - 1)

/-- Every worker but the last has returned and the future holds the last; while `startPlanner`
    assigns, every worker but the last two has returned, the last is the new one and has not moved,
    and the future being released is the one before it. -/
def Wf (σ : Threads) : Prop :=
  match σ.control with
  | .idle => σ.future = lastWorker σ.workers.length ∧
      ∀ w, w + 1 < σ.workers.length → σ.workers[w]? = some .returned
  | .assigning previous new => new + 1 = σ.workers.length ∧ previous = lastWorker new ∧
      σ.workers[new]? = some .launched ∧
      ∀ w, w + 2 < σ.workers.length → σ.workers[w]? = some .returned

theorem wf_initial : initial.Wf := ⟨rfl, by simp [initial]⟩

theorem wf_plannerState {σ : Threads} (ps : PlannerState) :
    Wf { σ with plannerState := ps } ↔ σ.Wf := Iff.rfl

theorem last_of_wf_idle {σ : Threads} (hσ : σ.Wf) (hc : σ.control = .idle) {w : ℕ} {pc : WorkerPc}
    (hw : σ.workers[w]? = some pc) (hpc : pc ≠ .returned) : w + 1 = σ.workers.length := by
  rw [Wf, hc] at hσ
  have hlt : w < σ.workers.length := (List.getElem?_eq_some_iff.1 hw).1
  by_contra hne
  exact hpc (Option.some.inj ((hσ.2 w (by omega)).symm.trans hw).symm)

@[simp] theorem setWorker_control (σ : Threads) (w : ℕ) (pc : WorkerPc) :
    (σ.setWorker w pc).control = σ.control := rfl

theorem wf_setWorker_last {σ : Threads} (hσ : σ.Wf) (hc : σ.control = .idle) {w : ℕ}
    (hw : w + 1 = σ.workers.length) (pc : WorkerPc) : (σ.setWorker w pc).Wf := by
  rw [Wf, hc] at hσ
  rw [Wf, setWorker_control, hc]
  refine ⟨by simpa [setWorker] using hσ.1, fun v hv => ?_⟩
  simp only [setWorker, List.length_set] at hv ⊢
  rw [List.getElem?_set_ne (by omega)]
  exact hσ.2 v hv

/-- Everything one step can do: nothing; `startPlanner` launches a worker and starts waiting; the
    wait ends once the previous worker has returned; `cancelPlanner` changes the planner state; a
    worker that has not returned moves with the mutex free; a running worker leaves its loop. -/
theorem step_cases {σ σ' : Threads} {a : Action} (h : σ.step a = some σ') :
    σ' = σ ∨
      (σ.control = .idle ∧ σ' = { σ with
        workers := σ.workers ++ [.launched], control := .assigning σ.future σ.workers.length }) ∨
      (∃ previous new, σ.control = .assigning previous new ∧
        previous.all (fun w => σ.workers[w]? == some .returned) = true ∧
        σ' = { σ with future := some new, control := .idle }) ∨
      (∃ ps, σ.control = .idle ∧ σ' = { σ with plannerState := ps }) ∨
      (∃ w pc pc' ps, σ.control = .idle ∧ σ.workers[w]? = some pc ∧ pc ≠ .returned ∧
        σ' = { σ.setWorker w pc' with plannerState := ps }) ∨
      (∃ w, σ.workers[w]? = some .running ∧ σ' = σ.setWorker w .finishing) := by
  cases a with
  | startPlanner =>
    rcases hc : σ.control with _ | ⟨previous, new⟩ <;> simp only [step, hc, reduceCtorEq] at h
    split_ifs at h
    · exact .inl (Option.some.inj h).symm
    · exact .inr (.inl ⟨rfl, (Option.some.inj h).symm⟩)
  | assignFuture =>
    rcases hc : σ.control with _ | ⟨previous, new⟩ <;> simp only [step, hc, reduceCtorEq] at h
    split_ifs at h with hprev
    exact .inr (.inr (.inl ⟨previous, new, rfl, hprev, (Option.some.inj h).symm⟩))
  | cancelPlanner =>
    simp only [step] at h
    split_ifs at h with hc
    exact .inr (.inr (.inr (.inl ⟨_, hc, (Option.some.inj h).symm⟩)))
  | initialise w | wake w | throw w | setInactive w =>
    simp only [step] at h
    split_ifs at h with hw <;>
      exact .inr (.inr (.inr (.inr (.inl ⟨w, _, _, _, hw.1, hw.2, by decide,
        (Option.some.inj h).symm⟩))))
  | checkCancelled w =>
    simp only [step] at h
    split_ifs at h with hw
    · exact .inr (.inr (.inr (.inr (.inl ⟨w, _, _, σ.plannerState, hw.1, hw.2, by decide,
        (Option.some.inj h).symm⟩))))
    · exact .inl (Option.some.inj h).symm
  | leaveLoop w =>
    simp only [step] at h
    split_ifs at h with hw
    exact .inr (.inr (.inr (.inr (.inr ⟨w, hw, (Option.some.inj h).symm⟩))))

theorem wf_step {σ σ' : Threads} {a : Action} (hσ : σ.Wf) (h : σ.step a = some σ') : σ'.Wf := by
  rcases step_cases h with rfl | ⟨hc, rfl⟩ | ⟨previous, new, hc, hprev, rfl⟩ | ⟨ps, -, rfl⟩ |
    ⟨w, pc, pc', ps, hc, hw, hpc, rfl⟩ | ⟨w, hw, rfl⟩
  · exact hσ
  · -- a start appends the new worker, which waits with the mutex held
    rw [Wf, hc] at hσ
    refine ⟨by simp, hσ.1, List.getElem?_concat_length _ _, fun v hv => ?_⟩
    simp only [List.length_append, List.length_singleton] at hv
    rw [List.getElem?_append_left (by omega)]
    exact hσ.2 v (by omega)
  · -- the previous worker has returned, so all but the new one have
    rw [Wf, hc] at hσ
    obtain ⟨hlen, rfl, -, hrest⟩ := hσ
    refine ⟨by simp [lastWorker, ← hlen], fun v hv => ?_⟩
    dsimp only at hv ⊢
    by_cases hv' : v + 2 < σ.workers.length
    · exact hrest v hv'
    · have hnew : new ≠ 0 := by omega
      simpa [lastWorker, hnew, show new - 1 = v by omega] using hprev
  · exact hσ
  · exact (wf_plannerState ps).2 (wf_setWorker_last hσ hc (last_of_wf_idle hσ hc hw hpc) pc')
  · -- leaving the loop needs no mutex: while a start waits it is the previous worker that leaves
    rcases hc : σ.control with _ | ⟨previous, new⟩
    · exact wf_setWorker_last hσ hc (last_of_wf_idle hσ hc hw (by decide)) _
    · rw [Wf, hc] at hσ
      rw [Wf, setWorker_control, hc]
      obtain ⟨hlen, hprev, hnew, hrest⟩ := hσ
      have hwnew : w ≠ new := fun h => by rw [h, hnew] at hw; cases hw
      have hw2 : ¬ w + 2 < σ.workers.length := fun h => by rw [hrest w h] at hw; cases hw
      refine ⟨by simpa [setWorker] using hlen, hprev, ?_, fun v hv => ?_⟩
      · simp only [setWorker]
        rw [List.getElem?_set_ne hwnew]
        exact hnew
      · simp only [setWorker, List.length_set] at hv ⊢
        rw [List.getElem?_set_ne (by omega)]
        exact hrest v hv

theorem wf_run {σ σ' : Threads} (hσ : σ.Wf) : ∀ {as : List Action}, σ.run as = some σ' → σ'.Wf
  | [], h => Option.some.inj h ▸ hσ
  | a :: as, h => by
    simp only [run, Option.bind_eq_some] at h
    obtain ⟨σ₁, h₁, h⟩ := h
    exact wf_run (wf_step hσ h₁) h

/-- A worker between setting `Running` and setting `Inactive` is the last one, or, while
    `startPlanner` assigns, the one before the new one. -/
theorem index_of_active {σ : Threads} (hσ : σ.Wf) {v : ℕ} {pc : WorkerPc}
    (hv : σ.workers[v]? = some pc) (hpc : pc.active = true) :
    v + 1 = σ.workers.length ∨ v + 2 = σ.workers.length := by
  have hlt : v < σ.workers.length := (List.getElem?_eq_some_iff.1 hv).1
  have hret : pc ≠ .returned := by rintro rfl; cases hpc
  rcases hc : σ.control with _ | ⟨previous, new⟩
  · exact .inl (last_of_wf_idle hσ hc hv hret)
  · rw [Wf, hc] at hσ
    obtain ⟨hlen, -, hnew, hrest⟩ := hσ
    have hvnew : v ≠ new := by rintro rfl; rw [hnew] at hv; cases hv; cases hpc
    have hv2 : ¬ v + 2 < σ.workers.length := fun h => hret (by rw [hrest v h] at hv; cases hv; rfl)
    omega

/-- In every state the threads reach, at most one worker is between setting `Running` and setting
    `Inactive`. -/
theorem workers_exclusive_of_run {as : List Action} {σ : Threads} (h : initial.run as = some σ) :
    ∀ (v w : ℕ) (pv pw : WorkerPc), σ.workers[v]? = some pv → σ.workers[w]? = some pw →
      pv.active = true → pw.active = true → v = w := by
  intro v w pv pw hv hw hpv hpw
  have hσ := wf_run wf_initial h
  rcases index_of_active hσ hv hpv with h₁ | h₁ <;> rcases index_of_active hσ hw hpw with h₂ | h₂
  · omega
  · -- the last worker and the one before it cannot both be active: one of them is the new one
    rcases hc : σ.control with _ | ⟨previous, new⟩
    · have := last_of_wf_idle hσ hc hw (by rintro rfl; cases hpw); omega
    · rw [Wf, hc] at hσ
      obtain ⟨hlen, -, hnew, -⟩ := hσ
      rw [show v = new by omega, hnew] at hv; cases hv; cases hpv
  · rcases hc : σ.control with _ | ⟨previous, new⟩
    · have := last_of_wf_idle hσ hc hv (by rintro rfl; cases hpv); omega
    · rw [Wf, hc] at hσ
      obtain ⟨hlen, -, hnew, -⟩ := hσ
      rw [show w = new by omega, hnew] at hw; cases hw; cases hpw
  · omega

theorem workers_exclusive_of_run_deadlock :
    initial.run [.startPlanner, .assignFuture, .initialise 0, .cancelPlanner, .checkCancelled 0,
        .startPlanner] = some ⟨.cancelled, [.finishing, .launched], some 0, .assigning (some 0) 1⟩ ∧
      ∀ (v w : ℕ) (pv pw : WorkerPc),
        (⟨.cancelled, [.finishing, .launched], some 0, .assigning (some 0) 1⟩ : Threads).workers[v]? =
          some pv →
        (⟨.cancelled, [.finishing, .launched], some 0, .assigning (some 0) 1⟩ : Threads).workers[w]? =
          some pw →
        pv.active = true → pw.active = true → v = w :=
  have h : initial.run [.startPlanner, .assignFuture, .initialise 0, .cancelPlanner,
      .checkCancelled 0, .startPlanner] =
      some ⟨.cancelled, [.finishing, .launched], some 0, .assigning (some 0) 1⟩ := rfl
  ⟨h, workers_exclusive_of_run h⟩

end Threads

end PathPlanner
