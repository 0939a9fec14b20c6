import Patchbay.Proofs.Budget.Tracking

/-!
# `Proofs.Budget.Refusals` — a refused request leaves no trace

A charge is made before it is checked, and the budget or the system allocator may refuse what it was made for. Each
way out takes back just what was charged, on the lane that was charged, though the sum may have wrapped meanwhile. So a
refused request is as good as one that was never made: it can be struck out of a run, and whatever is seen of the
other requests stays the same.

## Contents
* `Answer.isRefusal` — answers that refuse; `Audit.step_refused` — they leave everything as it was;
* `Audit.heeded` — a run without its refused requests; `run_heeded`, `trace_heeded`;
* `refused_untraced` — what a caller sees of all this.
-/

namespace Patchbay

namespace Budget

namespace Audit

deriving instance DecidableEq for Answer

/-- Says whether an answer refuses what was asked for. -/
def Answer.isRefusal : Answer → Bool
  | .block (.error _) => true
  | _ => false

theorem Answer.isRefusal_iff {answer : Answer} :
    answer.isRefusal = true ↔ ∃ e, answer = .block (.error e) := by
  constructor
  · intro h
    cases answer with
    | block result =>
      cases result with
      | error e => exact ⟨e, rfl⟩
      | ok block => cases h
    | report r => cases h
    | done => cases h
  · rintro ⟨e, rfl⟩
    rfl

/-- The budget with the counters of each lane, its ledger and its next id, and the blocks that are out with all their
bytes are as they were. -/
theorem step_refused {a : Audit} {t : Turn} {e : Failure} (h : (a.serve t).1 = .block (.error e)) :
    a.step t = a := by
  obtain ⟨request, lane, heap⟩ := t
  unfold step
  unfold serve at h ⊢
  cases request with
  | alloc kind comment size =>
    dsimp only at h ⊢
    cases hr : a.budget.alloc heap kind lane comment size with
    | mk answer b =>
      rw [hr] at h
      cases answer with
      | ok block => cases h
      | error e' => rw [alloc_error hr]
  | resize place size =>
    dsimp only at h ⊢
    cases hp : a.tenants[place]? with
    | none => rfl
    | some tenant =>
      simp only [hp] at h
      cases hr : a.budget.resize heap lane tenant.block size with
      | mk answer b =>
        rw [hr] at h
        cases answer with
        | ok block => cases h
        | error e' => simp only [hr, resize_error hr]
  -- nothing else is ever refused
  | write place start data =>
    dsimp only at h
    split at h <;> cases h
  | free place =>
    dsimp only at h
    split at h <;> cases h
  | check => cases h

/-! ## Runs without what was refused -/

/-- The requests of a run but for those that are refused in it. -/
def heeded (a : Audit) : List Turn → List Turn
  | [] => []
  | t :: rest => if (a.serve t).1.isRefusal then heeded (a.step t) rest else t :: heeded (a.step t) rest

theorem heeded_refused {a : Audit} {t : Turn} (h : (a.serve t).1.isRefusal = true) (rest : List Turn) :
    a.heeded (t :: rest) = a.heeded rest := by
  obtain ⟨e, he⟩ := Answer.isRefusal_iff.1 h
  rw [heeded, if_pos h, step_refused he]

theorem heeded_served {a : Audit} {t : Turn} (h : ¬ (a.serve t).1.isRefusal = true) (rest : List Turn) :
    a.heeded (t :: rest) = t :: (a.step t).heeded rest := by
  rw [heeded, if_neg h]

theorem run_heeded (a : Audit) (turns : List Turn) : a.run (a.heeded turns) = a.run turns := by
  induction turns generalizing a with
  | nil => rfl
  | cons t rest ih =>
    by_cases h : (a.serve t).1.isRefusal = true
    · obtain ⟨e, he⟩ := Answer.isRefusal_iff.1 h
      have hstep : a.run (t :: rest) = (a.step t).run rest := rfl
      rw [heeded_refused h, ih, hstep, step_refused he]
    · rw [heeded_served h]
      exact ih (a.step t)

theorem trace_heeded (a : Audit) (turns : List Turn) :
    a.trace (a.heeded turns) = (a.trace turns).filter fun sight => !sight.answer.isRefusal := by
  -- on the requests, for any audit: a refused one is not seen on the left, and is filtered out on the right
  induction turns generalizing a with
  | nil => rfl
  | cons t rest ih =>
    by_cases h : (a.serve t).1.isRefusal = true
    · obtain ⟨e, he⟩ := Answer.isRefusal_iff.1 h
      rw [heeded_refused h, ih, trace, List.filter_cons_of_neg (by simp [h]), step_refused he]
    · rw [heeded_served h, trace, trace, List.filter_cons_of_pos (by simp [h]), ih]

/-- **A refused request leaves no trace.** Whatever was asked for before, on whatever lanes and of whatever system
allocator: if a block or another size of one is refused, for whatever reason, then the figures of each kind, the ledger,
the next id and all that is known of the blocks that are out are as they were, and whatever is asked for later is
answered as if the request had never been made. So the refused requests may be struck out of a run all at once: it ends
the same, and what is seen after each of the other requests is the same. -/
theorem refused_untraced (a : Audit) :
    (∀ t e, (a.serve t).1 = .block (.error e) →
      (a.step t).budget.stats = a.budget.stats ∧ (a.step t).budget.ledger = a.budget.ledger ∧
      (a.step t).budget.nextId = a.budget.nextId ∧ (a.step t).tenants = a.tenants ∧
      ∀ later, (a.step t).trace later = a.trace later) ∧
    ∀ turns, a.run (a.heeded turns) = a.run turns ∧
      a.trace (a.heeded turns) = (a.trace turns).filter fun sight => !sight.answer.isRefusal := by
  refine ⟨fun t e h => ?_, fun turns => ⟨run_heeded a turns, trace_heeded a turns⟩⟩
  rw [step_refused h]
  exact ⟨rfl, rfl, rfl, rfl, fun _ => rfl⟩

/-- A growth whose charge wraps the sum, so that only the system allocator refuses it; a request past the ceiling; and
one that no whole number of pages holds. Two blocks are out on two lanes, and a third asks. -/
theorem refused_untraced_thrice :
    let ceiling := signedBound - 1
    let lane : Lane := ⟨3, by decide⟩
    let a := (start 0 ceiling true).run
      [⟨.alloc .plain (some "kept") 1, .first, .standard⟩, ⟨.alloc .contiguous none 1, ⟨1, by decide⟩, .standard⟩]
    let wrapped : Turn := ⟨.resize 0 ceiling, lane, .standard⟩
    let beyond : Turn := ⟨.alloc .plain none signedBound, lane, .standard⟩
    let ragged : Turn := ⟨.alloc .contiguous none (sizeBound - 1), lane, .standard⟩
    (a.serve wrapped).1 = .block (.error (.exhausted (ceiling - 1))) ∧
      (a.step wrapped).tenants = a.tenants ∧ (a.step wrapped).budget.stats = a.budget.stats ∧
    (a.serve beyond).1 = .block (.error (.outOfMemory signedBound 4097 ceiling)) ∧
      (a.step beyond).budget.stats = a.budget.stats ∧
    (a.serve ragged).1 = .block (.error (.exhausted (sizeBound - 1))) ∧
      (a.step ragged).budget.nextId = a.budget.nextId ∧
    (a.heeded [wrapped, ⟨.write 1 0 [7], lane, .standard⟩, beyond, ragged]).length = 1 := by
  intro ceiling lane a wrapped beyond ragged
  have hwrapped : (a.serve wrapped).1 = .block (.error (.exhausted (ceiling - 1))) := by decide +kernel
  have hbeyond : (a.serve beyond).1 = .block (.error (.outOfMemory signedBound 4097 ceiling)) := by decide +kernel
  have hragged : (a.serve ragged).1 = .block (.error (.exhausted (sizeBound - 1))) := by decide +kernel
  obtain ⟨hrefused, -⟩ := refused_untraced a
  obtain ⟨hstats, -, -, htenants, -⟩ := hrefused wrapped _ hwrapped
  obtain ⟨hstats', -⟩ := hrefused beyond _ hbeyond
  obtain ⟨-, -, hnext, -⟩ := hrefused ragged _ hragged
  exact ⟨hwrapped, htenants, hstats, hbeyond, hstats', hragged, hnext, by decide +kernel⟩

end Audit

end Budget

end Patchbay
