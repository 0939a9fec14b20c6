import Patchbay.Proofs.Worker.Record

/-!
# `Proofs.Worker.Lifecycle` — every worker ends in order, and no stop is lost

However the calls of the owner and the steps of the body come after one another, the entry points are called in one
order, and a body that began its loop finalizes and tears down once. The state goes from stopped over running to none
and a shutdown is never forgotten: from then on the body is at its end within a few steps.

## Contents
* `Worker.Keeps`, `Course.Kept` — what steps keep; `Kept.step`, `Kept.run`;
* `Course.Orderly`, `run_calls_in_order` — the calls, and what launches answer;
* `Course.Heeding`, `run_heeds_shutdown` — the states, and what shutdowns answer;
* `Phase.stepsLeft`, `Kept.stepsLeft_step` — how far the body is from its end.
-/

namespace Patchbay

/-! ## What steps keep -/

namespace Worker

/-- A flag that is set stays set, and a body that has ended stays so. -/
structure Keeps (w w' : Worker) : Prop where
  cancelled : w.control.cancelled = true → w'.control.cancelled = true
  stopRequested : w.control.stopRequested = true → w'.control.stopRequested = true
  gone : w.phase = .gone → w'.phase = .gone

variable {w w' : Worker}

theorem keeps_launch (w : Worker) : w.Keeps w.launch.2 := by
  rcases w.launch_cases with ⟨failure, hfailed, -⟩ | ⟨-, -, hok⟩
  · rw [hfailed]
    exact ⟨id, id, id⟩
  · rw [hok]
    exact ⟨id, id, id⟩

theorem keeps_beginShutdown (w : Worker) : w.Keeps w.beginShutdown.2 := by
  rcases w.beginShutdown_cases with ⟨hbegin, -⟩ | ⟨-, -, -, hbegin⟩ | ⟨-, -, -, hbegin⟩
  · rw [hbegin]
    exact ⟨id, id, id⟩
  · rw [hbegin]
    exact ⟨fun _ => rfl, id, id⟩
  · rw [hbegin]
    exact ⟨id, fun _ => rfl, id⟩

theorem phase_launch (w : Worker) : w.launch.2.phase = w.phase := by
  rcases w.launch_cases with ⟨failure, hfailed, -⟩ | ⟨-, -, hok⟩
  · rw [hfailed]
  · rw [hok]

theorem phase_beginShutdown (w : Worker) : w.beginShutdown.2.phase = w.phase := by
  rcases w.beginShutdown_cases with ⟨hbegin, -⟩ | ⟨-, -, -, hbegin⟩ | ⟨-, -, -, hbegin⟩
  all_goals rw [hbegin]

theorem keeps_bodyStep {reply : Reply} (hstep : w.bodyStep? reply = some w') : w.Keeps w' := by
  cases goes_of_bodyStep hstep with
  | leaves _ => exact ⟨id, id, fun _ => rfl⟩
  | gives_up hphase | begins hphase | checks hphase => exact ⟨id, id, fun hp => by simp [hphase] at hp⟩
  | calls _ hphase | returns _ hphase => exact ⟨id, id, fun hp => by simp [hphase] at hp⟩

/-- What stands behind an answer of a shutdown. -/
def Backs (w : Worker) : Shutdown → Prop
  | .notRunning => True
  | .stopped => w.phase = .gone
  | .cancelled => w.control.cancelled = true
  | .timedOut => w.control.stopRequested = true

/-- What backs an answer still does while the flags are kept. -/
theorem Keeps.backs (h : w.Keeps w') {answer : Shutdown} (hbacks : w.Backs answer) : w'.Backs answer := by
  cases answer with
  | notRunning => trivial
  | stopped => exact h.gone hbacks
  | cancelled => exact h.cancelled hbacks
  | timedOut => exact h.stopRequested hbacks

end Worker

/-! ## How far the body is from its end -/

/-- How many steps the body is from its end, once it is told to stop. -/
def Phase.stepsLeft : Phase → Nat
  | .parked => 9
  | .before .startup | .before .iterate => 8
  | .inside .startup | .inside .iterate => 7
  | .checking => 6
  | .before .finalize => 5
  | .inside .finalize => 4
  | .before .teardown => 3
  | .inside .teardown => 2
  | .leaving => 1
  | .gone => 0

/-- From wherever it stands, a body has nine steps left at most. -/
theorem Phase.stepsLeft_le (phase : Phase) : phase.stepsLeft ≤ 9 := by
  cases phase with
  | before callback | inside callback => cases callback <;> decide
  | _ => decide

/-- A body with no step left is gone. -/
theorem Phase.gone_of_stepsLeft {phase : Phase} (h : phase.stepsLeft = 0) : phase = .gone := by
  cases phase with
  | gone => rfl
  | before callback | inside callback => cases callback <;> cases h
  | _ => cases h

/-- A reply brings the body nearer to its end. -/
theorem Worker.stepsLeft_afterReply (callback : Callback) (reply : Reply) :
    (Worker.afterReply callback reply).stepsLeft < (Phase.inside callback).stepsLeft := by
  cases callback <;> cases reply <;> decide

/-- A body whose owner called a shutdown has ended, or its next step brings it nearer to its end. -/
theorem Worker.Sound.stepsLeft_bodyStep {w : Worker} (h : w.Sound) (hattached : w.attached = false) (reply : Reply) :
    w.phase = .gone ∨ ∃ w', w.bodyStep? reply = some w' ∧ w'.phase.stepsLeft < w.phase.stepsLeft := by
  have hrunning : w.control.state ≠ .running := fun hs => by simp [(h.runs hs).2] at hattached
  unfold Worker.bodyStep?
  cases hphase : w.phase with
  | parked =>
    refine .inr ?_
    by_cases hcancelled : w.control.cancelled = true
    · exact ⟨_, if_pos hcancelled, by simp [Phase.stepsLeft]⟩
    · have hlaunched : w.control.launched = true := by
        rcases h.released hattached with hc | hr | hp
        · exact absurd hc hcancelled
        · exact (h.requested hr).1
        · simp [hphase] at hp
      exact ⟨_, (if_neg hcancelled).trans (if_pos hlaunched), by simp [Phase.stepsLeft]⟩
  | before callback =>
    refine .inr ⟨_, rfl, ?_⟩
    cases callback <;> simp [Phase.stepsLeft]
  | inside callback => exact .inr ⟨_, rfl, stepsLeft_afterReply callback reply⟩
  | checking => exact .inr ⟨_, rfl, by simp [hrunning, Phase.stepsLeft]⟩
  | leaving => exact .inr ⟨_, rfl, by simp [Phase.stepsLeft]⟩
  | gone => exact .inl rfl

namespace Course

variable {c : Course} {es : List Event}

theorem worker_ask (c : Course) : c.ask.worker = c.worker.beginShutdown.2 := by
  unfold ask
  split <;> simp [become, *]

theorem events_ask (c : Course) : c.events <+: c.ask.events := by
  unfold ask
  split <;> exact List.prefix_append _ _

/-- The worker agrees with what was seen, and the owner stands where the worker lets it. -/
structure Kept (c : Course) : Prop where
  recorded : c.worker.Recorded c.events
  waiting : c.owner = .waiting → c.worker.control.stopRequested = true
  returning : ∀ answer joins, c.owner = .returning answer joins →
    (Event.shutDown answer).Due c.events ∧ c.worker.Backs answer
  answered : ∀ answer, .shutDown answer ∈ c.events → c.worker.Backs answer

/-- An answer that was due is due after more, unless a shutdown is called again. -/
theorem due_append {answer : Shutdown} {new : List Event} (h : (Event.shutDown answer).Due es) (hnew : .asked ∉ new) :
    (Event.shutDown answer).Due (es ++ new) := by
  cases answer with
  | notRunning =>
    obtain ⟨earlier, since, rfl, hsince, hbefore⟩ := h
    refine ⟨earlier, since ++ new, by simp, ?_, hbefore⟩
    simp [hsince, hnew]
  | _ => trivial

theorem asked_notMem_turn (old new : WorkerState) : .asked ∉ turn old new := by
  unfold turn
  split <;> simp

theorem shutDown_notMem_turn (answer : Shutdown) (old new : WorkerState) : .shutDown answer ∉ turn old new := by
  unfold turn
  split <;> simp

/-- A step of the body shows neither that the owner asks nor what it is answered. -/
theorem seen_inner (phase : Phase) (reply : Reply) :
    .asked ∉ seen phase reply ∧ ∀ answer, .shutDown answer ∉ seen phase reply := by
  cases phase <;> simp [seen]

namespace Kept

/-- In the beginning the record is kept. -/
theorem new : Kept {} where
  recorded := .new
  waiting := nofun
  returning := nofun
  answered := nofun

/-- The worker changes while the owner stays where it is. -/
theorem become {w : Worker} {new : List Event} (h : c.Kept)
    (hrecorded : w.Recorded (c.events ++ (new ++ turn c.worker.state w.state))) (hkeeps : c.worker.Keeps w)
    (hasked : .asked ∉ new) (hanswer : ∀ answer, .shutDown answer ∉ new) : (c.become w new).Kept where
  recorded := hrecorded
  waiting := fun ho => hkeeps.stopRequested (h.waiting ho)
  returning := by
    intro answer joins ho
    obtain ⟨hdue, hbacks⟩ := h.returning answer joins ho
    exact ⟨due_append hdue (by simp [hasked, asked_notMem_turn]), hkeeps.backs hbacks⟩
  answered := by
    intro answer hin
    refine hkeeps.backs (h.answered answer ?_)
    rcases List.mem_append.1 hin with hold | hnew
    · exact hold
    · rcases List.mem_append.1 hnew with hnew | hturn
      · exact absurd hnew (hanswer answer)
      · exact absurd hturn (shutDown_notMem_turn answer _ _)

/-- It is kept through a launch. -/
theorem launch (h : c.Kept) : (c.become c.worker.launch.2 [.launched c.worker.launch.1]).Kept := by
  have hstate : turn c.worker.state c.worker.launch.2.state = [] := by
    rcases c.worker.launch_cases with ⟨failure, hfailed, -⟩ | ⟨-, -, hok⟩
    · rw [hfailed]
      exact turn_same _
    · rw [hok]
      exact turn_same _
  refine h.become ?_ c.worker.keeps_launch (by simp) (by simp)
  rw [hstate, List.append_nil]
  exact h.recorded.launch

/-- A shutdown is called. -/
theorem ask (h : c.Kept) : c.ask.Kept := by
  have hkeeps := c.worker.keeps_beginShutdown
  have hrecorded := h.recorded.ask
  have hanswered : ∀ answer, .shutDown answer ∈
      c.events ++ ([.asked] ++ turn c.worker.state c.worker.beginShutdown.2.state) →
        c.worker.beginShutdown.2.Backs answer := by
    intro answer hin
    refine hkeeps.backs (h.answered answer ?_)
    simpa [shutDown_notMem_turn] using hin
  unfold Course.ask
  rcases c.worker.beginShutdown_cases with ⟨hbegin, hlet⟩ | ⟨-, -, -, hbegin⟩ | ⟨-, -, -, hbegin⟩
  · rw [hbegin] at hrecorded hanswered ⊢
    refine ⟨hrecorded, ?_, ?_, hanswered⟩
    · intro hwaiting
      cases hwaiting
    · intro answer joins hreturning
      cases hreturning
      refine ⟨⟨c.events, [], by simp [Course.become, Worker.state], by simp, ?_⟩, trivial⟩
      rcases hlet with hattached | hnone
      · exact .inr (h.recorded.asked.2 hattached)
      · exact .inl (h.recorded.turned_none hnone)
  · rw [hbegin] at hrecorded hanswered ⊢
    refine ⟨hrecorded, ?_, ?_, hanswered⟩
    · intro hwaiting
      cases hwaiting
    · intro answer joins hreturning
      cases hreturning
      exact ⟨trivial, rfl⟩
  · rw [hbegin] at hrecorded hanswered ⊢
    refine ⟨hrecorded, fun _ => rfl, ?_, hanswered⟩
    intro answer joins hreturning
    cases hreturning

/-- It is kept when the owner has waited enough. -/
theorem stopWaiting (h : c.Kept) (hwaiting : c.owner = .waiting) (joins : Bool) :
    Kept { c.become c.worker.endShutdown.2 [] with owner := .returning c.worker.endShutdown.1 joins } := by
  have hturn : turn c.worker.state c.worker.endShutdown.2.state = [] := turn_same _
  have hstill : (c.become c.worker.endShutdown.2 []).Kept :=
    h.become (by simpa [hturn] using h.recorded.endShutdown) ⟨id, id, id⟩ (by simp) (by simp)
  refine ⟨hstill.recorded, nofun, ?_, hstill.answered⟩
  rintro answer joins ⟨⟩
  unfold Worker.endShutdown
  by_cases hnone : c.worker.control.state = .none
  · simp only [hnone]
    exact ⟨trivial, h.recorded.sound.ended.1 hnone⟩
  · simp only [hnone]
    exact ⟨trivial, h.waiting hwaiting⟩

/-- And when a shutdown is answered. -/
theorem answer (h : c.Kept) {answer : Shutdown} {joins : Bool} (hreturning : c.owner = .returning answer joins) :
    Kept { c with owner := .free, events := c.events ++ [.shutDown answer] } := by
  obtain ⟨hdue, hbacks⟩ := h.returning answer joins hreturning
  refine ⟨h.recorded.shutDown hdue, nofun, nofun, ?_⟩
  intro answer' hin
  rcases List.mem_append.1 hin with hold | hnew
  · exact h.answered answer' hold
  · obtain ⟨rfl⟩ := List.mem_singleton.1 hnew
    exact hbacks

/-- And through each step of the body. -/
theorem body {w : Worker} {reply : Reply} (h : c.Kept) (hreply : reply ≠ .panicked)
    (hstep : c.worker.bodyStep? reply = some w) : (c.become w (seen c.worker.phase reply)).Kept :=
  h.become (h.recorded.bodyStep hreply hstep) (Worker.keeps_bodyStep hstep) (seen_inner _ _).1 (seen_inner _ _).2

/-- One move keeps everything. -/
theorem step (h : c.Kept) {m : Move} (hm : m.Returns) : (c.step m).Kept := by
  cases m with
  | launch =>
    simp only [Course.step]
    split
    · exact h.launch
    · exact h
  | shutdown =>
    simp only [Course.step]
    split
    · exact h.ask
    · exact h
  | stopWaiting =>
    simp only [Course.step]
    split
    · rename_i hwaiting
      exact h.stopWaiting hwaiting _
    · exact h
  | answer =>
    simp only [Course.step]
    split
    · rename_i hreturning
      split
      · exact h.answer hreturning
      · exact h
    · exact h
  | drop =>
    simp only [Course.step]
    split
    · -- an owner that is dropped asks first, and waits for nothing
      have hlet : (if c.worker.attached then c.ask else c).Kept := by
        split
        · exact h.ask
        · exact h
      exact ⟨hlet.recorded, hlet.waiting, hlet.returning, hlet.answered⟩
    · exact h
  | body reply =>
    simp only [Course.step]
    split
    · exact h
    · rename_i hstep
      exact h.body (fun hr => hm (by rw [hr])) hstep

/-- So do all moves of a run. -/
theorem run (h : c.Kept) {moves : List Move} (hmoves : ∀ m ∈ moves, m.Returns) : (c.run moves).Kept := by
  induction moves generalizing c with
  | nil => exact h
  | cons m moves ih =>
    have hfirst := h.step (hmoves m List.mem_cons_self)
    exact ih hfirst fun m' hm' => hmoves m' (List.mem_cons_of_mem m hm')

end Kept

/-! ## The calls -/

/-- The calls that were made so far begin a course. -/
theorem Kept.callbacks_begin_course (h : c.Kept) : ∃ k, c.callbacks <+: Callback.course k := by
  have hcalls : c.callbacks = c.worker.calls := h.recorded.calls
  rw [hcalls]
  by_cases hcancelled : c.worker.control.cancelled = true
  · exact ⟨0, by simp [(h.recorded.sound.cancelled hcancelled).2.2.1]⟩
  · exact (h.recorded.sound.reached (by simpa using hcancelled)).begins_course

/-- The order of the calls, and what launches answer. -/
structure Orderly (c : Course) : Prop where
  /-- The calls that were seen are those of the worker, -/
  calls : c.callbacks = c.worker.calls
  /-- and so far they begin a course. -/
  ordered : ∃ k, c.callbacks <+: Callback.course k
  silent : .launched (.ok ()) ∉ c.events → c.callbacks = []
  /-- No iteration begins once the loop is over. -/
  ended : ∀ before, before ++ [.called .iterate] <+: c.events → ∀ e ∈ before, ¬ e.EndsLoop
  /-- A body that was launched has ended behind a whole course. -/
  finished : .exited ∈ c.events → .launched (.ok ()) ∈ c.events → ∃ k, c.callbacks = Callback.course k
  once : c.events.count (.launched (.ok ())) ≤ 1
  answers : ∀ before answer, before ++ [.launched answer] <+: c.events → answer = launchDue before
  cancelled : .shutDown .cancelled ∈ c.events → c.callbacks = []

/-- **Every worker ends in order.** Whatever the owner calls and however the body's steps fall between, the calls so
far begin a course of startup, iterations, finalize and teardown; none is made without a launch that succeeded, or
where a shutdown answered that it cancelled; and a body that was launched ends with the whole course behind it. -/
theorem run_calls_in_order (moves : List Move) (hmoves : ∀ m ∈ moves, m.Returns) :
    (({} : Course).run moves).Orderly := by
  have h := Kept.new.run hmoves
  generalize ({} : Course).run moves = c at h
  have hcalls : c.callbacks = c.worker.calls := h.recorded.calls
  have hsound := h.recorded.sound
  have hunlaunched : c.worker.control.launched = false → c.callbacks = [] := fun hl =>
    hcalls.trans (hsound.unlaunched hl)
  exact {
    calls := hcalls
    ordered := h.callbacks_begin_course
    silent := fun hnot => hunlaunched (by simpa using mt h.recorded.launched.2 hnot)
    ended := fun before hbegins => h.recorded.traced before _ hbegins
    finished := by
      intro hexited hlaunched
      rw [h.recorded.launched] at hlaunched
      have hcancelled : c.worker.control.cancelled = false := by
        by_contra hc
        simp [(hsound.cancelled (by simpa using hc)).1] at hlaunched
      have hreached := hsound.reached hcancelled
      rw [h.recorded.exited.1 hexited] at hreached
      rw [hcalls]
      exact hreached
    once := h.recorded.traced.count_launched_le
    answers := fun before answer hbegins => h.recorded.traced before _ hbegins
    cancelled := fun hin => hunlaunched (hsound.cancelled (h.answered _ hin)).1 }

/-- A loop that completes in its first iteration; the second launch is refused, and a shutdown comes too late. -/
theorem run_calls_in_order_completed :
    (({} : Course).run [.launch, .launch, .body .done, .body .done, .body .done, .body .done, .body .done,
        .body .completed, .body .done, .body .done, .body .done, .body .done, .body .done, .shutdown,
        .answer]).callbacks = Callback.course 1 ∧
      (({} : Course).run [.launch, .launch, .body .done, .body .done, .body .done, .body .done, .body .done,
          .body .completed, .body .done, .body .done, .body .done, .body .done, .body .done, .shutdown,
          .answer]).Orderly :=
  ⟨by decide +kernel, run_calls_in_order _ (by simp [Move.Returns])⟩

/-! ## The states -/

/-- One state comes behind another. -/
def Follows : WorkerState → WorkerState → Prop
  | .stopped, .running | .running, .stopped | .stopped, .none | .running, .none => True
  | _, _ => False

namespace Turned

variable {turns : List WorkerState} {state : WorkerState}

theorem getLastD_eq (h : Turned turns state) : turns.getLastD .stopped = state := by
  cases state with
  | running => rw [h]; rfl
  | stopped => rcases h with rfl | rfl <;> rfl
  | none => rcases h with rfl | rfl | rfl <;> rfl

/-- States follow one another as they may. -/
theorem isChain (h : Turned turns state) : (.stopped :: turns).IsChain Follows := by
  cases state with
  | running => rw [h]; simp [Follows]
  | stopped => rcases h with rfl | rfl <;> simp [Follows]
  | none => rcases h with rfl | rfl | rfl <;> simp [Follows]

/-- A body runs once at most. -/
theorem count_running_le (h : Turned turns state) : turns.count .running ≤ 1 := by
  cases state with
  | running => rw [h]; decide
  | stopped => rcases h with rfl | rfl <;> decide
  | none => rcases h with rfl | rfl | rfl <;> decide

end Turned

/-! ## No stop is lost -/

/-- The body makes a step. -/
def Move.isBody : Move → Bool
  | .body _ => true
  | _ => false

/-- The states, and what shutdowns answer. -/
structure Heeding (c : Course) : Prop where
  state : c.worker.state = c.turns.getLastD .stopped
  follows : (.stopped :: c.turns).IsChain Follows
  once : c.turns.count .running ≤ 1
  /-- It runs behind a launch, and unless a shutdown was called. -/
  runs : ∀ before, before ++ [.turned .running] <+: c.events → .launched (.ok ()) ∈ before ∧ .asked ∉ before
  /-- A shutdown stops it, -/
  stops : ∀ before, before ++ [.turned .stopped] <+: c.events → [.asked] <:+ before
  /-- and the end of the body ends it. -/
  ends : ∀ before, before ++ [.turned .none] <+: c.events → [.exited] <:+ before
  quiet : .asked ∈ c.events → c.worker.state ≠ .running
  spared : ∀ since, .asked :: since <:+ c.events → since.count (.called .iterate) ≤ 1
  /-- The shutdown that answers so came behind the end of the body or another shutdown. -/
  notRunning : ∀ before, before ++ [.shutDown .notRunning] <+: c.events → ∃ earlier since,
    before = earlier ++ .asked :: since ∧ .asked ∉ since ∧ (.turned .none ∈ earlier ∨ .asked ∈ earlier)
  cancelled : .shutDown .cancelled ∈ c.events → .launched (.ok ()) ∉ c.events
  stopped : .shutDown .stopped ∈ c.events → c.worker.state = .none
  timedOut : .shutDown .timedOut ∈ c.events → c.worker.control.stopRequested = true
  /-- Behind a shutdown nine more steps of the body end it. -/
  heeded : .asked ∈ c.events → ∀ later, (∀ m ∈ later, m.Returns) → 9 ≤ later.countP Move.isBody →
    (c.run later).worker.phase = .gone

/-- Moves only add to what was seen. -/
theorem events_step (c : Course) (m : Move) : c.events <+: (c.step m).events := by
  cases m with
  | launch | stopWaiting =>
    simp only [step]
    split
    · exact List.prefix_append _ _
    · exact List.prefix_rfl
  | shutdown =>
    simp only [step]
    split
    · exact c.events_ask
    · exact List.prefix_rfl
  | answer =>
    simp only [step]
    split
    · split
      · exact List.prefix_append _ _
      · exact List.prefix_rfl
    · exact List.prefix_rfl
  | drop =>
    simp only [step]
    split
    · dsimp only
      split
      · exact c.events_ask
      · exact List.prefix_rfl
    · exact List.prefix_rfl
  | body reply =>
    simp only [step]
    split
    · exact List.prefix_rfl
    · exact List.prefix_append _ _

/-- Only the body's steps move it. -/
theorem phase_step (c : Course) {m : Move} (hm : m.isBody = false) : (c.step m).worker.phase = c.worker.phase := by
  cases m with
  | launch =>
    simp only [step]
    split
    · exact c.worker.phase_launch
    · rfl
  | shutdown =>
    simp only [step]
    split
    · rw [worker_ask, Worker.phase_beginShutdown]
    · rfl
  | stopWaiting | answer =>
    simp only [step]
    repeat' split
    all_goals rfl
  | drop =>
    simp only [step]
    split
    · dsimp only
      split
      · rw [worker_ask, Worker.phase_beginShutdown]
      · rfl
    · rfl
  | body reply => cases hm

/-- Behind a shutdown a step of the body brings it nearer to its end, and no other move takes it away from there. -/
theorem Kept.stepsLeft_step (h : c.Kept) (hasked : .asked ∈ c.events) (m : Move) :
    (c.step m).worker.phase.stepsLeft ≤ c.worker.phase.stepsLeft - [m].countP Move.isBody := by
  cases hbody : m.isBody with
  | false => simp [hbody, phase_step c hbody]
  | true =>
    cases m with
    | body reply =>
      rw [List.countP_singleton, if_pos hbody]
      simp only [Course.step]
      rcases h.recorded.sound.stepsLeft_bodyStep (h.recorded.asked.1 hasked) reply with hgone | ⟨w, hstep, hless⟩
      · rw [show c.worker.bodyStep? reply = none by rw [Worker.bodyStep?, hgone]]
        simp [hgone, Phase.stepsLeft]
      · rw [hstep]
        exact Nat.le_sub_one_of_lt hless
    | _ => cases hbody

/-- So do as many steps as the body is from its end. -/
theorem Kept.stepsLeft_run (h : c.Kept) (hasked : .asked ∈ c.events) {moves : List Move}
    (hmoves : ∀ m ∈ moves, m.Returns) :
    (c.run moves).worker.phase.stepsLeft ≤ c.worker.phase.stepsLeft - moves.countP Move.isBody := by
  induction moves generalizing c with
  | nil => exact Nat.le_refl _
  | cons m moves ih =>
    have hfirst := h.stepsLeft_step hasked m
    have hrest := ih (h.step (hmoves m List.mem_cons_self)) ((events_step c m).subset hasked) fun m' hm' =>
      hmoves m' (List.mem_cons_of_mem m hm')
    have hcount : ([m] ++ moves).countP Move.isBody = [m].countP Move.isBody + moves.countP Move.isBody :=
      List.countP_append
    rw [List.singleton_append] at hcount
    change ((c.step m).run moves).worker.phase.stepsLeft ≤ _
    omega

/-- **No stop is lost.** Whatever the owner calls and however the body's steps fall between, the state goes from
stopped to running at most once, behind a launch and with no shutdown called, and it ends as none; what a shutdown
answers is so; and a shutdown is heeded: at most one iteration begins behind it, and nine more steps end the body. -/
theorem run_heeds_shutdown (moves : List Move) (hmoves : ∀ m ∈ moves, m.Returns) :
    (({} : Course).run moves).Heeding := by
  have h := Kept.new.run hmoves
  generalize ({} : Course).run moves = c at h
  have hsound := h.recorded.sound
  exact {
    state := h.recorded.turned.getLastD_eq.symm
    follows := h.recorded.turned.isChain
    once := h.recorded.turned.count_running_le
    runs := fun before hbegins => h.recorded.traced before _ hbegins
    stops := fun before hbegins => h.recorded.traced before _ hbegins
    ends := fun before hbegins => h.recorded.traced before _ hbegins
    quiet := fun hasked hs => by simp [(hsound.runs hs).2, h.recorded.asked] at hasked
    spared := fun since hsuffix => Nat.le_trans (Nat.le_add_right _ _) (h.recorded.spared since hsuffix)
    notRunning := fun before hbegins => h.recorded.traced before _ hbegins
    cancelled := fun hin hlaunched => by
      simp [(hsound.cancelled (h.answered _ hin)).1, h.recorded.launched] at hlaunched
    stopped := fun hin => hsound.ended.2 (h.answered _ hin)
    timedOut := fun hin => h.answered _ hin
    heeded := by
      intro hasked later hlater hnine
      have hleft := h.stepsLeft_run hasked hlater
      have hbound := c.worker.phase.stepsLeft_le
      exact Phase.gone_of_stepsLeft (by omega) }

/-- A shutdown during the startup, which the body heeds before its first iteration. -/
theorem run_heeds_shutdown_early :
    (({} : Course).run [.launch, .body .done, .body .done, .shutdown, .body .done, .body .done, .body .done,
        .body .done, .body .done, .body .done, .body .done, .stopWaiting, .answer,
        .launch]).turns = [.running, .stopped, .none] ∧
      (({} : Course).run [.launch, .body .done, .body .done, .shutdown, .body .done, .body .done, .body .done,
          .body .done, .body .done, .body .done, .body .done, .stopWaiting, .answer,
          .launch]).Heeding :=
  ⟨by decide +kernel, run_heeds_shutdown _ (by simp [Move.Returns])⟩

end Course

end Patchbay
