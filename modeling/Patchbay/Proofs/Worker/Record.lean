import Mathlib.Data.List.Induction
import Patchbay.Proofs.Worker.Course

/-!
# `Proofs.Worker.Record` — what was seen of a worker tells where it stands

The events that owner and consumer saw settle the flags: whether the worker was launched, whether its owner let go of
it, whether its body has ended. In turn every event is due when it comes, by what was seen before it.

## Contents
* `Event.EndsLoop`, `Event.Due`, `Course.Traced` — what has to go before an event;
* `Course.Turned` — the states that were come to, by the state that they end in;
* `Worker.Recorded` — events and worker agree; `Recorded.launch` and its kin keep it.
-/

namespace Patchbay

/-- The loop is over. -/
def Phase.IsPastLoop : Phase → Prop
  | .before .finalize | .inside .finalize | .before .teardown | .inside .teardown | .leaving | .gone => True
  | _ => False

namespace Course

variable {es before : List Event} {e : Event}

@[simp] theorem turn_same (state : WorkerState) : turn state state = [] := if_pos rfl

/-! ## Events and what goes before them -/

/-- An entry point returned in a way that ends the loop, or keeps it from beginning. -/
def Event.EndsLoop : Event → Prop
  | .returned .startup .failed | .returned .iterate .completed => True
  | _ => False

/-- Somebody tried to launch the worker. -/
def Event.isLaunch : Event → Bool
  | .launched _ => true
  | _ => false

/-- The owner makes a call, or one returns. -/
def Event.IsCall : Event → Prop
  | .launched _ | .asked | .shutDown _ => True
  | _ => False

/-- The consumer sees it, and the owner does not. -/
def Event.IsInner : Event → Prop
  | .called _ | .returned _ _ => True
  | _ => False

/-- What a launch answers after some events: the first one succeeds, unless a shutdown was called. -/
def launchDue (before : List Event) : Except WorkerFailure Unit :=
  if .asked ∈ before then .error .notInitialized
  else if before.any Event.isLaunch then .error .alreadyLaunched
  else .ok ()

/-- What has to go before an event. -/
def Event.Due (before : List Event) : Event → Prop
  | .launched answer => answer = launchDue before
  | .shutDown .notRunning =>
    ∃ earlier since, before = earlier ++ .asked :: since ∧ .asked ∉ since ∧
      (.turned .none ∈ earlier ∨ .asked ∈ earlier)
  | .called .iterate => ∀ e ∈ before, ¬ e.EndsLoop
  | .turned .running => .launched (.ok ()) ∈ before ∧ .asked ∉ before
  | .turned .stopped => [.asked] <:+ before
  | .turned .none => [.exited] <:+ before
  | _ => True

/-- Every event is due when it comes. -/
def Traced (es : List Event) : Prop :=
  ∀ before e, before ++ [e] <+: es → e.Due before

theorem Traced.nil : Traced [] := fun before e h => by simp at h

theorem Traced.snoc (h : Traced es) (he : e.Due es) : Traced (es ++ [e]) := by
  intro before e' hbegins
  rcases List.prefix_concat_iff.1 hbegins with heq | hold
  · obtain ⟨rfl, rfl⟩ := List.append_inj' heq rfl |>.imp_right List.singleton_inj.1
    exact he
  · exact h before e' hold

/-- No second launch succeeds. -/
theorem Traced.count_launched_le (h : Traced es) : es.count (.launched (.ok ())) ≤ 1 := by
  induction es using List.reverseRecOn with
  | nil => simp
  | append_singleton es e ih =>
    have hbefore : es.count (.launched (.ok ())) ≤ 1 :=
      ih fun before e' hbegins => h before e' (hbegins.trans (List.prefix_append es [e]))
    rw [List.count_append]
    by_cases he : e = .launched (.ok ())
    · subst he
      have hdue : .ok () = launchDue es := h es _ List.prefix_rfl
      have hnone : es.count (.launched (.ok ())) = 0 := by
        refine List.count_eq_zero.2 fun hin => ?_
        have hany : es.any Event.isLaunch = true := List.any_eq_true.2 ⟨_, hin, rfl⟩
        unfold launchDue at hdue
        rw [hany] at hdue
        split at hdue <;> cases hdue
      simp [hnone]
    · simpa [List.count_singleton, he] using hbefore

/-- The states that were come to end in one. -/
def Turned (turns : List WorkerState) : WorkerState → Prop
  | .running => turns = [.running]
  | .stopped => turns = [] ∨ turns = [.running, .stopped]
  | .none => turns = [.none] ∨ turns = [.running, .none] ∨ turns = [.running, .stopped, .none]

theorem Turned.same {turns new : List WorkerState} {state : WorkerState} (h : Turned turns state) (hnew : new = []) :
    Turned (turns ++ new) state := by
  rwa [hnew, List.append_nil]

theorem Turned.leave {turns : List WorkerState} {state : WorkerState} (h : Turned turns state)
    (hstate : state ≠ .none) : Turned (turns ++ [.none]) .none := by
  cases state with
  | none => exact absurd rfl hstate
  | running =>
    obtain rfl := h
    exact .inr (.inl rfl)
  | stopped =>
    rcases h with rfl | rfl
    · exact .inl rfl
    · exact .inr (.inr rfl)

/-- One if an iteration is about to begin, else zero. -/
def pending (phase : Phase) : Nat := if phase = .before .iterate then 1 else 0

/-- Since a shutdown was called at most one iteration began or is about to. -/
def Spared (es : List Event) (phase : Phase) : Prop :=
  ∀ since, .asked :: since <:+ es → since.count (.called .iterate) + pending phase ≤ 1

theorem Spared.ask (phase : Phase) (h : Spared es phase) : Spared (es ++ [.asked]) phase := by
  intro since hsuffix
  obtain ⟨rest, heq, hrest⟩ := (List.suffix_concat_iff.1 hsuffix).resolve_left nofun
  cases rest with
  | nil =>
    obtain rfl := (List.cons.inj heq).2
    unfold pending
    split <;> simp
  | cons first rest =>
    obtain ⟨rfl, rfl⟩ := List.cons.inj heq
    simpa [List.count_append] using h rest hrest

/-- Behind a shutdown an iteration only begins that was about to. -/
theorem Spared.snoc {phase phase' : Phase} (h : Spared es phase) (he : e ≠ .asked)
    (hle : .asked ∈ es → [e].count (.called .iterate) + pending phase' ≤ pending phase) :
    Spared (es ++ [e]) phase' := by
  intro since hsuffix
  obtain ⟨rest, heq, hrest⟩ := (List.suffix_concat_iff.1 hsuffix).resolve_left nofun
  cases rest with
  | nil => exact absurd (List.cons.inj heq).1.symm he
  | cons first rest =>
    obtain ⟨rfl, rfl⟩ := List.cons.inj heq
    have hbefore := h rest hrest
    have hafter := hle (hrest.subset List.mem_cons_self)
    have hcount : (rest ++ [e]).count (.called .iterate) =
        rest.count (.called .iterate) + [e].count (.called .iterate) := List.count_append
    change (rest ++ [e]).count (.called .iterate) + _ ≤ 1
    omega

theorem Spared.move {phase phase' : Phase} (h : Spared es phase)
    (hle : .asked ∈ es → pending phase' ≤ pending phase) : Spared es phase' := by
  intro since hsuffix
  have hbefore := h since hsuffix
  have hafter := hle (hsuffix.subset List.mem_cons_self)
  omega

end Course

open Course

/-- What was seen agrees with where a worker stands. -/
structure Worker.Recorded (w : Worker) (es : List Event) : Prop where
  sound : w.Sound
  calls : es.filterMap Event.callback? = w.calls
  traced : Traced es
  launched : .launched (.ok ()) ∈ es ↔ w.control.launched = true
  /-- Without a shutdown, the first launch succeeded. -/
  tried : .asked ∉ es → (es.any Event.isLaunch = true ↔ w.control.launched = true)
  asked : .asked ∈ es ↔ w.attached = false
  exited : .exited ∈ es ↔ w.phase = .gone
  turned : Turned (es.filterMap Event.state?) w.control.state
  quiet : w.phase = .parked → es.filterMap Event.state? = []
  looped : ∀ e ∈ es, e.EndsLoop → w.phase.IsPastLoop
  spared : Spared es w.phase

/-- What changes in a worker shows in what is seen. -/
structure Worker.Shows (w w' : Worker) (new : List Event) : Prop where
  calls : w'.calls = w.calls ++ new.filterMap Event.callback?
  launched : w'.control.launched = true ↔ .launched (.ok ()) ∈ new ∨ w.control.launched = true
  /-- A launch is refused only where one succeeded before, or a shutdown was called. -/
  tried : new.any Event.isLaunch = true → w'.control.launched = true ∨ w'.attached = false
  asked : w'.attached = false ↔ .asked ∈ new ∨ w.attached = false
  exited : w'.phase = .gone ↔ .exited ∈ new ∨ w.phase = .gone
  parked : w'.phase = .parked → w.phase = .parked ∧ new.filterMap Event.state? = []
  looped : ∀ e ∈ new, e.EndsLoop → w'.phase.IsPastLoop
  past : w.phase.IsPastLoop → w'.phase.IsPastLoop

namespace Worker.Recorded

variable {w : Worker} {es : List Event}

theorem new : Recorded {} [] where
  sound := .new
  calls := rfl
  traced := .nil
  launched := by simp
  tried := by simp
  asked := by simp
  exited := by simp
  turned := .inl rfl
  quiet := fun _ => rfl
  looped := by simp
  spared := fun since h => by simp at h

/-- More was seen, and the worker has changed with it. -/
theorem append {w' : Worker} {new : List Event} (h : w.Recorded es) (hshows : w.Shows w' new) (hsound : w'.Sound)
    (htraced : Traced (es ++ new))
    (hturned : Turned (es.filterMap Event.state? ++ new.filterMap Event.state?) w'.control.state)
    (hspared : Spared (es ++ new) w'.phase) : w'.Recorded (es ++ new) where
  sound := hsound
  calls := by rw [List.filterMap_append, h.calls, hshows.calls]
  traced := htraced
  launched := by rw [List.mem_append, h.launched, hshows.launched, or_comm]
  tried := by
    intro hnot
    rw [List.mem_append, not_or] at hnot
    rw [List.any_append, Bool.or_eq_true, h.tried hnot.1, hshows.launched]
    constructor
    · rintro (hl | hnew)
      · exact .inr hl
      · refine hshows.launched.1 ((hshows.tried hnew).resolve_right fun ha => ?_)
        rcases hshows.asked.1 ha with hin | hwas
        · exact hnot.2 hin
        · exact hnot.1 (h.asked.2 hwas)
    · rintro (hin | hl)
      · exact .inr (List.any_eq_true.2 ⟨_, hin, rfl⟩)
      · exact .inl hl
  asked := by rw [List.mem_append, h.asked, hshows.asked, or_comm]
  exited := by rw [List.mem_append, h.exited, hshows.exited, or_comm]
  turned := by rwa [List.filterMap_append]
  quiet := by
    intro hp
    obtain ⟨hparked, hnone⟩ := hshows.parked hp
    rw [List.filterMap_append, h.quiet hparked, hnone, List.nil_append]
  looped := by
    intro e he hends
    rcases List.mem_append.1 he with hold | hnew
    · exact hshows.past (h.looped e hold hends)
    · exact hshows.looped e hnew hends
  spared := hspared

/-- A body that has ended was seen to end. -/
theorem turned_none (h : w.Recorded es) (hnone : w.control.state = .none) : .turned .none ∈ es := by
  have hturned := h.turned
  rw [hnone] at hturned
  have hin : WorkerState.none ∈ es.filterMap Event.state? := by
    rcases hturned with heq | heq | heq <;> simp [heq]
  obtain ⟨e, he, hstate⟩ := List.mem_filterMap.1 hin
  cases e with
  | turned state =>
    cases hstate
    exact he
  | _ => cases hstate

/-! ## The owner's calls -/

/-- A launch answers what is due. -/
theorem launchDue_eq (h : w.Recorded es) : w.launch.1 = launchDue es := by
  unfold Worker.launch launchDue
  by_cases hasked : .asked ∈ es
  · simp [hasked, h.asked.1 hasked]
  · have hattached : w.attached = true := by simpa using mt h.asked.2 hasked
    have htried := h.tried hasked
    by_cases hlaunched : w.control.launched = true
    · simp [hasked, hattached, hlaunched, htried.2 hlaunched]
    · simp [hasked, hattached, hlaunched, mt htried.1 hlaunched]

/-- The owner does something that neither moves the body nor changes the state. -/
theorem call {w' : Worker} (h : w.Recorded es) (hsound : w'.Sound) (hdue : e.Due es) (hcall : e.IsCall)
    (hlaunched : w'.control.launched = true ↔ e = .launched (.ok ()) ∨ w.control.launched = true)
    (htried : e.isLaunch = true → w'.control.launched = true ∨ w'.attached = false)
    (hasked : w'.attached = false ↔ e = .asked ∨ w.attached = false) (hcalls : w'.calls = w.calls)
    (hphase : w'.phase = w.phase) (hstate : w'.control.state = w.control.state) : w'.Recorded (es ++ [e]) := by
  have hcallback : [e].filterMap Event.callback? = [] := by
    cases e <;> first | rfl | exact hcall.elim
  have hturn : [e].filterMap Event.state? = [] := by
    cases e <;> first | rfl | exact hcall.elim
  have hmem (x : Event) : e = x ↔ x ∈ [e] := by rw [List.mem_singleton, eq_comm]
  have hexited : e ≠ .exited := by
    rintro rfl
    exact hcall
  have hends : ¬ e.EndsLoop := by
    cases e <;> first | exact id | exact hcall.elim
  have hspared : Spared (es ++ [e]) w.phase := by
    cases e with
    | asked => exact h.spared.ask w.phase
    | launched _ | shutDown _ => exact h.spared.snoc nofun fun _ => by simp
    | _ => exact hcall.elim
  refine h.append ?_ hsound (h.traced.snoc hdue) (hstate ▸ h.turned.same hturn) (hphase ▸ hspared)
  exact {
    calls := by rw [hcallback, List.append_nil, hcalls]
    launched := hlaunched.trans (or_congr_left (hmem _))
    tried := by simpa using htried
    asked := hasked.trans (or_congr_left (hmem _))
    exited := by simp [hphase, hexited.symm]
    parked := fun hp => ⟨hphase ▸ hp, hturn⟩
    looped := by simp [hends]
    past := fun hp => hphase ▸ hp }

theorem launch (h : w.Recorded es) : w.launch.2.Recorded (es ++ [.launched w.launch.1]) := by
  have hsound := h.sound.launch
  have hdue : (Event.launched w.launch.1).Due es := h.launchDue_eq
  rcases w.launch_cases with ⟨failure, hfailed, hwas⟩ | ⟨hattached, hlaunched, hok⟩
  · rw [hfailed] at hsound hdue ⊢
    exact h.call hsound hdue trivial (by simp) (fun _ => hwas) (by simp) rfl rfl rfl
  · rw [hok] at hsound hdue ⊢
    exact h.call hsound hdue trivial (by simp) (by simp) (by simp) rfl rfl rfl

/-- A shutdown that has ended returns. -/
theorem shutDown (h : w.Recorded es) {answer : Shutdown} (hdue : (Event.shutDown answer).Due es) :
    w.Recorded (es ++ [.shutDown answer]) :=
  h.call h.sound hdue trivial (by simp) (by simp [Event.isLaunch]) (by simp) rfl rfl rfl

/-- The wait of a shutdown leaves nothing to be seen. -/
theorem endShutdown (h : w.Recorded es) : w.endShutdown.2.Recorded es :=
  ⟨h.sound.endShutdown, h.calls, h.traced, h.launched, h.tried, h.asked, h.exited, h.turned, h.quiet, h.looped,
    h.spared⟩

theorem ask (h : w.Recorded es) :
    w.beginShutdown.2.Recorded (es ++ ([.asked] ++ turn w.state w.beginShutdown.2.state)) := by
  have hsound := h.sound.beginShutdown
  have hcall {w' : Worker} (hsound : w'.Sound) (hlaunched : w'.control.launched = w.control.launched)
      (hattached : w'.attached = false) (hcalls : w'.calls = w.calls) (hphase : w'.phase = w.phase)
      (hstate : w'.control.state = w.control.state) : w'.Recorded (es ++ ([.asked] ++ turn w.state w'.state)) := by
    rw [Worker.state, Worker.state, hstate, turn_same, List.append_nil]
    exact h.call hsound trivial trivial (by simp [hlaunched]) nofun (by simp [hattached]) hcalls hphase hstate
  rcases w.beginShutdown_cases with ⟨hbegin, -⟩ | ⟨-, -, -, hbegin⟩ | ⟨hattached, hnone, -, hbegin⟩
  · rw [hbegin] at hsound ⊢
    exact hcall hsound rfl rfl rfl rfl rfl
  · rw [hbegin] at hsound ⊢
    exact hcall hsound rfl rfl rfl rfl rfl
  rw [hbegin] at hsound ⊢
  cases hstate : w.control.state with
  | none => exact absurd hstate hnone
  | stopped => exact hcall hsound rfl rfl rfl rfl hstate.symm
  | running =>
    -- the state changes with the call
    have hturns : es.filterMap Event.state? = [.running] := by
      have := h.turned
      rwa [hstate] at this
    have hparked : w.phase ≠ .parked := fun hp => by simp [h.quiet hp] at hturns
    have hasked : Traced (es ++ [.asked]) := h.traced.snoc trivial
    have htraced : Traced (es ++ [.asked] ++ [.turned .stopped]) := hasked.snoc (List.suffix_append es [.asked])
    have hspared : Spared (es ++ [.asked] ++ [.turned .stopped]) w.phase :=
      (h.spared.ask w.phase).snoc nofun fun _ => by simp
    rw [List.append_assoc] at htraced hspared
    have hturn : turn w.state .stopped = [.turned .stopped] := if_neg fun hs => by simp [Worker.state, hstate] at hs
    change Recorded _ (es ++ ([.asked] ++ turn w.state .stopped))
    rw [hturn]
    refine h.append ?_ hsound htraced (.inr (by rw [hturns]; rfl)) hspared
    exact {
      calls := (List.append_nil _).symm
      launched := by simp
      tried := by simp [Event.isLaunch]
      asked := by simp
      exited := by simp
      parked := fun hp => absurd hp hparked
      looped := by simp [Event.EndsLoop]
      past := id }

/-! ## The steps of the body -/

/-- The body goes on, and the state stays. -/
theorem goOn {phase : Phase} {calls : List Callback} {new : List Event} (h : w.Recorded es)
    (hsound : Sound { w with phase := phase, calls := calls }) (htraced : Traced (es ++ new))
    (hcalls : calls = w.calls ++ new.filterMap Event.callback?) (hinner : ∀ e ∈ new, e.IsInner)
    (hgone : phase ≠ .gone) (hwas : w.phase ≠ .gone) (hparked : phase ≠ .parked)
    (hlooped : ∀ e ∈ new, e.EndsLoop → phase.IsPastLoop) (hpast : w.phase.IsPastLoop → phase.IsPastLoop)
    (hspared : Spared (es ++ new) phase) : Recorded { w with phase := phase, calls := calls } (es ++ new) := by
  have hturn : new.filterMap Event.state? = [] := by
    refine List.filterMap_eq_nil_iff.2 fun e hin => ?_
    cases e with
    | turned state => exact (hinner _ hin).elim
    | _ => rfl
  refine h.append ?_ hsound htraced (h.turned.same hturn) hspared
  exact {
    calls := hcalls
    launched := ⟨.inr, fun hl => hl.resolve_left fun hin => hinner _ hin⟩
    tried := by
      intro hany
      obtain ⟨e, hin, he⟩ := List.any_eq_true.1 hany
      cases e with
      | launched answer => exact (hinner _ hin).elim
      | _ => cases he
    asked := ⟨.inr, fun ha => ha.resolve_left fun hin => hinner _ hin⟩
    exited := iff_of_false hgone fun hin => hin.elim (fun hin => hinner _ hin) hwas
    parked := fun hp => absurd hp hparked
    looped := hlooped
    past := hpast }

/-- The body goes on, and nothing is seen. -/
theorem move {phase : Phase} (h : w.Recorded es) (hsound : Sound { w with phase := phase }) (hgone : phase ≠ .gone)
    (hwas : w.phase ≠ .gone) (hparked : phase ≠ .parked) (hpast : w.phase.IsPastLoop → phase.IsPastLoop)
    (hspared : .asked ∈ es → pending phase ≤ pending w.phase) : Recorded { w with phase := phase } es := by
  have hmoved : Recorded { w with phase := phase } (es ++ []) :=
    h.goOn hsound (by simpa using h.traced) (List.append_nil _).symm nofun hgone hwas hparked nofun hpast
      (by simpa using h.spared.move hspared)
  simpa using hmoved

/-- A launched body begins. If no shutdown came first, the state becomes running, and that is seen. -/
theorem begun (h : w.Recorded es) (hphase : w.phase = .parked) (hcancelled : w.control.cancelled = false)
    (hlaunched : w.control.launched = true) {state : WorkerState}
    (hstate : state = if w.control.stopRequested then w.control.state else .running)
    (hsound : Sound { w with control := { w.control with state := state }, phase := .before .startup }) :
    Recorded { w with control := { w.control with state := state }, phase := .before .startup }
      (es ++ turn w.state state) := by
  by_cases hrequested : w.control.stopRequested = true
  · rw [if_pos hrequested] at hstate
    subst hstate
    rw [Worker.state, turn_same, List.append_nil]
    exact h.move hsound nofun (by simp [hphase]) nofun (by simp [hphase, Phase.IsPastLoop]) fun _ => Nat.zero_le _
  rw [if_neg hrequested] at hstate
  subst hstate
  -- nobody has asked: an owner that did has cancelled the body or requested its stop, or the body is gone
  have hattached : ¬ w.attached = false := fun ha => by
    rcases h.sound.released ha with hc | hr | hp
    · simp [hc] at hcancelled
    · exact hrequested hr
    · simp [hphase] at hp
  have hstopped := h.sound.waits hphase
  have hturn : turn w.state .running = [.turned .running] :=
    if_neg fun hs => by simp [Worker.state, hstopped] at hs
  have hdue : (Event.turned .running).Due es := ⟨h.launched.2 hlaunched, fun ha => hattached (h.asked.1 ha)⟩
  rw [hturn]
  refine h.append ?_ hsound (h.traced.snoc hdue) (by rw [h.quiet hphase]; rfl)
    (h.spared.snoc nofun fun _ => Nat.zero_le _)
  exact {
    calls := (List.append_nil _).symm
    launched := by simp
    tried := by simp [Event.isLaunch]
    asked := by simp
    exited := by simp [hphase]
    parked := nofun
    looped := by simp [Event.EndsLoop]
    past := by simp [hphase, Phase.IsPastLoop] }

/-- An entry point is called, an iteration only while nothing has ended the loop. -/
theorem called {callback : Callback} (h : w.Recorded es) (hphase : w.phase = .before callback)
    (hsound : Sound { w with phase := .inside callback, calls := w.calls ++ [callback] }) :
    Recorded { w with phase := .inside callback, calls := w.calls ++ [callback] } (es ++ [.called callback]) := by
  have hdue : (Event.called callback).Due es := by
    cases callback with
    | iterate =>
      intro e he hends
      have hpast := h.looped e he hends
      rwa [hphase] at hpast
    | _ => trivial
  refine h.goOn hsound (h.traced.snoc hdue) rfl (by simp [Event.IsInner]) nofun (by simp [hphase]) nofun
    (by simp [Event.EndsLoop]) ?_ (h.spared.snoc nofun fun _ => ?_)
  · rw [hphase]
    cases callback <;> exact id
  · rw [hphase]
    cases callback <;> simp [pending]

/-- An entry point returns; a reply that ends the loop leads past it. -/
theorem returned {callback : Callback} {reply : Reply} (h : w.Recorded es) (hphase : w.phase = .inside callback)
    (hsound : Sound { w with phase := afterReply callback reply }) :
    Recorded { w with phase := afterReply callback reply } (es ++ [.returned callback reply]) := by
  have hnext := afterReply_ne callback reply
  refine h.goOn hsound (h.traced.snoc trivial) (List.append_nil _).symm (by simp [Event.IsInner]) hnext.2
    (by simp [hphase]) hnext.1 ?_ ?_ (h.spared.snoc nofun fun _ => ?_)
  · simp only [List.mem_singleton, forall_eq]
    cases callback <;> cases reply <;> first | exact fun _ => trivial | exact False.elim
  · rw [hphase]
    cases callback <;> cases reply <;> first | exact fun _ => trivial | exact False.elim
  · rw [hphase]
    cases callback <;> cases reply <;> simp [pending, afterReply]

/-- Whether the loop goes on is not seen. Behind a shutdown it does not. -/
theorem checked (h : w.Recorded es) (hphase : w.phase = .checking) {next : Callback}
    (hnext : next = if w.control.state = .running then .iterate else .finalize)
    (hsound : Sound { w with phase := .before next }) : Recorded { w with phase := .before next } es := by
  have hlooping : ¬ w.phase.IsPastLoop := by simp [hphase, Phase.IsPastLoop]
  refine h.move hsound nofun (by simp [hphase]) nofun (fun hp => absurd hp hlooping) fun hasked => ?_
  -- an owner that asked has let go of the worker, so the state is not running any more
  have hstopped : w.control.state ≠ .running := fun hs => by
    simp [(h.sound.runs hs).2, h.asked] at hasked
  simp [pending, hnext, hstopped]

/-- The body exits, and the state becomes none with it. -/
theorem left (h : w.Recorded es) (hphase : w.phase = .leaving)
    (hsound : Sound { w with control := { w.control with state := .none }, phase := .gone }) :
    Recorded { w with control := { w.control with state := .none }, phase := .gone }
      (es ++ ([.exited] ++ turn w.state .none)) := by
  have hstate : w.control.state ≠ .none := fun hs => by simp [h.sound.ended.1 hs] at hphase
  have hturn : turn w.state .none = [.turned .none] := if_neg fun hs => hstate hs.symm
  have hexited : Traced (es ++ [.exited]) := h.traced.snoc trivial
  have htraced : Traced (es ++ [.exited] ++ [.turned .none]) := hexited.snoc (List.suffix_append es [.exited])
  have hgone : Spared (es ++ [.exited]) .gone := h.spared.snoc nofun fun _ => by simp [pending]
  have hspared : Spared (es ++ [.exited] ++ [.turned .none]) .gone := hgone.snoc nofun fun _ => by simp
  rw [List.append_assoc] at htraced hspared
  rw [hturn]
  refine h.append ?_ hsound htraced (h.turned.leave hstate) hspared
  exact {
    calls := (List.append_nil _).symm
    launched := by simp
    tried := by simp [Event.isLaunch]
    asked := by simp
    exited := by simp
    parked := nofun
    looped := by simp [Event.EndsLoop]
    past := fun _ => trivial }

/-- Whatever the body does next, unless an entry point panics, the record is kept. -/
theorem bodyStep {w' : Worker} {reply : Reply} (h : w.Recorded es) (hreply : reply ≠ .panicked)
    (hstep : w.bodyStep? reply = some w') : w'.Recorded (es ++ (seen w.phase reply ++ turn w.state w'.state)) := by
  have hsound := h.sound.bodyStep hreply hstep
  cases goes_of_bodyStep hstep with
  | gives_up hphase hcancelled =>
    simp only [Worker.state, hphase, seen, turn_same, List.append_nil]
    exact h.move hsound nofun (by simp [hphase]) nofun (fun _ => trivial) fun _ => Nat.zero_le _
  | begins hphase hcancelled hlaunched =>
    rw [hphase]
    exact h.begun hphase hcancelled hlaunched rfl hsound
  | calls callback hphase =>
    simp only [Worker.state, hphase, seen, turn_same, List.append_nil]
    exact h.called hphase hsound
  | returns callback hphase =>
    simp only [Worker.state, hphase, seen, turn_same, List.append_nil]
    exact h.returned hphase hsound
  | checks hphase =>
    simp only [Worker.state, hphase, seen, turn_same, List.append_nil]
    exact h.checked hphase rfl hsound
  | leaves hphase =>
    rw [hphase]
    exact h.left hphase hsound

end Worker.Recorded

end Patchbay
