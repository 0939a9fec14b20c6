import Patchbay.Proofs.Worker.Course
import Patchbay.Worker.Script

/-!
# `Proofs.Module.Consumer` — all that a consumer does to its host

A scripted consumer plugs interfaces into its splice, takes memory once, unplugs, and in the end gives back memory
and splice. Whatever is said of the host and of what the consumer has of it, and outlasts each of these, outlasts
all that owner and body do. Where the body stands tells what the consumer has: nothing before its startup but the
splice, and nothing at all when it is gone.

## Contents
* `Worker.Onward` — what steps of the body leave alone;
* `Performer.Orderly` — what the phase tells of the consumer's memory and splice;
* `Performer.Assertion`, `Assertion.Lasts` — what is said of consumer and host, and outlasts what a consumer does;
* `Lasts.settle`, `Lasts.launch`, `Lasts.tell`, `Lasts.release`, `Lasts.shutdown` — the owner's calls;
* `Performer.gone_of_shutdown` — a shutdown in time leaves nothing of the consumer.
-/

namespace Patchbay

open Budget (Block)

/-- No entry point was called yet. -/
def Phase.IsEarly (phase : Phase) : Prop := phase = .parked ∨ phase = .before .startup

namespace Worker

variable {w w' w'' : Worker} {reply : Reply}

/-- The worker after the next step of its body, if there is one. -/
def next (w : Worker) (reply : Reply) : Worker := (w.bodyStep? reply).getD w

/-- A body stands still or goes on by a step of its own. -/
theorem next_cases (w : Worker) (reply : Reply) : w.next reply = w ∨ w.Goes reply (w.next reply) := by
  unfold next
  cases h : w.bodyStep? reply with
  | none => exact .inl rfl
  | some w' => exact .inr (goes_of_bodyStep h)

/-- What steps of the body leave alone: the owner's hold on the thread, the launch, and that something was called. -/
structure Onward (w w' : Worker) : Prop where
  attached : w'.attached = w.attached
  launched : w'.control.launched = w.control.launched
  early : w'.phase.IsEarly → w.phase.IsEarly

theorem Onward.refl (w : Worker) : w.Onward w := ⟨rfl, rfl, id⟩

/-- Who goes onward on the way has gone onward in the end. -/
theorem Onward.trans (h : w.Onward w') (h' : w'.Onward w'') : w.Onward w'' :=
  ⟨h'.attached.trans h.attached, h'.launched.trans h.launched, h.early ∘ h'.early⟩

/-- A step of the body leads onward. -/
theorem Goes.onward (h : w.Goes reply w') : w.Onward w' := by
  refine ⟨?_, ?_, fun hearly => ?_⟩
  · cases h <;> rfl
  · cases h <;> rfl
  · cases h with
    | gives_up hphase => exact .inl hphase
    | begins hphase => exact .inl hphase
    | calls callback => rcases hearly with h | h <;> cases h
    | returns callback =>
      have hne : afterReply callback reply ≠ .before .startup := by
        cases callback <;> cases reply <;> exact nofun
      rcases hearly with h | h
      · exact absurd h (afterReply_ne callback reply).1
      · exact absurd h hne
    | checks =>
      -- the loop goes on with an iteration or ends
      rcases hearly with h | h
      · cases h
      · injection h with h
        split at h <;> cases h
    | leaves => rcases hearly with h | h <;> cases h

theorem next_onward (w : Worker) (reply : Reply) : w.Onward (w.next reply) := by
  rcases w.next_cases reply with h | h
  · rw [h]
    exact .refl w
  · exact h.onward

/-- The owner sees that the body has ended just when it has. -/
theorem Goes.ended (h : w.Goes reply w') (hended : w.control.state = .none ↔ w.phase = .gone) :
    w'.control.state = .none ↔ w'.phase = .gone := by
  have hgoing (hphase : w.phase ≠ .gone) : w.control.state ≠ .none := fun hnone => hphase (hended.1 hnone)
  cases h with
  | gives_up hphase => exact iff_of_false (hgoing (by rw [hphase]; exact nofun)) nofun
  | begins hphase =>
    refine iff_of_false (fun hnone => ?_) nofun
    change (if w.control.stopRequested then w.control.state else .running) = .none at hnone
    split at hnone
    · exact hgoing (by rw [hphase]; exact nofun) hnone
    · cases hnone
  | calls callback hphase => exact iff_of_false (hgoing (by rw [hphase]; exact nofun)) nofun
  | returns callback hphase =>
    exact iff_of_false (hgoing (by rw [hphase]; exact nofun)) (afterReply_ne callback reply).2
  | checks hphase => exact iff_of_false (hgoing (by rw [hphase]; exact nofun)) nofun
  | leaves => exact iff_of_true rfl rfl

/-- A body is gone only after it left. -/
theorem Goes.leaving (h : w.Goes reply w') (hgone : w'.phase = .gone) : w.phase = .leaving := by
  cases h with
  | leaves hphase => exact hphase
  | returns callback => exact absurd hgone (afterReply_ne callback reply).2
  | _ => cases hgone

end Worker

namespace Performer

variable {p p' : Performer} {n : Network} {key : Nat}

/-- What the phase of the body tells of its consumer. -/
structure Orderly (p : Performer) : Prop where
  /-- Memory is taken at startup. -/
  early : p.worker.phase.IsEarly → p.held = none
  /-- A consumer that is gone has given everything back. -/
  gone : p.worker.phase = .gone → p.held = none ∧ p.splice = none
  ended : p.worker.control.state = .none ↔ p.worker.phase = .gone

/-- Two performers with the same worker whose consumers have the same; they may differ in what is written down and
in how the consumer will return. -/
structure Alike (p p' : Performer) : Prop where
  worker : p'.worker = p.worker
  held : p'.held = p.held
  splice : p'.splice = p.splice

/-- Whether a consumer is orderly is a matter of its phase, its block and its splice. -/
theorem Orderly.of_alike (h : p.Orderly) (hsame : p.Alike p') : p'.Orderly where
  early := by rw [hsame.worker, hsame.held]; exact h.early
  gone := by rw [hsame.worker, hsame.held, hsame.splice]; exact h.gone
  ended := by rw [hsame.worker]; exact h.ended

/-! ## What an entry point leaves alone -/

/-- To plug interfaces leaves worker, block and splice of a consumer as they are. -/
theorem plugEach_same (p : Performer) (n : Network) (key : Nat) (plugs : List (String × Nat × Mac)) :
    p.Alike (p.plugEach n key plugs).2.1 := by
  induction plugs generalizing p n with
  | nil => exact ⟨rfl, rfl, rfl⟩
  | cons plug rest ih =>
    obtain ⟨name, id, mac⟩ := plug
    unfold plugEach
    split
    · obtain ⟨hworker, hheld, hsplice⟩ := ih (p.write _) _
      exact ⟨hworker, hheld, hsplice⟩
    · exact ⟨rfl, rfl, rfl⟩

theorem takeMemory_same (p : Performer) (n : Network) (key : Nat) :
    (p.takeMemory n key).2.1.worker = p.worker ∧ (p.takeMemory n key).2.1.splice = p.splice := by
  unfold takeMemory
  split
  · exact ⟨rfl, rfl⟩
  · split <;> exact ⟨rfl, rfl⟩

theorem start_same (p : Performer) (n : Network) :
    (p.start n).2.1.worker = p.worker ∧ (p.start n).2.1.splice = p.splice := by
  unfold start
  split
  · exact ⟨rfl, rfl⟩
  · exact ⟨rfl, rfl⟩
  · exact ⟨rfl, rfl⟩
  · dsimp only
    split
    · exact ⟨rfl, rfl⟩
    · rename_i key hkey
      have hplugged := (p.write .startup).plugEach_same n key (p.write .startup).script.plugs
      split
      · rename_i hp
        rw [hp] at hplugged
        exact ⟨hplugged.worker, hplugged.splice⟩
      · rename_i p₁ n₁ hp
        rw [hp] at hplugged
        have htaken := p₁.takeMemory_same n₁ key
        exact ⟨htaken.1.trans hplugged.worker, htaken.2.trans hplugged.splice⟩

/-- What a consumer does in a callback leaves its worker to the body. -/
theorem perform_same (p : Performer) (n : Network) (callback : Callback) :
    (p.perform n callback).1.worker = p.worker ∧ (p.perform n callback).1.splice = p.splice := by
  cases callback with
  | startup => exact p.start_same n
  | _ =>
    unfold perform
    dsimp only
    repeat' split
    all_goals exact ⟨rfl, rfl⟩

/-- Only the startup takes memory. -/
theorem held_perform {callback : Callback} (h : callback ≠ .startup) :
    (p.perform n callback).1.held = p.held := by
  cases callback with
  | startup => exact absurd rfl h
  | _ =>
    unfold perform
    dsimp only
    repeat' split
    all_goals rfl

/-- The body takes its next step, whatever the consumer does in it. -/
theorem worker_advance (p : Performer) (n : Network) : ∃ reply, (p.advance n).1.worker = p.worker.next reply := by
  unfold advance
  split
  · exact ⟨.done, (perform_same _ n _).1⟩
  · exact ⟨_, rfl⟩
  · exact ⟨.done, rfl⟩
  · exact ⟨.done, rfl⟩

/-- Any step but the last keeps the order, if memory comes in an entry point only. -/
theorem Orderly.next {reply : Reply} (h : p.Orderly) (hworker : p'.worker = p.worker.next reply)
    (hsplice : p'.splice = p.splice) (hphase : p.worker.phase ≠ .leaving)
    (hheld : p'.worker.phase.IsEarly ∨ p'.worker.phase = .gone → p'.held = p.held) : p'.Orderly := by
  have honward := p.worker.next_onward reply
  rw [← hworker] at honward
  rcases p.worker.next_cases reply with hstays | hgoes
  · rw [hstays] at hworker
    refine ⟨fun hearly => ?_, fun hgone => ?_, ?_⟩
    · exact (hheld (.inl hearly)).trans (h.early (honward.early hearly))
    · rw [hheld (.inr hgone), hsplice]
      exact h.gone (hworker ▸ hgone)
    · rw [hworker]
      exact h.ended
  · rw [← hworker] at hgoes
    refine ⟨fun hearly => ?_, fun hgone => ?_, hgoes.ended h.ended⟩
    · exact (hheld (.inl hearly)).trans (h.early (honward.early hearly))
    · exact absurd (hgoes.leaving hgone) hphase

/-- A consumer that goes on by a step stays orderly. -/
theorem Orderly.advance (h : p.Orderly) (n : Network) : (p.advance n).1.Orderly := by
  obtain ⟨reply, hworker⟩ := p.worker_advance n
  cases hphase : p.worker.phase with
  | before callback =>
    -- the body is in the entry point now, where the consumer may take memory
    have hinside : (p.advance n).1.worker.phase = .inside callback := by
      rw [hworker, Worker.next, Worker.bodyStep?, hphase]
      rfl
    refine h.next hworker ?_ (by rw [hphase]; exact nofun) ?_
    · simp only [Performer.advance, hphase]
      exact (perform_same _ n callback).2
    · rw [hinside]
      rintro ((hearly | hearly) | hgone)
      · cases hearly
      · cases hearly
      · cases hgone
  | leaving =>
    have hgone : p.worker.next reply =
        { p.worker with control := { p.worker.control with state := .none }, phase := .gone } := by
      rw [Worker.next, Worker.bodyStep?, hphase]
      rfl
    rw [hgone] at hworker
    have hleft : (p.advance n).1.held = none ∧ (p.advance n).1.splice = none := by
      simp only [Performer.advance, hphase]
      exact ⟨rfl, rfl⟩
    refine ⟨fun _ => hleft.1, fun _ => hleft, ?_⟩
    rw [hworker]
    exact iff_of_true rfl rfl
  | _ =>
    refine h.next hworker ?_ (by rw [hphase]; exact nofun) fun _ => ?_
    all_goals
      simp only [Performer.advance, hphase]
      rfl

/-! ## What outlasts a consumer -/

/-- Something that is said of the host and of what a consumer has of it: its splice and its memory. -/
abbrev Assertion := Option Nat → Option Block → Network → Prop

/-- A consumer and its host are as the assertion says. -/
def Meets (p : Performer) (a : Assertion) (n : Network) : Prop := a p.splice p.held n

/-- What is said outlasts whatever a consumer does to its host. -/
structure Assertion.Lasts (a : Assertion) : Prop where
  plug : ∀ {key : Nat} {held : Option Block} {n : Network}, a (some key) held n →
    ∀ name id mac, a (some key) held (n.plug key name id mac).2
  unplug : ∀ {key : Nat} {held : Option Block} {n : Network}, a (some key) held n →
    ∀ id, a (some key) held (n.unplug key id).2
  buffer : ∀ {key : Nat} {n : Network}, a (some key) none n →
    ∀ size, a (some key) (n.buffer key size).1.toOption (n.buffer key size).2
  free : ∀ {splice : Option Nat} {block : Block} {n : Network}, a splice (some block) n →
    a splice none (n.setMemory (n.memory.free block))
  drop : ∀ {key : Nat} {n : Network}, a (some key) none n → a none none (n.dropSplice key)

namespace Assertion.Lasts

variable {a : Assertion} (ha : a.Lasts)
include ha

/-- What lasts through one plug lasts through all of them. -/
theorem plugEach {held : Option Block} (p : Performer) (plugs : List (String × Nat × Mac))
    (h : a (some key) held n) : a (some key) held (p.plugEach n key plugs).2.2 := by
  induction plugs generalizing p n with
  | nil => exact h
  | cons plug rest ih =>
    obtain ⟨name, id, mac⟩ := plug
    have hplug := ha.plug h name id mac
    unfold Performer.plugEach
    split
    · rename_i up n₁ hn
      rw [hn] at hplug
      exact ih _ hplug
    · rename_i e n₁ hn
      rw [hn] at hplug
      exact hplug

/-- What lasts while a consumer takes a block holds of the consumer that has it. -/
theorem takeMemory (hheld : p.held = none) (h : a (some key) none n) :
    a (some key) (p.takeMemory n key).2.1.held (p.takeMemory n key).2.2 := by
  unfold Performer.takeMemory
  split
  · rw [hheld]
    exact h
  · rename_i size hsize
    have hbuffer := ha.buffer h size
    split
    · rename_i block n₁ hn
      rw [hn] at hbuffer
      exact hbuffer
    · rename_i e n₁ hn
      rw [hn] at hbuffer
      dsimp only
      rw [hheld]
      exact hbuffer

/-- What lasts is true of a consumer that has started. -/
theorem start (hheld : p.held = none) (h : p.Meets a n) : (p.start n).2.1.Meets a (p.start n).2.2 := by
  unfold Performer.start
  split
  · exact h
  · exact h
  · exact h
  · dsimp only
    split
    · exact h
    · rename_i key hkey
      change p.splice = some key at hkey
      rw [Meets, hheld, hkey] at h
      have hplugs := ha.plugEach (p.write .startup) (p.write .startup).script.plugs h
      obtain ⟨-, hsame, hsplice⟩ := (p.write .startup).plugEach_same n key (p.write .startup).script.plugs
      rw [show (p.write .startup).held = none from hheld] at hsame
      rw [show (p.write .startup).splice = some key from hkey] at hsplice
      split
      · rename_i p₁ n₁ hp
        rw [hp] at hplugs hsame hsplice
        rw [Meets, hsame, hsplice]
        exact hplugs
      · rename_i p₁ n₁ hp
        rw [hp] at hplugs hsame hsplice
        have htaken := ha.takeMemory hsame hplugs
        rw [← hsplice, ← (p₁.takeMemory_same n₁ key).2] at htaken
        exact htaken

/-- And of one that has given back what it held. -/
theorem finish (h : p.Meets a n) : p.Meets a (p.finish n) := by
  unfold Performer.finish
  split
  · exact h
  · rename_i key hkey
    rw [Meets, hkey] at h ⊢
    induction p.script.unplugs generalizing n with
    | nil => exact h
    | cons id rest ih => exact ih (ha.unplug h id)

/-- So it is whatever the callback. -/
theorem perform {callback : Callback} (h : p.Meets a n) (hheld : callback = .startup → p.held = none) :
    (p.perform n callback).1.Meets a (p.perform n callback).2 := by
  cases callback with
  | startup => exact ha.start (hheld rfl) h
  | iterate =>
    unfold Performer.perform
    dsimp only
    split
    · exact h
    · split <;> exact h
  | finalize =>
    unfold Performer.perform
    dsimp only
    split <;> exact h
  | teardown =>
    unfold Performer.perform
    dsimp only
    split
    · exact h
    · exact ha.finish h

/-- Its memory is given back, if it has any. -/
theorem freeHeld {splice : Option Nat} {held : Option Block} : a splice held n →
    a splice none (match held with | none => n | some block => n.setMemory (n.memory.free block)) := by
  intro h
  cases held with
  | none => exact h
  | some block => exact ha.free h

/-- And when the body ends, and with it the handle on the splice. -/
theorem vanish (h : p.Meets a n) : (p.vanish n).1.Meets a (p.vanish n).2 := by
  have hfreed := ha.freeHeld (show a p.splice p.held n from h)
  show a none none (p.vanish n).2
  unfold Performer.vanish
  dsimp only
  split
  · rename_i hsplice
    rwa [hsplice] at hfreed
  · rename_i key hsplice
    rw [hsplice] at hfreed
    exact ha.drop hfreed

/-- What lasts is true behind each step of an orderly consumer. -/
theorem advance (hp : p.Orderly) (h : p.Meets a n) : (p.advance n).1.Meets a (p.advance n).2 := by
  unfold Performer.advance
  split
  · rename_i callback hphase
    refine ha.perform h fun hcallback => ?_
    exact hp.early (.inr (by rw [hphase, hcallback]))
  · exact h
  · exact ha.vanish h
  · exact h

end Assertion.Lasts

/-! ## The owner's calls -/

/-- Whatever outlasts a step outlasts any number of them. -/
theorem settleWithin_induct {P : Performer → Network → Prop}
    (hstep : ∀ p n, P p n → P (p.advance n).1 (p.advance n).2) (fuel : Nat) (h : P p n) :
    P (settleWithin fuel p n).1 (settleWithin fuel p n).2 := by
  induction fuel generalizing p n with
  | zero => exact h
  | succ fuel ih =>
    unfold settleWithin
    split
    · exact h
    · exact ih (hstep p n h)

/-- So a consumer that settles is orderly still. -/
theorem Orderly.settle (h : p.Orderly) (n : Network) : (p.settle n).1.Orderly :=
  settleWithin_induct (P := fun p _ => p.Orderly) (fun _ n h => h.advance n) settleSteps h

/-- A consumer that settles goes onward. -/
theorem settle_onward (p : Performer) (n : Network) : p.worker.Onward (p.settle n).1.worker := by
  refine settleWithin_induct (P := fun q _ => p.worker.Onward q.worker) (fun q n h => ?_) settleSteps (.refl _)
  obtain ⟨reply, hworker⟩ := q.worker_advance n
  rw [hworker]
  exact h.trans (q.worker.next_onward reply)

/-- A consumer that was started takes no more memory. -/
theorem held_settle (h : ¬ p.worker.phase.IsEarly) : (p.settle n).1.held = p.held ∨ (p.settle n).1.held = none := by
  have hboth := settleWithin_induct (n := n)
    (P := fun q _ => ¬ q.worker.phase.IsEarly ∧ (q.held = p.held ∨ q.held = none)) (fun q n hq => ?_) settleSteps
    ⟨h, .inl rfl⟩
  · exact hboth.2
  obtain ⟨hstarted, hheld⟩ := hq
  obtain ⟨reply, hworker⟩ := q.worker_advance n
  refine ⟨fun hearly => hstarted ((q.worker.next_onward reply).early (hworker ▸ hearly)), ?_⟩
  unfold Performer.advance
  split
  · rename_i callback hphase
    rw [held_perform]
    · exact hheld
    · rintro rfl
      exact hstarted (.inr hphase)
  · exact hheld
  · exact .inr rfl
  · exact hheld

/-- What lasts is true of a consumer that has settled. -/
theorem Assertion.Lasts.settle {a : Assertion} (ha : a.Lasts) (hp : p.Orderly) (h : p.Meets a n) :
    (p.settle n).1.Meets a (p.settle n).2 := by
  have hboth := settleWithin_induct (P := fun p n => p.Orderly ∧ p.Meets a n)
    (fun p n h => ⟨h.1.advance n, ha.advance h.1 h.2⟩) settleSteps ⟨hp, h⟩
  exact hboth.2

/-! ### Launch -/

/-- The flags of the two sides are no matter of order, except that the body has ended. -/
theorem Orderly.of_flags {w : Worker} (h : p.Orderly) (hphase : w.phase = p.worker.phase)
    (hstate : w.control.state = .none ↔ p.worker.control.state = .none) : Orderly { p with worker := w } where
  early hearly := h.early (hphase ▸ hearly)
  gone hgone := h.gone (hphase ▸ hgone)
  ended := by
    show w.control.state = .none ↔ w.phase = .gone
    rw [hstate, hphase]
    exact h.ended

theorem Orderly.new (script : Script) (waitMs : Nat) (splice : Option Nat) :
    Orderly { script := script, waitMs := waitMs, splice := splice } :=
  ⟨fun _ => rfl, nofun, iff_of_false nofun nofun⟩

/-- To be launched changes nothing in what a consumer holds. -/
theorem Orderly.launched (h : p.Orderly) : Orderly { p with worker := p.worker.launch.2 } := by
  rcases p.worker.launch_cases with ⟨failure, hfailed, -⟩ | ⟨-, -, hok⟩
  · rw [hfailed]
    exact h
  · rw [hok]
    exact h.of_flags rfl Iff.rfl

theorem Orderly.launch (h : p.Orderly) (n : Network) : (p.launch n).2.1.Orderly :=
  h.launched.settle n

/-- What lasts is true of a consumer that was launched, and settled then. -/
theorem Assertion.Lasts.launch {a : Assertion} (ha : a.Lasts) (hp : p.Orderly) (h : p.Meets a n) :
    (p.launch n).2.1.Meets a (p.launch n).2.2 :=
  ha.settle hp.launched h

/-- A consumer that has not settled goes on by a step. -/
theorem settleWithin_succ (fuel : Nat) (h : p.isSettled = false) :
    settleWithin (fuel + 1) p n = settleWithin fuel (p.advance n).1 (p.advance n).2 := by
  rw [settleWithin, h]
  rfl

/-- A new worker that is launched comes to its startup. -/
theorem launch_new (script : Script) (waitMs : Nat) (splice : Option Nat) (n : Network) :
    let p : Performer := { script := script, waitMs := waitMs, splice := splice }
    (p.launch n).2.1.worker.attached = true ∧ (p.launch n).2.1.worker.control.launched = true ∧
      ¬ (p.launch n).2.1.worker.phase.IsEarly := by
  intro p
  let p₀ : Performer := { p with worker := p.worker.launch.2 }
  let p₁ := (p₀.advance n).1
  let n₁ := (p₀.advance n).2
  have hlaunch : (p.launch n).2.1 = (p₀.settle n).1 := rfl
  have honward := p₀.settle_onward n
  refine ⟨?_, ?_, ?_⟩
  · rw [hlaunch, honward.attached]
    rfl
  · rw [hlaunch, honward.launched]
    rfl
  · -- the first two steps of the body lead into the startup
    have hfirst : p₁.worker.phase = .before .startup := rfl
    have hstep : (p₁.advance n₁).1.worker.phase = .inside .startup := by
      obtain ⟨reply, hworker⟩ := p₁.worker_advance n₁
      rw [hworker, Worker.next, Worker.bodyStep?, hfirst]
      rfl
    have hsettle : p₀.settle n = settleWithin 30 (p₁.advance n₁).1 (p₁.advance n₁).2 := by
      show settleWithin (30 + 1 + 1) p₀ n = _
      rw [settleWithin_succ (30 + 1) rfl, settleWithin_succ 30 rfl]
    rw [hlaunch, hsettle]
    refine settleWithin_induct (P := fun q _ => ¬ q.worker.phase.IsEarly) (fun q n hq hearly => ?_) 30 ?_
    · obtain ⟨reply, hworker⟩ := q.worker_advance n
      rw [hworker] at hearly
      exact hq ((q.worker.next_onward reply).early hearly)
    · rw [hstep]
      rintro (h | h) <;> cases h

/-! ### Words to the consumer -/

/-- A consumer that is told something goes on from there, or did not wait to be told. -/
theorem tell_cases (p : Performer) (n : Network) (c : Command) :
    p.tell n c = (false, p, n) ∨ ∃ q, p.Alike q ∧ p.tell n c = (true, q.settle n) := by
  unfold tell
  split
  · match c with
    | .continue => exact .inr ⟨{ p with reply := some .done }, ⟨rfl, rfl, rfl⟩, rfl⟩
    | .complete => exact .inr ⟨{ p with reply := some .completed }, ⟨rfl, rfl, rfl⟩, rfl⟩
    | .panic => exact .inr ⟨{ p with reply := some .panicked }, ⟨rfl, rfl, rfl⟩, rfl⟩
  · exact .inl rfl

theorem release_cases (p : Performer) (n : Network) : ∃ q, p.Alike q ∧ p.release n = q.settle n :=
  ⟨{ p with released := true, reply := if p.isWaiting then some Reply.done else p.reply }, ⟨rfl, rfl, rfl⟩, rfl⟩

/-- An orderly consumer stays so whatever it is told. -/
theorem Orderly.tell (h : p.Orderly) (n : Network) (c : Command) : (p.tell n c).2.1.Orderly := by
  rcases p.tell_cases n c with heq | ⟨q, hsame, heq⟩
  · rw [heq]
    exact h
  · rw [heq]
    exact (h.of_alike hsame).settle n

/-- And when it is released. -/
theorem Orderly.release (h : p.Orderly) (n : Network) : (p.release n).1.Orderly := by
  obtain ⟨q, hsame, heq⟩ := p.release_cases n
  rw [heq]
  exact (h.of_alike hsame).settle n

theorem tell_onward (p : Performer) (n : Network) (c : Command) : p.worker.Onward (p.tell n c).2.1.worker := by
  rcases p.tell_cases n c with heq | ⟨q, hsame, heq⟩
  · rw [heq]
    exact .refl _
  · rw [heq, ← hsame.worker]
    exact q.settle_onward n

theorem release_onward (p : Performer) (n : Network) : p.worker.Onward (p.release n).1.worker := by
  obtain ⟨q, hsame, heq⟩ := p.release_cases n
  rw [heq, ← hsame.worker]
  exact q.settle_onward n

namespace Assertion.Lasts

variable {a : Assertion}

/-- What is true of a consumer is true of one with the same block and splice. -/
theorem of_alike (h : p.Meets a n) (hsame : p.Alike p') : p'.Meets a n := by
  rw [Meets, hsame.held, hsame.splice]
  exact h

variable (ha : a.Lasts)
include ha

/-- What lasts is true of a consumer that was told something. -/
theorem tell (hp : p.Orderly) (h : p.Meets a n) (c : Command) : (p.tell n c).2.1.Meets a (p.tell n c).2.2 := by
  rcases p.tell_cases n c with heq | ⟨q, hsame, heq⟩
  · rw [heq]
    exact h
  · rw [heq]
    exact ha.settle (hp.of_alike hsame) (of_alike h hsame)

/-- And of one that was released. -/
theorem release (hp : p.Orderly) (h : p.Meets a n) : (p.release n).1.Meets a (p.release n).2 := by
  obtain ⟨q, hsame, heq⟩ := p.release_cases n
  rw [heq]
  exact ha.settle (hp.of_alike hsame) (of_alike h hsame)

end Assertion.Lasts

/-! ### Shutdown -/

theorem Orderly.asked (h : p.Orderly) : Orderly { p with worker := p.worker.beginShutdown.2 } := by
  rcases p.worker.beginShutdown_cases with ⟨hbegin, -⟩ | ⟨-, -, -, hbegin⟩ | ⟨-, hstate, -, hbegin⟩
  · rw [hbegin]
    exact h.of_flags rfl Iff.rfl
  · rw [hbegin]
    exact h.of_flags rfl Iff.rfl
  · rw [hbegin]
    exact h.of_flags rfl (iff_of_false nofun hstate)

/-- A shutdown lets the body take its steps and tells how that ended. -/
theorem shutdown_cases (p : Performer) (n : Network) :
    let q : Performer := { p with worker := p.worker.beginShutdown.2 }
    (∃ outcome, p.worker.beginShutdown.1 = some outcome ∧ p.shutdown n = (outcome, q.settle n)) ∨
      (p.worker.beginShutdown.1 = none ∧ p.shutdown n = (q.endWait.1, q.endWait.2.settle n)) ∨
      (p.worker.beginShutdown.1 = none ∧
        p.shutdown n = ((q.settle n).1.endWait.1, (q.settle n).1.endWait.2, (q.settle n).2)) := by
  intro q
  unfold shutdown
  cases hbegin : p.worker.beginShutdown with
  | mk answer w =>
    have hq : q = { p with worker := w } := by
      rw [show w = p.worker.beginShutdown.2 by rw [hbegin]]
    rw [hq]
    cases answer with
    | some outcome => exact .inl ⟨outcome, rfl, rfl⟩
    | none =>
      dsimp only
      split
      · exact .inr (.inl ⟨rfl, rfl⟩)
      · exact .inr (.inr ⟨rfl, rfl⟩)

/-- Nothing is called back. -/
theorem early_shutdown (h : (p.shutdown n).2.1.worker.phase.IsEarly) : p.worker.phase.IsEarly := by
  let q : Performer := { p with worker := p.worker.beginShutdown.2 }
  have hphase : q.worker.phase = p.worker.phase := by
    rcases p.worker.beginShutdown_cases with ⟨hbegin, -⟩ | ⟨-, -, -, hbegin⟩ | ⟨-, -, -, hbegin⟩ <;>
      simp only [q, hbegin]
  rw [← hphase]
  rcases p.shutdown_cases n with ⟨outcome, -, heq⟩ | ⟨-, heq⟩ | ⟨-, heq⟩
  · rw [heq] at h
    exact (q.settle_onward n).early h
  · rw [heq] at h
    exact (q.endWait.2.settle_onward n).early h
  · rw [heq] at h
    exact (q.settle_onward n).early h

theorem Orderly.endWait (h : p.Orderly) : p.endWait.2.Orderly :=
  h.of_flags rfl Iff.rfl

/-- A consumer that is shut down is orderly to its end. -/
theorem Orderly.shutdown (h : p.Orderly) (n : Network) : (p.shutdown n).2.1.Orderly := by
  rcases p.shutdown_cases n with ⟨outcome, -, heq⟩ | ⟨-, heq⟩ | ⟨-, heq⟩
  · rw [heq]
    exact h.asked.settle n
  · rw [heq]
    exact h.asked.endWait.settle n
  · rw [heq]
    exact (h.asked.settle n).endWait

/-- What lasts is true of it, whether or not it ended in time. -/
theorem Assertion.Lasts.shutdown {a : Assertion} (ha : a.Lasts) (hp : p.Orderly) (h : p.Meets a n) :
    (p.shutdown n).2.1.Meets a (p.shutdown n).2.2 := by
  rcases p.shutdown_cases n with ⟨outcome, -, heq⟩ | ⟨-, heq⟩ | ⟨-, heq⟩
  · rw [heq]
    exact ha.settle hp.asked h
  · rw [heq]
    exact ha.settle hp.asked.endWait h
  · rw [heq]
    exact ha.settle hp.asked h

/-- A body that is gone takes no step. -/
theorem settle_gone (h : p.worker.phase = .gone) : p.settle n = (p, n) := by
  have hsettled : p.isSettled = true := by
    unfold isSettled
    rw [h]
  show settleWithin (31 + 1) p n = _
  rw [settleWithin, hsettled]
  rfl

/-- A worker that was launched and not shut down before has ended when a shutdown did not take too long. -/
theorem gone_of_shutdown (hp : p.Orderly) (hattached : p.worker.attached = true)
    (hlaunched : p.worker.control.launched = true) (hintime : (p.shutdown n).1 ≠ .timedOut) :
    (p.shutdown n).2.1.worker.phase = .gone := by
  rcases p.worker.beginShutdown_cases with ⟨hbegin, hended⟩ | ⟨-, hunlaunched, -⟩ | ⟨-, -, -, hbegin⟩
  · -- the body had ended before
    have hnone : p.worker.control.state = .none := hended.resolve_left (by simp [hattached])
    have hgone : p.worker.phase = .gone := hp.ended.1 hnone
    rcases p.shutdown_cases n with ⟨outcome, -, heq⟩ | ⟨hanswer, -⟩ | ⟨hanswer, -⟩
    · rw [heq, settle_gone]
      · rw [hbegin]
        exact hgone
      · rw [hbegin]
        exact hgone
    · rw [hbegin] at hanswer
      cases hanswer
    · rw [hbegin] at hanswer
      cases hanswer
  · rw [hlaunched] at hunlaunched
    cases hunlaunched
  · rcases p.shutdown_cases n with ⟨outcome, hanswer, -⟩ | ⟨-, heq⟩ | ⟨-, heq⟩
    · rw [hbegin] at hanswer
      cases hanswer
    · -- no time at all is too little
      refine absurd ?_ hintime
      rw [heq, hbegin]
      rfl
    · have hsettled := hp.asked.settle n
      rw [heq] at hintime ⊢
      refine hsettled.ended.1 ?_
      by_contra hstate
      exact hintime (if_neg hstate)

end Performer

end Patchbay
