import Patchbay.Module
import Patchbay.Proofs.Estate.Lifetime
import Patchbay.Proofs.Module.Consumer
import Patchbay.Proofs.Slot.Beside

/-!
# `Proofs.Module.Site` — a host that a module is loaded on, again and again

A site is a host with its callers and one module. The module is loaded and unloaded, its consumers are told how to
go on, and in between the callers do whatever they like. A consumer that did not stop in time goes on by itself,
beside those of later loads.

## Contents
* `Site`, `Word`, `Site.Move`, `Site.Turn`, `Site.step`, `Site.run`;
* `Network.Lodges` — a host settled with what a consumer keeps and with a rest; it outlasts the consumer;
* `Module.afterLoad`, `Module.afterFailure` — what a load makes, and what it leaves without a thread;
* `Module.load_cases` — the two ways in which a load of a module that is not loaded can go;
* `Module.letGo` — what an unload undoes;
* `Site.Sound` — the host is settled with what callers and consumers have; `Sound.load`, `Sound.failedLoad`,
  `Sound.step`, `Sound.run`.
-/

namespace Patchbay

open Budget (Block Heap Lane)
open Network (size_modifySplice)

/-- What a consumer can be told. -/
inductive Word where
  | tell (c : Command)
  | release

/-- A consumer that is told something. -/
def Performer.hear (p : Performer) (n : Network) : Word → Performer × Network
  | .tell c => (p.tell n c).2
  | .release => p.release n

/-- A module that passes a word on to the consumer of its latest load. -/
def Module.hear (m : Module) (n : Network) : Word → Module × Network
  | .tell c => (m.tell n c).2
  | .release => m.release n

/-- A host with its callers, and one module. -/
structure Site where
  scene : Scene
  module : Module

namespace Site

/-- What can happen next. -/
inductive Move where
  | event (event : ModuleEvent)
  /-- A word to the consumer of the latest load. -/
  | word (word : Word)
  /-- A word to a consumer of an earlier load. -/
  | stray (place : Nat) (word : Word)
  /-- The next load will find other settings, and run another script, if the system has a thread for it. -/
  | prepare (source : Settings.Source) (script : Script) (refusal : Option String := none)
  | act (act : Act)

/-- A move, the lane of the thread that makes it, and which requests the system allocator grants just then. -/
structure Turn where
  move : Move
  lane : Lane := Lane.first
  heap : Heap := Heap.standard

/-- The site with another network. -/
def setNetwork (s : Site) (n : Network) : Site :=
  { s with scene := { s.scene with network := n } }

/-- The site while a thread runs on a lane, and the system allocator grants some requests. -/
def onLane (s : Site) (lane : Lane) (heap : Heap) : Site :=
  s.setNetwork (s.scene.network.setMemory { s.scene.network.memory with heap := heap, lane := lane })

/-- The site after a move. -/
def perform (s : Site) : Move → Site
  | .event event =>
    let (_, m, n) := s.module.handle s.scene.network event
    { s.setNetwork n with module := m }
  | .word word =>
    let (m, n) := s.module.hear s.scene.network word
    { s.setNetwork n with module := m }
  | .stray place word =>
    match s.module.strays[place]? with
    | none => s
    | some p =>
      let (p, n) := p.hear s.scene.network word
      { s.setNetwork n with module := { s.module with strays := s.module.strays.set place p } }
  | .prepare source script refusal =>
    { s with module := { s.module with source := source, script := script, refusal := refusal } }
  | .act act => { s with scene := s.scene.perform act }

/-- The site after a turn. -/
def step (s : Site) (t : Turn) : Site :=
  (s.onLane t.lane t.heap).perform t.move

/-- Turns taken one after another. -/
def run (s : Site) (turns : List Turn) : Site :=
  turns.foldl step s

/-- The consumers of the module, the one of the latest load first. -/
def performers (s : Site) : List Performer :=
  s.module.performer.toList ++ s.module.strays

end Site

/-! ## A host that a consumer has a part of -/

instance : Holding Performer := ⟨fun p => estate p.held⟩

/-- A host is settled with what a consumer keeps and with a rest. It has the consumer's splice, and at least so many
splices. -/
structure Network.Lodges (k : Memory.Bookkeeping) (rest : Estate) (least : Nat) (splice : Option Nat)
    (held : Option Block) (n : Network) : Prop where
  placed : ∀ key, splice = some key → key < n.splices.size
  least : least ≤ n.splices.size
  settled : ∃ h, n.Settled k h (estate held + rest)

namespace Network.Lodges

variable {k : Memory.Bookkeeping} {rest : Estate} {least : Nat} {splice splice' : Option Nat}
  {held held' : Option Block} {n n' : Network}

/-- What a consumer keeps is traded. -/
theorem trade (h : Lodges k rest least splice held n)
    (ht : Trades (Network.Settled k) n (estate held) n' (estate held')) (hsize : n'.splices.size = n.splices.size)
    (hplaced : ∀ key, splice' = some key → splice = some key) : Lodges k rest least splice' held' n' where
  placed key hkey := hsize ▸ h.placed key (hplaced key hkey)
  least := hsize ▸ h.least
  settled := by
    obtain ⟨past, hs⟩ := h.settled
    obtain ⟨past', -, hs'⟩ := ht past rest hs
    exact ⟨past', hs'⟩

variable [Memory.Tally k]

/-- Such a host outlasts the consumer. -/
theorem lasts (k : Memory.Bookkeeping) [Memory.Tally k] (rest : Estate) (least : Nat) :
    Performer.Assertion.Lasts (Lodges k rest least) where
  plug {key held n} h name id mac := by
    refine h.trade ?_ (n.size_onRegistry key _) fun _ hkey => hkey
    exact ((n.trades_plug (h.placed key rfl) name _ mac).frame (estate held)).cast (zero_add _).symm (zero_add _).symm
  unplug {key held n} h id := by
    refine h.trade ?_ (n.size_onRegistry key _) fun _ hkey => hkey
    exact ((n.trades_unplug key id).frame (estate held)).cast (zero_add _).symm (zero_add _).symm
  buffer {key n} h size := by
    have hsize : (n.buffer key size).2.splices.size = n.splices.size := rfl
    refine h.trade ?_ hsize fun _ hkey => hkey
    rw [estate_toOption]
    exact n.trades_memoryFor key .plain size
  free {splice block n} h :=
    h.trade (Network.trades_setMemory (n.memory.trades_free block) rfl rfl) rfl fun _ hkey => hkey
  drop {key n} h := h.trade (n.trades_dropSplice key) (n.size_dropSplice key) nofun

end Network.Lodges

/-! ## A consumer that is told something -/

namespace Performer

theorem Orderly.hear {p : Performer} (h : p.Orderly) (n : Network) (w : Word) : (p.hear n w).1.Orderly := by
  cases w with
  | tell c => exact h.tell n c
  | release => exact h.release n

theorem hear_onward (p : Performer) (n : Network) (w : Word) : p.worker.Onward (p.hear n w).1.worker := by
  cases w with
  | tell c => exact p.tell_onward n c
  | release => exact p.release_onward n

/-- A consumer that was started takes no more memory. -/
theorem held_hear {p : Performer} (h : ¬ p.worker.phase.IsEarly) (n : Network) (w : Word) :
    (p.hear n w).1.held = p.held ∨ (p.hear n w).1.held = none := by
  -- it settles from where it is, with another reply perhaps
  have hsettle {q : Performer} (hsame : p.Alike q) :
      (q.settle n).1.held = p.held ∨ (q.settle n).1.held = none := by
    rw [← hsame.held]
    exact held_settle (hsame.worker ▸ h)
  cases w with
  | tell c =>
    show (p.tell n c).2.1.held = _ ∨ (p.tell n c).2.1.held = _
    rcases p.tell_cases n c with heq | ⟨q, hsame, heq⟩
    · rw [heq]
      exact .inl rfl
    · rw [heq]
      exact hsettle hsame
  | release =>
    show (p.release n).1.held = _ ∨ (p.release n).1.held = _
    obtain ⟨q, hsame, heq⟩ := p.release_cases n
    rw [heq]
    exact hsettle hsame

theorem Assertion.Lasts.hear {a : Assertion} (ha : a.Lasts) {p : Performer} {n : Network} (hp : p.Orderly)
    (h : p.Meets a n) (w : Word) : (p.hear n w).1.Meets a (p.hear n w).2 := by
  cases w with
  | tell c => exact ha.tell hp h c
  | release => exact ha.release hp h

end Performer

theorem Module.hear_eq (m : Module) (n : Network) (w : Word) :
    m.hear n w = match m.performer with
      | none => (m, n)
      | some p => ({ m with performer := some (p.hear n w).1 }, (p.hear n w).2) := by
  cases w with
  | tell c =>
    show (m.tell n c).2 = _
    unfold tell
    cases m.performer <;> rfl
  | release =>
    show m.release n = _
    unfold release
    cases m.performer <;> rfl

/-! ## Loads and unloads -/

namespace Module

variable {m : Module} {n : Network} {l : Loaded} {p : Performer}

/-- The network when an unload has shut the worker down and let go of the splice. -/
def letGo (l : Loaded) (p : Performer) (n : Network) : Network :=
  ((p.shutdown n).2.2.tearDown l.splice).dropSplice l.splice

theorem unload_eq (hloaded : m.loaded = some l) (hperformer : m.performer = some p) :
    let c := (letGo l p n).memory.collectLeaks l.budget
    m.unload n =
      (.ok { shutdown := (p.shutdown n).1, leaks := c.1, outstanding := c.2.outstanding l.budget },
        { m with loaded := none, performer := some (p.shutdown n).2.1 }, (letGo l p n).setMemory c.2) := by
  intro c
  unfold unload
  rw [hloaded, hperformer]
  rfl

/-- The settings that a load finds. -/
def settings (m : Module) : Settings := Settings.resolve m.source m.name

/-- The consumer that a load makes, before it is launched. -/
def consumerFor (m : Module) (n : Network) : Performer :=
  { script := m.script, waitMs := m.settings.shutdownMs, splice := some n.splices.size }

/-- The network with the budget of a load. -/
def budgetFor (m : Module) (n : Network) : Network :=
  (n.onMemory fun mem => mem.addBudget m.settings.ceiling m.settings.tracking).2

/-- The network that the consumer of a load is launched on: with a budget, and a splice that two hold. -/
def roomFor (m : Module) (n : Network) : Network :=
  ((m.budgetFor n).startSplice n.memory.budgets.size).2.holdSplice n.splices.size

/-- What a load leaves of the module and its host. -/
def afterLoad (m : Module) (n : Network) : Module × Network :=
  let (_, p, n') := (m.consumerFor n).launch (m.roomFor n)
  ({ m with
    loaded := some { settings := m.settings, budget := n.memory.budgets.size, splice := n.splices.size }
    performer := some p
    strays := m.strays ++ m.performer.toList }, n')

/-- What a load leaves of its host if there is no thread for the consumer: both handles on the splice go. -/
def afterFailure (m : Module) (n : Network) : Network :=
  ((m.roomFor n).dropSplice n.splices.size).dropSplice n.splices.size

/-- There is a thread for the consumer: it can have the name, and the system does not refuse it. -/
def Starts (m : Module) : Prop := Worker.Nameable m.threadName ∧ m.refusal = none

/-- What a load answers if there is no thread: the system's cause, and nothing at all where no thread can have the
name. -/
def failure (m : Module) : Option (Except ModuleFailure Unit) :=
  if Worker.Nameable m.threadName then m.refusal.map fun cause => .error (.worker (.spawn cause)) else none

/-- With a thread a load makes all it should; without one it gives back what it has made already. -/
theorem load_cases (hloaded : m.loaded = none) (n : Network) :
    m.Starts ∧ m.load n = (some (.ok ()), m.afterLoad n) ∨
      ¬ m.Starts ∧ m.load n = (m.failure, m, m.afterFailure n) := by
  unfold load Starts failure
  rw [hloaded]
  dsimp only
  by_cases hname : Worker.Nameable m.threadName
  · rw [if_pos hname]
    cases hrefusal : m.refusal with
    | none =>
      have hcreated : Worker.create m.threadName none = some (.ok {}) := if_pos hname
      rw [hcreated]
      -- a worker that was just created can be launched
      refine .inl ⟨⟨hname, rfl⟩, ?_⟩
      rw [← hrefusal]
      rfl
    | some cause =>
      have hcreated : Worker.create m.threadName (some cause) = some (.error (.spawn cause)) := if_pos hname
      rw [hcreated]
      exact .inr ⟨fun hstarts => Option.some_ne_none cause hstarts.2, rfl⟩
  · have hcreated : Worker.create m.threadName m.refusal = none := if_neg hname
    rw [hcreated, if_neg hname]
    exact .inr ⟨fun hstarts => hname hstarts.1, rfl⟩

theorem unload_refused (hloaded : m.loaded = none) : m.unload n = (.error .alreadyActive, m, n) := by
  unfold unload
  rw [hloaded]

theorem load_refused (hloaded : m.loaded = some l) : m.load n = (some (.error .alreadyActive), m, n) := by
  unfold load
  rw [hloaded]

end Module

namespace Site

variable {k : Memory.Bookkeeping} {s : Site} {p : Performer}

/-- The host is settled with what callers and consumers have. Every consumer was started, in order and with a splice
that is there, and that of a module that is loaded was not shut down yet. -/
structure Sound (k : Memory.Bookkeeping) (s : Site) : Prop where
  settled : ∃ h, s.scene.network.Settled k h (estate s.scene.items + estate s.performers)
  orderly : ∀ p ∈ s.performers, p.Orderly
  started : ∀ p ∈ s.performers, ¬ p.worker.phase.IsEarly
  placed : ∀ p ∈ s.performers, ∀ key, p.splice = some key → key < s.scene.network.splices.size
  manned : ∀ l, s.module.loaded = some l → ∃ p, s.module.performer = some p ∧
    p.worker.attached = true ∧ p.worker.control.launched = true

/-- A budget is checked for leaks in a turn. -/
def Checks (s : Site) (t : Turn) (key : Nat) : Prop :=
  t.move = .act (.block (.collectLeaks key)) ∨
    t.move = .event .unload ∧ ∃ l, s.module.loaded = some l ∧ l.budget = key

namespace Sound

/-- Something is done to the host that changes nobody's share. -/
theorem quiet (h : s.Sound k) {n' : Network} (ht : Trades (Network.Settled k) s.scene.network 0 n' 0)
    (hsize : s.scene.network.splices.size ≤ n'.splices.size) : (s.setNetwork n').Sound k where
  settled := by
    obtain ⟨past, hs⟩ := h.settled
    obtain ⟨past', -, hs'⟩ := ht past _ (by rw [zero_add]; exact hs)
    rw [zero_add] at hs'
    exact ⟨past', hs'⟩
  orderly := h.orderly
  started := h.started
  placed p hp key hkey := (h.placed p hp key hkey).trans_le hsize
  manned := h.manned

/-- A host that has room for a consumer and for all that others have is a sound one with that consumer. -/
theorem of_lodges {k' : Memory.Bookkeeping} {s' : Site} {before after : List Performer} (h : s.Sound k)
    (hothers : ∀ q ∈ before ++ after, q ∈ s.performers) (hafter : s'.performers = before ++ p :: after)
    (horderly : p.Orderly) (hstarted : ¬ p.worker.phase.IsEarly)
    (hmeets : p.Meets (Network.Lodges k' (estate s'.scene.items + estate (before ++ after))
      s.scene.network.splices.size) s'.scene.network)
    (hmanned : ∀ l, s'.module.loaded = some l → ∃ q, s'.module.performer = some q ∧
      q.worker.attached = true ∧ q.worker.control.launched = true) : s'.Sound k' := by
  have hmem {q : Performer} (hq : q ∈ s'.performers) : q = p ∨ q ∈ s.performers := by
    rw [hafter] at hq
    rcases List.mem_append.1 hq with hq | hq
    · exact .inr (hothers q (List.mem_append_left _ hq))
    · rcases List.mem_cons.1 hq with rfl | hq
      · exact .inl rfl
      · exact .inr (hothers q (List.mem_append_right _ hq))
  obtain ⟨hplaced, hleast, past, hs⟩ := hmeets
  refine ⟨⟨past, ?_⟩, fun q hq => ?_, fun q hq => ?_, fun q hq key hkey => ?_, hmanned⟩
  · have hestate : estate s'.scene.items + estate s'.performers =
        estate p.held + (estate s'.scene.items + estate (before ++ after)) := by
      rw [hafter, estate_append, estate_cons, estate_append]
      show _ + (_ + (estate p.held + _)) = _
      abel
    rw [hestate]
    exact hs
  · rcases hmem hq with rfl | hq
    · exact horderly
    · exact h.orderly q hq
  · rcases hmem hq with rfl | hq
    · exact hstarted
    · exact h.started q hq
  · rcases hmem hq with rfl | hq
    · exact hplaced key hkey
    · exact (h.placed q hq key hkey).trans_le hleast

/-- A load makes a budget, a splice and a consumer. With the budget another bookkeeping may begin. -/
theorem load {k' : Memory.Bookkeeping} [Memory.Tally k'] (h : s.Sound k)
    (hbudget : ∀ past e, s.scene.network.Settled k past e →
      (s.module.budgetFor s.scene.network).Settled k' past e) :
    Sound k' ⟨{ s.scene with network := (s.module.afterLoad s.scene.network).2 },
      (s.module.afterLoad s.scene.network).1⟩ := by
  let n := s.scene.network
  let room := s.module.roomFor n
  -- the splice is one more than there were
  have hsize : room.splices.size = n.splices.size + 1 :=
    (size_modifySplice _ _ _).trans ((s.module.budgetFor n).size_startSplice _)
  have hroom : Trades (Network.Settled k') (s.module.budgetFor n) 0 room 0 :=
    (Network.trades_startSplice _ _).trans (Network.trades_holdSplice _ _)
  have hothers : estate s.performers = estate (s.module.strays ++ s.module.performer.toList) := by
    rw [performers, estate_append, estate_append, add_comm]
  have hmeets : (s.module.consumerFor n).Meets (Network.Lodges k'
      (estate s.scene.items + estate (s.module.strays ++ s.module.performer.toList)) n.splices.size) room := by
    obtain ⟨past, hs⟩ := h.settled
    obtain ⟨past', -, hs'⟩ := hroom past _ (by rw [zero_add]; exact hbudget past _ hs)
    refine ⟨fun key hkey => ?_, ?_, past', ?_⟩
    · obtain rfl := Option.some.inj hkey
      rw [hsize]
      exact Nat.lt_succ_self _
    · rw [hsize]
      exact Nat.le_succ _
    · rw [← hothers]
      exact hs'
  have horderly : (s.module.consumerFor n).Orderly := .new _ _ _
  obtain ⟨hattached, hlaunched, hstarted⟩ := Performer.launch_new s.module.script s.module.settings.shutdownMs
    (some n.splices.size) room
  have hold : ∀ q ∈ [] ++ (s.module.strays ++ s.module.performer.toList), q ∈ s.performers := by
    intro q hq
    exact List.mem_append.2 (List.mem_append.1 (List.nil_append _ ▸ hq)).symm
  exact h.of_lodges hold rfl (horderly.launch room) hstarted ((Network.Lodges.lasts k' _ _).launch horderly hmeets)
    fun _ _ => ⟨_, rfl, hattached, hlaunched⟩

variable [Memory.Tally k]

/-- A load that gets no thread leaves a budget and a splice that has ended. -/
theorem failedLoad (h : s.Sound k) :
    Sound k ⟨{ s.scene with network := s.module.afterFailure s.scene.network }, s.module⟩ := by
  let n := s.scene.network
  let key := n.splices.size
  let room := s.module.roomFor n
  have hbudget : Trades (Network.Settled k) n 0 (s.module.budgetFor n) 0 :=
    Network.trades_setMemory (n.memory.trades_addBudget _ _) rfl rfl
  have hroom : Trades (Network.Settled k) n 0 room 0 :=
    (hbudget.trans (Network.trades_startSplice _ _)).trans (Network.trades_holdSplice _ _)
  have hsize : n.splices.size ≤ (s.module.afterFailure n).splices.size := by
    show n.splices.size ≤ ((room.dropSplice key).dropSplice key).splices.size
    rw [Network.size_dropSplice, Network.size_dropSplice]
    show n.splices.size ≤ (Network.holdSplice _ key).splices.size
    exact ((Nat.le_succ _).trans_eq ((s.module.budgetFor n).size_startSplice _).symm).trans_eq
      (size_modifySplice _ _ _).symm
  exact h.quiet ((hroom.trans (room.trades_dropSplice key)).trans (Network.trades_dropSplice _ key)) hsize

theorem onLane (h : s.Sound k) (lane : Lane) (heap : Heap) : (s.onLane lane heap).Sound k :=
  h.quiet (Network.trades_setMemory (s.scene.network.memory.trades_turn heap lane) rfl rfl) (le_refl _)

/-- One of the consumers does something, and the host with it. -/
theorem exchange (h : s.Sound k) {before after : List Performer} {p' : Performer} {n' : Network} {m' : Module}
    (hbefore : s.performers = before ++ p :: after)
    (hafter : Site.performers ⟨{ s.scene with network := n' }, m'⟩ = before ++ p' :: after)
    (horderly : p'.Orderly) (hearly : p'.worker.phase.IsEarly → p.worker.phase.IsEarly)
    (hlasts : ∀ a : Performer.Assertion, a.Lasts → p.Meets a s.scene.network → p'.Meets a n')
    (hmanned : ∀ l, m'.loaded = some l → ∃ q, m'.performer = some q ∧
      q.worker.attached = true ∧ q.worker.control.launched = true) :
    Sound k ⟨{ s.scene with network := n' }, m'⟩ := by
  have hp : p ∈ s.performers := by rw [hbefore]; exact List.mem_append_right _ List.mem_cons_self
  have hothers : ∀ q ∈ before ++ after, q ∈ s.performers := by
    rw [hbefore]
    exact fun q hq => ((List.sublist_cons_self p after).append_left before).subset hq
  have hmeets : p.Meets (Network.Lodges k (estate s.scene.items + estate (before ++ after))
      s.scene.network.splices.size) s.scene.network := by
    refine ⟨h.placed p hp, le_refl _, ?_⟩
    obtain ⟨past, hs⟩ := h.settled
    rw [hbefore, estate_append, estate_cons] at hs
    refine ⟨past, ?_⟩
    rw [estate_append]
    convert hs using 1
    show estate p.held + _ = _ + (_ + (estate p.held + _))
    abel
  exact h.of_lodges hothers hafter horderly (h.started p hp ∘ hearly)
    (hlasts _ (Network.Lodges.lasts k _ _) hmeets) hmanned

theorem word (h : s.Sound k) (w : Word) : Sound k (s.perform (.word w)) := by
  unfold Site.perform
  dsimp only
  rw [Module.hear_eq]
  cases hperformer : s.module.performer with
  | none => exact h
  | some p =>
    have hbefore : s.performers = [] ++ p :: s.module.strays := by rw [performers, hperformer]; rfl
    have hp : p ∈ s.performers := by rw [hbefore]; exact List.mem_cons_self
    have hpo := h.orderly p hp
    refine h.exchange hbefore rfl (hpo.hear _ w) (p.hear_onward _ w).early (fun a ha hmeets => ha.hear hpo hmeets w) ?_
    intro l hl
    obtain ⟨q, hq, hattached, hlaunched⟩ := h.manned l hl
    obtain rfl := Option.some.inj (hperformer.symm.trans hq)
    have honward := p.hear_onward s.scene.network w
    exact ⟨_, rfl, honward.attached.trans hattached, honward.launched.trans hlaunched⟩

theorem stray (h : s.Sound k) (place : Nat) (w : Word) : Sound k (s.perform (.stray place w)) := by
  unfold Site.perform
  dsimp only
  split
  · exact h
  · rename_i p hp
    obtain ⟨hlt, hget⟩ := List.getElem?_eq_some_iff.1 hp
    have hbefore : s.performers = (s.module.performer.toList ++ s.module.strays.take place) ++
        p :: s.module.strays.drop (place + 1) := by
      rw [performers, List.append_assoc, ← hget, ← List.drop_eq_getElem_cons hlt, List.take_append_drop]
    have hmem : p ∈ s.performers := List.mem_append_right _ (List.mem_of_getElem? hp)
    have hpo := h.orderly p hmem
    refine h.exchange hbefore ?_ (hpo.hear _ w) (p.hear_onward _ w).early
      (fun a ha hmeets => ha.hear hpo hmeets w) h.manned
    show s.module.performer.toList ++ s.module.strays.set place _ = _
    rw [List.set_eq_take_append_cons_drop, if_pos hlt, List.append_assoc]

/-- Callers do as they like, as far as the bookkeeping overlooks what they check. -/
theorem act (h : s.Sound k) (act : Act)
    (hcheck : ∀ key, act = .block (.collectLeaks key) → Memory.Overlooks k key) :
    Sound k { s with scene := s.scene.perform act } where
  settled := by
    obtain ⟨past, hs⟩ := h.settled
    obtain ⟨past', -, hs'⟩ := s.scene.kept_perform act hcheck past _ hs
    exact ⟨past', hs'⟩
  orderly := h.orderly
  started := h.started
  placed p hp key hkey := (h.placed p hp key hkey).trans_le (s.scene.size_perform act)
  manned := h.manned

/-- The end of a load: the consumer is shut down, and the splice is let go. -/
theorem letGo {l : Loaded} (h : s.Sound k) (hperformer : s.module.performer = some p) :
    Sound k ⟨{ s.scene with network := Module.letGo l p s.scene.network },
      { s.module with loaded := none, performer := some (p.shutdown s.scene.network).2.1 }⟩ := by
  have hbefore : s.performers = [] ++ p :: s.module.strays := by rw [performers, hperformer]; rfl
  have hpo := h.orderly p (by rw [hbefore]; exact List.mem_cons_self)
  have hshut : Sound k ⟨{ s.scene with network := (p.shutdown s.scene.network).2.2 },
      { s.module with loaded := none, performer := some (p.shutdown s.scene.network).2.1 }⟩ :=
    h.exchange hbefore rfl (hpo.shutdown _) Performer.early_shutdown (fun a ha hmeets => ha.shutdown hpo hmeets) nofun
  refine hshut.quiet ((Network.trades_tearDown _ l.splice).trans (Network.trades_dropSplice _ l.splice)) ?_
  exact Nat.le_of_eq ((Network.size_dropSplice _ _).trans (Network.size_tearDown _ _)).symm

theorem perform (h : s.Sound k) (m : Move)
    (hcheck : ∀ key, s.Checks { move := m } key → Memory.Overlooks k key) : (s.perform m).Sound k := by
  cases m with
  | event event =>
    cases event with
    | load =>
      cases hloaded : s.module.loaded with
      | some l =>
        simp only [Site.perform, Module.handle, Module.load_refused hloaded]
        exact h
      | none =>
        rcases Module.load_cases hloaded s.scene.network with ⟨-, hload⟩ | ⟨-, hload⟩
        · simp only [Site.perform, Module.handle, hload]
          -- a budget that is made leaves those that are there as they were
          refine h.load fun past e hs => hs.exchange rfl rfl fun out back ht => ?_
          exact Memory.Tally.addBudget ht _ _
        · simp only [Site.perform, Module.handle, hload]
          exact h.failedLoad
    | unload =>
      cases hloaded : s.module.loaded with
      | none =>
        simp only [Site.perform, Module.handle, Module.unload_refused hloaded]
        exact h
      | some l =>
        obtain ⟨p, hperformer, -⟩ := h.manned l hloaded
        simp only [Site.perform, Module.handle, Module.unload_eq hloaded hperformer]
        -- the leak check at the end is the only look that a module takes at its ledger
        have hkey := hcheck l.budget (.inr ⟨rfl, l, hloaded, rfl⟩)
        exact (h.letGo hperformer).quiet
          (Network.trades_setMemory (Memory.trades_collectLeaks _ hkey) rfl rfl) (le_refl _)
    | quiesce => exact h
    | shutdown => exact h
  | word w => exact h.word w
  | stray place w => exact h.stray place w
  | prepare source script refusal => exact ⟨h.settled, h.orderly, h.started, h.placed, h.manned⟩
  | act act => exact h.act act fun key hact => hcheck key (.inl (congrArg Move.act hact))

/-- Whatever happens, the host stays settled. -/
theorem step (h : s.Sound k) (t : Turn) (hcheck : ∀ key, s.Checks t key → Memory.Overlooks k key) :
    (s.step t).Sound k :=
  (h.onLane t.lane t.heap).perform t.move hcheck

theorem run (h : s.Sound k) (turns : List Turn)
    (hcheck : ∀ t ∈ turns, ∀ (s : Site) key, s.Checks t key → Memory.Overlooks k key) : (s.run turns).Sound k := by
  -- on the turns, for any site that is sound
  induction turns generalizing s with
  | nil => exact h
  | cons t rest ih =>
    have hfirst := h.step t (hcheck t List.mem_cons_self s)
    exact ih hfirst fun u hu => hcheck u (List.mem_cons_of_mem t hu)

end Sound

/-- A host without anything, and a module that was never loaded. -/
def new (limit : Option Nat) (name : String) (source : Settings.Source) (script : Script) : Site :=
  ⟨Scene.start limit, { name := name, source := source, script := script }⟩

theorem Sound.new (limit : Option Nat) (name : String) (source : Settings.Source) (script : Script) :
    (new limit name source script).Sound Memory.Tallied where
  settled := ⟨{ limit := limit }, Scene.Settled.start limit⟩
  orderly _ hp := absurd hp List.not_mem_nil
  started _ hp := absurd hp List.not_mem_nil
  placed _ hp := absurd hp List.not_mem_nil
  manned _ hl := nomatch hl

end Site

end Patchbay
