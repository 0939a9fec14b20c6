import Patchbay.Network.Registry
import Patchbay.Proofs.Estate.Frame

/-!
# `Proofs.Estate.Backplane` — a plug lasts as long as somebody holds it

The backplane itself holds what waits in the queues of its lines, and the block of every plug that somebody holds,
once however many they are. A line counts the holders of its plug; with the last of them the queue and the block
go.

## Contents
* `records` — the blocks of the plugs that are held;
* `Backplane.Settled` — memory and lines are those of an estate;
* `Backplane.trades_onQueue` — an operation on the queue of a plug by a holder of the plug;
* `Backplane.trades_holdPlug`, `Backplane.trades_dropPlug` — one holder more, one less;
* `Registry.trades_plug`, `Registry.trades_unplug`, `Registry.trades_unplugEverything`.
-/

namespace Patchbay

open Budget (Block)

/-- The blocks of the plugs that are held. -/
def records (plugs : Multiset Plug) : Estate :=
  { blocks := plugs.dedup.map Plug.record }

/-- A further holder of a plug pays for nothing. -/
theorem records_cons_of_mem {plug : Plug} {plugs : Multiset Plug} (h : plug ∈ plugs) :
    records (plug ::ₘ plugs) = records plugs := by
  rw [records, Multiset.dedup_cons_of_mem h, records]

/-- The first holder of a plug brings its record. -/
theorem records_cons_of_notMem {plug : Plug} {plugs : Multiset Plug} (h : plug ∉ plugs) :
    records (plug ::ₘ plugs) = estate plug.record + records plugs := by
  rw [records, Multiset.dedup_cons_of_notMem h, records, Multiset.map_cons]
  rfl

/-- How many hold the plug of a line. -/
def holdersOf (key : Nat) (plugs : Multiset Plug) : Nat :=
  plugs.countP (·.key = key)

/-- A further plug of a line is a further holder of it. -/
theorem holdersOf_cons_self {key : Nat} {plug : Plug} (plugs : Multiset Plug) (h : plug.key = key) :
    holdersOf key (plug ::ₘ plugs) = holdersOf key plugs + 1 :=
  Multiset.countP_cons_of_pos plugs h

/-- A plug of another line is none. -/
theorem holdersOf_cons_other {key : Nat} {plug : Plug} (plugs : Multiset Plug) (h : plug.key ≠ key) :
    holdersOf key (plug ::ₘ plugs) = holdersOf key plugs :=
  Multiset.countP_cons_of_neg plugs h

/-- A line has a holder just if there is a plug of it. -/
theorem holdersOf_pos {key : Nat} {plugs : Multiset Plug} :
    0 < holdersOf key plugs ↔ ∃ plug ∈ plugs, plug.key = key :=
  Multiset.countP_pos

namespace Backplane

/-- What the backplane itself holds while plugs are held. -/
def kept (p : Backplane) (plugs : Multiset Plug) : Estate :=
  records plugs + estate p.lines.toList

/-- The memory is settled with an estate and what the backplane itself holds, every plug that is held has a line
of its own, and each line knows how many hold its plug. -/
structure Settled (k : Memory.Bookkeeping) (p : Backplane) (h : History) (e : Estate) : Prop where
  memory : p.memory.Settled k h (e + p.kept e.plugs)
  lined : ∀ {plug : Plug}, plug ∈ e.plugs → plug.key < p.lines.size
  alone : ∀ {plug other : Plug}, plug ∈ e.plugs → other ∈ e.plugs → plug.key = other.key →
    plug = other
  held : ∀ {key : Nat} {line : Line}, p.lines[key]? = some line →
    line.holders = holdersOf key e.plugs
  idle : ∀ {key : Nat} {line : Line}, p.lines[key]? = some line → line.holders = 0 →
    line.queue.nodes = []

variable {k : Memory.Bookkeeping} {p : Backplane} {h : History} {e a b : Estate} {plug : Plug}

/-- Only the memory's figures have a part in a trade of the memory. -/
theorem trades_memory {m : Memory} (hm : Trades (Memory.Settled k) p.memory a m b)
    (hplugs : a.plugs = b.plugs) : Trades (Settled k) p a { p with memory := m } b := by
  intro past rest hs
  have hmemory := hs.memory
  rw [add_assoc] at hmemory
  obtain ⟨past', hle, hm'⟩ := hm past _ hmemory
  have heq : (b + rest).plugs = (a + rest).plugs := by rw [Estate.plugs_add, Estate.plugs_add, hplugs]
  refine ⟨past', hle, ?_⟩
  constructor
  · rw [heq, add_assoc]
    exact hm'
  · rw [heq]
    exact hs.lined
  · rw [heq]
    exact hs.alone
  · rw [heq]
    exact hs.held
  · exact hs.idle

/-- Nothing is held of the table. -/
theorem trades_table (p : Backplane) (table : Table) :
    Trades (Settled k) p 0 { p with table := table } 0 :=
  fun past _ hs => ⟨past, le_refl past, ⟨hs.memory, hs.lined, hs.alone, hs.held, hs.idle⟩⟩

/-! ## Lines -/

theorem line_eq (h : plug.key < p.lines.size) : p.line plug = p.lines[plug.key] := by
  simp [line, h]

theorem getElem?_line (h : plug.key < p.lines.size) : p.lines[plug.key]? = some (p.line plug) := by
  rw [line_eq h, Array.getElem?_eq_getElem h]

/-- A line that is put in place is there, and the others stay. -/
theorem getElem?_setLine {line : Line} (h : plug.key < p.lines.size) (key : Nat) :
    (p.setLine plug line).lines[key]? = if plug.key = key then some line else p.lines[key]? := by
  rw [setLine, Array.getElem?_setIfInBounds, if_pos h]

theorem line_setLine (h : plug.key < p.lines.size) (line : Line) :
    (p.setLine plug line).line plug = line := by
  simp [Backplane.line, setLine, h]

/-- Of two lines put in the same place the latter counts. -/
theorem setLine_setLine (p : Backplane) (plug : Plug) (line line' : Line) :
    (p.setLine plug line).setLine plug line' = p.setLine plug line' := by
  simp [setLine]

/-- What the lines keep is what one of them keeps and what the others keep. -/
theorem estate_lines (h : plug.key < p.lines.size) :
    estate p.lines.toList = estate (p.line plug) + estate (p.lines.toList.eraseIdx plug.key) := by
  refine estate_eq_add_eraseIdx ?_
  rw [Array.getElem?_toList]
  exact getElem?_line h

/-- A line that is put in place keeps what it keeps in the stead of the one before. -/
theorem estate_lines_setLine (h : plug.key < p.lines.size) (line : Line) :
    estate (p.setLine plug line).lines.toList =
      estate line + estate (p.lines.toList.eraseIdx plug.key) := by
  rw [setLine, Array.toList_setIfInBounds]
  refine estate_set (a := p.line plug) ?_ line
  rw [Array.getElem?_toList]
  exact getElem?_line h

/-- What changes when the line of a plug changes: its count of holders, and what its queue holds. -/
theorem Settled.setLine {m : Memory} {line : Line} {h' : History} {e' : Estate}
    (hs : p.Settled k h e) (hkey : plug.key < p.lines.size)
    (hmemory : m.Settled k h'
      (e' + (records e'.plugs + (estate line + estate (p.lines.toList.eraseIdx plug.key)))))
    (hlined : ∀ other ∈ e'.plugs, other = plug ∨ other ∈ e.plugs)
    (halone : ∀ other ∈ e'.plugs, other.key = plug.key → other = plug)
    (hheld : line.holders = holdersOf plug.key e'.plugs)
    (hothers : ∀ key ≠ plug.key, holdersOf key e'.plugs = holdersOf key e.plugs)
    (hidle : line.holders = 0 → line.queue.nodes = []) :
    ({ p.setLine plug line with memory := m } : Backplane).Settled k h' e' := by
  constructor
  case memory =>
    rw [kept, estate_lines_setLine hkey]
    exact hmemory
  case lined =>
    intro other hother
    rw [Backplane.setLine, Array.size_setIfInBounds]
    rcases hlined other hother with rfl | hother
    · exact hkey
    · exact hs.lined hother
  case alone =>
    intro one other hone hother heq
    -- two plugs of the changed line are `plug`; of any other line nothing is new
    by_cases hone' : one.key = plug.key
    · rw [halone one hone hone', halone other hother (heq.symm.trans hone')]
    · rcases hlined one hone with rfl | hmem
      · exact absurd rfl hone'
      rcases hlined other hother with rfl | hmem'
      · exact absurd heq hone'
      exact hs.alone hmem hmem' heq
  case held =>
    intro key other hget
    rw [getElem?_setLine hkey] at hget
    split at hget
    · rename_i heq
      rw [← Option.some.inj hget, ← heq]
      exact hheld
    · rename_i hne
      rw [hothers key (Ne.symm hne)]
      exact hs.held hget
  case idle =>
    intro key other hget
    rw [getElem?_setLine hkey] at hget
    split at hget
    · rw [← Option.some.inj hget]
      exact hidle
    · exact hs.idle hget

/-! ## What holders of a plug may do -/

theorem mem_plugs (plug : Plug) (e : Estate) : plug ∈ (estate plug + e).plugs :=
  Multiset.mem_add.2 (.inl (Multiset.mem_singleton_self plug))

theorem plugs_cons (plug : Plug) (e : Estate) : (estate plug + e).plugs = plug ::ₘ e.plugs :=
  Estate.plugs_plug_add plug e

/-- Whoever holds a plug may work on its queue. -/
theorem trades_onQueue {α : Type} {f : Queue → Memory → α × Queue × Memory} {b : α → Estate}
    (p : Backplane) (plug : Plug) (hf : Queue.Operates k a f b) (ha : a.plugs = 0)
    (hb : ∀ x, (b x).plugs = 0) :
    Trades (Settled k) p (estate plug + a) (p.onQueue plug f).2
      (estate plug + b (p.onQueue plug f).1) := by
  intro past rest hs
  have hplugs : (estate plug + b (p.onQueue plug f).1 + rest).plugs =
      (estate plug + a + rest).plugs := by
    rw [Estate.plugs_add, Estate.plugs_add, Estate.plugs_add, Estate.plugs_add, ha, hb]
  have hin : plug ∈ (estate plug + a + rest).plugs := by
    rw [add_assoc]
    exact mem_plugs plug _
  -- the queue is taken out of what the backplane keeps, worked on, and put back
  have hkey := hs.lined hin
  have hline := hs.held (getElem?_line hkey)
  have hmemory := hs.memory
  rw [kept, estate_lines hkey] at hmemory
  obtain ⟨past', hle, hm⟩ := hf (p.line plug).queue p.memory past
    (estate plug + rest + records (estate plug + a + rest).plugs +
      estate (p.lines.toList.eraseIdx plug.key)) (by
    convert hmemory using 1
    show _ = estate plug + a + rest + (_ + (estate (p.line plug).queue + _))
    abel)
  refine ⟨past', hle, hs.setLine hkey ?_ ?_ ?_ ?_ ?_ ?_⟩
  · rw [hplugs]
    convert hm using 1
    show estate plug + b (f (p.line plug).queue p.memory).1 + rest +
      (_ + (estate (f (p.line plug).queue p.memory).2.1 + _)) = _
    abel
  · rw [hplugs]
    intro other hother
    exact .inr hother
  · rw [hplugs]
    intro other hother heq
    exact hs.alone hother hin heq
  · rw [hplugs]
    exact hline
  · intro key _
    rw [hplugs]
  · intro hzero
    -- whoever works on the queue holds the plug, so the line is not idle
    rw [show (p.line plug).holders = 0 from hzero] at hline
    exact absurd (holdersOf_pos.2 ⟨plug, hin, rfl⟩) (Nat.not_lt.2 hline.symm.le)

/-- What else a line counts is no matter of what is held. -/
theorem trades_countWarning (p : Backplane) (plug : Plug) :
    Trades (Settled k) p (estate plug)
      (p.setLine plug { p.line plug with mtuWarnings := (p.line plug).mtuWarnings + 1 })
      (estate plug) := by
  intro past rest hs
  have hin := mem_plugs plug rest
  have hkey := hs.lined hin
  have hmemory := hs.memory
  rw [kept, estate_lines hkey] at hmemory
  refine ⟨past, le_refl past, hs.setLine hkey hmemory (fun _ => .inr) ?_ ?_ (fun _ _ => rfl) ?_⟩
  · intro other hother heq
    exact hs.alone hother hin heq
  · have hline : (p.line plug).holders = _ := hs.held (getElem?_line hkey)
    exact hline
  · have hidle : (p.line plug).holders = 0 → (p.line plug).queue.nodes = [] :=
      hs.idle (getElem?_line hkey)
    exact hidle

/-- Who holds a plug may hold it twice. -/
theorem trades_holdPlug (p : Backplane) (plug : Plug) :
    Trades (Settled k) p (estate plug) (p.holdPlug plug) (estate plug + estate plug) := by
  intro past rest hs
  have hin := mem_plugs plug rest
  have hkey := hs.lined hin
  have hline := hs.held (getElem?_line hkey)
  have hplugs : (estate plug + estate plug + rest).plugs = plug ::ₘ (estate plug + rest).plugs := by
    rw [add_assoc, plugs_cons]
  have hmemory := hs.memory
  rw [kept, estate_lines hkey] at hmemory
  refine ⟨past, le_refl past, hs.setLine hkey ?_ ?_ ?_ ?_ ?_ ?_⟩
  · -- the block of the plug is kept once however many hold it
    rw [hplugs, records_cons_of_mem hin]
    rw [add_assoc, add_assoc, Memory.settled_plug_add, ← add_assoc]
    exact hmemory
  · rw [hplugs]
    intro other hother
    exact Multiset.mem_cons.1 hother
  · rw [hplugs]
    intro other hother heq
    rcases Multiset.mem_cons.1 hother with hother | hother
    · exact hother
    · exact hs.alone hother hin heq
  · rw [hplugs, holdersOf_cons_self _ rfl, ← hline]
  · intro key hne
    rw [hplugs, holdersOf_cons_other _ hne.symm]
  · intro hzero
    exact absurd hzero (Nat.succ_ne_zero _)

/-- With the last holder of a plug go what waits in its queue and its block. -/
theorem trades_dropPlug [Memory.Tally k] (p : Backplane) (plug : Plug) :
    Trades (Settled k) p (estate plug) (p.dropPlug plug) 0 := by
  intro past rest hs
  rw [zero_add]
  have hin := mem_plugs plug rest
  have hkey := hs.lined hin
  have hline := hs.held (getElem?_line hkey)
  have hmemory := hs.memory
  rw [plugs_cons] at hline hmemory
  rw [kept, estate_lines hkey, add_assoc, Memory.settled_plug_add] at hmemory
  rw [holdersOf_cons_self _ rfl] at hline
  have hlined (other : Plug) (hother : other ∈ rest.plugs) : other ∈ (estate plug + rest).plugs := by
    rw [plugs_cons]
    exact Multiset.mem_cons_of_mem hother
  have halone (other : Plug) (hother : other ∈ rest.plugs) (heq : other.key = plug.key) :
      other = plug := hs.alone (hlined other hother) hin heq
  have hothers (key : Nat) (hne : key ≠ plug.key) :
      holdersOf key rest.plugs = holdersOf key (estate plug + rest).plugs := by
    rw [plugs_cons, holdersOf_cons_other _ hne.symm]
  -- from here on it matters whether anybody else holds the plug
  unfold dropPlug
  by_cases hlast : (p.line plug).holders ≤ 1
  · have hzero : holdersOf plug.key rest.plugs = 0 := by omega
    have hnone : plug ∉ rest.plugs := fun hmem =>
      absurd (holdersOf_pos.2 ⟨plug, hmem, rfl⟩) (Nat.not_lt.2 hzero.le)
    rw [records_cons_of_notMem hnone] at hmemory
    have hclear := (Queue.operates_clear (k := k) (p.line plug).queue p.memory).frame (estate plug.record)
    -- first what waits in the queue, then the block
    obtain ⟨past', hle, hm⟩ := (hclear.trans (((Memory.trades_free _ plug.record).frame _).cast
      (add_comm _ _) (zero_add _).symm)) past
      (rest + records rest.plugs + estate (p.lines.toList.eraseIdx plug.key)) (by
      convert hmemory using 1
      show _ = rest + (_ + _ + (estate (p.line plug).queue + _))
      abel)
    simp only [if_pos hlast, onQueue, line_setLine hkey, setLine_setLine]
    refine ⟨past', hle, hs.setLine hkey ?_ ?_ halone ?_ hothers ?_⟩
    · show (((p.line plug).queue.clear p.memory).2.2.free plug.record).Settled k past' (rest +
        (records rest.plugs + (estate ((p.line plug).queue.clear p.memory).2.1 + _)))
      convert hm using 1
      abel
    · intro other hother
      exact .inr (hlined other hother)
    · rw [hzero]
      exact Nat.sub_eq_zero_of_le hlast
    · intro _
      exact rfl
  · have hmore : plug ∈ rest.plugs := by
      have hpos : 0 < holdersOf plug.key rest.plugs := by omega
      obtain ⟨other, hother, heq⟩ := holdersOf_pos.1 hpos
      rwa [← halone other hother heq]
    rw [records_cons_of_mem hmore] at hmemory
    simp only [if_neg hlast]
    refine ⟨past, le_refl past, hs.setLine hkey hmemory ?_ halone ?_ hothers ?_⟩
    · intro other hother
      exact .inr (hlined other hother)
    · exact Nat.sub_eq_of_eq_add hline
    · intro hzero
      exact absurd (Nat.le_of_sub_eq_zero hzero) hlast

/-- A new line for a plug that is paid for, with one holder. -/
theorem trades_addLine (p : Backplane) (plug : Plug) (hnew : plug.key = p.lines.size) :
    Trades (Settled k) p (estate plug.record) { p with lines := p.lines.push {} } (estate plug) := by
  intro past rest hs
  have hplugs : (estate plug.record + rest).plugs = rest.plugs := zero_add rest.plugs
  -- the key of a new line was never given out
  have hfresh (other : Plug) (hother : other ∈ rest.plugs) : other.key ≠ plug.key := by
    rw [← hplugs] at hother
    exact hnew ▸ Nat.ne_of_lt (hs.lined hother)
  have hnone : plug ∉ rest.plugs := fun hmem => hfresh plug hmem rfl
  have hget {key : Nat} {line : Line} (h : (p.lines.push {})[key]? = some line) :
      (key = plug.key ∧ line = {}) ∨ (key ≠ plug.key ∧ p.lines[key]? = some line) := by
    rw [Array.getElem?_push] at h
    split at h
    · rename_i heq
      exact .inl ⟨heq.trans hnew.symm, (Option.some.inj h).symm⟩
    · rename_i hne
      exact .inr ⟨fun heq => hne (heq.trans hnew), h⟩
  refine ⟨past, le_refl past, ?_⟩
  constructor
  case memory =>
    have hmemory := hs.memory
    rw [hplugs, kept] at hmemory
    rw [plugs_cons, kept, Array.toList_push, estate_append, records_cons_of_notMem hnone, add_assoc,
      Memory.settled_plug_add]
    convert hmemory using 1
    show rest + (_ + _ + (_ + 0)) = _
    abel
  case lined =>
    intro other hother
    rw [plugs_cons] at hother
    rw [Array.size_push]
    rcases Multiset.mem_cons.1 hother with rfl | hother
    · exact Nat.lt_succ_of_le hnew.le
    · exact Nat.lt_succ_of_lt (hs.lined (hplugs ▸ hother))
  case alone =>
    intro one other hone hother heq
    rw [plugs_cons] at hone hother
    rcases Multiset.mem_cons.1 hone with hone | hone
    · rcases Multiset.mem_cons.1 hother with hother | hother
      · rw [hone, hother]
      · exact absurd (heq.symm.trans (congrArg Plug.key hone)) (hfresh other hother)
    · rcases Multiset.mem_cons.1 hother with hother | hother
      · exact absurd (heq.trans (congrArg Plug.key hother)) (hfresh one hone)
      · exact hs.alone (hplugs ▸ hone) (hplugs ▸ hother) heq
  case held =>
    intro key line h
    rw [plugs_cons]
    rcases hget h with ⟨rfl, rfl⟩ | ⟨hne, h⟩
    · have hzero : holdersOf plug.key rest.plugs = 0 := by
        refine Nat.eq_zero_of_not_pos fun hpos => ?_
        obtain ⟨other, hother, heq⟩ := holdersOf_pos.1 hpos
        exact hfresh other hother heq
      rw [holdersOf_cons_self _ rfl, hzero]
    · rw [holdersOf_cons_other _ hne.symm, hs.held h, hplugs]
  case idle =>
    intro key line h
    rcases hget h with ⟨-, rfl⟩ | ⟨-, h⟩
    · intro _
      exact rfl
    · exact hs.idle h

end Backplane

/-! ## Registries -/

namespace Registry

open Backplane (Settled)

variable {k : Memory.Bookkeeping} [Memory.Tally k]

/-- Neither an id nor an interface is plugged twice, and the count is right. -/
structure Sound (r : Registry) : Prop where
  count_eq : r.count = r.plugs.length
  ids : (r.plugs.map Plug.id).Nodup
  indices : (r.plugs.map Plug.index).Nodup

theorem Sound.empty : Sound {} := ⟨rfl, List.nodup_nil, List.nodup_nil⟩

/-- A registry stays sound when something is plugged. -/
theorem Sound.plug {r : Registry} (h : r.Sound) (p : Backplane) (budget : Nat) (name : String)
    (id : Nat) (virtualMac : Mac) : (r.plug p budget name id virtualMac).2.1.Sound := by
  unfold Registry.plug
  split
  · exact h
  split
  · exact h
  split
  · exact h
  rename_i htaken
  split
  · exact h
  · rw [isTaken, List.any_eq_true] at htaken
    -- a plug that is let in shares neither id nor interface with one that is there
    have hfree {other : Plug} (hother : other ∈ r.plugs) (heq : (other.id == id) = true ∨
        (other.index == _) = true) : False :=
      htaken ⟨other, hother, Bool.or_eq_true_iff.2 heq⟩
    constructor
    · rw [List.length_append, h.count_eq]
      rfl
    · rw [List.map_append, List.map_singleton, List.nodup_append]
      refine ⟨h.ids, List.nodup_singleton _, fun x hx y hy heq => ?_⟩
      obtain ⟨other, hother, rfl⟩ := List.mem_map.1 hx
      rw [List.mem_singleton.1 hy] at heq
      exact hfree hother (.inl (beq_iff_eq.2 heq))
    · rw [List.map_append, List.map_singleton, List.nodup_append]
      refine ⟨h.indices, List.nodup_singleton _, fun x hx y hy heq => ?_⟩
      obtain ⟨other, hother, rfl⟩ := List.mem_map.1 hx
      rw [List.mem_singleton.1 hy] at heq
      exact hfree hother (.inr (beq_iff_eq.2 heq))

/-- It stays sound when an id is unplugged. -/
theorem Sound.unplug {r : Registry} (h : r.Sound) (p : Backplane) (id : Nat) :
    (r.unplug p id).2.1.Sound := by
  unfold Registry.unplug
  cases hfind : r.byId? id with
  | none => exact h
  | some plug =>
    have hsub : (r.plugs.eraseP (·.id = id)).Sublist r.plugs := List.eraseP_sublist
    refine ⟨?_, h.ids.sublist (hsub.map Plug.id), h.indices.sublist (hsub.map Plug.index)⟩
    show r.count - 1 = (r.plugs.eraseP (·.id = id)).length
    rw [h.count_eq, List.length_eraseP_of_mem (List.mem_of_find?_eq_some hfind)
      (List.find?_some hfind)]

/-- And when many are. -/
theorem Sound.unplugEach {r : Registry} (h : r.Sound) (p : Backplane) (ids : List Nat) :
    (r.unplugEach p ids).2.1.Sound := by
  induction ids generalizing r p with
  | nil => exact h
  | cons id rest ih => exact ih (h.unplug p id) _

/-- Where no two elements share a value, each is found by its own. -/
theorem find?_of_nodup {α : Type} {l : List α} {f : α → Nat} {a : α} (h : (l.map f).Nodup) (ha : a ∈ l) :
    l.find? (f · = f a) = some a := by
  cases hfind : l.find? (f · = f a) with
  | none =>
    have hother := List.find?_eq_none.1 hfind a ha
    exact absurd (decide_eq_true rfl) hother
  | some other =>
    have hfound := List.find?_some hfind
    have hvalue : f other = f a := of_decide_eq_true hfound
    rw [List.inj_on_of_nodup_map h (List.mem_of_find?_eq_some hfind) ha hvalue]

/-- A plug is found by its own id, for no other one has that. -/
theorem Sound.byId? {r : Registry} (h : r.Sound) {plug : Plug} (hplug : plug ∈ r.plugs) :
    r.byId? plug.id = some plug :=
  find?_of_nodup h.ids hplug

/-- So it is by its interface. -/
theorem Sound.byIndex? {r : Registry} (h : r.Sound) {plug : Plug} (hplug : plug ∈ r.plugs) :
    r.byIndex? plug.index = some plug :=
  find?_of_nodup h.indices hplug

/-- A registry that lists a plug is seen not to be empty. -/
theorem Sound.isEmpty {r : Registry} (h : r.Sound) {plug : Plug} (hplug : plug ∈ r.plugs) :
    r.isEmpty = false := by
  rw [Registry.isEmpty, h.count_eq, beq_eq_false_iff_ne]
  exact Nat.ne_of_gt (List.length_pos_of_mem hplug)

/-- What is plugged is held by the registry, and its record is paid for out of the budget. -/
theorem trades_plug (r : Registry) (p : Backplane) (budget : Nat) (name : String) (id : Nat)
    (virtualMac : Mac) :
    Trades (Settled k) p (estate r) (r.plug p budget name id virtualMac).2.2
      (estate (r.plug p budget name id virtualMac).2.1) := by
  unfold plug
  -- nothing is charged for an interface that is missing, has no address or is taken
  split
  · exact .refl p _
  split
  · exact .refl p _
  split
  · exact .refl p _
  cases ha : p.memory.alloc budget .plain (some recordNote) recordSize with
  | mk answer m =>
    have halloc := p.memory.trades_alloc (k := k) budget .plain (some recordNote) recordSize
    rw [ha] at halloc
    have hmemory := Backplane.trades_memory halloc (plugs_eq_zero answer).symm
    cases answer with
    | error e => exact (hmemory.frame (estate r)).cast (zero_add _).symm (zero_add _).symm
    | ok record =>
      have hadd (plug : Plug) (table : Table) (hkey : plug.key = p.lines.size)
          (hrecord : plug.record = record) :
          Trades (Settled k) p (estate r) { memory := m, table := table, lines := p.lines.push {} }
            (estate (r.plugs ++ [plug])) := by
        have hline := Backplane.trades_addLine (k := k) { p with memory := m } plug hkey
        rw [hrecord] at hline
        have htable := ((Backplane.trades_table (k := k) { p with memory := m, lines := p.lines.push {} }
          table).frame (estate plug)).cast (zero_add _).symm (zero_add _).symm
        refine (((hmemory.trans hline).trans htable).frame (estate r)).cast (zero_add _).symm ?_
        rw [estate_append, add_comm]
        rfl
      exact hadd _ _ rfl rfl

/-- What is unplugged is not held by the registry any more. -/
theorem trades_unplug (r : Registry) (p : Backplane) (id : Nat) :
    Trades (Settled k) p (estate r) (r.unplug p id).2.2 (estate (r.unplug p id).2.1) := by
  unfold unplug
  cases hfind : r.byId? id with
  | none => exact .refl p _
  | some plug =>
    have hsplit : estate r = estate plug + estate (r.plugs.eraseP (·.id = id)) :=
      estate_eq_add_eraseP hfind
    -- the registry is one of the holders, and others may go on holding the plug
    have hgo (table : Table) : Trades (Settled k) p (estate plug)
        (({ p with table := table }.onQueue plug Queue.clear).2.dropPlug plug) 0 := by
      have htable := ((p.trades_table (k := k) table).frame (estate plug)).cast (zero_add _).symm
        (zero_add _).symm
      have hqueue := ({ p with table := table } : Backplane).trades_onQueue plug
        Queue.operates_clear (k := k) rfl fun _ => rfl
      rw [add_zero] at hqueue
      exact (htable.trans hqueue).trans (Backplane.trades_dropPlug _ plug)
    exact ((hgo _).frame _).cast hsplit (zero_add _).symm

/-- So it is with many ids, one after the other. -/
theorem trades_unplugEach (r : Registry) (p : Backplane) (ids : List Nat) :
    Trades (Settled k) p (estate r) (r.unplugEach p ids).2.2 (estate (r.unplugEach p ids).2.1) := by
  induction ids generalizing r p with
  | nil => exact .refl p _
  | cons id rest ih => exact (r.trades_unplug p id).trans (ih _ _)

theorem trades_unplugEverything (r : Registry) (p : Backplane) :
    Trades (Settled k) p (estate r) (r.unplugEverything p).2.2 (estate (r.unplugEverything p).2.1) :=
  r.trades_unplugEach p r.ids

end Registry

end Patchbay
