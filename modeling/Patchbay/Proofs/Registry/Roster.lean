import Patchbay.Proofs.Estate.Backplane

/-!
# `Proofs.Registry.Roster` — which ids and interfaces are bound

A registry is searched by id and by interface, and the number of its plugs is kept apart from them. Plugs come at the
end and leave from anywhere, while the host changes as it likes. Beside the registry runs a *roster*: the list of
bindings, to which a plug that was let in is added and from which an unplugged id is struck. The two agree after any
run, each key leads to one plug, and both keys lead to the same one.

## Contents
* `Registry.plug_cases`, `Registry.plug_error_iff`, `Registry.plug_of_free` — all that plugging can do, when something
  is taken, and what becomes of what is free;
* `Registry.plugs_unplug`, `Registry.plugs_unplugEach` — unplugging is filtering by id;
* `Registry.Event`, `Registry.run`, `Registry.rosterOf` — a registry on a host that changes, and its roster;
* `Registry.Orderly` — what look-ups, plugging and unplugging tell; `Registry.run_orderly`.
-/

namespace Patchbay

namespace Registry

variable {r : Registry} {p : Backplane}

/-! ## Plugging -/

/-- The plug of an interface as it is when it is let in. -/
def fresh (p : Backplane) (i : Interface) (realMac virtualMac : Mac) (id : Nat) (record : Budget.Block) :
    Plug :=
  { key := p.lines.size, id := id, index := i.index, name := i.name, realMac := realMac,
    virtualMac := virtualMac, flags := i.flags, marked := i.attachment = .none, record := record }

/-- A plug is refused, and at most the memory was asked, or it is added behind the others with a line of its
own. -/
theorem plug_cases (r : Registry) (p : Backplane) (budget : Nat) (name : String) (id : Nat)
    (virtualMac : Mac) :
    (∃ e m, r.plug p budget name id virtualMac = (.error e, r, { p with memory := m })) ∨
    ∃ i realMac record m, p.table.find? name = some i ∧ i.mac? = some realMac ∧
      r.isTaken id i.index = false ∧
      p.memory.alloc budget .plain (some recordNote) recordSize = (.ok record, m) ∧
      r.plug p budget name id virtualMac =
        (.ok i.isUp, ⟨r.plugs ++ [fresh p i realMac virtualMac id record], r.count + 1⟩,
          { memory := m, table := p.table.modifyNamed name hooked, lines := p.lines.push {} }) := by
  unfold plug
  cases hfind : p.table.find? name with
  | none => exact .inl ⟨_, p.memory, rfl⟩
  | some i =>
    dsimp only
    cases hmac : i.mac? with
    | none => exact .inl ⟨_, p.memory, rfl⟩
    | some realMac =>
      dsimp only
      cases htaken : r.isTaken id i.index with
      | true => exact .inl ⟨_, p.memory, rfl⟩
      | false =>
        rw [if_neg Bool.false_ne_true]
        cases halloc : p.memory.alloc budget .plain (some recordNote) recordSize with
        | mk answer m =>
          cases answer with
          | error e => exact .inl ⟨_, m, rfl⟩
          | ok record => exact .inr ⟨i, realMac, record, m, rfl, hmac, htaken, rfl, rfl⟩

theorem isTaken_iff {id index : Nat} :
    r.isTaken id index = true ↔ ∃ plug ∈ r.plugs, plug.id = id ∨ plug.index = index := by
  rw [isTaken, List.any_eq_true]
  refine exists_congr fun plug => and_congr_right fun _ => ?_
  rw [Bool.or_eq_true_iff, beq_iff_eq, beq_iff_eq]

/-- Of an Ethernet interface that the host has, only what is bound already is refused as such. -/
theorem plug_error_iff (budget : Nat) {name : String} (id : Nat) (virtualMac : Mac) {i : Interface}
    {realMac : Mac} (hfind : p.table.find? name = some i) (hmac : i.mac? = some realMac) :
    (r.plug p budget name id virtualMac).1 = .error .alreadyPlugged ↔
      ∃ plug ∈ r.plugs, plug.id = id ∨ plug.index = i.index := by
  rw [← isTaken_iff]
  unfold plug
  rw [hfind]
  dsimp only
  rw [hmac]
  dsimp only
  cases r.isTaken id i.index with
  | true => exact ⟨fun _ => rfl, fun _ => rfl⟩
  | false =>
    rw [if_neg Bool.false_ne_true]
    -- memory has refusals of its own
    cases p.memory.alloc budget .plain (some recordNote) recordSize with
    | mk answer m => cases answer <;> exact ⟨nofun, nofun⟩

/-- What is free is let in as soon as the budget pays for it, and comes behind the others. -/
theorem plug_of_free {budget : Nat} {name : String} {id : Nat} (virtualMac : Mac) {i : Interface} {realMac : Mac}
    {record : Budget.Block} (hfind : p.table.find? name = some i) (hmac : i.mac? = some realMac)
    (hfree : ∀ plug ∈ r.plugs, plug.id ≠ id ∧ plug.index ≠ i.index)
    (hpaid : (p.memory.alloc budget .plain (some recordNote) recordSize).1 = .ok record) :
    (r.plug p budget name id virtualMac).1 = .ok i.isUp ∧
      (r.plug p budget name id virtualMac).2.1.plugs = r.plugs ++ [fresh p i realMac virtualMac id record] := by
  have hnot : r.isTaken id i.index = false := by
    rw [← Bool.not_eq_true, isTaken_iff]
    rintro ⟨plug, hplug, hid | hindex⟩
    · exact (hfree plug hplug).1 hid
    · exact (hfree plug hplug).2 hindex
  unfold plug
  rw [hfind]
  dsimp only
  rw [hmac]
  dsimp only
  rw [hnot, if_neg Bool.false_ne_true]
  cases halloc : p.memory.alloc budget .plain (some recordNote) recordSize with
  | mk answer m =>
    rw [halloc] at hpaid
    cases hpaid
    exact ⟨rfl, rfl⟩

/-! ## Unplugging -/

/-- Where no two plugs have an id in common, the first one with an id is the only one. -/
theorem eraseP_eq_filter {plugs : List Plug} (h : (plugs.map Plug.id).Nodup) (id : Nat) :
    plugs.eraseP (·.id = id) = plugs.filter (·.id ≠ id) := by
  induction plugs with
  | nil => rfl
  | cons plug rest ih =>
    rw [List.map_cons, List.nodup_cons] at h
    by_cases hid : plug.id = id
    · rw [List.eraseP_cons_of_pos (by simp [hid]), List.filter_cons_of_neg (by simp [hid])]
      refine (List.filter_eq_self.2 fun other hother => ?_).symm
      have hne : other.id ≠ id := fun heq => h.1 (by rw [hid, ← heq]; exact List.mem_map_of_mem hother)
      simpa using hne
    · rw [List.eraseP_cons_of_neg (by simp [hid]), List.filter_cons_of_pos (by simp [hid]), ih h.2]

theorem byId?_eq_none_iff {id : Nat} : r.byId? id = none ↔ id ∉ r.ids := by
  simp [byId?, ids]

/-- Unplugging an id takes out the plugs with this id, and the others stay as they are. -/
theorem plugs_unplug (h : r.Sound) (p : Backplane) (id : Nat) :
    (r.unplug p id).2.1.plugs = r.plugs.filter (·.id ≠ id) := by
  unfold unplug
  cases hfind : r.byId? id with
  | none =>
    refine (List.filter_eq_self.2 fun plug hplug => ?_).symm
    have hne : plug.id ≠ id := fun heq => byId?_eq_none_iff.1 hfind (heq ▸ List.mem_map_of_mem hplug)
    simpa using hne
  | some plug => exact eraseP_eq_filter h.ids id

theorem unplug_eq_true_iff (r : Registry) (p : Backplane) (id : Nat) :
    (r.unplug p id).1 = true ↔ id ∈ r.ids := by
  unfold unplug
  cases hfind : r.byId? id with
  | none => exact iff_of_false Bool.false_ne_true (byId?_eq_none_iff.1 hfind)
  | some plug =>
    refine iff_of_true rfl (Decidable.not_not.1 fun hnot => ?_)
    rw [byId?_eq_none_iff.2 hnot] at hfind
    cases hfind

theorem plugs_unplugEach (h : r.Sound) (p : Backplane) (ids : List Nat) :
    (r.unplugEach p ids).2.1.plugs = r.plugs.filter (·.id ∉ ids) := by
  -- on the ids: each is struck from what the one before it left
  induction ids generalizing r p with
  | nil => exact (List.filter_eq_self.2 fun _ _ => decide_eq_true List.not_mem_nil).symm
  | cons id rest ih =>
    show ((r.unplug p id).2.1.unplugEach _ rest).2.1.plugs = _
    rw [ih (h.unplug p id), plugs_unplug h, List.filter_filter]
    refine List.filter_congr fun plug _ => ?_
    simp [Bool.and_comm]

theorem plugs_unplugEverything (h : r.Sound) (p : Backplane) :
    (r.unplugEverything p).2.1.plugs = [] := by
  rw [unplugEverything, plugs_unplugEach h]
  refine List.filter_eq_nil_iff.2 fun plug hplug => ?_
  simp [ids, List.mem_map_of_mem hplug]

/-! ## Look-ups -/

namespace Sound

theorem byId?_iff (h : r.Sound) {id : Nat} {plug : Plug} :
    r.byId? id = some plug ↔ plug ∈ r.plugs ∧ plug.id = id := by
  constructor
  · intro hfind
    have hid := List.find?_some hfind
    exact ⟨List.mem_of_find?_eq_some hfind, of_decide_eq_true hid⟩
  · rintro ⟨hplug, rfl⟩
    exact h.byId? hplug

theorem byIndex?_iff (h : r.Sound) {index : Nat} {plug : Plug} :
    r.byIndex? index = some plug ↔ plug ∈ r.plugs ∧ plug.index = index := by
  constructor
  · intro hfind
    have hindex := List.find?_some hfind
    exact ⟨List.mem_of_find?_eq_some hfind, of_decide_eq_true hindex⟩
  · rintro ⟨hplug, rfl⟩
    exact h.byIndex? hplug

theorem isEmpty_iff (h : r.Sound) : r.isEmpty = true ↔ r.plugs = [] := by
  rw [Registry.isEmpty, beq_iff_eq, h.count_eq, List.length_eq_zero_iff]

end Sound

/-! ## Runs -/

/-- What happens to a registry, and to the host around it. -/
inductive Event where
  /-- An interface is plugged at the cost of a budget, or it is refused. -/
  | plug (budget : Nat) (name : String) (id : Nat) (virtualMac : Mac)
  | unplug (id : Nat)
  | unplugEverything
  /-- Interfaces come, go and change, and so do memory and lines. -/
  | host (change : Backplane → Backplane)

/-- The registry and the backplane behind an event. -/
def step (r : Registry) (p : Backplane) : Event → Registry × Backplane
  | .plug budget name id virtualMac => (r.plug p budget name id virtualMac).2
  | .unplug id => (r.unplug p id).2
  | .unplugEverything => (r.unplugEverything p).2
  | .host change => (r, change p)

/-- The registry and the backplane behind events in order. -/
def run (r : Registry) (p : Backplane) : List Event → Registry × Backplane
  | [] => (r, p)
  | e :: rest => run (step r p e).1 (step r p e).2 rest

/-- An id and the index of the interface that it is bound to. -/
abbrev Binding := Nat × Nat

/-- The binding that a plug stands for. -/
def binding (plug : Plug) : Binding := (plug.id, plug.index)

/-- The bindings behind an event: a plug that is let in comes last, an unplugged id is struck out. -/
def note (roster : List Binding) (r : Registry) (p : Backplane) : Event → List Binding
  | .plug budget name id virtualMac =>
    match (r.plug p budget name id virtualMac).1, p.table.find? name with
    | .ok _, some i => roster ++ [(id, i.index)]
    | _, _ => roster
  | .unplug id => roster.filter (·.1 ≠ id)
  | .unplugEverything => []
  | .host _ => roster

/-- The bindings behind events in order. -/
def rosterOf (roster : List Binding) (r : Registry) (p : Backplane) : List Event → List Binding
  | [] => roster
  | e :: rest => rosterOf (note roster r p e) (step r p e).1 (step r p e).2 rest

theorem Sound.step (h : r.Sound) (p : Backplane) (e : Event) : (r.step p e).1.Sound := by
  cases e with
  | plug budget name id virtualMac => exact h.plug p budget name id virtualMac
  | unplug id => exact h.unplug p id
  | unplugEverything => exact h.unplugEach p r.ids
  | host change => exact h

/-- The roster is kept in step with the registry. -/
theorem note_binding (h : r.Sound) (p : Backplane) (e : Event) :
    note (r.plugs.map binding) r p e = (r.step p e).1.plugs.map binding := by
  cases e with
  | plug budget name id virtualMac =>
    dsimp only [note, step]
    rcases r.plug_cases p budget name id virtualMac with ⟨e, m, hr⟩ | ⟨i, realMac, record, m, hfind, -, -, -, hr⟩
    · rw [hr]
    · rw [hr, hfind, List.map_append]
      rfl
  | unplug id =>
    show (r.plugs.map binding).filter _ = (r.unplug p id).2.1.plugs.map binding
    rw [plugs_unplug h, List.filter_map]
    rfl
  | unplugEverything =>
    show [] = (r.unplugEverything p).2.1.plugs.map binding
    rw [plugs_unplugEverything h, List.map_nil]
  | host change => rfl

theorem run_binding (h : r.Sound) (p : Backplane) (events : List Event) :
    (r.run p events).1.Sound ∧
      (r.run p events).1.plugs.map binding = rosterOf (r.plugs.map binding) r p events := by
  induction events generalizing r p with
  | nil => exact ⟨h, rfl⟩
  | cons e rest ih =>
    rw [run, rosterOf, note_binding h]
    exact ih (h.step p e) _

/-! ## What a registry tells -/

/-- A registry tells what its roster says, and lets in and strikes out what it should. -/
structure Orderly (r : Registry) (p : Backplane) (roster : List Binding) : Prop where
  /-- No id is bound twice, and no interface. -/
  ids_nodup : (r.plugs.map Plug.id).Nodup
  indices_nodup : (r.plugs.map Plug.index).Nodup
  count_eq : r.count = r.plugs.length
  isEmpty_iff : r.isEmpty = true ↔ r.plugs = []
  /-- The plugs stand in the order in which they were let in. -/
  order : r.plugs.map binding = roster
  ids_eq : r.ids = roster.map Prod.fst
  /-- Each key leads to the one plug that has it. -/
  byId?_iff : ∀ id plug, r.byId? id = some plug ↔ plug ∈ r.plugs ∧ plug.id = id
  byIndex?_iff : ∀ index plug, r.byIndex? index = some plug ↔ plug ∈ r.plugs ∧ plug.index = index
  /-- Both keys lead to the same plug. -/
  byIndex?_of_byId? : ∀ id plug, r.byId? id = some plug → r.byIndex? plug.index = some plug
  /-- An Ethernet interface is refused as bound just when its id or its index is. -/
  refused_iff : ∀ budget name id virtualMac i realMac, p.table.find? name = some i →
    i.mac? = some realMac → ((r.plug p budget name id virtualMac).1 = .error .alreadyPlugged ↔
      ∃ plug ∈ r.plugs, plug.id = id ∨ plug.index = i.index)
  /-- A free id and a free Ethernet interface are let in if the budget pays for it, as the last of all. -/
  let_in : ∀ budget name id virtualMac i realMac record, p.table.find? name = some i → i.mac? = some realMac →
    (∀ plug ∈ r.plugs, plug.id ≠ id ∧ plug.index ≠ i.index) →
    (p.memory.alloc budget .plain (some recordNote) recordSize).1 = .ok record →
    (r.plug p budget name id virtualMac).1 = .ok i.isUp ∧
      (r.plug p budget name id virtualMac).2.1.plugs.map binding = roster ++ [(id, i.index)]
  /-- An id is reported as unplugged just when it was bound. -/
  unplug_iff : ∀ id, (r.unplug p id).1 = true ↔ id ∈ r.ids
  /-- It goes alone, and the others keep their order. -/
  plugs_unplug : ∀ id, (r.unplug p id).2.1.plugs = r.plugs.filter (·.id ≠ id)

theorem Sound.orderly (h : r.Sound) (p : Backplane) : r.Orderly p (r.plugs.map binding) where
  ids_nodup := h.ids
  indices_nodup := h.indices
  count_eq := h.count_eq
  isEmpty_iff := h.isEmpty_iff
  order := rfl
  ids_eq := by
    rw [List.map_map]
    rfl
  byId?_iff := fun _ _ => h.byId?_iff
  byIndex?_iff := fun _ _ => h.byIndex?_iff
  byIndex?_of_byId? := fun _ _ hfind => h.byIndex? (h.byId?_iff.1 hfind).1
  refused_iff := fun budget _ id virtualMac _ _ hfind hmac => plug_error_iff budget id virtualMac hfind hmac
  let_in := by
    intro budget name id virtualMac i realMac record hfind hmac hfree hpaid
    obtain ⟨hanswer, hplugs⟩ := plug_of_free virtualMac hfind hmac hfree hpaid
    refine ⟨hanswer, ?_⟩
    rw [hplugs, List.map_append]
    rfl
  unplug_iff := r.unplug_eq_true_iff p
  plugs_unplug := Registry.plugs_unplug h p

/-- **A registry is a list of bindings with two keys.** Whatever is plugged, refused and unplugged in whatever order,
and however the host's interfaces and memory change in between: the plugs are the bindings that were let in and not
struck out, in the order in which they were let in; ids and interfaces are unique and lead to the same plug; the count
is right; and an id and an interface that are free are let in where a budget pays for it. -/
theorem run_orderly (p : Backplane) (events : List Event) :
    let s := run {} p events
    s.1.Orderly s.2 (rosterOf [] {} p events) := by
  intro s
  obtain ⟨hsound, horder⟩ := run_binding Sound.empty p events
  change _ = rosterOf [] {} p events at horder
  rw [← horder]
  exact hsound.orderly s.2

/-- An id that is taken is refused and a free one let in; an id that is struck out leaves the others as they are. -/
example :
    let mac (last : UInt8) : Mac := ⟨[2, 0, 0, 0, 0, last], rfl⟩
    let inserted (index : Nat) (name : String) (t : Table) : Table :=
      t.insert { index := index, name := name, mtu := 1500, flags := 1, addresses := [some (mac 9)] }
    let p : Backplane :=
      { memory := { budgets := #[.new 0 400 false] }, table := inserted 2 "b" (inserted 1 "a" {}) }
    rosterOf [] {} p [.plug 0 "a" 7 (mac 1), .plug 0 "b" 7 (mac 2), .plug 0 "b" 8 (mac 2)] = [(7, 1), (8, 2)] ∧
      rosterOf [] {} p [.plug 0 "a" 7 (mac 1), .plug 0 "b" 8 (mac 2), .unplug 7] = [(8, 2)] := by
  decide +kernel

end Registry

end Patchbay
