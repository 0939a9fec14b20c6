import Patchbay.Proofs.Registry.Roster

/-!
# `Proofs.Registry.Plugging` — an interface is plugged, or nothing has happened

Plugging asks four questions in order: whether the host has an interface of the name, whether it has an Ethernet
address, whether the id and the interface are still to be had, and whether the budget pays for the record. The first one
that is answered no is the reason of the refusal, and until all four are answered nothing is touched.

## Contents
* `Table.First` — the first interface of a name; `Table.find?_eq_some_iff`, `Table.First.modifyNamed`;
* `Memory.alloc_charged` — what a granted block costs a budget;
* `Registry.Refuses` — the reasons of a refusal; `Registry.plug_refused`, `Registry.refuses_or_admits`;
* `Registry.plug_exact` — each refusal for its reason and without a trace, and all that plugging does.
-/

namespace Patchbay

/-! ## The first interface of a name -/

namespace Table

/-- An interface is the first one of a name, on as many bytes of it as count: some are in front of it, some behind. -/
structure First (t : Table) (name : String) (front : List Interface) (i : Interface) (behind : List Interface) :
    Prop where
  interfaces : t.interfaces = front ++ i :: behind
  named : nameBytes i.name = nameBytes name
  before : ∀ j ∈ front, nameBytes j.name ≠ nameBytes name

variable {t : Table} {name : String} {front behind : List Interface} {i : Interface}

theorem sameName_iff {a b : String} : sameName a b = true ↔ nameBytes a = nameBytes b :=
  beq_iff_eq

theorem find?_eq_some_iff : t.find? name = some i ↔ ∃ front behind, t.First name front i behind := by
  rw [find?, List.find?_eq_some_iff_append]
  constructor
  · rintro ⟨hnamed, front, behind, hinterfaces, hbefore⟩
    refine ⟨front, behind, hinterfaces, sameName_iff.1 hnamed, fun j hj heq => ?_⟩
    have hnot := hbefore j hj
    rw [sameName_iff.2 heq] at hnot
    cases hnot
  · rintro ⟨front, behind, hfirst⟩
    refine ⟨sameName_iff.2 hfirst.named, front, behind, hfirst.interfaces, fun j hj => ?_⟩
    rw [Bool.not_eq_true', ← Bool.not_eq_true, sameName_iff]
    exact hfirst.before j hj

theorem find?_eq_none_iff : t.find? name = none ↔ ∀ i ∈ t.interfaces, nameBytes i.name ≠ nameBytes name := by
  rw [find?, List.find?_eq_none]
  exact forall₂_congr fun i _ => not_congr sameName_iff

theorem First.find? (h : t.First name front i behind) : t.find? name = some i :=
  find?_eq_some_iff.2 ⟨front, behind, h⟩

theorem modifyFirst_append {f : Interface → Interface} {picks : Interface → Bool}
    (hfront : ∀ j ∈ front, picks j ≠ true) (hi : picks i = true) :
    modifyFirst f picks (front ++ i :: behind) = front ++ f i :: behind := by
  induction front with
  | nil =>
    rw [List.nil_append, modifyFirst, if_pos hi]
    rfl
  | cons j rest ih =>
    rw [List.forall_mem_cons] at hfront
    rw [List.cons_append, modifyFirst, if_neg hfront.1, ih hfront.2]
    rfl

/-- Nothing is different about a table but the first interface of the name. -/
theorem First.modifyNamed (h : t.First name front i behind) (f : Interface → Interface) :
    t.modifyNamed name f = ⟨front ++ f i :: behind⟩ := by
  rw [Table.modifyNamed, h.interfaces, modifyFirst_append _ (sameName_iff.2 h.named)]
  exact fun j hj hsame => h.before j hj (sameName_iff.1 hsame)

end Table

/-! ## What a record costs -/

namespace Memory

open Budget (Block Failure)

/-- A plain block that is granted is charged to its budget, counted, and recorded under the next id; no other budget is
concerned. -/
theorem alloc_charged {m m' : Memory} {budget size : Nat} {comment : Option String} {block : Block}
    (h : m.alloc budget .plain comment size = (.ok block, m')) :
    ∃ b, m.budgets[budget]? = some b ∧ block = ⟨b.key, b.nextId, .plain, .zeroed size⟩ ∧
      m' = m.setBudget budget
        { b with
          account := (b.account.charge .plain m.lane size).countAllocation .plain m.lane
          nextId := b.nextId + 1
          ledger := b.ledger.map (·.record ⟨b.nextId, size, .plain, comment⟩) } := by
  obtain ⟨b, b', hb, hr, rfl⟩ := alloc_ok h
  refine ⟨b, hb, ?_⟩
  rcases b.alloc_cases m.heap .plain m.lane comment size with ⟨e, heq⟩ | ⟨n, hn, -, heq⟩
  · rw [heq] at hr
    cases hr
  · rw [heq] at hr
    cases hn
    cases hr
    exact ⟨rfl, rfl⟩

end Memory

/-! ## Plugging -/

namespace Registry

open Budget (Block)

variable {r : Registry} {p : Backplane} {budget id : Nat} {name : String} {virtualMac : Mac} {e : NetFailure}

/-- The reasons for which a name is not plugged, each where none of those before it holds. -/
inductive Refuses (r : Registry) (p : Backplane) (budget : Nat) (name : String) (id : Nat) : NetFailure → Prop
  | unknown (h : ∀ i ∈ p.table.interfaces, nameBytes i.name ≠ nameBytes name) : Refuses r p budget name id .notFound
  | notEthernet {front behind : List Interface} {i : Interface} (hfirst : p.table.First name front i behind)
      (hmac : i.mac? = none) : Refuses r p budget name id .notFound
  | taken {front behind : List Interface} {i : Interface} {realMac : Mac} {other : Plug}
      (hfirst : p.table.First name front i behind) (hmac : i.mac? = some realMac) (hother : other ∈ r.plugs)
      (hsame : other.id = id ∨ other.index = i.index) : Refuses r p budget name id .alreadyPlugged
  | unpaid {front behind : List Interface} {i : Interface} {realMac : Mac} {cause : Budget.Failure}
      (hfirst : p.table.First name front i behind) (hmac : i.mac? = some realMac)
      (hfree : ∀ other ∈ r.plugs, other.id ≠ id ∧ other.index ≠ i.index)
      (hcause : (p.memory.alloc budget .plain (some recordNote) recordSize).1 = .error cause) :
      Refuses r p budget name id (.memory cause)

theorem isTaken_eq_false_iff {index : Nat} :
    r.isTaken id index = false ↔ ∀ other ∈ r.plugs, other.id ≠ id ∧ other.index ≠ index := by
  rw [← Bool.not_eq_true, isTaken_iff]
  push Not
  rfl

/-- Whatever is the reason, a refusal leaves everything as it was. -/
theorem plug_refused (h : r.Refuses p budget name id e) :
    r.plug p budget name id virtualMac = (.error e, r, p) := by
  unfold plug
  cases h with
  | unknown h => rw [Table.find?_eq_none_iff.2 h]
  | notEthernet hfirst hmac =>
    rw [hfirst.find?]
    dsimp only
    rw [hmac]
  | taken hfirst hmac hother hsame =>
    rw [hfirst.find?]
    dsimp only
    rw [hmac]
    dsimp only
    rw [if_pos (isTaken_iff.2 ⟨_, hother, hsame⟩)]
  | unpaid hfirst hmac hfree hcause =>
    have hnot := isTaken_eq_false_iff.2 hfree
    rw [hfirst.find?]
    dsimp only
    rw [hmac]
    dsimp only
    rw [hnot, if_neg Bool.false_ne_true]
    cases halloc : p.memory.alloc budget .plain (some recordNote) recordSize with
    | mk answer m =>
      rw [halloc] at hcause
      obtain rfl : answer = _ := hcause
      rw [Memory.alloc_error halloc]

/-- There is a reason to refuse a name, or it is plugged. -/
theorem refuses_or_admits (r : Registry) (p : Backplane) (budget : Nat) (name : String) (id : Nat) (virtualMac : Mac) :
    (∃ e, r.Refuses p budget name id e) ∨
    ∃ front i behind realMac record m, p.table.First name front i behind ∧ i.mac? = some realMac ∧
      p.memory.alloc budget .plain (some recordNote) recordSize = (.ok record, m) ∧
      r.plug p budget name id virtualMac =
        (.ok i.isUp, ⟨r.plugs ++ [fresh p i realMac virtualMac id record], r.count + 1⟩,
          { memory := m, table := p.table.modifyNamed name hooked, lines := p.lines.push {} }) := by
  cases hfind : p.table.find? name with
  | none => exact .inl ⟨_, .unknown (Table.find?_eq_none_iff.1 hfind)⟩
  | some i =>
    obtain ⟨front, behind, hfirst⟩ := Table.find?_eq_some_iff.1 hfind
    cases hmac : i.mac? with
    | none => exact .inl ⟨_, .notEthernet hfirst hmac⟩
    | some realMac =>
      cases htaken : r.isTaken id i.index with
      | true =>
        obtain ⟨other, hother, hsame⟩ := isTaken_iff.1 htaken
        exact .inl ⟨_, .taken hfirst hmac hother hsame⟩
      | false =>
        have hfree := isTaken_eq_false_iff.1 htaken
        cases halloc : p.memory.alloc budget .plain (some recordNote) recordSize with
        | mk answer m =>
          cases answer with
          | error cause => exact .inl ⟨_, .unpaid hfirst hmac hfree (congrArg Prod.fst halloc)⟩
          | ok record =>
            refine .inr ⟨front, i, behind, realMac, record, m, hfirst, hmac, rfl, ?_⟩
            unfold plug
            rw [hfind]
            dsimp only
            rw [hmac]
            dsimp only
            rw [htaken, if_neg Bool.false_ne_true, halloc]
            rfl

/-- **Plugging is exact, and it happens as a whole or not at all.** A name is refused just for the first of its reasons:
no interface has the name on the bytes that count, or the first one that has it no Ethernet address; the id or the
interface is bound already; the budget refuses the record. Then registry, interfaces and memory are what they were. With
no such reason one plug comes last, bound to the first interface of the name as it was, with an empty queue and no
figure counted. The interface takes a whole Ethernet frame from then on and is marked if it was free, the others are as
they were, and so are all budgets but the one that is charged with one plain record; the answer is whether the interface
was up. -/
theorem plug_exact (r : Registry) (p : Backplane) (budget : Nat) (name : String) (id : Nat) (virtualMac : Mac) :
    (∀ e, (r.plug p budget name id virtualMac).1 = .error e ↔ r.Refuses p budget name id e) ∧
    (∀ e, (r.plug p budget name id virtualMac).1 = .error e →
      r.plug p budget name id virtualMac = (.error e, r, p)) ∧
    ∀ up, (r.plug p budget name id virtualMac).1 = .ok up →
      ∃ front i behind realMac b, p.table.First name front i behind ∧ i.mac? = some realMac ∧
        p.memory.budgets[budget]? = some b ∧ up = i.flags.testBit 0 ∧
        (r.plug p budget name id virtualMac).2.1 =
          { plugs := r.plugs ++ [
              { key := p.lines.size
                id := id
                index := i.index
                name := i.name
                realMac := realMac
                virtualMac := virtualMac
                flags := i.flags
                marked := i.attachment = .none
                record := ⟨b.key, b.nextId, .plain, .zeroed 168⟩ }]
            count := r.count + 1 } ∧
        (r.plug p budget name id virtualMac).2.2 =
          { memory := p.memory.setBudget budget
              { b with
                account := (b.account.charge .plain p.memory.lane 168).countAllocation .plain p.memory.lane
                nextId := b.nextId + 1
                ledger := b.ledger.map (·.record ⟨b.nextId, 168, .plain, some recordNote⟩) }
            table :=
              ⟨front ++
                { i with
                  mtu := max i.mtu 1514
                  attachment := if i.attachment = .none then .synthetic else i.attachment } :: behind⟩
            lines := p.lines.push
              { queue := { nodes := [], admitted := 0, dropped := 0, extracted := 0 }
                mtuWarnings := 0
                holders := 1 } } := by
  rcases r.refuses_or_admits p budget name id virtualMac with
    ⟨e, hreason⟩ | ⟨front, i, behind, realMac, record, m, hfirst, hmac, halloc, hplug⟩
  · have hrefused : r.plug p budget name id virtualMac = (.error e, r, p) := plug_refused hreason
    rw [hrefused]
    refine ⟨fun e' => ⟨fun h => ?_, fun h => ?_⟩, fun e' h => ?_, nofun⟩
    · obtain rfl := Except.error.inj h
      exact hreason
    · rw [← hrefused, plug_refused h]
    · obtain rfl := Except.error.inj h
      rfl
  · -- what is let in is refused for no reason, since a refusal would be the answer
    have hgranted : (r.plug p budget name id virtualMac).1 = .ok i.isUp := congrArg Prod.fst hplug
    refine ⟨fun e => ⟨fun h => ?_, fun h => ?_⟩, fun e h => ?_, fun up h => ?_⟩
    · rw [hgranted] at h
      cases h
    · rw [plug_refused h] at hgranted
      cases hgranted
    · rw [hgranted] at h
      cases h
    · obtain ⟨b, hb, rfl, rfl⟩ := Memory.alloc_charged halloc
      rw [hplug] at h ⊢
      obtain rfl := Except.ok.inj h
      refine ⟨front, i, behind, realMac, b, hfirst, hmac, hb, rfl, rfl, ?_⟩
      rw [hfirst.modifyNamed]
      rfl

end Registry

end Patchbay
