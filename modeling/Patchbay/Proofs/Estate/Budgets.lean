import Patchbay.Memory.Basic
import Patchbay.Proofs.Budget.Accounting

/-!
# `Proofs.Estate.Budgets` — all budgets of a memory at once

Every block belongs to the budget that granted it, so the blocks that are out fall apart into those of each budget,
and an operation of the memory changes the figures of one budget and its share of the blocks.

## Contents
* `Memory.alloc_ok`, `Memory.resize_ok` — a request that succeeds changes the one budget that it goes to;
* `Memory.Tallied` — the figures of the budgets, the blocks that are out and those that came back;
* `Tallied.set` — a change of one budget and of its blocks;
* `Tallied.alloc`, `Tallied.free`, `Tallied.resize`, `Tallied.write`, `Tallied.addBudget`, `Tallied.collectLeaks`;
* `Memory.Bookkeeping`, `Memory.Tally` — what else may be said of the budgets and is kept up by these operations.
-/

namespace Patchbay

open Budget (Kind Block)

namespace Memory

section Answers

variable {m m' : Memory} {block block' : Block} {size : Nat}

/-- What is granted comes from the budget that was asked, and only that one changes. -/
theorem alloc_ok {key : Nat} {kind : Kind} {comment : Option String}
    (h : m.alloc key kind comment size = (.ok block, m')) :
    ∃ b b', m.budgets[key]? = some b ∧ b.alloc m.heap kind m.lane comment size = (.ok block, b') ∧
      m.setBudget key b' = m' := by
  unfold alloc at h
  cases hb : m.budgets[key]? with
  | none =>
    rw [hb] at h
    cases h
  | some b =>
    cases hr : b.alloc m.heap kind m.lane comment size with
    | mk answer b' =>
      simp only [hb, hr] at h
      cases h
      exact ⟨b, b', rfl, hr, rfl⟩

theorem resize_ok (h : m.resize block size = (.ok block', m')) :
    ∃ b b', m.budgets[block.owner]? = some b ∧ b.resize m.heap m.lane block size = (.ok block', b') ∧
      m.setBudget block.owner b' = m' := by
  unfold resize at h
  cases hb : m.budgets[block.owner]? with
  | none =>
    rw [hb] at h
    cases h
  | some b =>
    cases hr : b.resize m.heap m.lane block size with
    | mk answer b' =>
      simp only [hb, hr] at h
      cases h
      exact ⟨b, b', rfl, hr, rfl⟩

end Answers

/-- The figures of every budget are those of its blocks among `out` and `back`, which have all the ids that it gave out,
one each. -/
structure Tallied (m : Memory) (out back : Multiset Block) : Prop where
  keyed : ∀ {key : Nat} {b : Budget}, m.budgets[key]? = some b → b.key = key
  tallied : ∀ {key : Nat} {b : Budget}, m.budgets[key]? = some b → b.Tallied (out.filter (·.owner = key))
  returned : ∀ {key : Nat} {b : Budget}, m.budgets[key]? = some b → b.Returned (back.filter (·.owner = key))
  numbered : ∀ {key : Nat} {b : Budget}, m.budgets[key]? = some b → b.Numbered ((out + back).filter (·.owner = key))
  owned : ∀ block ∈ out + back, block.owner < m.budgets.size

namespace Tallied

variable {m : Memory} {out back : Multiset Block}

/-- Only the budgets have a part in the tally. -/
theorem of_budgets {m' : Memory} (h : m.Tallied out back) (hb : m'.budgets = m.budgets) :
    m'.Tallied out back where
  keyed := by rw [hb]; exact h.keyed
  tallied := by rw [hb]; exact h.tallied
  returned := by rw [hb]; exact h.returned
  numbered := by rw [hb]; exact h.numbered
  owned := by rw [hb]; exact h.owned

/-- One budget changes with its blocks, and no other budget's blocks do. -/
theorem set {key : Nat} {b b' : Budget} {out' back' : Multiset Block} (h : m.Tallied out back)
    (hb : m.budgets[key]? = some b) (hkey : b'.key = key)
    (htallied : b'.Tallied (out'.filter (·.owner = key)))
    (hreturned : b'.Returned (back'.filter (·.owner = key)))
    (hnumbered : b'.Numbered ((out' + back').filter (·.owner = key)))
    (hout : ∀ other ≠ key, out'.filter (·.owner = other) = out.filter (·.owner = other))
    (hback : ∀ other ≠ key, back'.filter (·.owner = other) = back.filter (·.owner = other))
    (howned : ∀ block ∈ out' + back', block.owner < m.budgets.size) :
    (m.setBudget key b').Tallied out' back' := by
  have hlt : key < m.budgets.size := (Array.getElem?_eq_some_iff.1 hb).1
  -- a budget of the new memory is the changed one or one that was there
  have hget {other : Nat} {c : Budget} (hc : (m.setBudget key b').budgets[other]? = some c) :
      (other = key ∧ c = b') ∨ (other ≠ key ∧ m.budgets[other]? = some c) := by
    rw [setBudget, Array.getElem?_setIfInBounds] at hc
    split at hc
    · rename_i heq
      exact .inl ⟨heq.symm, (Option.some.inj hc).symm⟩
    · rename_i hne
      exact .inr ⟨fun heq => hne heq.symm, hc⟩
  refine ⟨fun hc => ?_, fun hc => ?_, fun hc => ?_, fun hc => ?_, ?_⟩
  · rcases hget hc with ⟨rfl, rfl⟩ | ⟨-, hc⟩
    · exact hkey
    · exact h.keyed hc
  · rcases hget hc with ⟨rfl, rfl⟩ | ⟨hne, hc⟩
    · exact htallied
    · rw [hout _ hne]
      exact h.tallied hc
  · rcases hget hc with ⟨rfl, rfl⟩ | ⟨hne, hc⟩
    · exact hreturned
    · rw [hback _ hne]
      exact h.returned hc
  · rcases hget hc with ⟨rfl, rfl⟩ | ⟨hne, hc⟩
    · exact hnumbered
    · rw [Multiset.filter_add, hout _ hne, hback _ hne, ← Multiset.filter_add]
      exact h.numbered hc
  · rw [setBudget, Array.size_setIfInBounds]
    exact howned

section Blocks

variable {block block' : Block} {size : Nat} {m' : Memory}

theorem filter_cons_owner {key : Nat} (blocks : Multiset Block) (h : block.owner = key) :
    (block ::ₘ blocks).filter (·.owner = key) = block ::ₘ blocks.filter (·.owner = key) :=
  Multiset.filter_cons_of_pos blocks h

theorem filter_cons_other {key : Nat} (blocks : Multiset Block) (h : block.owner ≠ key) :
    (block ::ₘ blocks).filter (·.owner = key) = blocks.filter (·.owner = key) :=
  Multiset.filter_cons_of_neg blocks h

theorem alloc {key : Nat} {kind : Kind} {comment : Option String} (h : m.Tallied out back)
    (ha : m.alloc key kind comment size = (.ok block, m')) : m'.Tallied (block ::ₘ out) back := by
  obtain ⟨b, b', hb, hr, rfl⟩ := alloc_ok ha
  -- a budget signs what it grants, which is how the others know it is none of theirs
  obtain ⟨howner, hkey⟩ := Budget.alloc_signed hr
  rw [h.keyed hb] at howner hkey
  refine h.set hb hkey ?_ ((h.returned hb).alloc hr) ?_ ?_ (fun _ _ => rfl) ?_
  · rw [filter_cons_owner out howner]
    exact (h.tallied hb).alloc hr
  · rw [Multiset.cons_add, filter_cons_owner _ howner]
    exact (h.numbered hb).alloc hr
  · intro other hne
    exact filter_cons_other out (howner.trans_ne hne.symm)
  · intro other hother
    rw [Multiset.cons_add] at hother
    rcases Multiset.mem_cons.1 hother with rfl | hother
    · rw [howner]
      exact (Array.getElem?_eq_some_iff.1 hb).1
    · exact h.owned other hother

theorem free (h : m.Tallied (block ::ₘ out) back) : (m.free block).Tallied out (block ::ₘ back) := by
  unfold Memory.free
  have hlt : block.owner < m.budgets.size := by
    refine h.owned block ?_
    rw [Multiset.cons_add]
    exact Multiset.mem_cons_self block _
  have hb : m.budgets[block.owner]? = some m.budgets[block.owner] := Array.getElem?_eq_getElem hlt
  have ht := h.tallied hb
  rw [filter_cons_owner out rfl] at ht
  simp only [hb]
  have hkey : m.budgets[block.owner].key = block.owner := h.keyed hb
  refine h.set hb hkey (ht.free m.lane) ?_ ?_ ?_ ?_ ?_
  · rw [filter_cons_owner back rfl]
    exact (h.returned hb).free m.lane block
  · rw [Multiset.add_cons, ← Multiset.cons_add]
    exact (h.numbered hb).of_ids rfl rfl
  · intro other hne
    exact (filter_cons_other out hne.symm).symm
  · intro other hne
    exact filter_cons_other back hne.symm
  · intro other hother
    rw [Multiset.add_cons, ← Multiset.cons_add] at hother
    exact h.owned other hother

theorem resize (h : m.Tallied (block ::ₘ out) back)
    (hr : m.resize block size = (.ok block', m')) : m'.Tallied (block' ::ₘ out) back := by
  obtain ⟨b, b', hb, hs, rfl⟩ := resize_ok hr
  obtain ⟨howner, hkey⟩ := Budget.resize_signed hs
  rw [h.keyed hb] at hkey
  obtain ⟨hid, -, hnext, -, -⟩ := Budget.resize_noted hs
  have ht := h.tallied hb
  rw [filter_cons_owner out rfl] at ht
  refine h.set hb hkey ?_ ((h.returned hb).resize hs) ?_ ?_ (fun _ _ => rfl) ?_
  · rw [filter_cons_owner out howner]
    exact ht.resize hs
  · have hn := h.numbered hb
    rw [Multiset.cons_add, filter_cons_owner _ rfl] at hn
    rw [Multiset.cons_add, filter_cons_owner _ howner]
    refine hn.of_ids ?_ hnext
    rw [Multiset.map_cons, Multiset.map_cons, hid]
  · intro other hne
    rw [filter_cons_other out (howner.trans_ne hne.symm), filter_cons_other out hne.symm]
  · intro other hother
    rw [Multiset.cons_add] at hother
    rcases Multiset.mem_cons.1 hother with rfl | hother
    · rw [howner]
      exact (Array.getElem?_eq_some_iff.1 hb).1
    · exact h.owned other (by rw [Multiset.cons_add]; exact Multiset.mem_cons_of_mem hother)

theorem write (h : m.Tallied (block ::ₘ out) back) (start : Nat) (data : List UInt8) :
    m.Tallied (block.write start data ::ₘ out) back := by
  refine ⟨h.keyed, fun {key b} hb => ?_, h.returned, fun {key b} hb => ?_, ?_⟩
  · -- whose block it is decides whether the budget has it among its own
    have ht := h.tallied hb
    by_cases hk : block.owner = key
    · rw [filter_cons_owner out hk] at ht
      rw [filter_cons_owner out (show (block.write start data).owner = key from hk)]
      exact ht.written start data
    · rw [filter_cons_other out hk] at ht
      rwa [filter_cons_other out (show (block.write start data).owner ≠ key from hk)]
  · have hn := h.numbered hb
    rw [Multiset.cons_add] at hn ⊢
    by_cases hk : block.owner = key
    · rw [filter_cons_owner _ hk] at hn
      rw [filter_cons_owner _ (show (block.write start data).owner = key from hk)]
      refine hn.of_ids ?_ rfl
      rw [Multiset.map_cons, Multiset.map_cons]
      rfl
    · rw [filter_cons_other _ hk] at hn
      rwa [filter_cons_other _ (show (block.write start data).owner ≠ key from hk)]
  · intro other hother
    have howned := h.owned
    rw [Multiset.cons_add] at hother howned
    rcases Multiset.mem_cons.1 hother with rfl | hother
    · exact howned block (Multiset.mem_cons_self block _)
    · exact howned other (Multiset.mem_cons_of_mem hother)

end Blocks

/-- No block that is out or came back belongs to a budget that is not there yet. -/
theorem addBudget (h : m.Tallied out back) (ceiling : Nat) (tracking : Bool) :
    (m.addBudget ceiling tracking).2.Tallied out back := by
  -- the new budget starts from nothing, and rightly so: nothing carries its key yet
  have hget {key : Nat} {b : Budget}
      (hb : (m.addBudget ceiling tracking).2.budgets[key]? = some b) :
      (key = m.budgets.size ∧ b = Budget.new m.budgets.size ceiling tracking) ∨
        m.budgets[key]? = some b := by
    rw [Memory.addBudget, Array.getElem?_push] at hb
    split at hb
    · rename_i heq
      exact .inl ⟨heq, (Option.some.inj hb).symm⟩
    · exact .inr hb
  have hnone {blocks : Multiset Block} (hsub : blocks ⊆ out + back) :
      blocks.filter (·.owner = m.budgets.size) = 0 := by
    rw [Multiset.filter_eq_nil]
    intro block hblock
    exact Nat.ne_of_lt (h.owned block (hsub hblock))
  refine ⟨fun hb => ?_, fun hb => ?_, fun hb => ?_, fun hb => ?_, fun block hblock => ?_⟩
  · rcases hget hb with ⟨rfl, rfl⟩ | hb
    · rfl
    · exact h.keyed hb
  · rcases hget hb with ⟨rfl, rfl⟩ | hb
    · rw [hnone (Multiset.subset_of_le (Multiset.le_add_right out back))]
      exact Budget.Tallied.new _ ceiling tracking
    · exact h.tallied hb
  · rcases hget hb with ⟨rfl, rfl⟩ | hb
    · rw [hnone (Multiset.subset_of_le (Multiset.le_add_left back out))]
      exact Budget.Returned.new _ ceiling tracking
    · exact h.returned hb
  · rcases hget hb with ⟨rfl, rfl⟩ | hb
    · rw [hnone (Multiset.Subset.refl _)]
      exact Budget.Numbered.new _ ceiling tracking
    · exact h.numbered hb
  · rw [Memory.addBudget, Array.size_push]
    exact Nat.lt_succ_of_lt (h.owned block hblock)

theorem collectLeaks (h : m.Tallied out back) (key : Nat) :
    (m.collectLeaks key).2.Tallied out back := by
  unfold Memory.collectLeaks
  cases hb : m.budgets[key]? with
  | none => exact h
  | some b =>
    -- looking for leaks changes the ledger at most
    have hsame : b.collectLeaks.2.account = b.account ∧ b.collectLeaks.2.nextId = b.nextId ∧
        b.collectLeaks.2.key = b.key := by
      unfold Budget.collectLeaks
      split <;> exact ⟨rfl, rfl, rfl⟩
    obtain ⟨haccount, hnext, hkey⟩ := hsame
    refine h.set hb (hkey.trans (h.keyed hb)) ((h.tallied hb).of_account haccount hnext) ?_
      ((h.numbered hb).of_ids rfl hnext) (fun _ _ => rfl) (fun _ _ => rfl) h.owned
    intro kind
    rw [haccount]
    exact h.returned hb kind

end Tallied

/-! ## What is kept up -/

/-- Something that is said of the budgets of a memory, of the blocks that are out and of those that came back. -/
abbrev Bookkeeping := Memory → Multiset Block → Multiset Block → Prop

/-- What is said holds on when blocks are asked for, resized, written and returned, and when budgets are added. -/
class Tally (k : Bookkeeping) : Prop where
  of_budgets {m m' : Memory} {out back : Multiset Block} : k m out back → m'.budgets = m.budgets → k m' out back
  alloc {m m' : Memory} {out back : Multiset Block} {key size : Nat} {kind : Kind} {comment : Option String}
    {block : Block} : k m out back → m.alloc key kind comment size = (.ok block, m') → k m' (block ::ₘ out) back
  resize {m m' : Memory} {out back : Multiset Block} {block block' : Block} {size : Nat} :
    k m (block ::ₘ out) back → m.resize block size = (.ok block', m') → k m' (block' ::ₘ out) back
  write {m : Memory} {out back : Multiset Block} {block : Block} : k m (block ::ₘ out) back →
    ∀ start data, k m (block.write start data ::ₘ out) back
  free {m : Memory} {out back : Multiset Block} {block : Block} : k m (block ::ₘ out) back →
    k (m.free block) out (block ::ₘ back)
  addBudget {m : Memory} {out back : Multiset Block} : k m out back →
    ∀ ceiling tracking, k (m.addBudget ceiling tracking).2 out back

instance : Tally Tallied where
  of_budgets := Tallied.of_budgets
  alloc := Tallied.alloc
  resize := Tallied.resize
  write := Tallied.write
  free := Tallied.free
  addBudget := Tallied.addBudget

/-- A check for leaks in a budget goes unnoticed. -/
def Overlooks (k : Bookkeeping) (key : Nat) : Prop :=
  ∀ m out back, k m out back → k (m.collectLeaks key).2 out back

theorem Tallied.overlooks (key : Nat) : Overlooks Tallied key := fun _ _ _ h => h.collectLeaks key

end Memory

end Patchbay
