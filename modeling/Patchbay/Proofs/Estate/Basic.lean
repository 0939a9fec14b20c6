import Mathlib.Algebra.BigOperators.Group.List.Basic
import Mathlib.Data.Multiset.AddSub
import Mathlib.Tactic.Abel
import Patchbay.Queue
import Patchbay.Network.Basic
import Patchbay.Proofs.Place

/-!
# `Proofs.Estate.Basic` — what somebody holds

Headers, references to shared storage, blocks and plugs are lent and have to come back. An *estate* counts how
much of each somebody holds. Everything that the host passes around has an estate, and estates add up: a chain
has that of its frames, a frame that of its segments. What an operation consumes and what it hands out are
estates too.

## Contents
* `Estate` — an additive commutative monoid, with `Estate.header`, `Estate.reference`, `Estate.block`,
  `Estate.plug`;
* `Holding`, `estate` — what a value holds; lists, options, answers and pairs hold what their parts hold;
* `History` — the storages that were made, those that went, and the blocks that came back by themselves;
* `Trades` — an operation that takes one estate and hands out another, whatever else is held meanwhile.
-/

namespace Patchbay

open Budget (Block)

/-- How much of everything that is lent somebody holds. -/
@[ext]
structure Estate where
  headers : Nat := 0
  /-- One entry for each reference. -/
  references : Multiset Storage := 0
  blocks : Multiset Block := 0
  /-- One entry for each holder of a plug. -/
  plugs : Multiset Plug := 0

namespace Estate

instance : Zero Estate := ⟨{}⟩

instance : Add Estate :=
  ⟨fun a b => ⟨a.headers + b.headers, a.references + b.references, a.blocks + b.blocks,
    a.plugs + b.plugs⟩⟩

@[simp] theorem headers_zero : (0 : Estate).headers = 0 := rfl
@[simp] theorem references_zero : (0 : Estate).references = 0 := rfl
@[simp] theorem blocks_zero : (0 : Estate).blocks = 0 := rfl
@[simp] theorem plugs_zero : (0 : Estate).plugs = 0 := rfl

@[simp] theorem headers_add (a b : Estate) : (a + b).headers = a.headers + b.headers := rfl
@[simp] theorem references_add (a b : Estate) :
    (a + b).references = a.references + b.references := rfl
@[simp] theorem blocks_add (a b : Estate) : (a + b).blocks = a.blocks + b.blocks := rfl
@[simp] theorem plugs_add (a b : Estate) : (a + b).plugs = a.plugs + b.plugs := rfl

instance : AddCommMonoid Estate where
  add_assoc a b c := by ext1 <;> simp [add_assoc]
  zero_add a := by ext1 <;> simp
  add_zero a := by ext1 <;> simp
  add_comm a b := by ext1 <;> simp [add_comm]
  nsmul := nsmulRec

/-- One header. -/
def header : Estate := { headers := 1 }

/-- One reference to a storage. -/
def reference (s : Storage) : Estate := { references := {s} }

/-- One block. -/
def block (b : Block) : Estate := { blocks := {b} }

/-- One hold on a plug. -/
def plug (p : Plug) : Estate := { plugs := {p} }

@[simp] theorem headers_header_add (e : Estate) : (header + e).headers = e.headers + 1 :=
  Nat.add_comm 1 e.headers
@[simp] theorem references_header_add (e : Estate) : (header + e).references = e.references :=
  zero_add e.references
@[simp] theorem blocks_header_add (e : Estate) : (header + e).blocks = e.blocks :=
  zero_add e.blocks

@[simp] theorem headers_reference_add (s : Storage) (e : Estate) :
    (reference s + e).headers = e.headers := Nat.zero_add e.headers
@[simp] theorem references_reference_add (s : Storage) (e : Estate) :
    (reference s + e).references = s ::ₘ e.references := Multiset.singleton_add s e.references
@[simp] theorem blocks_reference_add (s : Storage) (e : Estate) :
    (reference s + e).blocks = e.blocks := zero_add e.blocks

@[simp] theorem headers_block_add (b : Block) (e : Estate) : (block b + e).headers = e.headers :=
  Nat.zero_add e.headers
@[simp] theorem references_block_add (b : Block) (e : Estate) :
    (block b + e).references = e.references := zero_add e.references
@[simp] theorem blocks_block_add (b : Block) (e : Estate) :
    (block b + e).blocks = b ::ₘ e.blocks := Multiset.singleton_add b e.blocks

@[simp] theorem headers_plug_add (p : Plug) (e : Estate) : (plug p + e).headers = e.headers :=
  Nat.zero_add e.headers
@[simp] theorem references_plug_add (p : Plug) (e : Estate) :
    (plug p + e).references = e.references := zero_add e.references
@[simp] theorem blocks_plug_add (p : Plug) (e : Estate) : (plug p + e).blocks = e.blocks :=
  zero_add e.blocks
@[simp] theorem plugs_plug_add (p : Plug) (e : Estate) : (plug p + e).plugs = p ::ₘ e.plugs :=
  Multiset.singleton_add p e.plugs

end Estate

/-! ## What values hold -/

/-- What a value holds, and what comes back when it is given up. -/
class Holding (α : Type) where
  /-- What the value holds. -/
  estate : α → Estate

export Holding (estate)

section Composite

variable {α β ε : Type} [Holding α] [Holding β]

instance : Holding Unit := ⟨fun _ => 0⟩
instance : Holding Bool := ⟨fun _ => 0⟩
instance : Holding Nat := ⟨fun _ => 0⟩
instance : Holding (List α) := ⟨fun l => (l.map estate).sum⟩
instance : Holding (Option α) := ⟨fun o => o.elim 0 estate⟩
instance : Holding (Except ε α) := ⟨fun r => match r with
  | .error _ => 0
  | .ok a => estate a⟩
instance : Holding (α × β) := ⟨fun p => estate p.1 + estate p.2⟩

/-- What an operation does not yield, nobody holds. -/
@[simp] theorem estate_none : estate (none : Option α) = 0 := rfl
@[simp] theorem estate_some (a : α) : estate (some a) = estate a := rfl
@[simp] theorem estate_error (e : ε) : estate (.error e : Except ε α) = 0 := rfl
@[simp] theorem estate_ok (a : α) : estate (.ok a : Except ε α) = estate a := rfl
@[simp] theorem estate_pair (a : α) (b : β) : estate (a, b) = estate a + estate b := rfl
@[simp] theorem estate_nil : estate ([] : List α) = 0 := rfl
@[simp] theorem estate_cons (a : α) (l : List α) : estate (a :: l) = estate a + estate l :=
  List.sum_cons

/-- Two lists strung together hold what they hold apart. -/
@[simp] theorem estate_append (l l' : List α) : estate (l ++ l') = estate l + estate l' := by
  show ((l ++ l').map estate).sum = _
  rw [List.map_append, List.sum_append]
  rfl

/-- An entry that is taken out of its place is what the list then lacks. -/
theorem estate_eq_add_eraseIdx {l : List α} {i : Nat} {a : α} (h : l[i]? = some a) :
    estate l = estate a + estate (l.eraseIdx i) :=
  sum_map_eq_add_eraseIdx estate h

/-- An entry put in the place of another one is held in its stead. -/
theorem estate_set {l : List α} {i : Nat} {a : α} (h : l[i]? = some a) (b : α) :
    estate (l.set i b) = estate b + estate (l.eraseIdx i) :=
  sum_map_set estate h b

/-- So is an entry that is changed where it stands. -/
theorem estate_modify {l : List α} {i : Nat} {a : α} (h : l[i]? = some a) (f : α → α) :
    estate (l.modify i f) = estate (f a) + estate (l.eraseIdx i) := by
  rw [List.modify_eq_set_getElem?, h]
  exact estate_set h (f a)

/-- The first entry that is found is what the list lacks without it. -/
theorem estate_eq_add_eraseP {l : List α} {p : α → Bool} {a : α} (h : l.find? p = some a) :
    estate l = estate a + estate (l.eraseP p) := by
  induction l with
  | nil => cases h
  | cons b rest ih =>
    rw [List.find?_cons] at h
    split at h
    · rename_i hb
      obtain rfl := Option.some.inj h
      rw [List.eraseP_cons_of_pos hb, estate_cons]
    · rename_i hb
      rw [List.eraseP_cons_of_neg (by rw [hb]; exact Bool.false_ne_true), estate_cons, estate_cons,
        ih h, add_left_comm]

/-- Entries that are only put in another form hold what they held. -/
theorem estate_map {f : β → α} (hf : ∀ b, estate (f b) = estate b) (l : List β) :
    estate (l.map f) = estate l := by
  show ((l.map f).map estate).sum = (l.map estate).sum
  rw [List.map_map]
  congr 1
  exact List.map_congr_left fun b _ => hf b

/-- It is the same whether something that may be missing is given as a list. -/
theorem estate_toList (o : Option α) : estate o.toList = estate o := by
  cases o with
  | none => rfl
  | some a => exact (estate_cons a []).trans (add_zero _)

/-- Nor does it matter for what cause a refused request was refused. -/
theorem estate_toOption (r : Except ε α) : estate r.toOption = estate r := by
  cases r <;> rfl

/-- Nothing is held where there is nothing, on whichever of two levels it is missing. -/
theorem estate_join (o : Option (Option α)) : estate o.join = estate o := by
  cases o <;> rfl

end Composite

instance : Holding Block := ⟨Estate.block⟩
instance : Holding Plug := ⟨Estate.plug⟩
instance : Holding View := ⟨fun v => .reference v.storage⟩
instance : Holding Segment := ⟨fun s => .header + .reference s.storage⟩
instance : Holding Frame := ⟨fun f => estate f.segments⟩
instance : Holding Chain := ⟨fun c => estate c.frames⟩
instance : Holding Node := ⟨fun n => estate n.chain + estate n.charge⟩
instance : Holding Queue := ⟨fun q => estate q.nodes⟩
instance : Holding Line := ⟨fun l => estate l.queue⟩
instance : Holding Registry := ⟨fun r => estate r.plugs⟩
instance : Holding Splice := ⟨fun s => estate s.registry⟩

/-- Values that hold no plug. -/
class Plugless (α : Type) [Holding α] : Prop where
  plugs_eq_zero : ∀ a : α, (estate a).plugs = 0

export Plugless (plugs_eq_zero)

section Plugless

variable {α β ε : Type} [Holding α] [Holding β] [Plugless α] [Plugless β]

instance : Plugless Unit := ⟨fun _ => rfl⟩
instance : Plugless Bool := ⟨fun _ => rfl⟩
instance : Plugless Nat := ⟨fun _ => rfl⟩
instance : Plugless (List α) := ⟨fun l => by
  induction l with
  | nil => rfl
  | cons a rest ih => rw [estate_cons, Estate.plugs_add, ih, plugs_eq_zero, add_zero]⟩
instance : Plugless (Option α) := ⟨fun o => by
  cases o with
  | none => rfl
  | some a => exact plugs_eq_zero a⟩
instance : Plugless (Except ε α) := ⟨fun r => by
  cases r with
  | error e => rfl
  | ok a => exact plugs_eq_zero a⟩
instance : Plugless (α × β) := ⟨fun p => by
  rw [estate_pair, Estate.plugs_add, plugs_eq_zero, plugs_eq_zero, add_zero]⟩
instance : Plugless Block := ⟨fun _ => rfl⟩
instance : Plugless View := ⟨fun _ => rfl⟩
instance : Plugless Segment := ⟨fun _ => rfl⟩
instance : Plugless Frame := ⟨fun f => plugs_eq_zero f.segments⟩
instance : Plugless Chain := ⟨fun c => plugs_eq_zero c.frames⟩
instance : Plugless Node := ⟨fun n => plugs_eq_zero (n.chain, n.charge)⟩
instance : Plugless Queue := ⟨fun q => plugs_eq_zero q.nodes⟩
instance : Plugless Line := ⟨fun l => plugs_eq_zero l.queue⟩

end Plugless

/-- A buffer is a reference to its storage. -/
theorem estate_view (v : View) : estate v = .reference v.storage := rfl
/-- A segment is a header and a reference. -/
theorem estate_segment (s : Segment) : estate s = .header + .reference s.storage := rfl
theorem estate_frame (f : Frame) : estate f = estate f.segments := rfl
theorem estate_chain (c : Chain) : estate c = estate c.frames := rfl
/-- A packet of one frame has what the frame has. -/
theorem estate_last (f : Frame) : estate (Chain.last f) = estate f :=
  (estate_cons f []).trans (add_zero _)

/-- A node is its packet and the block that pays for its place. -/
theorem estate_node (n : Node) : estate n = estate n.chain + estate n.charge := rfl
theorem estate_queue (q : Queue) : estate q = estate q.nodes := rfl

/-- Segments hold a header and a reference each, and nothing else. -/
theorem estate_segments (segments : List Segment) :
    estate segments =
      { headers := segments.length, references := (segments.map Segment.storage : List Storage) } := by
  induction segments with
  | nil => rfl
  | cons s rest ih =>
    rw [estate_cons, ih, estate_segment, add_assoc]
    ext1
    · rw [Estate.headers_header_add, Estate.headers_reference_add, List.length_cons]
    · rw [Estate.references_header_add, Estate.references_reference_add, List.map_cons,
        Multiset.cons_coe]
    · rw [Estate.blocks_header_add, Estate.blocks_reference_add]
    · rfl

/-! ## What happened so far -/

/-- The storages that were made and those that went, each in the order in which it happened, and the blocks that
were returned other than with a storage. -/
structure History where
  /-- The limit of the pool, which never changes. -/
  limit : Option Nat := none
  made : List Storage := []
  gone : List Storage := []
  returned : List Block := []

namespace History

/-- One history goes on from another. -/
instance : LE History :=
  ⟨fun h h' => h.limit = h'.limit ∧ h.made <+: h'.made ∧ h.gone <+: h'.gone ∧
    h.returned <+: h'.returned⟩

instance : Preorder History where
  le_refl h := ⟨rfl, List.prefix_rfl, List.prefix_rfl, List.prefix_rfl⟩
  le_trans _ _ _ h h' :=
    ⟨h.1.trans h'.1, h.2.1.trans h'.2.1, h.2.2.1.trans h'.2.2.1, h.2.2.2.trans h'.2.2.2⟩

end History

/-! ## Operations that trade -/

section Trades

variable {σ : Type} (Settled : σ → History → Estate → Prop)

/-- The step from `s` to `s'` takes the estate `a` and hands out `b`: whatever else is held, what was settled
with `a` out is settled with `b` out. -/
def Trades (s : σ) (a : Estate) (s' : σ) (b : Estate) : Prop :=
  ∀ h rest, Settled s h (a + rest) → ∃ h', h ≤ h' ∧ Settled s' h' (b + rest)

variable {Settled} {s s' s'' : σ} {a b c : Estate}

/-- To do nothing trades anything for itself. -/
theorem Trades.refl (s : σ) (a : Estate) : Trades Settled s a s a :=
  fun h _ hs => ⟨h, le_refl h, hs⟩

/-- Trades follow one another when the second begins with what the first yields. -/
theorem Trades.trans (h : Trades Settled s a s' b) (h' : Trades Settled s' b s'' c) :
    Trades Settled s a s'' c := by
  intro past rest hs
  obtain ⟨past', hle, hs'⟩ := h past rest hs
  obtain ⟨past'', hle', hs''⟩ := h' past' rest hs'
  exact ⟨past'', hle.trans hle', hs''⟩

/-- What a step does not touch is neither taken nor handed out. -/
theorem Trades.frame (h : Trades Settled s a s' b) (c : Estate) :
    Trades Settled s (a + c) s' (b + c) := by
  intro past rest hs
  rw [add_assoc] at hs ⊢
  exact h past (c + rest) hs

/-- What is given and what is had may be named in another way. -/
theorem Trades.cast {a' b' : Estate} (h : Trades Settled s a s' b) (ha : a' = a) (hb : b' = b) :
    Trades Settled s a' s' b' := by
  rw [ha, hb]
  exact h

/-- What each entry of a list stands for is given up in turn. -/
theorem Trades.foldl {α : Type} {f : σ → α → σ} {g : α → Estate}
    (hf : ∀ s a, Trades Settled s (g a) (f s a) 0) (l : List α) (s : σ) :
    Trades Settled s (l.map g).sum (l.foldl f s) 0 := by
  induction l generalizing s with
  | nil => exact .refl s 0
  | cons a rest ih =>
    rw [List.map_cons, List.sum_cons]
    refine ((hf s a).frame _).trans ?_
    rw [zero_add]
    exact ih (f s a)

end Trades

end Patchbay
