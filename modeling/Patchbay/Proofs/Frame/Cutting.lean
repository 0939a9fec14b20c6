import Patchbay.Proofs.Frame.Lending

/-!
# `Proofs.Frame.Cutting` — a frame over buffers shows each of them piece by piece, or there is none

A frame over buffers shows what they show without a copy: each buffer is cut into stretches of its own storage, one
behind the other, full ones but for a rest at the end. A buffer that reaches beyond its storage is cut as far as the
storage goes, one that lies beyond it not at all; and buffers may lie over each other or be the same one, since every
piece has a header and a reference of its own.

## Contents
* `View.CutInto` — segments that a buffer is cut into;
* `View.cuts_eq_nil`, `View.cuts_eq_cons` — the first piece of a buffer, and the rest of it;
* `View.cutInto_cuts` — the cuts of a buffer are such segments, by induction on what is left of it;
* `Memory.CountsEach`, `Memory.referencesTo_lend` — a reference for each segment, and one more while it is lent;
* `Frame.ofBuffers_exact` — a frame with all of it, or nothing but headers that came back.
-/

namespace Patchbay

namespace View

/-- A buffer is cut into segments: each a stretch of its storage, full if another one follows, which then starts where
it ends. -/
structure CutInto (v : View) (segments : List Segment) : Prop where
  count : segments.length = (v.bytes.length + (Frame.largestSegment - 1)) / Frame.largestSegment
  own : ∀ s ∈ segments, s.storage = v.storage
  starts : ∀ s ∈ segments.head?, s.offset = v.offset
  follow : segments.IsChain fun s t => s.length = Frame.largestSegment ∧ t.offset = s.offset + s.length
  filled : ∀ s ∈ segments, 0 < s.length ∧ s.length ≤ Frame.largestSegment
  shown : segments.flatMap Segment.bytes = v.bytes

variable {v : View} {segments : List Segment}

/-- Pieces of one buffer do not lie over each other. -/
theorem CutInto.apart (h : v.CutInto segments) : segments.Pairwise fun s t => s.offset + s.length ≤ t.offset := by
  let Before (s t : Segment) : Prop := s.offset + s.length ≤ t.offset
  have htrans : Trans Before Before Before :=
    ⟨fun {s t u} hst htu => by
      have : s.offset + s.length ≤ t.offset := hst
      have : t.offset + t.length ≤ u.offset := htu
      show s.offset + s.length ≤ u.offset
      omega⟩
  have hchain : segments.IsChain Before := h.follow.imp fun s t hst => Nat.le_of_eq hst.2.symm
  exact hchain.pairwise

/-! ## Piece by piece -/

theorem cuts_eq_nil (h : v.reach = 0) : v.cuts = [] := by
  rw [cuts, h, cutsFrom, if_pos rfl]
  rfl

/-- What is left of a buffer behind its first piece. -/
def behindCut (v : View) : View :=
  v.window (v.offset + Frame.largestSegment) (v.reach - Frame.largestSegment)

theorem reach_behindCut (v : View) : v.behindCut.reach = v.reach - Frame.largestSegment := by
  have hreach : v.reach ≤ v.storage.size - v.offset := Nat.min_le_right _ _
  show min (v.reach - Frame.largestSegment) (v.storage.size - (v.offset + Frame.largestSegment)) = _
  omega

theorem cuts_eq_cons (h : v.reach ≠ 0) :
    v.cuts = Segment.clip v.storage v.offset (min v.reach Frame.largestSegment) :: v.behindCut.cuts := by
  have hcap : max Frame.largestSegment 1 = Frame.largestSegment := rfl
  rw [cuts, cuts, reach_behindCut, cutsFrom, if_neg h, hcap, List.map_cons]
  rfl

/-- The first piece of a buffer needs no clipping. -/
theorem clip_cut (h : v.reach ≠ 0) :
    let first := Segment.clip v.storage v.offset (min v.reach Frame.largestSegment)
    first.storage = v.storage ∧ first.offset = v.offset ∧ first.length = min v.reach Frame.largestSegment := by
  intro first
  have hreach : v.reach ≤ v.storage.size - v.offset := Nat.min_le_right _ _
  have hoffset : first.offset = min v.offset v.storage.size := rfl
  have hlength : first.length =
      min (min v.reach Frame.largestSegment) (v.storage.size - min v.offset v.storage.size) := rfl
  refine ⟨rfl, ?_, ?_⟩
  · omega
  · omega

/-- The cuts of a buffer are segments that it is cut into. -/
theorem cutInto_cuts (v : View) : v.CutInto v.cuts := by
  -- on what is left of the buffer: its first piece is full if the next one shows anything
  induction hleft : v.reach using Nat.strong_induction_on generalizing v with
  | _ left ih =>
    by_cases hnone : v.reach = 0
    · have hnil := cuts_eq_nil hnone
      refine ⟨v.length_cuts, ?_, ?_, ?_, ?_, v.flatMap_bytes_cuts⟩
      all_goals rw [hnil]
      · exact List.forall_mem_nil _
      · exact fun _ h => absurd h (Option.not_mem_none _)
      · exact .nil
      · exact List.forall_mem_nil _
    · have hcap : 0 < Frame.largestSegment := by decide
      have hcons := cuts_eq_cons hnone
      obtain ⟨hown, hoffset, hlength⟩ := clip_cut hnone
      have hrest : v.behindCut.CutInto v.behindCut.cuts := by
        refine ih v.behindCut.reach ?_ v.behindCut rfl
        rw [reach_behindCut]
        omega
      generalize Segment.clip v.storage v.offset (min v.reach Frame.largestSegment) = first
        at hcons hown hoffset hlength
      refine ⟨v.length_cuts, ?_, ?_, ?_, ?_, v.flatMap_bytes_cuts⟩
      all_goals rw [hcons]
      · exact List.forall_mem_cons.2 ⟨hown, hrest.own⟩
      · intro s hs
        obtain rfl := Option.some.inj hs
        exact hoffset
      · refine List.isChain_cons.2 ⟨fun t ht => ?_, hrest.follow⟩
        have hnext : t.offset = v.offset + Frame.largestSegment := hrest.starts t ht
        have hmore : v.behindCut.reach ≠ 0 := by
          intro hnone
          rw [cuts_eq_nil hnone] at ht
          exact absurd ht (Option.not_mem_none _)
        rw [reach_behindCut] at hmore
        omega
      · refine List.forall_mem_cons.2 ⟨?_, hrest.filled⟩
        omega

end View

/-! ## A reference for each piece -/

namespace Memory

/-- The memory counts a reference for each of the segments. -/
def CountsEach (m : Memory) (segments : List Segment) : Prop :=
  ∀ storage, segments.countP (fun s => s.storage.key = storage.key) ≤ m.referencesTo storage

theorem CountsEach.refers {m : Memory} {segments : List Segment} (h : m.CountsEach segments) :
    m.Refers segments := by
  intro s hs
  have hown : 0 < segments.countP fun t => t.storage.key = s.storage.key :=
    List.countP_pos_iff.2 ⟨s, hs, decide_eq_true rfl⟩
  exact Nat.lt_of_lt_of_le hown (h s.storage)

/-- Storage that is lent is referred to once more by each segment over it. -/
theorem referencesTo_lend {m : Memory} {segments : List Segment} (h : m.Refers segments) (storage : Storage) :
    (m.lend segments).referencesTo storage =
      m.referencesTo storage + segments.countP fun s => s.storage.key = storage.key := by
  induction segments generalizing m with
  | nil => rfl
  | cons s rest ih =>
    rw [Refers, List.forall_mem_cons] at h
    have hrest : (m.lendSegment s).Refers rest := Refers.lend h.2 [s]
    have hone : (m.lendSegment s).referencesTo storage =
        m.referencesTo storage + if storage.key = s.storage.key then 1 else 0 :=
      referencesTo_retain (key_lt_of_referencesTo h.1)
    rw [lend_cons, ih hrest, hone, List.countP_cons]
    simp only [decide_eq_true_eq, eq_comm (a := storage.key)]
    omega

/-- Nothing is different while something is lent but the headers and the references. -/
theorem lend_eq (m : Memory) (segments : List Segment) :
    m.lend segments =
      { m with
        pool := { m.pool with headersLive := m.pool.headersLive + segments.length }
        references := (m.lend segments).references } := by
  induction segments generalizing m with
  | nil => rfl
  | cons s rest ih =>
    refine (ih (m.lendSegment s)).trans ?_
    rw [List.length_cons, Nat.add_comm rest.length 1, ← Nat.add_assoc]
    rfl

end Memory

/-! ## A frame with all of it, or none -/

namespace Frame

/-- Whoever holds buffers refers to the storage of the frame over them. -/
theorem refers_covering {m : Memory} {buffers : List View} (h : ∀ v ∈ buffers, 0 < m.referencesTo v.storage)
    (receivedOn : Option Nat) : m.Refers (covering buffers receivedOn).segments := by
  intro s hs
  obtain ⟨v, hv, hcut⟩ := List.mem_flatMap.1 hs
  rw [v.cutInto_cuts.own s hcut]
  exact h v hv

/-- **A frame over buffers is exact, or there is none.** Each buffer takes a segment for every 2048 bytes that it shows,
and one for a rest. If the pool has so many headers free, the frame consists of the pieces of each buffer in order and
shows what the buffers show; each piece is lent a header and a reference to its storage, and nothing else is different.
If it has not, the next header is refused, and nothing is different but that those which had been free came back. That
holds whatever stretches of whatever storage the buffers ask for, as long as whoever holds them refers to it. -/
theorem ofBuffers_exact (m : Memory) (buffers : List View) (receivedOn : Option Nat)
    (hheld : ∀ v ∈ buffers, 0 < m.referencesTo v.storage) :
    let count := total (fun v => (v.bytes.length + 2047) / 2048) buffers
    ((∀ free ∈ m.pool.free?, count ≤ free) →
      ∃ f m' pieces, ofBuffers m buffers receivedOn = (.ok f, m') ∧
        f.receivedOn = receivedOn ∧ f.segments.length = count ∧ f.bytes = buffers.flatMap View.bytes ∧
        f.segments = pieces.flatten ∧
        List.Forall₂ (fun v cuts => v.CutInto cuts ∧ cuts.Pairwise fun s t => s.offset + s.length ≤ t.offset)
          buffers pieces ∧
        (∀ storage, m'.referencesTo storage =
          m.referencesTo storage + f.segments.countP fun s => s.storage.key = storage.key) ∧
        m' = { m with
          pool := { m.pool with headersLive := m.pool.headersLive + count }
          references := m'.references }) ∧
    ∀ free ∈ m.pool.free?, free < count →
      ofBuffers m buffers receivedOn =
        (.error (.poolExhausted 1),
          { m with pool := { m.pool with headersReleased := m.pool.headersReleased + free } }) := by
  intro count
  have hrefers := refers_covering hheld receivedOn
  refine ⟨fun henough => ?_, fun free hfree hlack => ofBuffers_refused hfree hlack hrefers⟩
  have hcount : (covering buffers receivedOn).segments.length = count := length_segments_covering buffers receivedOn
  have hpieces : List.Forall₂ (fun v cuts => v.CutInto cuts ∧
      cuts.Pairwise fun s t => s.offset + s.length ≤ t.offset) buffers (buffers.map View.cuts) := by
    rw [List.forall₂_map_right_iff, List.forall₂_same]
    exact fun v _ => ⟨v.cutInto_cuts, v.cutInto_cuts.apart⟩
  refine ⟨_, _, buffers.map View.cuts, ofBuffers_lent henough, rfl, hcount, bytes_covering buffers receivedOn,
    List.flatMap_def, hpieces, Memory.referencesTo_lend hrefers, ?_⟩
  rw [← hcount]
  exact m.lend_eq _

/-- A buffer that starts at its second byte and asks for more than there is takes two segments, one that lies beyond the
storage none, and the front of the storage once more one; with two headers free there is no frame. -/
theorem ofBuffers_exact_beyond :
    let storage : Storage := ⟨0, .cluster ⟨#[1, 2, 3], 3000⟩⟩
    let buffers : List View := [⟨storage, 1, 2 ^ 64 - 1⟩, ⟨storage, 5000, 7⟩, ⟨storage, 0, 2048⟩]
    let m (limit : Nat) : Memory := { pool := { limit := some limit, headersLive := 1 }, references := #[2] }
    (∀ limit, ∀ v ∈ buffers, 0 < (m limit).referencesTo v.storage) ∧
      (∃ f m', ofBuffers (m 4) buffers none = (.ok f, m') ∧ f.segments.length = 3 ∧ m'.pool.headersLive = 4) ∧
      ofBuffers (m 3) buffers none =
        (.error (.poolExhausted 1),
          { pool := { limit := some 3, headersLive := 1, headersReleased := 2 }, references := #[2] }) := by
  intro storage buffers m
  have hheld : ∀ limit, ∀ v ∈ buffers, 0 < (m limit).referencesTo v.storage := by
    intro limit v hv
    have hown : v.storage = storage := by
      revert v
      decide +kernel
    rw [hown]
    show 0 < 2
    decide
  have hcount : total (fun v => (v.bytes.length + 2047) / 2048) buffers = 3 := by
    simp only [View.length_bytes]
    decide +kernel
  obtain ⟨hsome, -⟩ := ofBuffers_exact (m 4) buffers none (hheld 4)
  obtain ⟨-, hnone⟩ := ofBuffers_exact (m 3) buffers none (hheld 3)
  rw [hcount] at hsome hnone
  refine ⟨hheld, ?_, hnone 2 rfl (by decide)⟩
  obtain ⟨f, m', -, hok, -, hlength, -, -, -, -, hm'⟩ := hsome fun free hfree => by
    obtain rfl := Option.some.inj hfree
    decide
  refine ⟨f, m', hok, hlength, ?_⟩
  rw [hm']

end Frame

end Patchbay
