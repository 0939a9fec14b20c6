import Mathlib.Order.Bounds.Basic
import Patchbay.Proofs.Budget.Custody

/-!
# `Proofs.Budget.Admission` — what a budget lets through, at any ceiling

A charge is decided on the sum of signed counters, after it was counted and with a negative sum read as none. Exact
arithmetic decides it by the bytes that are out: too large to be counted, past the ceiling, or left to the system
allocator. The two agree as long as the sum that is looked at does not pass the half of all sizes; from there on only
what exact arithmetic would grant anyhow is told right.

## Contents
* `IsCharge` — what a request is charged with; `chargedSize_ok_iff`, `chargedSize_error`;
* `shown` — what the counters show of a true sum; `Tallied.reserve_eq` — a charge, decided by that;
* `verdict` — a charge decided by exact arithmetic; `Told` — where the decision comes to the same;
* `Custody.Admits`, `Custody.run_admission` — requests behind any run; `not_admitted_wrapped`.
-/

namespace Patchbay

namespace Budget

/-! ## What a request is charged with -/

/-- A request of a kind is charged with its size, or with the least number of whole pages that holds it. -/
def IsCharge : Kind → Nat → Nat → Prop
  | .plain, size, n => n = size
  | .contiguous, size, n => IsLeast { pages | size ≤ pages ∧ pageSize ∣ pages ∧ pages < sizeBound } n

theorem isLeast_wholePages {size pages : Nat} (h : wholePages? size = some pages) :
    IsLeast { pages | size ≤ pages ∧ pageSize ∣ pages ∧ pages < sizeBound } pages := by
  have hbound : pages < sizeBound := by
    unfold wholePages? at h
    split at h
    · injection h with h
      subst h
      exact (Nat.div_mul_le_self _ _).trans_lt ‹_›
    · cases h
  obtain ⟨hle, hlt, hdvd⟩ := wholePages?_eq_some h
  refine ⟨⟨hle, hdvd, hbound⟩, ?_⟩
  -- two multiples of a page that are less than a page apart are the same
  rintro other ⟨hother, ⟨m, rfl⟩, -⟩
  obtain ⟨k, rfl⟩ := hdvd
  refine Nat.mul_le_mul_left pageSize (Nat.le_of_lt_succ (Nat.lt_of_mul_lt_mul_left (a := pageSize) ?_))
  rw [Nat.mul_succ]
  omega

theorem wholePages?_eq_none {size : Nat} (h : wholePages? size = none) {pages : Nat} (hle : size ≤ pages)
    (hdvd : pageSize ∣ pages) : sizeBound ≤ pages := by
  unfold wholePages? at h
  split at h
  · cases h
  · rename_i hbound
    -- the bound is itself a whole number of pages
    obtain ⟨k, rfl⟩ := hdvd
    simp only [sizeBound, pageSize] at hbound ⊢
    rw [pageSize] at hle
    omega

theorem chargedSize_ok_iff {kind : Kind} {size n : Nat} :
    chargedSize kind size = .ok n ↔ IsCharge kind size n := by
  cases kind with
  | plain => exact ⟨fun h => (Except.ok.inj h).symm, fun h => congrArg Except.ok h.symm⟩
  | contiguous =>
    unfold chargedSize IsCharge
    dsimp only
    cases hpages : wholePages? size with
    | none =>
      refine ⟨nofun, fun h => ?_⟩
      obtain ⟨⟨hle, hdvd, hlt⟩, -⟩ := h
      exact absurd (wholePages?_eq_none hpages hle hdvd) (Nat.not_le.2 hlt)
    | some pages =>
      have hleast := isLeast_wholePages hpages
      exact ⟨fun h => Except.ok.inj h ▸ hleast, fun h => congrArg Except.ok (hleast.unique h)⟩

/-- Only contiguous memory can have no charge, and then nothing else is asked. -/
theorem chargedSize_error {kind : Kind} {size : Nat} (h : ¬ ∃ n, IsCharge kind size n) :
    chargedSize kind size = .error (.exhausted size) := by
  cases hsize : chargedSize kind size with
  | ok n => exact absurd ⟨n, chargedSize_ok_iff.1 hsize⟩ h
  | error e =>
    unfold chargedSize at hsize
    split at hsize
    · cases hsize
    · split at hsize
      · cases hsize
      · exact hsize.symm

/-! ## What the counters show -/

/-- What the counters show where the true sum is `n`: it wraps, and a negative one counts as none. -/
def shown (n : Nat) : Nat := (Int64.ofNat n).toNatClampNeg

theorem shown_of_lt {n : Nat} (h : n < signedBound) : shown n = n :=
  Int64.toNatClampNeg_ofNat_of_lt h

theorem shown_lt (n : Nat) : shown n < signedBound := by
  have := (Int64.ofNat n).toInt_lt
  rw [shown, Int64.toNatClampNeg, signedBound]
  omega

theorem shown_eq_iff {n : Nat} : shown n = n ↔ n < signedBound :=
  ⟨fun h => h ▸ shown_lt n, shown_of_lt⟩

/-- The counters never show too much. -/
theorem shown_le (n : Nat) : shown n ≤ n := by
  by_cases h : n < signedBound
  · exact (shown_of_lt h).le
  · exact (shown_lt n).le.trans (Nat.le_of_not_lt h)

/-- The bytes of the blocks that are out. -/
def bytesIn (live : Multiset Block) : Nat := (live.map Block.size).sum

namespace Tallied

variable {b : Budget} {live : Multiset Block}

theorem outstanding_eq_shown (h : Tallied b live) : b.outstanding = shown (bytesIn live) := by
  have hplain : b.account.plain.bytes = Int64.ofNat (bytesOf .plain live) := h.bytes .plain
  have hcontiguous : b.account.contiguous.bytes = Int64.ofNat (bytesOf .contiguous live) :=
    h.bytes .contiguous
  rw [outstanding, Account.outstanding, hplain, hcontiguous, ← Int64.ofNat_add, bytesOf_add_bytesOf]
  rfl

theorem outstanding_charge (h : Tallied b live) (kind : Kind) (lane : Lane) (n : Nat) :
    (b.charge kind lane n).outstanding = shown (bytesIn live + n) := by
  -- a granted block is what makes the charged figures those of live blocks again
  have hgrant := (h.grant kind lane none n).outstanding_eq_shown
  have hsize : ((b.charge kind lane n).grant kind lane none n).1.size = n := Contents.size_zeroed n
  rw [bytesIn, Multiset.map_cons, Multiset.sum_cons, hsize, Nat.add_comm] at hgrant
  rw [bytesIn, ← hgrant]
  exact (Account.outstanding_countAllocation _ kind lane).symm

/-- A charge, decided by what the counters show. -/
theorem reserve_eq (h : Tallied b live) (kind : Kind) (lane : Lane) (n : Nat) :
    b.reserve kind lane n =
      if b.ceiling < n ∨ signedBound ≤ n then
        (.error (.outOfMemory n (shown (bytesIn live)) b.ceiling), b)
      else if b.ceiling < shown (bytesIn live + n) then
        (.error (.outOfMemory n (shown (bytesIn live + n) - n) b.ceiling), b)
      else (.ok (), b.charge kind lane n) := by
  unfold reserve
  dsimp only
  rw [h.outstanding_eq_shown, h.outstanding_charge, credit_charge]

end Tallied

/-! ## What exact arithmetic decides -/

/-- A charge of `n` on top of `out`, decided by exact arithmetic. What is within the ceiling and can be counted is
left to the system allocator. -/
def verdict (ceiling out n : Nat) (granted : Bool) : Except Failure Unit :=
  if signedBound ≤ n ∨ ceiling < out + n then .error (.outOfMemory n out ceiling)
  else if granted then .ok () else .error (.exhausted n)

/-- The decision comes to what exact arithmetic says: a charge that is refused for itself is told with the sum that
stands; any other is judged by the new sum, which is shown as it is, or is within the ceiling anyhow. -/
def Told (ceiling out n : Nat) : Prop :=
  if ceiling < n ∨ signedBound ≤ n then out < signedBound
  else out + n < signedBound ∨ out + n ≤ ceiling

instance (ceiling out n : Nat) : Decidable (Told ceiling out n) := by
  unfold Told
  infer_instance

/-- Below a quarter of all sizes nothing can wrap. -/
theorem told_of_le {ceiling out : Nat} (hc : ceiling < 2 ^ 62) (hout : out ≤ ceiling) (n : Nat) :
    Told ceiling out n := by
  unfold Told
  rw [signedBound]
  split_ifs <;> omega

/-- The answer to a charge that the system allocator grants or not. -/
def answerOf (granted : Bool) (n : Nat) : Except Failure Unit → Except Failure Unit
  | .error e => .error e
  | .ok () => if granted then .ok () else .error (.exhausted n)

theorem Tallied.answer_eq_verdict_iff {b : Budget} {live : Multiset Block} (h : Tallied b live) (kind : Kind)
    (lane : Lane) (n : Nat) (granted : Bool) :
    answerOf granted n (b.reserve kind lane n).1 = verdict b.ceiling (bytesIn live) n granted ↔
      Told b.ceiling (bytesIn live) n := by
  rw [h.reserve_eq]
  generalize bytesIn live = out
  have hle := shown_le (out + n)
  unfold verdict Told
  by_cases hself : b.ceiling < n ∨ signedBound ≤ n
  · -- refused for itself, by both; only the figure that is told may differ
    have hrefused : signedBound ≤ n ∨ b.ceiling < out + n := by omega
    rw [if_pos hself, if_pos hself, if_pos hrefused, ← shown_eq_iff]
    simp [answerOf]
  · rw [if_neg hself, if_neg hself]
    by_cases hsum : out + n < signedBound
    · -- the new sum is shown as it is
      rw [shown_of_lt hsum, Nat.add_sub_cancel]
      refine iff_of_true ?_ (.inl hsum)
      by_cases hover : b.ceiling < out + n
      · rw [if_pos hover, if_pos (.inr hover)]
        rfl
      · rw [if_neg hover, if_neg (by omega)]
        rfl
    · by_cases hover : b.ceiling < out + n
      · -- it should be refused; if it is, then because of a wrapped sum, which is not what it tells
        rw [if_pos (.inr hover : signedBound ≤ n ∨ _)]
        refine iff_of_false ?_ (by omega)
        have hlt := shown_lt (out + n)
        split
        · simp only [answerOf, Except.error.injEq, Failure.outOfMemory.injEq]
          omega
        · cases granted <;> exact nofun
      · -- what is shown is less than what would still be granted
        rw [if_neg (by omega), if_neg (by omega)]
        exact iff_of_true rfl (.inr (Nat.le_of_not_lt hover))

/-! ## Requests behind any run -/

/-- The answer to a request without the block. -/
def bare (answer : Except Failure Block) : Except Failure Unit := answer.map fun _ => ()

/-- A request for a block is answered as the charge for it is. -/
theorem bare_alloc {heap : Heap} {b : Budget} {kind : Kind} {comment : Option String} {size n : Nat}
    (hn : IsCharge kind size n) (lane : Lane) :
    bare (b.alloc heap kind lane comment size).1 = answerOf (heap.has n) n (b.reserve kind lane n).1 := by
  unfold alloc
  rw [chargedSize_ok_iff.2 hn]
  dsimp only
  cases b.reserve kind lane n with
  | mk answer charged =>
    cases answer with
    | error e => rfl
    | ok u => cases heap.has n <;> rfl

/-- A request for growth is answered as the charge for the growth is. -/
theorem bare_resize {heap : Heap} {b : Budget} {block : Block} {size n : Nat}
    (hn : IsCharge block.kind size n) (hgrows : block.size < n) (lane : Lane) :
    bare (b.resize heap lane block size).1 =
      answerOf (heap.has n) (n - block.size) (b.reserve block.kind lane (n - block.size)).1 := by
  unfold resize
  rw [chargedSize_ok_iff.2 hn]
  dsimp only
  rw [if_pos hgrows]
  cases b.reserve block.kind lane (n - block.size) with
  | mk answer charged =>
    cases answer with
    | error e => rfl
    | ok u => cases heap.has n <;> rfl

theorem size_of_alloc {heap : Heap} {b : Budget} {kind : Kind} {lane : Lane} {comment : Option String}
    {size n : Nat} (hn : IsCharge kind size n) {block : Block}
    (h : (b.alloc heap kind lane comment size).1 = .ok block) : block.size = n := by
  rcases alloc_cases heap b kind lane comment size with ⟨e, hr⟩ | ⟨m, hm, -, hr⟩
  · rw [hr] at h
    cases h
  · rw [chargedSize_ok_iff.2 hn] at hm
    cases hm
    rw [hr] at h
    cases h
    exact Contents.size_zeroed n

theorem size_of_resize {heap : Heap} {b : Budget} {lane : Lane} {block block' : Block} {size n : Nat}
    (hn : IsCharge block.kind size n) (h : (b.resize heap lane block size).1 = .ok block') :
    block'.size = n := by
  rcases resize_cases heap b lane block size with ⟨e, hr⟩ | ⟨m, hm, b', hr, -⟩
  · rw [hr] at h
    cases h
  · rw [chargedSize_ok_iff.2 hn] at hm
    cases hm
    rw [hr] at h
    cases h
    exact Contents.size_resize block.contents n

/-- A block that is cut or stays as it is cannot be refused. -/
theorem resize_ok {heap : Heap} {b : Budget} {block : Block} {size n : Nat}
    (hn : IsCharge block.kind size n) (hle : n ≤ block.size) (lane : Lane) :
    bare (b.resize heap lane block size).1 = .ok () := by
  unfold resize
  rw [chargedSize_ok_iff.2 hn]
  dsimp only
  rw [if_neg (Nat.not_lt.2 hle)]
  rfl

namespace Custody

/-- How requests are decided while certain blocks are out. -/
structure Admits (ceiling : Nat) (c : Custody) : Prop where
  /-- A request that has no charge is refused before anything else is looked at; it is for contiguous memory. -/
  alloc_uncharged : ∀ heap kind lane comment size, (¬ ∃ n, IsCharge kind size n) →
    kind = .contiguous ∧ c.budget.alloc heap kind lane comment size = (.error (.exhausted size), c.budget)
  resize_uncharged : ∀ heap lane block size, (¬ ∃ n, IsCharge block.kind size n) →
    block.kind = .contiguous ∧ c.budget.resize heap lane block size = (.error (.exhausted size), c.budget)
  /-- A request for a block is decided as exact arithmetic does, just where that is told. -/
  alloc : ∀ heap kind lane comment size n, IsCharge kind size n →
    (bare (c.budget.alloc heap kind lane comment size).1 =
        verdict ceiling (bytesIn c.live) n (heap.has n) ↔ Told ceiling (bytesIn c.live) n)
  /-- So is growth, by what the block grows. -/
  grow : ∀ heap lane, ∀ block ∈ c.live, ∀ size n, IsCharge block.kind size n → block.size < n →
    (bare (c.budget.resize heap lane block size).1 =
        verdict ceiling (bytesIn c.live) (n - block.size) (heap.has n) ↔
      Told ceiling (bytesIn c.live) (n - block.size))
  /-- Anything else is granted. -/
  cut : ∀ heap lane, ∀ block ∈ c.live, ∀ size n, IsCharge block.kind size n → n ≤ block.size →
    bare (c.budget.resize heap lane block size).1 = .ok ()
  /-- What is granted has the size that it is charged with. -/
  alloc_size : ∀ heap kind lane comment size n block, IsCharge kind size n →
    (c.budget.alloc heap kind lane comment size).1 = .ok block → block.size = n
  resize_size : ∀ heap lane block size n block', IsCharge block.kind size n →
    (c.budget.resize heap lane block size).1 = .ok block' → block'.size = n
  /-- Below a quarter of all sizes every decision is told right. -/
  told : ceiling < 2 ^ 62 → ∀ n, Told ceiling (bytesIn c.live) n

/-- Whatever the ceiling, a run of calls leaves the tally and the ceiling as they should be. -/
theorem tallied_step {c : Custody} (h : c.budget.Tallied c.live) (t : Turn) :
    (c.step t).budget.Tallied (c.step t).live ∧ (c.step t).budget.ceiling = c.budget.ceiling := by
  obtain ⟨call, lane, heap⟩ := t
  cases call with
  | alloc kind comment size =>
    rcases alloc_cases heap c.budget kind lane comment size with ⟨e, hr⟩ | ⟨n, -, -, hr⟩
    · simp only [step, hr]
      exact ⟨h, trivial⟩
    · simp only [step, hr]
      exact ⟨h.grant kind lane comment n, rfl⟩
  | resize place size =>
    cases hp : c.live[place]? with
    | none =>
      simp only [step, hp]
      exact ⟨h, trivial⟩
    | some block =>
      rcases resize_cases heap c.budget lane block size with ⟨e, hr⟩ | ⟨n, -, b', hr, hcases⟩
      · simp only [step, hp, hr]
        exact ⟨h, trivial⟩
      -- the block is looked at in front of the others, and put back in its place
      rw [coe_eq_cons_eraseIdx hp] at h
      have hset := h.resize hr
      rw [← coe_set_eq_cons_eraseIdx hp] at hset
      simp only [step, hp, hr]
      refine ⟨hset, ?_⟩
      rcases hcases with ⟨-, -, rfl⟩ | ⟨-, rfl⟩ <;> rfl
  | free place =>
    cases hp : c.live[place]? with
    | none =>
      simp only [step, hp]
      exact ⟨h, trivial⟩
    | some block =>
      rw [coe_eq_cons_eraseIdx hp] at h
      simp only [step, hp]
      exact ⟨h.free lane, rfl⟩

theorem tallied_run {c : Custody} (h : c.budget.Tallied c.live) (turns : List Turn) :
    (c.run turns).budget.Tallied (c.run turns).live ∧ (c.run turns).budget.ceiling = c.budget.ceiling := by
  induction turns generalizing c with
  | nil => exact ⟨h, rfl⟩
  | cons t rest ih =>
    obtain ⟨hstep, hceiling⟩ := tallied_step h t
    obtain ⟨hrest, hrun⟩ := ih hstep
    exact ⟨hrest, hrun.trans hceiling⟩

/-- **What is admitted, at any ceiling and behind any run.** Below a ceiling of two to the sixty-second the budget
decides as exact arithmetic does: too large to be counted or past the ceiling is refused, with the charge, the true
total and the ceiling; all else is up to the system allocator. From there on it does so just where the sum that is
looked at is shown as it is, or would be granted anyhow. -/
theorem run_admission (key ceiling : Nat) (tracking : Bool) (turns : List Turn) :
    Admits ceiling (run ⟨Budget.new key ceiling tracking, []⟩ turns) := by
  obtain ⟨ht, hceiling⟩ :=
    tallied_run (c := ⟨Budget.new key ceiling tracking, []⟩) (Tallied.new key ceiling tracking) turns
  change _ = ceiling at hceiling
  generalize hrun : run ⟨Budget.new key ceiling tracking, []⟩ turns = c at ht hceiling
  exact
    { alloc_uncharged := by
        intro heap kind lane comment size hnone
        refine ⟨?_, by rw [Budget.alloc, chargedSize_error hnone]⟩
        cases kind with
        -- only whole pages can be past counting
        | plain => exact absurd ⟨size, rfl⟩ hnone
        | contiguous => rfl
      resize_uncharged := by
        intro heap lane block size hnone
        refine ⟨?_, by rw [Budget.resize, chargedSize_error hnone]⟩
        cases hkind : block.kind with
        | plain => exact absurd ⟨size, hkind ▸ rfl⟩ hnone
        | contiguous => rfl
      alloc := by
        intro heap kind lane comment size n hn
        rw [bare_alloc hn, ← hceiling]
        exact ht.answer_eq_verdict_iff kind lane n _
      grow := by
        intro heap lane block _ size n hn hgrows
        rw [bare_resize hn hgrows, ← hceiling]
        exact ht.answer_eq_verdict_iff block.kind lane _ _
      cut := fun _ lane _ _ _ _ hn hle => resize_ok hn hle lane
      alloc_size := fun _ _ _ _ _ _ _ hn h => size_of_alloc hn h
      resize_size := fun _ _ _ _ _ _ hn h => size_of_resize hn h
      told := fun hc n => by
        have hsound := (Sound.new key ceiling tracking).run hc turns
        rw [hrun] at hsound
        exact told_of_le hc hsound.within n }

/-- One byte is out of a ceiling of the largest signed number, and as much as the ceiling is asked for. The sum wraps
and is shown as none, so the request gets past the ceiling and is left to the system allocator. -/
theorem not_admitted_wrapped :
    let ceiling := signedBound - 1
    let c := run ⟨Budget.new 0 ceiling false, []⟩ [⟨.alloc .plain none 1, .first, .standard⟩]
    bytesIn c.live = 1 ∧ IsCharge .plain ceiling ceiling ∧ ¬ Told ceiling 1 ceiling ∧
      (c.budget.alloc .standard .plain .first none ceiling).1 = .error (.exhausted ceiling) ∧
      verdict ceiling 1 ceiling (Heap.standard.has ceiling) = .error (.outOfMemory ceiling 1 ceiling) := by
  refine ⟨by decide +kernel, rfl, by decide +kernel, by decide +kernel, by decide +kernel⟩

end Custody

end Budget

end Patchbay
