import Patchbay.Proofs.Estate.Scene
import Patchbay.Proofs.Estate.Splice

/-!
# `Proofs.Estate.Keeping` — no act gains or loses anything

What an act takes out of the items and what it hands out are what the operations behind it trade. So whatever
callers do, the host stays settled with just the items that they hold.

## Contents
* `Scene.Kept` — from one scene to another, what is held changes hands;
* `Scene.kept_give`, `Scene.kept_take`, `Scene.kept_quiet` — the three shapes of an act;
* `Scene.kept_work` — an act that works on a queue, be it that of a plug;
* `Scene.kept_alloc`, `Scene.kept_share`, `Scene.kept_segment`, `Scene.kept_wrap`, `Scene.kept_push`, … — a lemma for
  each act that does more than one operation;
* `Scene.kept_block`, `Scene.kept_packet`, `Scene.kept_queue`, `Scene.kept_host`, `Scene.kept_splice` — acts of a kind;
* `Scene.kept_step` — every act, if the bookkeeping overlooks the leaks that are checked for.
-/

namespace Patchbay

open Budget (Block)

instance : Holding Item := ⟨fun item => match item with
  | .ticket => .header
  | .block b => estate b
  | .view v => estate v
  | .segment s => estate s
  | .chain c => estate c
  | .queue q => estate q
  | .plug p => estate p⟩

namespace Item

theorem estate_block (b : Block) : estate (Item.block b) = estate b := rfl
theorem estate_view (v : View) : estate (Item.view v) = estate v := rfl
theorem estate_segment (s : Segment) : estate (Item.segment s) = estate s := rfl
theorem estate_chain (c : Chain) : estate (Item.chain c) = estate c := rfl
theorem estate_frame (f : Frame) : estate (Item.chain (.last f)) = estate f := estate_last f

end Item

namespace Scene

open Network (trades_setMemory trades_onMemory trades_lend)

/-- What callers hold before is traded for what they hold after. -/
def Kept (k : Memory.Bookkeeping) (s s' : Scene) : Prop :=
  Trades (Network.Settled k) s.network (estate s.items) s'.network (estate s'.items)

variable {k : Memory.Bookkeeping} {n n' : Network} {items : List Item} {item : Item} {place : Nat}

/-- An act that does nothing keeps all. -/
theorem kept_refl (s : Scene) : Kept k s s := .refl _ _

/-- An act that hands something out. -/
theorem kept_give (out : List Item) (h : Trades (Network.Settled k) n 0 n' (estate out)) :
    Kept k ⟨n, items⟩ ⟨n', out ++ items⟩ :=
  (h.frame (estate items)).cast (zero_add _).symm (estate_append out items)

/-- An act that changes nobody's items. -/
theorem kept_quiet (h : Trades (Network.Settled k) n 0 n' 0) : Kept k ⟨n, items⟩ ⟨n', items⟩ :=
  kept_give [] h

/-- An act that takes an item and hands something out for it. -/
theorem kept_take (out : List Item) (hitem : items[place]? = some item)
    (h : Trades (Network.Settled k) n (estate item) n' (estate out)) :
    Kept k ⟨n, items⟩ ⟨n', out ++ items.eraseIdx place⟩ :=
  (h.frame (estate (items.eraseIdx place))).cast (estate_eq_add_eraseIdx hitem)
    (estate_append out _)

/-- An act that takes an item and hands out none. -/
theorem kept_drop (hitem : items[place]? = some item) (h : Trades (Network.Settled k) n (estate item) n' 0) :
    Kept k ⟨n, items⟩ ⟨n', items.eraseIdx place⟩ :=
  kept_take [] hitem h

/-- An act that looks at an item, which stays, and hands something out. -/
theorem kept_look (out : List Item) (hitem : items[place]? = some item)
    (h : Trades (Network.Settled k) n (estate item) n' (estate item + estate out)) :
    Kept k ⟨n, items⟩ ⟨n', out ++ items⟩ := by
  refine (h.frame (estate (items.eraseIdx place))).cast (estate_eq_add_eraseIdx hitem) ?_
  rw [estate_append, estate_eq_add_eraseIdx hitem]
  abel

/-- An operation on a queue that a caller has, be it the queue of a plug. -/
theorem trades_onQueueItem {α : Type} {f : Queue → Memory → α × Queue × Memory} {a : Estate}
    {b : α → Estate} {item' : Item} {x : α} (hf : Queue.Operates k a f b) (ha : a.plugs = 0)
    (hb : ∀ x, (b x).plugs = 0) (h : onQueueItem n f item = some (x, item', n')) :
    Trades (Network.Settled k) n (estate item + a) n' (estate item' + b x) := by
  -- the queue of a caller goes back to the caller, that of a plug to its line
  cases item with
  | queue q =>
    obtain ⟨rfl, rfl, rfl⟩ : (f q n.memory).1 = x ∧ Item.queue (f q n.memory).2.1 = item' ∧
        n.setMemory (f q n.memory).2.2 = n' := by
      simpa [onQueueItem] using h
    refine trades_setMemory (hf q n.memory) ?_ ?_
    · show (estate q).plugs + a.plugs = 0
      rw [plugs_eq_zero, ha, add_zero]
    · show (estate (f q n.memory).2.1).plugs + (b (f q n.memory).1).plugs = 0
      rw [plugs_eq_zero, hb, add_zero]
  | plug p =>
    obtain ⟨rfl, rfl, rfl⟩ : (n.onQueue p f).1 = x ∧ Item.plug p = item' ∧
        (n.onQueue p f).2 = n' := by
      simpa [onQueueItem] using h
    exact Network.trades_plane (n.plane.trades_onQueue p hf ha hb)
  | _ => cases h

/-- An act that works on the queue of an item and hands out what comes of it. -/
theorem kept_work {α : Type} {f : Queue → Memory → α × Queue × Memory} {b : α → Estate}
    {item' : Item} {x : α} (out : List Item) (hf : Queue.Operates k 0 f b)
    (hb : ∀ x, (b x).plugs = 0) (h : items[place]?.bind (onQueueItem n f) = some (x, item', n'))
    (hout : estate out = b x) : Kept k ⟨n, items⟩ ⟨n', item' :: (out ++ items.eraseIdx place)⟩ := by
  obtain ⟨item, hitem, hwork⟩ := Option.bind_eq_some_iff.1 h
  have htrade := trades_onQueueItem hf rfl hb hwork
  refine kept_take (item' :: out) hitem (htrade.cast ?_ ?_)
  · rw [add_zero]
  · rw [estate_cons, hout]

/-- A caller holds what an operation granted, and nothing if it failed. -/
theorem estate_answer {α ε : Type} [Holding α] {f : α → Item} (hf : ∀ a, estate (f a) = estate a)
    (answer : Except ε α) : estate (answer.toOption.toList.map f) = estate answer := by
  rw [estate_map hf, estate_toList, estate_toOption]

/-- So it is with one that yields something or nothing. -/
theorem estate_option {α : Type} [Holding α] {f : α → Item} (hf : ∀ a, estate (f a) = estate a)
    (answer : Option α) : estate (answer.toList.map f) = estate answer := by
  rw [estate_map hf, estate_toList]

/-! ## Acts in which memory has no part -/

/-- Segments that are picked out are what is missing among the items. -/
theorem estate_pickSegments (places : List Nat) (items : List Item) :
    estate items = estate (pickSegments places items).1 + estate (pickSegments places items).2 := by
  -- on the places: each is looked up in what the one before it left
  induction places generalizing items with
  | nil => exact (zero_add _).symm
  | cons place rest ih =>
    unfold pickSegments
    split
    · rename_i g hitem
      rw [estate_eq_add_eraseIdx hitem, ih (items.eraseIdx place), estate_cons, add_assoc]
      rfl
    · exact ih items

/-- A packet has what its segments had. -/
theorem kept_assemble (places : List Nat) (receivedOn : Option Nat) :
    Kept k ⟨n, items⟩ (stepPacket ⟨n, items⟩ (.assemble places receivedOn)) := by
  refine (kept_refl _).cast rfl ?_
  show estate (_ :: _) = _
  rw [estate_cons, estate_pickSegments places items]
  congr 1
  exact estate_last _

/-- Two packets in one have what they had apart. -/
theorem kept_append (place other : Nat) : Kept k ⟨n, items⟩ (stepPacket ⟨n, items⟩ (.append place other)) := by
  unfold stepPacket
  dsimp only
  split
  · rename_i c d hc hd
    refine (kept_refl _).cast rfl ?_
    show estate (_ :: _) = estate items
    rw [estate_cons, estate_eq_add_eraseIdx hc, estate_eq_add_eraseIdx hd, ← add_assoc]
    congr 1
    show estate (c.append d).frames = estate c.frames + estate d.frames
    rw [Chain.frames_append, estate_append]
  · exact kept_refl _

/-- A frame and the frames behind it have what they had in one packet. -/
theorem kept_takeNext (place : Nat) : Kept k ⟨n, items⟩ (stepPacket ⟨n, items⟩ (.takeNext place)) := by
  unfold stepPacket
  dsimp only
  split
  · rename_i c hitem
    refine (kept_refl _).cast rfl ?_
    show estate (_ :: _) = estate items
    rw [estate_cons, estate_append, estate_eq_add_eraseIdx hitem, estate_option Item.estate_chain,
      ← add_assoc]
    congr 1
    show estate (Chain.last c.head) + _ = estate c
    rw [estate_last, c.estate_eq]
  · exact kept_refl _

/-- A mark on a packet costs nothing. -/
theorem kept_setReceivedOn (place : Nat) (receivedOn : Option Nat) :
    Kept k ⟨n, items⟩ (stepPacket ⟨n, items⟩ (.setReceivedOn place receivedOn)) := by
  unfold stepPacket
  dsimp only
  split
  · rename_i c hitem
    refine kept_take [_] hitem ((Trades.refl n _).cast rfl ?_)
    rw [estate_cons, estate_nil, add_zero]
    exact Network.estate_setHead c receivedOn
  · exact kept_refl _

/-- To count a drop costs nothing. -/
theorem kept_countDrop (place : Nat) : Kept k ⟨n, items⟩ (stepQueue ⟨n, items⟩ (.countDrop place)) := by
  unfold stepQueue
  dsimp only
  split
  · rename_i done item' n' hwork
    exact kept_work [] Queue.operates_countDrop (fun _ => rfl) hwork rfl
  · exact kept_refl _

/-- A plug that is held has one holder more. -/
theorem kept_hold (splice id : Nat) : Kept k ⟨n, items⟩ (stepQueue ⟨n, items⟩ (.hold splice id)) := by
  unfold stepQueue
  dsimp only
  split
  · rename_i p hp
    refine kept_give [.plug p] (Network.trades_ofPlug (Network.byId?_mem hp)
      ((n.plane.trades_holdPlug p).cast (add_zero _) ?_))
    rw [estate_cons, estate_nil, add_zero]
    rfl
  · exact kept_refl _

/-! ## Blocks and buffers -/

/-- A view refers to its storage. -/
theorem mem_references (v : View) : v.storage ∈ (estate v).references :=
  Multiset.mem_singleton_self v.storage

variable [Memory.Tally k]

/-- A block is handed out just if it is granted. -/
theorem kept_alloc (budget : Nat) (kind : Budget.Kind) (comment : Option String) (size : Nat) :
    Kept k ⟨n, items⟩ (stepBlock ⟨n, items⟩ (.alloc budget kind comment size)) := by
  have halloc := trades_onMemory (f := fun m => m.alloc budget kind comment size) n
    (n.memory.trades_alloc (k := k) budget kind comment size) rfl plugs_eq_zero
  exact kept_give _ (halloc.cast rfl (estate_answer Item.estate_block _))

/-- A resized block is still one block, and one whose resizing is refused is the same as before. -/
theorem kept_resize (place size : Nat) : Kept k ⟨n, items⟩ (stepBlock ⟨n, items⟩ (.resize place size)) := by
  unfold stepBlock
  dsimp only
  split
  · rename_i b hitem
    cases hr : n.memory.resize b size with
    | mk answer m =>
      cases answer with
      | error e =>
        dsimp only
        obtain rfl := Memory.resize_error hr
        exact kept_refl _
      | ok b' =>
        exact kept_take [.block b'] hitem
          ((trades_setMemory (Memory.trades_resize hr) rfl rfl).cast rfl (add_zero _))
  · exact kept_refl _

/-- Written or not, a block is the same block to its budget. -/
theorem kept_write (place start : Nat) (data : List UInt8) :
    Kept k ⟨n, items⟩ (stepBlock ⟨n, items⟩ (.write place start data)) := by
  unfold stepBlock
  dsimp only
  split
  · rename_i b hitem
    exact kept_take [.block (b.write start data)] hitem
      ((trades_setMemory (n.memory.trades_write b start data) rfl rfl).cast rfl (add_zero _))
  · exact kept_refl _

/-- A block goes back to its budget. -/
theorem kept_free (place : Nat) : Kept k ⟨n, items⟩ (stepBlock ⟨n, items⟩ (.free place)) := by
  unfold stepBlock
  dsimp only
  split
  · rename_i b hitem
    exact kept_drop hitem (trades_setMemory (n.memory.trades_free b) rfl rfl)
  · exact kept_refl _

/-- A block that becomes a buffer belongs to its storage, and one reference to that is out. -/
theorem kept_share (place : Nat) : Kept k ⟨n, items⟩ (stepBlock ⟨n, items⟩ (.share place)) := by
  unfold stepBlock
  dsimp only
  split
  · rename_i b hitem
    exact kept_take [.view _] hitem
      ((trades_setMemory (n.memory.trades_shareBlock b) rfl rfl).cast rfl (add_zero _))
  · exact kept_refl _

/-- A further view is a further reference, and the view that it was made of stays. -/
theorem kept_window (place offset length : Nat) :
    Kept k ⟨n, items⟩ (stepBlock ⟨n, items⟩ (.window place offset length)) := by
  unfold stepBlock
  dsimp only
  split
  · rename_i v hitem
    refine kept_look [.view (v.window offset length)] hitem
      ((trades_setMemory (n.memory.trades_retain (mem_references v)) rfl rfl).cast rfl ?_)
    rw [estate_cons, estate_nil, add_zero, add_comm]
    rfl
  · exact kept_refl _

/-- With a view one reference goes. -/
theorem kept_dropView (place : Nat) : Kept k ⟨n, items⟩ (stepBlock ⟨n, items⟩ (.dropView place)) := by
  unfold stepBlock
  dsimp only
  split
  · rename_i v hitem
    exact kept_drop hitem (trades_setMemory (n.memory.trades_release v.storage) rfl rfl)
  · exact kept_refl _

/-- No act on blocks and buffers gains or loses anything, unless it is a check for leaks that the bookkeeping sees. -/
theorem kept_block (s : Scene) (act : BlockAct)
    (hcheck : ∀ key, act = .collectLeaks key → Memory.Overlooks k key) : Kept k s (s.stepBlock act) := by
  obtain ⟨n, items⟩ := s
  cases act with
  | addBudget ceiling tracking =>
    exact kept_quiet (trades_setMemory (n.memory.trades_addBudget ceiling tracking) rfl rfl)
  | alloc budget kind comment size => exact kept_alloc budget kind comment size
  | resize place size => exact kept_resize place size
  | write place start data => exact kept_write place start data
  | free place => exact kept_free place
  | share place => exact kept_share place
  | collectLeaks budget =>
    exact kept_quiet (trades_setMemory (n.memory.trades_collectLeaks (hcheck budget rfl)) rfl rfl)
  | cluster bytes =>
    exact kept_give [.view _]
      ((trades_setMemory (n.memory.trades_shareCluster bytes) rfl rfl).cast rfl (add_zero _))
  | window place offset length => exact kept_window place offset length
  | dropView place => exact kept_dropView place

/-! ## Headers, segments and packets -/

/-- The storage of a view that is an item is referred to by the items. -/
theorem viewsAt_references {places : List Nat} {v : View} (hv : v ∈ viewsAt places items) :
    v.storage ∈ (estate items).references := by
  obtain ⟨place, -, hplace⟩ := List.mem_filterMap.1 hv
  obtain ⟨item, hitem, hview⟩ := Option.bind_eq_some_iff.1 hplace
  rw [estate_eq_add_eraseIdx hitem]
  cases item with
  | view w =>
    obtain rfl := Option.some.inj hview
    exact Multiset.mem_add.2 (.inl (mem_references w))
  | _ => cases hview

/-- What a packet has is what its first frame has and what the others have. -/
theorem estate_head_tail (c : Chain) : estate c = estate c.head + estate c.frames.tail := by
  cases c <;> exact estate_cons _ _

/-- A header is lent if the pool has one. -/
theorem kept_ticket : Kept k ⟨n, items⟩ (stepPacket ⟨n, items⟩ .ticket) := by
  unfold stepPacket
  dsimp only
  split
  · rename_i m hm
    exact kept_give [.ticket]
      ((trades_setMemory (Memory.trades_takeHeader hm) rfl rfl).cast rfl (add_zero _))
  · exact kept_refl _

/-- A lent header goes back. -/
theorem kept_dropTicket (place : Nat) : Kept k ⟨n, items⟩ (stepPacket ⟨n, items⟩ (.dropTicket place)) := by
  unfold stepPacket
  dsimp only
  split
  · rename_i hitem
    exact kept_drop hitem (trades_setMemory n.memory.trades_returnHeader rfl rfl)
  · exact kept_refl _

/-- A segment is a lent header and a reference. -/
theorem kept_segment (ticket view offset length : Nat) :
    Kept k ⟨n, items⟩ (stepPacket ⟨n, items⟩ (.segment ticket view offset length)) := by
  unfold stepPacket
  dsimp only
  split
  · rename_i v hticket hview
    -- the ticket becomes the header of the segment, and the view lends a reference
    have hretain := trades_setMemory (n.memory.trades_retain (k := k) (mem_references v)) rfl rfl
    refine (hretain.frame (.header + estate ((items.eraseIdx ticket).eraseIdx view))).cast ?_ ?_
    · rw [estate_eq_add_eraseIdx hticket, estate_eq_add_eraseIdx hview]
      show Estate.header + (estate v + _) = _
      abel
    · rw [estate_cons, estate_eq_add_eraseIdx hview]
      show Estate.header + Estate.reference v.storage + (estate v + _) = _
      abel
  · exact kept_refl _

/-- What is left of a segment without its header is a view. -/
theorem kept_unwrapSegment (place : Nat) : Kept k ⟨n, items⟩ (stepPacket ⟨n, items⟩ (.unwrapSegment place)) := by
  unfold stepPacket
  dsimp only
  split
  · rename_i g hitem
    have hreturn := (trades_setMemory n.memory.trades_returnHeader (k := k) rfl rfl).frame
      (.reference g.storage)
    exact kept_take [.view g.view] hitem
      (hreturn.cast rfl ((add_zero _).trans (zero_add _).symm))
  · exact kept_refl _

/-- Header and reference of a segment go back together. -/
theorem kept_dropSegment (place : Nat) : Kept k ⟨n, items⟩ (stepPacket ⟨n, items⟩ (.dropSegment place)) := by
  unfold stepPacket
  dsimp only
  split
  · rename_i g hitem
    exact kept_drop hitem (trades_setMemory (n.memory.trades_releaseSegment g) rfl rfl)
  · exact kept_refl _

/-- A packet of bytes is handed out just if there are headers for it. -/
theorem kept_fromBytes (bytes : List UInt8) (cap : Nat) (receivedOn : Option Nat) :
    Kept k ⟨n, items⟩ (stepPacket ⟨n, items⟩ (.fromBytes bytes cap receivedOn)) := by
  have hmake := trades_onMemory (f := fun m => Frame.ofBytes m bytes cap receivedOn) n
    (Frame.trades_ofBytes (k := k) n.memory bytes cap receivedOn) rfl plugs_eq_zero
  exact kept_give _ (hmake.cast rfl (estate_option Item.estate_frame _))

/-- So it is with a packet of several frames. -/
theorem kept_make (specs : List FrameSpec) : Kept k ⟨n, items⟩ (stepPacket ⟨n, items⟩ (.make specs)) := by
  have hmake := trades_onMemory (f := fun m => Chain.make m specs) n
    (Chain.trades_make (k := k) n.memory specs) rfl plugs_eq_zero
  exact kept_give _ (hmake.cast rfl (estate_option Item.estate_chain _))

/-- A copy has headers and references of its own, and the packet stays. -/
theorem kept_copy (place : Nat) : Kept k ⟨n, items⟩ (stepPacket ⟨n, items⟩ (.copy place)) := by
  unfold stepPacket
  dsimp only
  split
  · rename_i c hitem
    have hcopy := (trades_lend (Frame.trades_copy (k := k) n.memory c.head) (plugs_eq_zero _)).frame
      (estate c.frames.tail)
    refine kept_look _ hitem (hcopy.cast (estate_head_tail c) ?_)
    rw [estate_option (f := .chain ∘ .last) Item.estate_frame]
    show estate c + _ = _
    rw [estate_head_tail c]
    abel
  · exact kept_refl _

/-- Of a packet that is taken apart the first frame is left as segments, and the others go. -/
theorem kept_intoSegments (place : Nat) : Kept k ⟨n, items⟩ (stepPacket ⟨n, items⟩ (.intoSegments place)) := by
  unfold stepPacket
  dsimp only
  split
  · rename_i c hitem
    have hrest := (trades_setMemory (n.memory.trades_releaseFrames (k := k) c.frames.tail)
      (plugs_eq_zero _) rfl).frame (estate c.head)
    refine kept_take _ hitem (hrest.cast ((estate_head_tail c).trans (add_comm _ _)) ?_)
    rw [estate_map Item.estate_segment, zero_add]
    rfl
  · exact kept_refl _

/-- A packet goes with all its frames. -/
theorem kept_dropPacket (place : Nat) : Kept k ⟨n, items⟩ (stepPacket ⟨n, items⟩ (.drop place)) := by
  unfold stepPacket
  dsimp only
  split
  · rename_i c hitem
    exact kept_drop hitem (n.trades_releaseChain c)
  · exact kept_refl _

/-- A frame that becomes views gives its headers back, and the frames behind it go. -/
theorem kept_wrap (place : Nat) : Kept k ⟨n, items⟩ (stepPacket ⟨n, items⟩ (.wrap place)) := by
  unfold stepPacket
  dsimp only
  split
  · rename_i c hitem
    have hrest := (trades_setMemory (n.memory.trades_releaseFrames (k := k) c.frames.tail)
      (plugs_eq_zero _) rfl).frame (estate c.head)
    have hunwrap := trades_onMemory (f := fun m => c.head.unwrap m)
      (n.setMemory (n.memory.releaseFrames c.frames.tail)) (Frame.trades_unwrap (k := k) _ c.head)
      (plugs_eq_zero _) plugs_eq_zero
    refine kept_take _ hitem (((hrest.cast ((estate_head_tail c).trans (add_comm _ _))
      (zero_add _).symm).trans hunwrap).cast rfl ?_)
    exact estate_map Item.estate_view _
  · exact kept_refl _

/-- A frame in one piece is a new block, and the packet stays. -/
theorem kept_flatten (place budget : Nat) : Kept k ⟨n, items⟩ (stepPacket ⟨n, items⟩ (.flatten place budget)) := by
  unfold stepPacket
  dsimp only
  split
  · rename_i c hitem
    have hcompact := trades_onMemory (f := fun m => c.head.compact m budget) n
      (Frame.trades_compact (k := k) n.memory budget c.head) rfl plugs_eq_zero
    exact kept_give _ (hcompact.cast rfl (estate_answer Item.estate_view _))
  · exact kept_refl _

/-- A packet over buffers refers to their storage, and they stay. -/
theorem kept_build (places : List Nat) (receivedOn : Option Nat) :
    Kept k ⟨n, items⟩ (stepPacket ⟨n, items⟩ (.build places receivedOn)) := by
  have hmake := trades_lend (a := estate items) (Frame.trades_ofBuffers (k := k) n.memory
    (viewsAt places items) receivedOn fun v hv => viewsAt_references hv) (plugs_eq_zero _)
  refine hmake.cast rfl ?_
  show estate (_ ++ items) = _
  rw [estate_append, estate_answer (f := .chain ∘ .last) Item.estate_frame, add_comm]
  rfl

/-- Nor does one on headers, segments and packets. -/
theorem kept_packet (s : Scene) (act : PacketAct) : Kept k s (s.stepPacket act) := by
  obtain ⟨n, items⟩ := s
  cases act with
  | ticket => exact kept_ticket
  | dropTicket place => exact kept_dropTicket place
  | segment ticket view offset length => exact kept_segment ticket view offset length
  | unwrapSegment place => exact kept_unwrapSegment place
  | dropSegment place => exact kept_dropSegment place
  | assemble places receivedOn => exact kept_assemble places receivedOn
  | fromBytes bytes cap receivedOn => exact kept_fromBytes bytes cap receivedOn
  | make specs => exact kept_make specs
  | copy place => exact kept_copy place
  | append place other => exact kept_append place other
  | takeNext place => exact kept_takeNext place
  | intoSegments place => exact kept_intoSegments place
  | setReceivedOn place receivedOn => exact kept_setReceivedOn place receivedOn
  | drop place => exact kept_dropPacket place
  | wrap place => exact kept_wrap place
  | flatten place budget => exact kept_flatten place budget
  | build places receivedOn => exact kept_build places receivedOn

/-! ## Queues -/

/-- A packet that is pushed is paid for and waits, or it is gone. -/
theorem kept_push (place chain budget : Nat) :
    Kept k ⟨n, items⟩ (stepQueue ⟨n, items⟩ (.push place chain budget)) := by
  unfold stepQueue
  dsimp only
  split
  · rename_i item c hitem hchain
    split
    · rename_i pushed item' n' hpush
      -- the chain is gone from the items whether or not the queue let it in
      have h := (trades_onQueueItem (Queue.operates_push (k := k) budget c) (plugs_eq_zero c) (fun _ => rfl)
        hpush).frame (estate ((items.eraseIdx place).eraseIdx chain))
      refine h.cast ?_ ?_
      · rw [estate_eq_add_eraseIdx hitem, estate_eq_add_eraseIdx hchain, add_assoc]
        rfl
      · rw [estate_cons, add_zero]
    · exact kept_refl _
  · exact kept_refl _

/-- A frame that is taken belongs to the taker. -/
theorem kept_takeFrame (place : Nat) : Kept k ⟨n, items⟩ (stepQueue ⟨n, items⟩ (.take place)) := by
  unfold stepQueue
  dsimp only
  split
  · rename_i frame? item' n' hwork
    exact kept_work (frame?.toList.map (.chain ∘ .last)) Queue.operates_take? plugs_eq_zero hwork
      (estate_option (f := .chain ∘ .last) Item.estate_frame frame?)
  · exact kept_refl _

/-- So do all frames of a queue. -/
theorem kept_drain (place : Nat) : Kept k ⟨n, items⟩ (stepQueue ⟨n, items⟩ (.drain place)) := by
  unfold stepQueue
  dsimp only
  split
  · rename_i frames item' n' hwork
    exact kept_work (frames.map (.chain ∘ .last)) Queue.operates_drain plugs_eq_zero hwork
      (estate_map (f := Item.chain ∘ Chain.last) Item.estate_frame frames)
  · exact kept_refl _

/-- What is cleared goes back unread. -/
theorem kept_clear (place : Nat) : Kept k ⟨n, items⟩ (stepQueue ⟨n, items⟩ (.clear place)) := by
  unfold stepQueue
  dsimp only
  split
  · rename_i count item' n' hwork
    exact kept_work [] Queue.operates_clear (fun _ => rfl) hwork rfl
  · exact kept_refl _

/-- With a queue of its own all that waits on it goes. -/
theorem kept_dropQueue (place : Nat) : Kept k ⟨n, items⟩ (stepQueue ⟨n, items⟩ (.drop place)) := by
  unfold stepQueue
  dsimp only
  split
  · rename_i q hitem
    have h := trades_setMemory (Queue.operates_clear (k := k) q n.memory)
      ((congrArg Estate.plugs (add_zero _)).trans (plugs_eq_zero q))
      ((congrArg Estate.plugs (add_zero _)).trans (plugs_eq_zero _))
    exact kept_drop hitem (h.cast (add_zero _).symm rfl)
  · exact kept_refl _

/-- With one holder less, a plug may go. -/
theorem kept_dropPlug (place : Nat) : Kept k ⟨n, items⟩ (stepQueue ⟨n, items⟩ (.dropPlug place)) := by
  unfold stepQueue
  dsimp only
  split
  · rename_i p hitem
    exact kept_drop hitem (Network.trades_plane (n.plane.trades_dropPlug p))
  · exact kept_refl _

/-- Nor does one on a queue, be it that of a plug. -/
theorem kept_queue (s : Scene) (act : QueueAct) : Kept k s (s.stepQueue act) := by
  obtain ⟨n, items⟩ := s
  cases act with
  | new => exact kept_give [.queue {}] (.refl n 0)
  | push place chain budget => exact kept_push place chain budget
  | take place => exact kept_takeFrame place
  | drain place => exact kept_drain place
  | clear place => exact kept_clear place
  | countDrop place => exact kept_countDrop place
  | drop place => exact kept_dropQueue place
  | hold splice id => exact kept_hold splice id
  | dropPlug place => exact kept_dropPlug place

/-! ## The host and its splices -/

/-- A packet that is received belongs to the host. -/
theorem kept_input (index place : Nat) : Kept k ⟨n, items⟩ (stepHost ⟨n, items⟩ (.input index place)) := by
  unfold stepHost
  dsimp only
  split
  · rename_i c hitem
    exact kept_drop hitem (n.trades_receive index c)
  · exact kept_refl _

/-- So does one that is sent. -/
theorem kept_transmit (index place : Nat) : Kept k ⟨n, items⟩ (stepHost ⟨n, items⟩ (.transmit index place)) := by
  unfold stepHost
  dsimp only
  split
  · rename_i c hitem
    exact kept_drop hitem (n.trades_transmit index c)
  · exact kept_refl _

/-- What hooks let on of a packet comes back. -/
theorem kept_offerInput (index place : Nat) (hook : Option Hook) :
    Kept k ⟨n, items⟩ (stepHost ⟨n, items⟩ (.offerInput index place hook)) := by
  unfold stepHost
  dsimp only
  split
  · rename_i c hitem
    refine kept_take _ hitem ((n.trades_offerInput index c _).cast rfl ?_)
    exact estate_option Item.estate_chain _
  · exact kept_refl _

/-- So it does on the way out. -/
theorem kept_offerOutput (index place : Nat) (hook : Option Hook) :
    Kept k ⟨n, items⟩ (stepHost ⟨n, items⟩ (.offerOutput index place hook)) := by
  unfold stepHost
  dsimp only
  split
  · rename_i c hitem
    refine kept_take _ hitem ((n.trades_offerOutput index c _).cast rfl ?_)
    rw [estate_option Item.estate_chain, estate_join, estate_toOption]
  · exact kept_refl _

/-- Nothing comes back of a packet that belongs to nobody. -/
theorem kept_offerOrphan (index place : Nat) (hook : Option Hook) :
    Kept k ⟨n, items⟩ (stepHost ⟨n, items⟩ (.offerOrphan index place hook)) := by
  unfold stepHost
  dsimp only
  split
  · rename_i c hitem
    exact kept_drop hitem (n.trades_offerOrphan index c _)
  · exact kept_refl _

/-- Nor does one on the host: what hooks and stack keep is theirs. -/
theorem kept_host (s : Scene) (act : HostAct) : Kept k s (s.stepHost act) := by
  obtain ⟨n, items⟩ := s
  cases act with
  | addInterface name mac mtu flags =>
    refine kept_quiet (.trans ?_ (Network.trades_plane (n := { n with nextIndex := _ })
      (n.plane.trades_table _)))
    exact Network.trades_same rfl rfl
  | changeTable f => exact kept_quiet (Network.trades_plane (n.plane.trades_table _))
  | inject index bytes cap => exact kept_quiet (n.trades_inject index bytes cap)
  | send index bytes => exact kept_quiet (n.trades_send index bytes)
  | input index place => exact kept_input index place
  | transmit index place => exact kept_transmit index place
  | offerInput index place hook => exact kept_offerInput index place hook
  | offerOutput index place hook => exact kept_offerOutput index place hook
  | offerOrphan index place hook => exact kept_offerOrphan index place hook
  | announce call => exact kept_quiet (n.trades_announce call _)
  | exchangeHook hook => exact kept_quiet (n.trades_exchangeHook hook)
  | putHook hook => exact kept_quiet ((n.trades_link hook).trans (Network.trades_putHook _ hook))
  | unlink hook => exact kept_quiet (n.trades_unlink hook)

/-- Nor does one on splices: what a consumer gets, it holds. -/
theorem kept_splice (s : Scene) (act : SpliceAct) : Kept k s (s.stepSplice act) := by
  obtain ⟨n, items⟩ := s
  cases act with
  | start budget => exact kept_quiet (n.trades_startSplice budget)
  | add budget => exact kept_quiet (n.trades_addSplice budget)
  | tellPrevious key hook => exact kept_quiet (n.trades_tellPrevious key hook)
  | hold key => exact kept_quiet (n.trades_holdSplice key)
  | drop key => exact kept_quiet (n.trades_dropSplice key)
  | tearDown key => exact kept_quiet (n.trades_tearDown key)
  | plug key name id mac =>
    unfold stepSplice
    dsimp only
    split
    · rename_i hkey
      exact kept_quiet (n.trades_plug hkey name id mac)
    · exact kept_refl _
  | unplug key id => exact kept_quiet (n.trades_unplug key id)
  | unplugEverything key => exact kept_quiet (n.trades_unplugEverything key)
  | takeAll key id =>
    exact kept_give _ ((n.trades_takeAll key id).cast rfl (estate_map Item.estate_view _))
  | takeNext key id =>
    refine kept_give _ ((n.trades_takeNext key id).cast rfl ?_)
    exact ((estate_option Item.estate_view _).trans (estate_join _)).trans (estate_toOption _)
  | submit key id places =>
    exact n.trades_submit key id fun v hv => viewsAt_references hv
  | pages key count =>
    exact kept_give _ ((n.trades_pages key count).cast rfl (estate_answer Item.estate_block _))
  | buffer key size =>
    exact kept_give _ ((n.trades_memoryFor key .plain size).cast rfl
      (estate_answer Item.estate_block _))
  | bufferOf key bytes =>
    exact kept_give _ ((n.trades_bufferOf key bytes).cast rfl (estate_answer Item.estate_view _))

/-! ## Every act -/

/-- Nor does any act. -/
theorem kept_perform (s : Scene) (act : Act)
    (hcheck : ∀ key, act = .block (.collectLeaks key) → Memory.Overlooks k key) :
    Kept k s (s.perform act) := by
  cases act with
  | block act => exact s.kept_block act fun key h => hcheck key (congrArg Act.block h)
  | packet act => exact s.kept_packet act
  | queue act => exact s.kept_queue act
  | host act => exact s.kept_host act
  | splice act => exact s.kept_splice act

/-- A bookkeeping is kept by every act but a check for leaks that it does not overlook. -/
theorem kept_step (s : Scene) (t : Turn)
    (hcheck : ∀ key, t.act = .block (.collectLeaks key) → Memory.Overlooks k key) :
    Kept k s (s.step t) :=
  (kept_quiet (trades_setMemory (s.network.memory.trades_turn t.heap t.lane) rfl rfl)).trans
    (kept_perform _ t.act hcheck)

end Scene

end Patchbay
