import Patchbay.Network.Consumer
import Patchbay.Network.Lifetime

/-!
# `Patchbay.Echo` — a consumer that answers

The echo consumer sends every buffer that it receives back to where it came from: the destination of the
answer is the source of the buffer, its source is the consumer's own address, and the rest stays. A buffer
without room for both addresses counts as answered and is not sent.

## Contents
* `Echo` — the consumer; `Echo.answer` — the bytes of an answer;
* `Echo.reply`, `Echo.replyEach` — one buffer and a batch of them;
* `Echo.iterate` — one iteration: everything that waits is answered.
-/

namespace Patchbay

/-- A consumer that answers on a splice. -/
structure Echo where
  splice : Nat
  /-- The address that it listens on. -/
  mac : Mac
  /-- It is complete when it has answered as many buffers. -/
  target : Nat
  answered : Nat := 0

namespace Echo

/-- The id under which it plugs its interface. -/
def plugId : Nat := 0

/-- The bytes of both addresses at the front of a frame. -/
def addressBytes : Nat := 12

/-- The bytes of the answer to a buffer. -/
def answer (own : Mac) (bytes : List UInt8) : List UInt8 :=
  (bytes.drop 6).take 6 ++ own.octets ++ bytes.drop addressBytes

/-- Answers a buffer; the buffer stays with the caller. -/
def reply (e : Echo) (n : Network) (v : View) : Except NetFailure Unit × Network :=
  if v.bytes.length < addressBytes then (.ok (), n)
  else
    match n.bufferOf e.splice (answer e.mac v.bytes) with
    | (.error cause, n) => (.error cause, n)
    | (.ok out, n) =>
      let (outcome, n) := n.submit e.splice plugId [out]
      (outcome, n.setMemory (n.memory.release out.storage))

/-- Answers buffers in turn; one that cannot be answered does not count. -/
def replyEach (e : Echo) (n : Network) : List View → Echo × Network
  | [] => (e, n)
  | v :: rest =>
    match e.reply n v with
    | (.error _, n) => replyEach e n rest
    | (.ok (), n) => replyEach { e with answered := e.answered + 1 } n rest

/-- Answers everything that waits. Says whether the consumer is complete, which is looked at only when
something waited. -/
def iterate (e : Echo) (n : Network) : Bool × Echo × Network :=
  let (views, n) := n.takeAll e.splice plugId
  if views.isEmpty then (false, e, n)
  else
    let (e, n) := e.replyEach n views
    (e.target ≤ e.answered, e, n.setMemory (n.memory.releaseViews views))

theorem length_answer (own : Mac) {bytes : List UInt8} (h : addressBytes ≤ bytes.length) :
    (answer own bytes).length = bytes.length := by
  simp only [addressBytes] at h
  simp [answer, own.length_octets, addressBytes]
  omega

end Echo

end Patchbay
