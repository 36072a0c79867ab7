import Mathlib.Tactic.Common
import ObjectTransfer.Connection
/-!
Connections under observation. The observer notes every request with what came of its body, how it
was answered, and the peer and the files right after the answer; it changes nothing else.
-/
namespace ObjectTransfer

structure Exchanged (σ : Type) where
  request : Http.Request
  received : Received
  result : Except Error Http.Response
  /-- The peer after the answer. -/
  peer : σ
  /-- The files after the answer. -/
  files : Files.Store

/-- A peer, and all it has answered, oldest first. -/
structure Observed (σ : Type) where
  peer : σ
  seen : List (Exchanged σ)

namespace Connection
variable {σ : Type}

def noted (c : Connection σ) (request : Http.Request) (received : Received) (peer : σ)
    (files : Files.Store) : Exchanged σ :=
  let (result, peer, files) := c.answer request received peer files
  ⟨request, received, result, peer, files⟩

def observed (c : Connection σ) : Connection (Observed σ) where
  arrive request s files :=
    let (peer, files) := c.arrive request s.peer files
    ({ s with peer }, files)
  wants request received s := c.wants request received s.peer
  answer request received s files :=
    let x := c.noted request received s.peer files
    (x.result, ⟨x.peer, s.seen ++ [x]⟩, x.files)
  elapse s files :=
    let (peer, files) := c.elapse s.peer files
    ({ s with peer }, files)

theorem seen_exchange (c : Connection σ) (request : Http.Request) (w : World (Observed σ)) :
    ∃ x : Exchanged σ, x.request = request ∧ x.received = .nothing ∧
      x.result = (c.observed.exchange request w).1 ∧
      x.peer = (c.observed.exchange request w).2.peer.peer ∧
      x.files = (c.observed.exchange request w).2.files ∧
      (c.observed.exchange request w).2.peer.seen = w.peer.seen ++ [x] :=
  ⟨_, rfl, rfl, rfl, rfl, rfl, rfl⟩

theorem seen_wait (c : Connection σ) (w : World (Observed σ)) :
    (c.observed.wait w).peer.seen = w.peer.seen := rfl

end Connection

end ObjectTransfer
