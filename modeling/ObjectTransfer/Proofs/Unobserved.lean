import ObjectTransfer.Proofs.Observed
/-!
The observer does not interfere. A connection that is observed does to the peer, the files and the
reports what it does when nobody looks, and gives the same answers.
-/
namespace ObjectTransfer

theorem SourceBody.next_through {τ υ : Type} {read : Nat → τ → Except Files.Fault ByteArray × τ}
    {read' : Nat → υ → Except Files.Fault ByteArray × υ} {f : τ → υ}
    (h : ∀ n s, read' n (f s) = ((read n s).1, f (read n s).2)) (b : SourceBody) (s : τ) :
    b.next read' (f s) =
      ⟨(b.next read s).item, (b.next read s).body, f (b.next read s).reader,
        (b.next read s).reports⟩ := by
  unfold next
  cases ended : b.ended with
  | true => simp only [if_true]
  | false =>
    simp only [Bool.false_eq_true, if_false]
    rcases b.start with ⟨b, started⟩
    by_cases h0 : b.remaining = 0
    · simp only [h0, if_true]
    · simp only [h0, if_false, h]
      rcases read b.want s with ⟨result, s⟩
      cases result with
      | error fault => rfl
      | ok data =>
        by_cases empty : data.size = 0
        · simp only [empty, if_true]
        · by_cases short : data.size < b.remaining
          · simp only [empty, short, if_true, if_false]
          · simp only [empty, short, if_false, h]
            rcases read 1 s with ⟨more, s⟩
            cases more with
            | error fault => rfl
            | ok extra =>
              by_cases last : extra.size = 0
              · simp only [last, if_true]
              · simp only [last, if_false]

variable {σ : Type}

@[simps files]
def World.bare (w : World (Observed σ)) : World σ :=
  ⟨w.peer.peer, w.files, w.reports, w.pauses, w.metrics⟩

namespace Connection

theorem wait_bare (c : Connection σ) (w : World (Observed σ)) :
    c.wait w.bare = (c.observed.wait w).bare := rfl

theorem exchange_bare (c : Connection σ) (request : Http.Request) (w : World (Observed σ)) :
    c.exchange request w.bare =
      ((c.observed.exchange request w).1, (c.observed.exchange request w).2.bare) := rfl

theorem readSource_bare (c : Connection σ) (count : Nat) (s : Reader × World (Observed σ)) :
    c.readSource count (s.1, s.2.bare) =
      ((c.observed.readSource count s).1, (c.observed.readSource count s).2.1,
        (c.observed.readSource count s).2.2.bare) := rfl

theorem drain_bare (c : Connection σ) (request : Http.Request) (fuel : Nat) (received : Received)
    (body : SourceBody) (s : Reader × World (Observed σ)) :
    c.drain request fuel received body (s.1, s.2.bare) =
      ((c.observed.drain request fuel received body s).1,
        (c.observed.drain request fuel received body s).2.1,
        (c.observed.drain request fuel received body s).2.2.1,
        (c.observed.drain request fuel received body s).2.2.2.bare) := by
  induction fuel generalizing received body s with
  | zero => rfl
  | succ fuel ih =>
    have hn := @SourceBody.next_through _ _ c.observed.readSource c.readSource
      (fun s => (s.1, s.2.bare)) c.readSource_bare body s
    have hw : c.observed.wants request received s.2.peer =
        c.wants request received s.2.bare.peer := rfl
    rw [drain, drain, hn, hw]
    by_cases wanted : c.wants request received s.2.bare.peer
    · simp only [wanted, if_true]
      rcases body.next c.observed.readSource s with ⟨item, body, reader, reports⟩
      cases item with
      | none => rfl
      | some item =>
        cases item with
        | error cause => rfl
        | ok chunk => exact ih _ _ (reader.1, reader.2.report reports)
    · simp only [wanted]
      rfl

theorem send_bare (c : Connection σ) (request : Http.Request) (body : SourceBody) (reader : Reader)
    (w : World (Observed σ)) :
    c.send request body reader w.bare =
      ((c.observed.send request body reader w).1, (c.observed.send request body reader w).2.1,
        (c.observed.send request body reader w).2.2.bare) := by
  have hd := c.drain_bare request (body.remaining + 1) .nothing body
    (reader, ⟨(c.observed.arrive request w.peer w.files).1,
      (c.observed.arrive request w.peer w.files).2, w.reports, w.pauses, w.metrics⟩)
  let replied (r : Received × SourceBody × Reader × World σ) :=
    ((c.answer request r.1 r.2.2.2.peer r.2.2.2.files).1, r.2.1,
      { r.2.2.2 with
        peer := (c.answer request r.1 r.2.2.2.peer r.2.2.2.files).2.1
        files := (c.answer request r.1 r.2.2.2.peer r.2.2.2.files).2.2 })
  exact congrArg replied hd

end Connection

end ObjectTransfer
