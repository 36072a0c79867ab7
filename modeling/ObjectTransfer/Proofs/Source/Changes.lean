import ObjectTransfer.Proofs.Connection
import ObjectTransfer.Proofs.Source
/-!
Sources that are not what was declared of them. The end of a source that comes too early, and a byte
behind the declared ones, show in the reads that a body makes; whether the body noticed is stated here of
these reads alone, and it notices exactly then.
-/
namespace ObjectTransfer

namespace SourceBody
variable {τ : Type} {read : Nat → τ → Except Files.Fault ByteArray × τ} {b : SourceBody} {s : τ}

/-- Reading the next chunk of what is left finds the end of the source, or it finds all that is left and
then one more byte. -/
inductive Differs (read : Nat → τ → Except Files.Fault ByteArray × τ) (b : SourceBody) (s : τ) : Prop
  | early {data : ByteArray} {s' : τ} (left : b.remaining ≠ 0)
      (got : read b.want s = (.ok data, s')) (nothing : data.size = 0) : Differs read b s
  | late {data extra : ByteArray} {s' s'' : τ} (left : b.remaining ≠ 0)
      (got : read b.want s = (.ok data, s')) (whole : b.remaining ≤ data.size)
      (more : read 1 s' = (.ok extra, s'')) (something : extra.size ≠ 0) : Differs read b s

/-- What asking for a chunk can come to. -/
inductive Gives (read : Nat → τ → Except Files.Fault ByteArray × τ) (b : SourceBody) (s : τ) :
    Option (Except Cause ByteArray) → SourceBody → Prop
  | nothing {b' : SourceBody} (same : ¬ b.Differs read s) (noticed : b'.changed = false) :
      Gives read b s none b'
  | broken {cause : Cause} {b' : SourceBody} (same : ¬ b.Differs read s)
      (noticed : b'.changed = false) : Gives read b s (some (.error cause)) b'
  | differs {cause : Cause} {b' : SourceBody} (differs : b.Differs read s)
      (noticed : b'.changed = true) : Gives read b s (some (.error cause)) b'
  | chunk {data : ByteArray} {b' : SourceBody} (same : ¬ b.Differs read s)
      (shorter : b'.remaining < b.remaining) (goesOn : b'.ended = false)
      (noticed : b'.changed = false) : Gives read b s (some (.ok data)) b'

theorem not_differs {data : ByteArray} {s' : τ} (got : read b.want s = (.ok data, s'))
    (some : data.size ≠ 0)
    (last : b.remaining ≤ data.size → ∀ extra s'', read 1 s' = (.ok extra, s'') → extra.size = 0) :
    ¬ b.Differs read s := by
  rintro (⟨left, got', nothing⟩ | ⟨left, got', whole, more, something⟩)
  · cases got.symm.trans got'
    exact some nothing
  · cases got.symm.trans got'
    exact something (last whole _ _ more)

theorem gives (read : Nat → τ → Except Files.Fault ByteArray × τ) (s : τ)
    (unended : b.ended = false) (unchanged : b.changed = false) :
    b.Gives read s (b.next read s).item (b.next read s).body := by
  obtain ⟨-, sameRemaining, sameBuffer, sameEnded, sameChanged⟩ := b.start_same
  have sameWant : b.start.1.want = b.want := by rw [want, sameRemaining, sameBuffer, want]
  have advanced (n : Nat) (some : n ≠ 0) (left : b.remaining ≠ 0) :
      (b.start.1.advance n).1.remaining < b.remaining ∧
        (b.start.1.advance n).1.ended = false ∧ (b.start.1.advance n).1.changed = false := by
    obtain ⟨-, remaining, ended, changed⟩ := b.start.1.advance_same n
    rw [remaining, ended, changed, sameRemaining, sameEnded, sameChanged]
    exact ⟨by omega, unended, unchanged⟩
  unfold next
  rw [if_neg (by simp [unended])]
  dsimp only
  rw [sameRemaining, sameWant]
  by_cases left : b.remaining = 0
  · rw [if_pos left]
    refine .nothing ?_ rfl
    rintro (⟨left', got, nothing⟩ | ⟨left', got, whole, more, something⟩)
    · exact left' left
    · exact left' left
  · rw [if_neg left]
    rcases got : read b.want s with ⟨_ | data, s'⟩
    · refine .broken ?_ rfl
      rintro (⟨left', got', nothing⟩ | ⟨left', got', whole, more, something⟩)
      · cases got.symm.trans got'
      · cases got.symm.trans got'
    · dsimp only
      by_cases empty : data.size = 0
      · rw [if_pos empty]
        exact .differs (.early left got empty) rfl
      · rw [if_neg empty]
        obtain ⟨shorter, goesOn, noticed⟩ := advanced data.size empty left
        by_cases short : data.size < b.remaining
        · rw [if_pos short]
          exact .chunk (not_differs got empty fun whole => absurd short (Nat.not_lt.2 whole)) shorter
            goesOn noticed
        · rw [if_neg short]
          rcases more : read 1 s' with ⟨_ | extra, s''⟩
          · refine .broken (not_differs got empty ?_) rfl
            intro _ extra s'' more'
            cases more.symm.trans more'
          · dsimp only
            by_cases past : extra.size = 0
            · rw [if_pos past]
              refine .chunk (not_differs got empty ?_) shorter goesOn noticed
              intro _ extra' s''' more'
              cases more.symm.trans more'
              exact past
            · rw [if_neg past]
              exact .differs (.late left got (Nat.not_lt.1 short) more past) rfl

end SourceBody

namespace Connection
variable {σ : Type} {c : Connection σ} {request : Http.Request} {received : Received}
  {body : SourceBody} {s : Reader × World σ}

/-- While a body is polled, a read shows that its source is not what was declared. -/
inductive Finds (c : Connection σ) (request : Http.Request) :
    Received → SourceBody → Reader × World σ → Prop
  | now {received : Received} {body : SourceBody} {s : Reader × World σ}
      (wanted : c.wants request received s.2.peer = true) (differs : body.Differs c.readSource s) :
      Finds c request received body s
  | later {received : Received} {body : SourceBody} {s : Reader × World σ} {chunk : ByteArray}
      (wanted : c.wants request received s.2.peer = true)
      (given : (body.next c.readSource s).item = some (.ok chunk))
      (rest : Finds c request (received.push chunk) (body.next c.readSource s).body
        ((body.next c.readSource s).reader.1,
          (body.next c.readSource s).reader.2.report (body.next c.readSource s).reports)) :
      Finds c request received body s

theorem changed_drain_iff {fuel : Nat} (unended : body.ended = false)
    (unchanged : body.changed = false) (enough : body.remaining < fuel) :
    (c.drain request fuel received body s).2.1.changed = true ↔ c.Finds request received body s := by
  induction fuel generalizing received body s with
  | zero => omega
  | succ fuel ih =>
    unfold drain
    by_cases wanted : c.wants request received s.2.peer = true
    · rw [if_pos wanted]
      dsimp only
      have gives := SourceBody.gives c.readSource s unended unchanged
      -- only a chunk is followed by another poll
      have stops {item : Option (Except Cause ByteArray)}
          (given : (body.next c.readSource s).item = item) (last : ∀ chunk, item ≠ some (.ok chunk)) :
          c.Finds request received body s ↔ body.Differs c.readSource s := by
        constructor
        · rintro (⟨-, differs⟩ | ⟨-, given', -⟩)
          · exact differs
          · exact absurd (given.symm.trans given') (last _)
        · exact .now wanted
      cases given : (body.next c.readSource s).item with
      | none =>
        rw [given] at gives
        rw [stops given (fun _ h => by cases h)]
        cases gives with
        | nothing same noticed => simp only [noticed, Bool.false_eq_true, same]
      | some item =>
        rw [given] at gives
        cases item with
        | error cause =>
          rw [stops given (fun _ h => by cases h)]
          cases gives with
          | broken same noticed => simp only [noticed, Bool.false_eq_true, same]
          | differs differs noticed => simp only [noticed, differs]
        | ok chunk =>
          cases gives with
          | chunk same shorter goesOn noticed =>
            dsimp only
            rw [ih goesOn noticed (by omega)]
            constructor
            · exact .later wanted given
            · rintro (⟨-, differs⟩ | ⟨-, given', rest⟩)
              · exact absurd differs same
              · cases given.symm.trans given'
                exact rest
    · rw [if_neg wanted]
      dsimp only
      rw [unchanged]
      constructor
      · intro h
        cases h
      · rintro (⟨wanted', -⟩ | ⟨wanted', -, -⟩)
        · exact absurd wanted' wanted
        · exact absurd wanted' wanted

def arrived (c : Connection σ) (request : Http.Request) (w : World σ) : World σ :=
  { w with
    peer := (c.arrive request w.peer w.files).1
    files := (c.arrive request w.peer w.files).2 }

theorem changed_send_iff (c : Connection σ) (request : Http.Request) {body : SourceBody}
    (reader : Reader) (w : World σ) (unended : body.ended = false)
    (unchanged : body.changed = false) :
    (c.send request body reader w).2.1.changed = true ↔
      c.Finds request .nothing body (reader, c.arrived request w) :=
  changed_drain_iff unended unchanged (Nat.lt_succ_self _)

theorem Waits.drain {P : σ → Files.Store → Prop} (waits : c.Waits P) (request : Http.Request)
    (fuel : Nat) (received : Received) (body : SourceBody) {s : Reader × World σ}
    (h : P s.2.peer s.2.files) :
    P (c.drain request fuel received body s).2.2.2.peer
      (c.drain request fuel received body s).2.2.2.files := by
  induction fuel generalizing received body s with
  | zero => exact h
  | succ fuel ih =>
    have reads (n : Nat) (s : Reader × World σ) (h : P s.2.peer s.2.files) :
        P (c.readSource n s).2.2.peer (c.readSource n s).2.2.files := waits _ _ h
    have next := body.next_keeps (Q := fun s : Reader × World σ => P s.2.peer s.2.files) reads h
    unfold Connection.drain
    split
    · dsimp only
      split
      · exact next
      · exact next
      · exact ih _ _ next
    · exact h

theorem send_answer {P : σ → Files.Store → Prop} (waits : c.Waits P) (request : Http.Request)
    (body : SourceBody) (reader : Reader) (w : World σ)
    (arrives : P (c.arrive request w.peer w.files).1 (c.arrive request w.peer w.files).2) :
    ∃ received p f, P p f ∧ received.bytes.size ≤ body.remaining ∧
      (c.send request body reader w).1 = (c.answer request received p f).1 ∧
      (c.send request body reader w).2.2.peer = (c.answer request received p f).2.1 := by
  have polled := waits.drain request (body.remaining + 1) .nothing body
    (s := (reader, c.arrived request w)) arrives
  have few := c.size_drain request (body.remaining + 1) .nothing body (reader, c.arrived request w)
  have none : Received.nothing.bytes.size = 0 := rfl
  rw [none, Nat.zero_add] at few
  exact ⟨_, _, _, polled, few, rfl, rfl⟩

/-- One request with a body is noted once, after its body was polled: what holds when the request has
arrived, and goes on to hold while time passes, holds of the peer that answers it. -/
theorem noted_send {P : σ → Files.Store → Prop} (waits : c.Waits P) (request : Http.Request)
    (body : SourceBody) (reader : Reader) (w : World (Observed σ))
    (arrives : P (c.arrive request w.peer.peer w.files).1 (c.arrive request w.peer.peer w.files).2) :
    ∃ received p f, P p f ∧
      (c.observed.send request body reader w).1 = (c.noted request received p f).result ∧
      (c.observed.send request body reader w).2.2.files = (c.noted request received p f).files ∧
      (c.observed.send request body reader w).2.2.peer =
        ⟨(c.noted request received p f).peer, w.peer.seen ++ [c.noted request received p f]⟩ := by
  have waiting : c.observed.Waits fun o f => P o.peer f ∧ o.seen = w.peer.seen :=
    fun _ _ h => ⟨waits _ _ h.1, h.2⟩
  have polled := waiting.drain request (body.remaining + 1) .nothing body
    (s := (reader, c.observed.arrived request w)) ⟨arrives, rfl⟩
  let d := c.observed.drain request (body.remaining + 1) .nothing body
    (reader, c.observed.arrived request w)
  have answered : (c.observed.send request body reader w).2.2.peer =
      ⟨(c.noted request d.1 d.2.2.2.peer.peer d.2.2.2.files).peer,
        d.2.2.2.peer.seen ++ [c.noted request d.1 d.2.2.2.peer.peer d.2.2.2.files]⟩ := rfl
  rw [polled.2] at answered
  exact ⟨d.1, d.2.2.2.peer.peer, d.2.2.2.files, polled.1, rfl, rfl, answered⟩

/-- What one request with a body adds to what was seen. -/
theorem seen_send (c : Connection σ) (request : Http.Request) (body : SourceBody) (reader : Reader)
    (w : World (Observed σ)) :
    ∃ x : Exchanged σ, x.request = request ∧
      x.result = (c.observed.send request body reader w).1 ∧
      x.peer = (c.observed.send request body reader w).2.2.peer.peer ∧
      x.files = (c.observed.send request body reader w).2.2.files ∧
      (c.observed.send request body reader w).2.2.peer.seen = w.peer.seen ++ [x] := by
  obtain ⟨received, p, f, -, result, files, peer⟩ :=
    noted_send (c := c) (P := fun _ _ => True) (fun _ _ _ => trivial) request body reader w trivial
  exact ⟨c.noted request received p f, rfl, result.symm, by rw [peer], files.symm, by rw [peer]⟩

end Connection

end ObjectTransfer
