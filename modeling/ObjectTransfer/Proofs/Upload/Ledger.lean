import ObjectTransfer.Proofs.Upload.Send
/-!
What a call adds to the pauses and the counters. No request pauses or counts anything, whatever is read
or sent with it. The pauses of a call are those between its attempts, and a call is counted when it
begins and once more when it ends.
-/
namespace ObjectTransfer
variable {σ : Type}

def World.ledger (w : World σ) : Array Pause × Metrics := (w.pauses, w.metrics)

namespace Connection

theorem ledger_wait (c : Connection σ) (w : World σ) : (c.wait w).ledger = w.ledger := rfl

theorem ledger_exchange (c : Connection σ) (request : Http.Request) (w : World σ) :
    (c.exchange request w).2.ledger = w.ledger := rfl

theorem ledger_drain (c : Connection σ) (request : Http.Request) (fuel : Nat) (received : Received)
    (body : SourceBody) (s : Reader × World σ) :
    (c.drain request fuel received body s).2.2.2.ledger = s.2.ledger := by
  induction fuel generalizing received body s with
  | zero => rfl
  | succ fuel ih =>
    have next : (body.next c.readSource s).reader.2.ledger = s.2.ledger :=
      body.next_keeps (Q := fun t : Reader × World σ => t.2.ledger = s.2.ledger)
        (fun _ _ same => same) rfl
    unfold drain
    split
    · dsimp only
      split
      · exact next
      · exact next
      · exact (ih _ _ _).trans next
    · rfl

theorem ledger_send (c : Connection σ) (request : Http.Request) (body : SourceBody)
    (reader : Reader) (w : World σ) : (c.send request body reader w).2.2.ledger = w.ledger :=
  c.ledger_drain request (body.remaining + 1) .nothing body (reader, { w with
    peer := (c.arrive request w.peer w.files).1
    files := (c.arrive request w.peer w.files).2 })

end Connection

namespace Upload

theorem State.ledger_removeTracker (s : State σ) (tracker : Option TrackerFile) :
    (s.removeTracker tracker).world.ledger = s.world.ledger := by
  cases tracker <;> rfl

namespace Job
variable {u : Job σ} {s t : State σ}

theorem ledger_exchanged {request : Http.Request} {answer : Except Error Http.Response}
    {w v : World σ} (asked : u.connection.exchange request w = (answer, v)) :
    v.ledger = w.ledger := by
  rw [← u.connection.ledger_exchange request w, asked]

theorem ledger_queried {uri : SessionUri} {answer : Except Error SessionState} {w v : World σ}
    (asked : u.query uri w = (answer, v)) : v.ledger = w.ledger := by
  rw [← u.connection.ledger_exchange (queryRequest uri u.total) w, ← query_world, asked]

theorem Starts.ledger {result : Except Error Unit} (h : u.Starts s result t) :
    t.world.ledger = s.world.ledger := by
  cases h with
  | unmade made => rfl
  | failed made asked => exact ledger_exchanged asked
  | refused made asked answered => exact ledger_exchanged asked
  | untracked made asked answered tracker => exact ledger_exchanged asked
  | @saved _ _ _ w _ files made asked answered tracker save =>
    exact (ledger_exchanged asked : w.ledger = s.world.ledger)
  | unsaved made asked answered tracker save => exact ledger_exchanged asked

theorem Resumes.ledger {result : Except Error (Option String)} (h : u.Resumes s result t) :
    t.world.ledger = s.world.ledger := by
  cases h with
  | began held started => exact started.ledger
  | restarted held asked stale started => exact started.ledger.trans (ledger_queried asked)
  | incomplete held asked => exact ledger_queried asked
  | complete held asked => exact ledger_queried asked
  | untagged held asked => exact ledger_queried asked
  | refused held asked auth => exact ledger_queried asked
  | failed held asked disposition => exact ledger_queried asked

theorem Sends.ledger {uri : SessionUri} {result : Except Error String} (h : u.Sends uri s result t) :
    t.world.ledger = s.world.ledger := by
  have sent {request : Http.Request} {reader : Reader} {answer : Except Error Http.Response}
      {body body' : SourceBody} {v : World σ}
      (put : u.connection.send request body reader (u.connection.wait s.world) =
        (answer, body', v)) : v.ledger = s.world.ledger := by
    rw [← u.connection.ledger_wait s.world,
      ← u.connection.ledger_send request body reader (u.connection.wait s.world), put]
  cases h with
  | unopened opened => rfl
  | changed opened put changed => exact sent put
  | stored opened put same answered => exact sent put
  | failed opened put same answered =>
    rw [afterFailure_world, Connection.ledger_exchange]
    exact sent put

theorem Finishes.ledger {eTag : String} {result : Except Error Output}
    (h : u.Finishes eTag s result t) : t.world.ledger = s.world.ledger := by
  have cleared : (u.cleared s).world.ledger = s.world.ledger :=
    State.ledger_removeTracker (s.confirm u.total) u.tracker
  cases h with
  | verified same => exact cleared
  | undeleted differs made => exact cleared
  | deleted differs made => exact cleared

theorem Goes.ledger {result : Except Error Output} (h : u.Goes s result t) :
    t.world.ledger = s.world.ledger := by
  cases h with
  | unreadable size => rfl
  | resized size differs => rfl
  | unresumed size resumed => exact resumed.ledger
  | complete size resumed finished => exact finished.ledger.trans resumed.ledger
  | unsent size resumed held sent => exact sent.ledger.trans resumed.ledger
  | sent size resumed held sent finished =>
    exact finished.ledger.trans (sent.ledger.trans resumed.ledger)

/-- However a run of attempts goes, the pauses and the counters are left as they were. -/
theorem ledger_run {retries limit : Nat} {outcome : Outcome (State σ) Output}
    (run : u.resumable.run retries limit s = some outcome) :
    outcome.state.world.ledger = s.world.ledger := by
  obtain ⟨made, idle, t, reached, -, ends⟩ := Resumable.run_eq_some run
  obtain ⟨result, last, attempts, pauses⟩ := outcome
  have before : t.world.ledger = s.world.ledger :=
    reached.invariant (I := fun t => t.world.ledger = s.world.ledger) rfl
      fun same attempted _ => (goes attempted).ledger.trans same
  cases ends with
  | finished attempt => exact (goes attempt).ledger.trans before
  | left attempt kept => exact (goes attempt).ledger.trans before
  | abandoned attempt abort =>
    exact (State.ledger_removeTracker _ _).trans ((goes attempt).ledger.trans before)
  | exhausted attempt retryable => exact (goes attempt).ledger.trans before

end Job

namespace Handler
variable {h h' : Handler} {c : Connection σ} {buffer : Nat} {task : Task} {w w' : World σ}
  {result : Except Error Output}

theorem Inspects.ledger {answer : Except Error (Nat × String)} {v : World σ}
    (inspected : Inspects c task w answer v) : v.ledger = (w.pauses, w.metrics.initiate) := by
  unfold Inspects inspect at inspected
  dsimp only at inspected
  split at inspected
  · cases inspected
    rfl
  · cases inspected
    rfl

theorem Returns.counted (returned : h.Returns c buffer task w result h' w') :
    w'.metrics = w.metrics.initiate.record result (moved result h'.session) := by
  obtain ⟨enough, sent⟩ := returned
  have sent := sent enough (Nat.le_refl _)
  rcases inspected : inspect c task.source { w with metrics := w.metrics.initiate } with ⟨answer, v⟩
  have kept : v.metrics = w.metrics.initiate := congrArg Prod.snd (Inspects.ledger inspected)
  cases answer with
  | error e =>
    simp only [send, transfer, inspected, Option.map_some, Option.some.injEq, Prod.mk.injEq] at sent
    obtain ⟨rfl, rfl, rfl⟩ := sent
    rw [← kept]
  | ok found =>
    obtain ⟨total, md5⟩ := found
    simp only [send, transfer, inspected] at sent
    rw [Option.map_map, Option.map_eq_some_iff] at sent
    obtain ⟨outcome, run, out⟩ := sent
    simp only [Function.comp_apply, Prod.mk.injEq] at out
    obtain ⟨rfl, rfl, rfl⟩ := out
    have same : outcome.state.world.metrics = v.metrics := congrArg Prod.snd (Job.ledger_run run)
    rw [← kept, ← same]
    rfl

theorem Opens.pauses {u : Job σ} {s : State σ} (opens : h.Opens c buffer task w u s) {limit : Nat}
    {o : Outcome (State σ) Output} (run : u.resumable.run h.retries limit s = some o) :
    ∃ w', h.Returns c buffer task w o.result { h with session := o.state.session } w' ∧
      w'.pauses = w.pauses ++ (o.pauses.map Pause.backoff).toArray := by
  have kept := congrArg Prod.fst (Job.ledger_run run)
  cases opens with
  | @intro total md5 v inspected =>
    have before := congrArg Prod.fst (Inspects.ledger inspected)
    unfold Inspects at inspected
    unfold job at run
    obtain ⟨w', sent, pauses⟩ : ∃ w', h.send c buffer limit task w =
        some (o.result, { h with session := o.state.session }, w') ∧
        w'.pauses = o.state.world.pauses ++ (o.pauses.map Pause.backoff).toArray := by
      simp only [send, transfer, inspected, run, Option.map_some]
      exact ⟨_, rfl, rfl⟩
    exact ⟨w', returns_of_send sent, pauses.trans (congrArg (· ++ _) (kept.trans before))⟩

end Handler

end Upload

end ObjectTransfer
