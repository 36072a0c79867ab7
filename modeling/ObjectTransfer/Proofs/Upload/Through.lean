import ObjectTransfer.Proofs.Upload.Send
/-!
Uploads whose worlds are seen through a map. A job at another connection, with another buffer and another
reporter, goes the way of the first one, as long as its requests are answered in the same way: it gives the
same, and its worlds are those of the first one seen through the map.
-/
namespace ObjectTransfer
variable {σ τ : Type}

@[simps]
def World.through (peer : σ → τ) (reports : Array Progress.Report → Array Progress.Report)
    (w : World σ) : World τ := ⟨peer w.peer, w.files, reports w.reports, w.pauses, w.metrics⟩

namespace Upload

@[simps]
def State.through (peer : σ → τ) (reports : Array Progress.Report → Array Progress.Report)
    (s : State σ) : State τ := ⟨s.session, s.world.through peer reports⟩

namespace Job

@[simps]
def via (u : Job σ) (c : Connection τ) (buffer : Nat) (progress : Option Progress.Reporter) : Job τ :=
  ⟨c, u.tracker, u.stalePolicy, buffer, u.key, u.source, u.headers, progress, u.total, u.md5⟩

/-- That job waits and asks in the same way, and its data is answered in the same way and finds the same
changes of the source. -/
structure Alike (u : Job σ) (c : Connection τ) (buffer : Nat) (progress : Option Progress.Reporter)
    (peer : σ → τ) (reports : Array Progress.Report → Array Progress.Report) : Prop where
  wait : ∀ w, c.wait (w.through peer reports) = (u.connection.wait w).through peer reports
  exchange : ∀ request w, c.exchange request (w.through peer reports) =
    ((u.connection.exchange request w).1, (u.connection.exchange request w).2.through peer reports)
  send : ∀ uri offset reader w, offset ≤ u.total → u.source.readerAt w.files offset = .ok reader →
    ∀ answer body v, u.connection.send (dataRequest uri offset u.total)
        (.ofRange offset (u.total - offset) u.buffer
          (u.progress.map fun p => p.tracker u.total u.buffer)) reader w = (answer, body, v) →
      ∃ body', c.send (dataRequest uri offset u.total)
          (.ofRange offset (u.total - offset) buffer
            (progress.map fun p => p.tracker u.total buffer)) reader (w.through peer reports) =
            (answer, body', v.through peer reports) ∧
        body'.changed = body.changed ∧ (body.changed = true → body'.given = body.given)

section
variable {u : Job σ} {c : Connection τ} {buffer : Nat} {progress : Option Progress.Reporter}
  {peer : σ → τ} {reports : Array Progress.Report → Array Progress.Report}

theorem query_through (h : u.Alike c buffer progress peer reports) (uri : SessionUri) (w : World σ) :
    (u.via c buffer progress).query uri (w.through peer reports) =
      ((u.query uri w).1, (u.query uri w).2.through peer reports) := by
  simp only [query, via_connection, via_total, h.exchange]
  rcases u.connection.exchange (queryRequest uri u.total) w with ⟨answer, v⟩
  cases answer <;> rfl

theorem start_through (h : u.Alike c buffer progress peer reports) (s : State σ) :
    (u.via c buffer progress).start (s.through peer reports) =
      ((u.start s).1, (u.start s).2.through peer reports) := by
  simp only [start, via_key, via_headers]
  cases startRequest u.key u.headers with
  | error e => rfl
  | ok request =>
    simp only [via_connection, State.confirm, State.through_world, h.exchange]
    rcases u.connection.exchange request s.world with ⟨answer, v⟩
    cases answer with
    | error e => rfl
    | ok response =>
      dsimp only
      cases startedSession response with
      | error e => rfl
      | ok uri =>
        dsimp only
        simp only [via_tracker, World.through_files]
        cases u.tracker with
        | none => rfl
        | some t =>
          dsimp only
          cases t.save uri.text v.files <;> rfl

theorem resumeOrStart_through (h : u.Alike c buffer progress peer reports) (s : State σ) :
    (u.via c buffer progress).resumeOrStart (s.through peer reports) =
      ((u.resumeOrStart s).1, (u.resumeOrStart s).2.through peer reports) := by
  simp only [resumeOrStart, State.through_session, State.through_world, via_stalePolicy, via_total]
  cases s.session.uri with
  | none =>
    simp only [start_through h]
    rcases u.start s with ⟨r, v⟩
    cases r <;> rfl
  | some uri =>
    simp only [query_through h]
    rcases u.query uri s.world with ⟨answer, w⟩
    have hs : (u.via c buffer progress).start ⟨s.session, w.through peer reports⟩ =
        ((u.start ⟨s.session, w⟩).1, (u.start ⟨s.session, w⟩).2.through peer reports) :=
      start_through h ⟨s.session, w⟩
    cases answer with
    | error e =>
      by_cases disposition : e.disposition = some .startOver
      · simp only [disposition, if_true, hs]
        rcases u.start ⟨s.session, w⟩ with ⟨r, v⟩
        cases r <;> rfl
      · simp only [disposition, if_false]
        rfl
    | ok state =>
      cases state with
      | complete eTag => cases eTag <;> rfl
      | incomplete confirmed => rfl
      | rejected status =>
        simp only [hs]
        split
        · rfl
        · rcases u.start ⟨s.session, w⟩ with ⟨r, v⟩
          cases r <;> rfl

theorem afterFailure_through (h : u.Alike c buffer progress peer reports) (uri : SessionUri) (e : Error)
    (s : State σ) : (u.via c buffer progress).afterFailure uri e (s.through peer reports) =
      ((u.afterFailure uri e s).1, (u.afterFailure uri e s).2.through peer reports) := by
  simp only [afterFailure, State.through_world, query_through h]
  rcases u.query uri s.world with ⟨answer, w⟩
  cases answer with
  | error e => rfl
  | ok state => cases state <;> rfl

theorem sendRest_through (h : u.Alike c buffer progress peer reports) (uri : SessionUri)
    (s : State σ) : (u.via c buffer progress).sendRest uri (s.through peer reports) =
      ((u.sendRest uri s).1, (u.sendRest uri s).2.through peer reports) := by
  simp only [sendRest, via_connection, via_source, via_total, via_progress, via_buffer,
    State.through_session, State.through_world, h.wait, World.through_files]
  generalize u.connection.wait s.world = w
  cases opened : u.source.readerAt w.files (min s.session.confirmed u.total) with
  | error e => rfl
  | ok reader =>
    dsimp only
    rcases sent : u.connection.send _ _ reader w with ⟨answer, body, v⟩
    obtain ⟨body', sent', changed', given⟩ :=
      h.send uri _ reader w (Nat.min_le_right _ _) opened answer body v sent
    rw [sent']
    dsimp only
    rw [changed']
    by_cases changed : body.changed = true
    · rw [if_pos changed, if_pos changed, given changed]
      rfl
    · rw [if_neg changed, if_neg changed]
      cases answer.bind storedTag with
      | ok eTag => rfl
      | error e =>
        have ha := afterFailure_through h uri e ⟨s.session, v⟩
        exact congrArg (fun r => (Except.error r.1, r.2)) ha

theorem verify_through (h : u.Alike c buffer progress peer reports) (eTag : String) (s : State σ) :
    (u.via c buffer progress).verify eTag (s.through peer reports) =
      ((u.verify eTag s).1, (u.verify eTag s).2.through peer reports) := by
  simp only [verify, via_md5, via_key, via_connection, State.through_world, h.exchange]
  split
  · rfl
  · cases deleteRequest u.key <;> rfl

variable (peer reports) in
theorem removeTracker_through (s : State σ) (tracker : Option TrackerFile) :
    (s.through peer reports).removeTracker tracker =
      (s.removeTracker tracker).through peer reports := by
  cases tracker <;> rfl

theorem finish_through (h : u.Alike c buffer progress peer reports) (eTag : String) (s : State σ) :
    (u.via c buffer progress).finish eTag (s.through peer reports) =
      ((u.finish eTag s).1, (u.finish eTag s).2.through peer reports) := by
  have removed := removeTracker_through peer reports (s.confirm u.total) u.tracker
  exact (congrArg ((u.via c buffer progress).verify eTag) removed).trans (verify_through h eTag _)

theorem attempt_through (h : u.Alike c buffer progress peer reports) (s : State σ) :
    (u.via c buffer progress).attempt (s.through peer reports) =
      ((u.attempt s).1, (u.attempt s).2.through peer reports) := by
  simp only [attempt, via_connection, via_source, via_total, State.through_session,
    State.through_world, h.wait, World.through_files]
  generalize u.connection.wait s.world = w
  cases u.source.size w.files with
  | error e => rfl
  | ok size =>
    by_cases same : size = u.total
    · have hr : (u.via c buffer progress).resumeOrStart ⟨s.session, w.through peer reports⟩ =
          ((u.resumeOrStart ⟨s.session, w⟩).1,
            (u.resumeOrStart ⟨s.session, w⟩).2.through peer reports) :=
        resumeOrStart_through h ⟨s.session, w⟩
      simp only [same, ne_eq, not_true_eq_false, if_false, hr]
      rcases u.resumeOrStart ⟨s.session, w⟩ with ⟨answer, v⟩
      cases answer with
      | error e => rfl
      | ok eTag =>
        cases eTag with
        | some eTag => exact finish_through h eTag (v.startAt u.total)
        | none =>
          have hv : (v.through peer reports).startAt (v.through peer reports).session.confirmed =
              (v.startAt v.session.confirmed).through peer reports := rfl
          simp only [hv]
          simp only [State.through_session]
          cases (v.startAt v.session.confirmed).session.uri with
          | none => rfl
          | some uri =>
            simp only [sendRest_through h]
            rcases u.sendRest uri (v.startAt v.session.confirmed) with ⟨answer, v'⟩
            cases answer with
            | error e => rfl
            | ok eTag => exact finish_through h eTag v'
    · simp only [same, ne_eq, not_false_eq_true, if_true]
      rfl

theorem discard_through (s : State σ) :
    (u.via c buffer progress).discard (s.through peer reports) =
      (u.discard s).through peer reports :=
  removeTracker_through peer reports ⟨{ s.session with uri := none, confirmed := 0 }, s.world⟩
    u.tracker

theorem resumable_through (h : u.Alike c buffer progress peer reports) :
    u.resumable.Through (u.via c buffer progress).resumable (State.through peer reports) where
  confirmed _ := rfl
  attempt := attempt_through h
  discard := discard_through

end

end Job

namespace Handler
variable {c : Connection σ} {c' : Connection τ} {peer : σ → τ}
  {reports : Array Progress.Report → Array Progress.Report}

theorem inspect_through
    (wait : ∀ w, c'.wait (w.through peer reports) = (c.wait w).through peer reports)
    (source : InputSource) (w : World σ) : inspect c' source (w.through peer reports) =
      ((inspect c source w).1, (inspect c source w).2.through peer reports) := by
  simp only [inspect, wait, World.through_files]
  cases source.size (c.wait w).files <;> rfl

/-- A call to the other connection, with the other buffer and the other reporter, goes the same way. -/
theorem send_through (h : Handler) {buffer buffer' : Nat} {task : Task}
    {progress : Option Progress.Reporter} {w : World σ}
    (wait : ∀ w, c'.wait (w.through peer reports) = (c.wait w).through peer reports)
    (alike : ∀ total md5 v, Inspects c task w (.ok (total, md5)) v →
      (h.job c buffer task total md5).Alike c' buffer' progress peer reports) (limit : Nat) :
    h.send c' buffer' limit { task with progress } (w.through peer reports) =
      (h.send c buffer limit task w).map fun x => (x.1, x.2.1, x.2.2.through peer reports) := by
  have hi : inspect c' task.source { w.through peer reports with
      metrics := (w.through peer reports).metrics.initiate } = _ :=
    inspect_through wait task.source { w with metrics := w.metrics.initiate }
  simp only [send, transfer, hi]
  rcases inspected : inspect c task.source { w with metrics := w.metrics.initiate } with ⟨answer, v⟩
  cases answer with
  | error e => rfl
  | ok found =>
    have through := Job.resumable_through (alike found.1 found.2 v inspected)
    have hr : ((h.job c buffer task found.1 found.2).via c' buffer' progress).resumable.run h.retries
        limit ⟨h.loadTracker w.files, v.through peer reports⟩ = _ :=
      through.run h.retries limit ⟨h.loadTracker w.files, v⟩
    rw [Job.via, job] at hr
    simp only [World.through_files, hr, Option.map_map]
    rfl

end Handler

end Upload

end ObjectTransfer
