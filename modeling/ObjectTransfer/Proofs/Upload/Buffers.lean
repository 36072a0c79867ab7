import ObjectTransfer.Proofs.Rehearsal.Cutting
import ObjectTransfer.Proofs.Upload.Bounds
import ObjectTransfer.Proofs.Upload.Deletions
import ObjectTransfer.Proofs.Upload.Integrity
import ObjectTransfer.Proofs.Upload.Ledger
import ObjectTransfer.Proofs.Upload.Through
/-!
Uploads of bytes with buffers of any size. Whatever the store in memory was told to answer and where it was
told to cut data off: a call returns, and which buffer it sends its data with makes no difference but in the
progress that it reports.
-/
namespace ObjectTransfer
open Http Rehearsal

@[reducible]
def World.unreported {σ : Type} (w : World σ) : World σ := w.through id fun _ => #[]

namespace Upload

/-- The store is sent as much of the rest of some bytes as it wants, and that is all that is done. -/
theorem send_rest (request : Request) {b : ByteArray} {offset : Nat} (within : offset ≤ b.size)
    (buffer : Nat) (progress : Option Progress.Tracker) (w : World Server) :
    ∃ received body reports,
      w.peer.Enough request (b.extract offset b.size) received ∧ body.changed = false ∧
      (progress = none → reports = w.reports) ∧
      Server.connection.send request (.ofRange offset (b.size - offset) buffer progress)
          (.bytes b offset) w =
        ((w.peer.answer request received w.files).1, body,
          ⟨(w.peer.answer request received w.files).2.1, (w.peer.answer request received w.files).2.2,
            reports, w.pauses, w.metrics⟩) := by
  have waits : Server.connection.Waits fun p f => p = w.peer ∧ f = w.files := fun _ _ same => same
  have follows : Reader.Follows (fun _ => True) b (.bytes b offset) offset := ⟨rfl, rfl⟩
  obtain ⟨n, received, body, v, le, came, same, ⟨peer, files⟩, ended, sent⟩ :=
    Connection.send_steady waits (fun _ _ _ => trivial) request
      (SourceBody.ofRange_ahead within buffer progress) ⟨rfl, rfl⟩ follows
  have kept := Server.connection.ledger_send request
    (.ofRange offset (b.size - offset) buffer progress) (.bytes b offset) w
  have silent (none : progress = none) :
      (Server.connection.send request (.ofRange offset (b.size - offset) buffer progress)
        (.bytes b offset) w).2.2.reports = w.reports :=
    Server.connection.reports_send request (.bytes b offset) w none
  rw [sent] at kept silent
  obtain ⟨pauses, metrics⟩ := Prod.mk.inj kept
  dsimp only [SourceBody.ofRange] at le came ended pauses metrics
  rw [peer] at ended
  have rest : (b.extract offset b.size).size = b.size - offset := by
    rw [ByteArray.size_extract]
    omega
  have first : (b.extract offset b.size).extract 0 n = b.extract offset (offset + n) := by
    rw [ByteArray.extract_extract]
    congr 1
    omega
  refine ⟨received, body, v.reports, ⟨n, by omega, first ▸ came, ?_⟩, same, silent, ?_⟩
  · rw [rest]
    exact ended
  · rw [sent, ← peer, ← files, ← pauses, ← metrics]
    rfl

/-- The job is to upload `b` to the store in memory. -/
structure Job.Stores (u : Job Server) (b : ByteArray) : Prop where
  connection : u.connection = Server.connection
  source : u.source = .bytes b
  total : u.total = b.size

/-- With the smallest buffer and without a reporter it goes the same way. -/
theorem Job.Stores.alike {u : Job Server} {b : ByteArray} (hu : u.Stores b) :
    u.Alike Server.connection 1 none id fun _ => #[] where
  wait w := by
    rw [hu.connection]
    rfl
  exchange request w := by
    rw [hu.connection]
    rfl
  send uri offset reader w within opened answer body v sent := by
    rw [hu.connection, hu.total] at sent
    rw [hu.total] at within ⊢
    rw [hu.source, InputSource.readerAt, Nat.min_eq_left within] at opened
    cases opened
    obtain ⟨received, body₁, reports, enough, same, -, sent₁⟩ :=
      send_rest (dataRequest uri offset b.size) within u.buffer
        (u.progress.map fun p => p.tracker b.size u.buffer) w
    obtain ⟨received', body₂, reports', enough', same', silent, sent₂⟩ :=
      send_rest (dataRequest uri offset b.size) within 1 none w.unreported
    rw [sent] at sent₁
    cases sent₁
    refine ⟨body₂, ?_, same'.trans same.symm, fun changed => ?_⟩
    · rw [silent rfl] at sent₂
      have answers : w.unreported.peer.answer (dataRequest uri offset b.size) received'
          w.unreported.files = w.peer.answer (dataRequest uri offset b.size) received w.files :=
        enough'.answer_eq enough w.files
      rw [answers] at sent₂
      exact sent₂
    · rw [same] at changed
      cases changed

namespace Handler
variable {h : Handler} {key : ObjectKey} {data : ByteArray} {headers : Headers}
  {progress : Option Progress.Reporter} {buffer : Nat} {w : World Server}

theorem Inspects.stores {total : Nat} {md5 : String} {v : World Server}
    (inspected : Inspects Server.connection ⟨key, .bytes data, headers, progress⟩ w
      (.ok (total, md5)) v) :
    (h.job Server.connection buffer ⟨key, .bytes data, headers, progress⟩ total md5).Stores data := by
  cases inspected.symm.trans (inspects_bytes _ _ _ _ _ _)
  exact ⟨rfl, rfl, rfl⟩

/-- With any buffer, a call goes the way of the call with the smallest one. -/
theorem send_unreported (h : Handler) (key : ObjectKey) (data : ByteArray) (headers : Headers)
    (progress : Option Progress.Reporter) (buffer limit : Nat) (w : World Server) :
    h.send Server.connection 1 limit ⟨key, .bytes data, headers, none⟩ w.unreported =
      (h.send Server.connection buffer limit ⟨key, .bytes data, headers, progress⟩ w).map
        fun x => (x.1, x.2.1, x.2.2.unreported) :=
  h.send_through (fun _ => rfl) (fun _ _ _ inspected => inspected.stores.alike) limit

end Handler

namespace Job
variable {u : Job Server} {b : ByteArray} {s t : State Server}

/-- What follows data that could not be sent leaves its failure, or gives up. -/
theorem isRetryable_of_afterFailure {uri : SessionUri} {e : Error}
    (retryable : (u.afterFailure uri e s).1.isRetryable) : e.isRetryable := by
  unfold afterFailure at retryable
  split at retryable
  · exact retryable
  · dsimp only at retryable
    split at retryable
    · cases retryable
    · exact retryable
  · exact retryable

/-- Finding out where to go on gives up, or learns of no progress, or succeeds. -/
theorem Resumes.settles {e : Error} (h : u.Resumes s (.error e) t) (retryable : e.isRetryable) :
    t.session.confirmed ≤ s.session.confirmed := by
  generalize hr : (Except.error e : Except Error (Option String)) = result at h
  cases h with
  | began held started => exact started.confirmed ▸ Nat.zero_le _
  | restarted held asked stale started => exact started.confirmed ▸ Nat.zero_le _
  | incomplete held asked => cases hr
  | complete held asked => cases hr
  | untagged held asked =>
    cases hr
    cases retryable
  | refused held asked auth =>
    cases hr
    cases retryable
  | failed held asked disposition => exact Nat.le_refl _

theorem code_of_storedTag {r : Response} {e : Error} (refused : storedTag r = .error e)
    (retryable : e.isRetryable) : r.status.code ∈ [408, 500, 503] := by
  unfold storedTag at refused
  split at refused
  · split at refused
    · cases refused
    · cases refused
      cases retryable
  · split at refused
    · cases refused
    · cases refused
      cases retryable
  · rename_i code
    rw [code]
    decide
  · rename_i code
    rw [code]
    decide
  · rename_i code
    rw [code]
    decide
  · cases refused
    cases retryable

/-- Data is sent again only when an answer or a cut that was arranged for was used up. -/
theorem Sends.spends (hu : u.Stores b) {uri : SessionUri} {e : Error}
    (h : u.Sends uri s (.error e) t) (retryable : e.isRetryable) :
    t.world.peer.arranged < s.world.peer.arranged := by
  generalize hr : (Except.error e : Except Error String) = result at h
  have within : u.offset s ≤ b.size := by
    rw [offset, hu.total]
    exact Nat.min_le_right _ _
  have reads : u.source.readerAt (u.connection.wait s.world).files (u.offset s) =
      .ok (.bytes b (u.offset s)) := by
    rw [hu.source, InputSource.readerAt, Nat.min_eq_left within]
  cases h with
  | unopened opened => cases reads.symm.trans opened
  | changed opened put changed =>
    cases hr
    cases retryable
  | stored opened put same answered => cases hr
  | @failed reader answer body w e opened put same answered =>
    cases hr
    have retryable := isRetryable_of_afterFailure retryable
    cases reads.symm.trans opened
    obtain ⟨received, body', reports, ⟨_, _, came, _⟩, -, -, sent⟩ :=
      send_rest (dataRequest uri (u.offset s) b.size) within u.buffer
        (u.progress.map fun p => p.tracker b.size u.buffer) s.world
    have waited : Server.connection.wait s.world = s.world := rfl
    rw [rest, hu.connection, hu.total, waited, sent] at put
    obtain ⟨given, -, world⟩ : _ ∧ _ ∧ _ := by simpa only [Prod.mk.injEq] using put
    have queried : (u.afterFailure uri e ⟨s.session, w⟩).2.world.peer.arranged ≤ w.peer.arranged := by
      rw [afterFailure_world, hu.connection]
      exact Server.arranged_answer_le _ _ _ _
    refine Nat.lt_of_le_of_lt queried (Nat.not_le.1 fun still => ?_)
    rw [← world] at still
    obtain ⟨r, answered', code⟩ := Server.answer_of_arranged rfl came.failure s.world.files still
    rw [← given, answered'] at answered
    have bad := code_of_storedTag answered retryable
    simp only [List.mem_cons, List.not_mem_nil, or_false] at code bad
    omega

theorem keeps_arranged (n : Nat) : Server.connection.Keeps fun p _ => p.arranged ≤ n where
  arrive _ _ _ le := le
  answer request received p f le := Nat.le_trans (p.arranged_answer_le request received f) le
  elapse _ _ le := le

/-- After an attempt that is followed by another one, less is arranged for, or no progress is known. -/
theorem Goes.settles (hu : u.Stores b) {e : Error} (h : u.Goes s (.error e) t)
    (retryable : e.isRetryable) :
    t.world.peer.arranged < s.world.peer.arranged ∨
      t.world.peer.arranged ≤ s.world.peer.arranged ∧
        t.session.confirmed ≤ s.session.confirmed := by
  have begun : u.begun s = s := by
    rw [Job.begun, hu.connection]
    rfl
  obtain ⟨keeps, deletes⟩ := Keeps.ofConnection (u := u) (Q := fun p => p.arranged ≤ s.world.peer.arranged)
    (hu.connection ▸ keeps_arranged _)
  have le := keeps.goes deletes h (Nat.le_refl _)
  generalize hr : (Except.error e : Except Error Output) = result at h
  cases h with
  | unreadable size => exact .inr ⟨le, Nat.le_refl _⟩
  | resized size differs => exact .inr ⟨le, Nat.le_refl _⟩
  | unresumed size resumed =>
    cases hr
    exact .inr ⟨le, begun ▸ resumed.settles retryable⟩
  | complete size resumed finished =>
    exact absurd retryable (not_isRetryable_of_finishes finished hr.symm)
  | unsent size resumed held sent =>
    cases hr
    rw [begun] at resumed
    have before := keeps.resumes resumed (Nat.le_refl _)
    exact .inl (Nat.lt_of_lt_of_le (sent.spends hu retryable) before)
  | sent size resumed held sent finished =>
    exact absurd retryable (not_isRetryable_of_finishes finished hr.symm)

end Job

namespace Handler
variable (h : Handler) (key : ObjectKey) (data : ByteArray) (headers : Headers)
  (progress : Option Progress.Reporter) (w : World Server)

theorem upload_returns (buffer : Nat) : ∃ result h' v,
    h.Returns Server.connection buffer ⟨key, .bytes data, headers, progress⟩ w result h' v := by
  refine exists_returns fun u s opened => ?_
  obtain ⟨inspected⟩ := opened
  refine ⟨_, Resumable.run_isSome (I := fun _ => True) (fun s => s.world.peer.arranged) ?_ trivial
    (Nat.le_refl _)⟩
  have settles {u : Job Server} (hu : u.Stores data) {s t : State Server} {e : Error}
      (attempted : u.attempt s = (.error e, t)) (retryable : e.isRetryable) :=
    (Job.goes attempted).settles hu retryable
  intro u v e _ attempted retryable
  exact ⟨trivial, settles inspected.stores attempted retryable⟩

/-- A call to upload bytes to the store in memory returns, whatever answers and cuts are arranged for, and it
gives the same with any two buffers: the same result, and the same session for the handler. It leaves the
store the same, with all the requests that it noted and what it received with them, and the files; it pauses
as often, and it is counted in the same way. -/
theorem buffer_size_is_invisible (p q : Nat) : ∃ result h' v v',
    h.Returns Server.connection p ⟨key, .bytes data, headers, progress⟩ w result h' v ∧
    h.Returns Server.connection q ⟨key, .bytes data, headers, progress⟩ w result h' v' ∧
    v'.peer = v.peer ∧ v'.files = v.files ∧ v'.pauses = v.pauses ∧ v'.metrics = v.metrics := by
  obtain ⟨result, h', v, returned⟩ := h.upload_returns key data headers progress w p
  obtain ⟨limit, sent⟩ := returned
  have first := h.send_unreported key data headers progress p limit w
  have second := h.send_unreported key data headers progress q limit w
  rw [sent limit (Nat.le_refl _), Option.map_some] at first
  rw [first] at second
  obtain ⟨⟨result', h'', v'⟩, sent', same⟩ := Option.map_eq_some_iff.1 second.symm
  simp only [Prod.mk.injEq] at same
  obtain ⟨rfl, rfl, same⟩ := same
  have peer : v'.unreported.peer = v.unreported.peer := by rw [same]
  have files : v'.unreported.files = v.unreported.files := by rw [same]
  have pauses : v'.unreported.pauses = v.unreported.pauses := by rw [same]
  have metrics : v'.unreported.metrics = v.unreported.metrics := by rw [same]
  exact ⟨result', h'', v, v', ⟨limit, sent⟩, returns_of_send sent', peer, files, pauses, metrics⟩

end Handler

end Upload

end ObjectTransfer
