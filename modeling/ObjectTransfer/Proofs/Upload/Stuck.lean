import ObjectTransfer.Proofs.Rehearsal.Server
import ObjectTransfer.Proofs.Retry.Stuck
import ObjectTransfer.Proofs.Upload.Bounds
import ObjectTransfer.Proofs.Upload.Ledger
import ObjectTransfer.Proofs.Upload.Tracking
import ObjectTransfer.Proofs.Upload.Wire
/-!
Uploads that are stuck. The store goes on telling that it holds the same number of bytes, and fails
whenever it is sent more. How many attempts such an upload makes depends on what its handler knew before:
a count that is behind, as it is for a session from a tracker file, is brought up to date by the first
attempt, and that counts as progress.
-/
namespace ObjectTransfer.Upload
open Http
variable {σ : Type}

/-- An exchange with a store on which an upload is stuck with `held` bytes: a start is answered with a
session that can be written to the tracker file, a query with what is held, which a word can count, and
data with a failure after which it can be sent again. -/
structure Stuck (tracker : Option TrackerFile) (total held : Nat) (x : Exchanged σ) : Prop where
  start : x.request.method = .post → ∃ uri, Answer.Grants x.result uri ∧
    ∀ t ∈ tracker, ∃ files, t.save uri.text x.files = .ok files
  query : ∀ uri, IsQuery uri total x → Answer.Confirms x.result held ∧ ¬Answer.Overruns x.result
  data : ∀ uri offset, offset < total → x.request = dataRequest uri offset total →
    ∃ e, x.result.bind storedTag = .error e ∧ e.isRetryable

def seenSince (before after : World (Observed σ)) : List (Exchanged σ) :=
  after.peer.seen.drop before.peer.seen.length

section
variable {w v z : World (Observed σ)} {x : Exchanged σ} {news : List (Exchanged σ)}

theorem seenSince_eq (seen : v.peer.seen = w.peer.seen ++ news) : seenSince w v = news := by
  rw [seenSince, seen, List.drop_left]

theorem mem_seenSince_of_earlier (later : v.peer.seen <+: z.peer.seen) (h : x ∈ seenSince w v) :
    x ∈ seenSince w z := by
  obtain ⟨news, seen⟩ := later
  rw [seenSince, ← seen, List.drop_append]
  exact List.mem_append_left _ h

theorem mem_seenSince_of_later (earlier : w.peer.seen <+: v.peer.seen) (h : x ∈ seenSince v z) :
    x ∈ seenSince w z :=
  List.drop_subset_drop_left z.peer.seen earlier.length_le h

end

namespace Job
variable {c : Connection σ} {u : Job (Observed σ)} {s t : State (Observed σ)} {held : Nat}

theorem keeps_seen (hc : u.connection = c.observed) (seen : List (Exchanged σ)) :
    u.Keeps (fun o _ => seen <+: o.seen) ∧ u.KeptByDelete fun o _ => seen <+: o.seen :=
  Keeps.ofConnection (Q := fun o : Observed σ => seen <+: o.seen) (hc ▸ c.keeps_seen seen)

theorem seen_starts (hc : u.connection = c.observed) {result : Except Error Unit}
    (h : u.Starts s result t) : s.world.peer.seen <+: t.world.peer.seen :=
  (keeps_seen hc _).1.starts h (List.prefix_refl s.world.peer.seen)

theorem seen_resumes (hc : u.connection = c.observed) {result : Except Error (Option String)}
    (h : u.Resumes s result t) : s.world.peer.seen <+: t.world.peer.seen :=
  (keeps_seen hc _).1.resumes h (List.prefix_refl s.world.peer.seen)

theorem seen_sends (hc : u.connection = c.observed) {uri : SessionUri}
    {result : Except Error String} (h : u.Sends uri s result t) :
    s.world.peer.seen <+: t.world.peer.seen :=
  (keeps_seen hc _).1.sends h (List.prefix_refl s.world.peer.seen)

theorem seen_finishes (hc : u.connection = c.observed) {eTag : String} {result : Except Error Output}
    (h : u.Finishes eTag s result t) : s.world.peer.seen <+: t.world.peer.seen :=
  (keeps_seen hc _).1.finishes (keeps_seen hc _).2 h (List.prefix_refl s.world.peer.seen)

theorem Starts.stuck (hc : u.connection = c.observed) {request : Request}
    (makes : startRequest u.key u.headers = .ok request) {result : Except Error Unit}
    (h : u.Starts s result t)
    (stuck : ∀ x ∈ seenSince s.world t.world, Stuck u.tracker u.total held x) : result = .ok () := by
  have granted {answer : Answer} {w : World (Observed σ)} (seen : w.peer = t.world.peer)
      (asked : u.connection.exchange request s.world = (answer, w)) :
      ∃ uri, answer.bind startedSession = .ok uri ∧
        ∀ t ∈ u.tracker, ∃ files, t.save uri.text w.files = .ok files := by
    obtain ⟨x, hreq, -, hres, hfiles, hseen⟩ := exchange_seen hc request s.world
    rw [asked] at hres hfiles hseen
    dsimp only at hres hfiles hseen
    rw [seen] at hseen
    have hx := stuck x (by rw [seenSince_eq hseen]; exact List.mem_singleton_self x)
    obtain ⟨uri, grants, saved⟩ := hx.start (by rw [hreq]; exact method_of_start makes)
    rw [Answer.grants_iff, hres] at grants
    rw [hfiles] at saved
    exact ⟨uri, grants, saved⟩
  cases h with
  | unmade made => cases makes.symm.trans made
  | failed made asked =>
    cases makes.symm.trans made
    obtain ⟨uri, grants, -⟩ := granted rfl asked
    cases grants
  | refused made asked answered =>
    cases makes.symm.trans made
    obtain ⟨uri, grants, -⟩ := granted rfl asked
    cases answered.symm.trans grants
  | untracked made asked answered tracker => rfl
  | saved made asked answered tracker save => rfl
  | unsaved made asked answered tracker save =>
    cases makes.symm.trans made
    obtain ⟨uri, grants, saved⟩ := granted rfl asked
    cases answered.symm.trans grants
    obtain ⟨files, saved⟩ := saved _ tracker
    cases save.symm.trans saved

theorem query_stuck (hc : u.connection = c.observed) {uri : SessionUri} {w v : World (Observed σ)}
    {answer : Except Error SessionState} (asked : u.query uri w = (answer, v))
    (stuck : ∀ x ∈ seenSince w v, Stuck u.tracker u.total held x) :
    answer = .ok (.incomplete held) := by
  obtain ⟨x, hq, ha, hseen⟩ := query_seen hc asked
  have hx := stuck x (by rw [seenSince_eq hseen]; exact List.mem_singleton_self x)
  obtain ⟨confirms, counted⟩ := hx.query uri hq
  exact ha.trans (confirms.incomplete counted)

/-- Where to go on is found out, and the count is up to date from then on. -/
theorem Resumes.stuck (hc : u.connection = c.observed)
    (startable : s.session.uri = none → held = 0 ∧ ∃ request, startRequest u.key u.headers = .ok request)
    {result : Except Error (Option String)} (h : u.Resumes s result t)
    (stuck : ∀ x ∈ seenSince s.world t.world, Stuck u.tracker u.total held x) :
    result = .ok none ∧ t.session.confirmed = held := by
  cases h with
  | began unheld started =>
    obtain ⟨none, request, makes⟩ := startable unheld
    rw [started.stuck hc makes stuck, started.confirmed, none]
    exact ⟨rfl, rfl⟩
  | restarted known asked stale started =>
    have later := seen_starts hc started
    have told := query_stuck hc asked fun x hx => stuck x (mem_seenSince_of_earlier later hx)
    rw [told] at stale
    cases stale
  | incomplete known asked =>
    cases query_stuck hc asked stuck
    exact ⟨rfl, rfl⟩
  | complete known asked => cases query_stuck hc asked stuck
  | untagged known asked => cases query_stuck hc asked stuck
  | refused known asked auth => cases query_stuck hc asked stuck
  | failed known asked disposition => cases query_stuck hc asked stuck

/-- The data cannot be sent, and the store still holds what it held. -/
theorem Sends.stuck (hc : u.connection = c.observed) {data : ByteArray} {I : Files.Store → Prop}
    (steady : u.source.Steady data I) (apart : c.Keeps fun _ f => I f) (ht : u.total = data.size)
    (rest : held < data.size) (hi : I s.world.files) (known : s.session.confirmed = held)
    {uri : SessionUri} {result : Except Error String} (h : u.Sends uri s result t)
    (stuck : ∀ x ∈ seenSince s.world t.world, Stuck u.tracker u.total held x) :
    ∃ e, result = .error e ∧ e.isRetryable ∧ t.session.confirmed = held ∧
      t.session.uri = s.session.uri := by
  obtain ⟨reader, hopen, x, body, w, hsend, hsame, hseen, hdata⟩ :=
    send_seen hc steady apart ht uri s hi
  have first : x ∈ seenSince s.world w := by
    rw [seenSince_eq hseen]
    exact List.mem_singleton_self x
  have offset : u.offset s < u.total := by
    rw [Job.offset, known]
    omega
  have request : x.request = dataRequest uri (u.offset s) u.total := by
    rw [dataRequest_eq, ht]
    exact hdata.1
  rcases h.of_put hopen hsend hsame with ⟨eTag, answered, rfl, rfl⟩ | ⟨e, answered, rfl, rfl⟩
  · obtain ⟨e, failed, -⟩ := (stuck x first).data uri _ offset request
    cases failed.symm.trans answered
  · rcases asked : u.query uri w with ⟨answer, v⟩
    have world : (u.afterFailure uri e ⟨s.session, w⟩).2.world = v := by
      rw [afterFailure_world, ← query_world, asked]
    rw [world] at stuck
    obtain ⟨y, -, -, hseen'⟩ := query_seen hc asked
    have later : w.peer.seen <+: v.peer.seen := ⟨[y], hseen'.symm⟩
    obtain ⟨e', failed, retryable⟩ :=
      (stuck x (mem_seenSince_of_earlier later first)).data uri _ offset request
    cases failed.symm.trans answered
    have told := query_stuck hc asked fun x hx =>
      stuck x (mem_seenSince_of_later ⟨[_], hseen.symm⟩ hx)
    subst told
    simp only [afterFailure, asked]
    exact ⟨e, rfl, retryable, rfl, rfl⟩

/-- An attempt fails, can be made again, and leaves the count at what the store holds. -/
theorem Goes.stuck (hc : u.connection = c.observed) {data : ByteArray} {I : Files.Store → Prop}
    (steady : u.source.Steady data I) (kept : u.Keeps fun _ f => I f)
    (apart : c.Keeps fun _ f => I f) (ht : u.total = data.size) (rest : held < data.size)
    (hi : I s.world.files)
    (startable : s.session.uri = none → held = 0 ∧ ∃ request, startRequest u.key u.headers = .ok request)
    {result : Except Error Output} (h : u.Goes s result t)
    (stuck : ∀ x ∈ seenSince s.world t.world, Stuck u.tracker u.total held x) :
    ∃ e, result = .error e ∧ e.isRetryable ∧ t.session.confirmed = held ∧
      t.session.uri.isSome := by
  have hb : I (u.begun s).world.files := kept.wait s.world hi
  have begun : (u.begun s).world.peer.seen = s.world.peer.seen := by
    rw [Job.begun, hc, c.seen_wait]
  unfold seenSince at stuck
  rw [← begun] at stuck
  -- What is seen while the attempt finds out where to go on is seen before the rest.
  have opening {t' : State (Observed σ)} {result : Except Error (Option String)}
      (resumed : u.Resumes (u.begun s) result t')
      (later : t'.world.peer.seen <+: t.world.peer.seen) :
      result = .ok none ∧ t'.session.confirmed = held :=
    Resumes.stuck (s := u.begun s) hc startable resumed fun x hx =>
      stuck x (mem_seenSince_of_earlier (w := (u.begun s).world) later hx)
  -- The data that is sent then fails.
  have sending {t' t'' : State (Observed σ)} {uri : SessionUri} {result : Except Error String}
      (resumed : u.Resumes (u.begun s) (.ok none) t')
      (sent : u.Sends uri (t'.startAt t'.session.confirmed) result t'')
      (later : t''.world.peer.seen <+: t.world.peer.seen) :
      ∃ e, result = .error e ∧ e.isRetryable ∧ t''.session.confirmed = held ∧
        t''.session.uri = t'.session.uri := by
    have known := (opening resumed ((seen_sends hc sent).trans later)).2
    have hr : I t'.world.files := kept.resumes resumed hb
    refine Sends.stuck (s := t'.startAt t'.session.confirmed) hc steady apart ht rest hr known sent
      fun x hx => ?_
    exact stuck x (mem_seenSince_of_later (w := (u.begun s).world) (seen_resumes hc resumed)
      (mem_seenSince_of_earlier later hx))
  cases h with
  | unreadable size => cases (steady.size _ hb).symm.trans size
  | resized size differs =>
    cases (steady.size _ hb).symm.trans size
    exact absurd ht.symm differs
  | unresumed size resumed => cases (opening resumed (List.prefix_refl _)).1
  | complete size resumed finished =>
    have later := seen_finishes hc finished
    cases (opening resumed later).1
  | unsent size resumed known sent =>
    obtain ⟨e, failed, retryable, confirmed, same⟩ := sending resumed sent (List.prefix_refl _)
    cases failed
    exact ⟨_, rfl, retryable, confirmed, by rw [same, known]; rfl⟩
  | sent size resumed known sent finished =>
    obtain ⟨e, failed, -⟩ := sending resumed sent (seen_finishes hc finished)
    cases failed

/-- What the attempts of a stuck upload need: the source as it is, and a session to go on with, or
one that can be started and then holds as little as nothing. -/
structure Ready (u : Job (Observed σ)) (I : Files.Store → Prop) (held : Nat)
    (s : State (Observed σ)) : Prop where
  files : I s.world.files
  startable : s.session.uri = none →
    held = 0 ∧ ∃ request, startRequest u.key u.headers = .ok request

theorem attempt_stuck (hc : u.connection = c.observed) {data : ByteArray} {I : Files.Store → Prop}
    (unchanging : Unchanging c u.tracker u.source data I) (ht : u.total = data.size)
    (rest : held < data.size) (ready : u.Ready I held s)
    (stuck : ∀ x ∈ seenSince s.world (u.attempt s).2.world, Stuck u.tracker u.total held x) :
    ∃ e t, u.attempt s = (.error e, t) ∧ e.isRetryable ∧ t.session.confirmed = held ∧
      u.Ready I held t := by
  obtain ⟨kept, keptByDelete⟩ := unchanging.keeps hc
  rcases attempted : u.attempt s with ⟨result, t⟩
  rw [attempted] at stuck
  obtain ⟨e, rfl, retryable, confirmed, known⟩ := (goes attempted).stuck hc unchanging.steady kept
    unchanging.apart ht rest ready.files ready.startable stuck
  refine ⟨e, t, rfl, retryable, confirmed, kept.goes keptByDelete (goes attempted) ready.files, ?_⟩
  intro unheld
  rw [unheld] at known
  cases known

theorem stuckAt {retries : Nat} (hc : u.connection = c.observed) {data : ByteArray}
    {I : Files.Store → Prop} (unchanging : Unchanging c u.tracker u.source data I)
    (ht : u.total = data.size) (rest : held < data.size) (ready : u.Ready I held s)
    (stuck : ∀ made idle t, u.resumable.Reaches retries s made idle t →
      ∀ x ∈ seenSince t.world (u.attempt t).2.world, Stuck u.tracker u.total held x) :
    u.resumable.StuckAt retries held s := by
  have all {made idle : Nat} {t : State (Observed σ)}
      (reached : u.resumable.Reaches retries s made idle t) : u.Ready I held t := by
    induction reached with
    | start => exact ready
    | again before turn ih =>
      obtain ⟨e, attempted, -⟩ := Resumable.turn_again turn
      obtain ⟨e', t', attempted', -, -, next⟩ :=
        attempt_stuck hc unchanging ht rest ih (stuck _ _ _ before)
      cases attempted'.symm.trans attempted
      exact next
  intro made idle t reached
  obtain ⟨e, t', attempted, retryable, confirmed, -⟩ :=
    attempt_stuck hc unchanging ht rest (all reached) (stuck _ _ _ reached)
  exact ⟨e, t', attempted, retryable, confirmed⟩

end Job

/-- A stuck upload is given up, and nothing is discarded, after one attempt more than the handler has
retries when the handler knew what the store holds, and after two more when it knew of less: what the
first attempt learns is taken for progress. There is a pause between any two of the attempts. -/
theorem stuck_upload_attempts {c : Connection σ} {h : Handler} {buffer : Nat} {task : Handler.Task}
    {w : World (Observed σ)} {data : ByteArray} {I : Files.Store → Prop} {held : Nat}
    (unchanging : Unchanging c h.tracker task.source data I) (found : I w.files)
    (rest : held < data.size)
    (startable : (h.loadTracker w.files).uri = none →
      held = 0 ∧ ∃ request, startRequest task.key task.headers = .ok request)
    (stuck : ∀ u s, h.Begins c.observed buffer task w u s →
      ∀ x ∈ seenSince s.world (u.attempt s).2.world, Stuck h.tracker data.size held x) :
    ∃ u s outcome, h.Opens c.observed buffer task w u s ∧
      (∀ limit, outcome.attempts ≤ limit → u.resumable.run h.retries limit s = some outcome) ∧
      outcome.attempts = (if held ≤ (h.loadTracker w.files).confirmed then h.retries + 1
        else h.retries + 2) ∧
      ∃ h' w', h.Returns c.observed buffer task w
          (.error (.resumable .abortCurrentProcess (.noProgress outcome.attempts))) h' w' ∧
        w'.pauses.size + 1 = w.pauses.size + outcome.attempts := by
  rcases inspected : Handler.inspect c.observed task.source
    { w with metrics := w.metrics.initiate } with ⟨result, v⟩
  obtain ⟨rfl, files⟩ := Handler.inspects_steady unchanging.steady
    (Job.in_wait unchanging.apart.observed) (fun _ _ h => h) inspected found
  have opens : h.Opens c.observed buffer task w
      (h.job c.observed buffer task data.size (Digest.md5Hex data)) ⟨h.loadTracker w.files, v⟩ :=
    .intro inspected
  have ready : Job.Ready (h.job c.observed buffer task data.size (Digest.md5Hex data)) I held
      ⟨h.loadTracker w.files, v⟩ := ⟨files, startable⟩
  have stands := Job.stuckAt rfl unchanging rfl rest ready
    fun _ _ t reached => stuck _ t (.intro opens reached)
  obtain ⟨outcome, run, attempts, result, pauses⟩ := stands.run
  obtain ⟨w', returned, paused⟩ := opens.pauses (run _ (Nat.le_refl _))
  refine ⟨_, _, outcome, opens, run, ?_, _, w', result ▸ returned, ?_⟩
  · rw [attempts, Resumable.late]
    split
    · exact (if_pos ‹_›).symm
    · exact (if_neg ‹_›).symm
  · have grown : w'.pauses.size = w.pauses.size + outcome.pauses.length := by simp [paused]
    omega

/-- A store that holds one byte of every session, and is never ready for more. -/
def stalled : Connection Unit where
  arrive _ p f := (p, f)
  wants _ _ _ := true
  answer request _ p f :=
    (.ok (if request.method = .post then
        ⟨⟨200⟩, [("location", .text "http://h/b/k?upload_id=1")], .empty⟩
      else if Headers.text? request.headers "content-length" = some "0" then
        ⟨⟨308⟩, [("range", .text "bytes=0-0")], .empty⟩
      else .bare 503), p, f)

def Savable (files : Files.Store) : Prop := ∃ content, (TrackerFile.mk "t").Holds files content

theorem stuck_stalled (request : Request) (received : Received) {files : Files.Store}
    (savable : Savable files) :
    Stuck (some ⟨"t"⟩) 3 1 (stalled.noted request received () files) where
  start post := by
    obtain ⟨content, holds⟩ := savable
    have post : request.method = .post := post
    simp only [Connection.noted, stalled, post, if_true]
    refine ⟨⟨⟨some "http", some "h", "/b/k", some "upload_id=1"⟩⟩,
      ⟨_, "http://h/b/k?upload_id=1", rfl, .inl rfl, by decide, by decide +kernel⟩, ?_⟩
    rintro _ ⟨⟩
    obtain ⟨after, saved, -⟩ := holds.save _
    exact ⟨after, saved⟩
  query uri asks := by
    have same := asks.1
    dsimp only [Connection.noted] at same
    subst same
    have length : Headers.text? [("content-range", .text ("bytes */" ++ toString 3)),
      ("content-length", .text "0")] "content-length" = some "0" := by decide
    simp only [Connection.noted, stalled, reduceCtorEq, if_false, length, if_true]
    have confirms : Answer.Confirms (.ok ⟨⟨308⟩, [("range", .text "bytes=0-0")], .empty⟩) 1 :=
      ⟨_, rfl, rfl, .inr ⟨"bytes=0-0", 0, 0, by decide, by decide +kernel, rfl⟩⟩
    exact ⟨confirms, fun overruns => absurd (confirms.unique overruns) (by decide)⟩
  data uri offset less same := by
    dsimp only [Connection.noted] at same
    subst same
    have put : (dataRequest uri offset 3).method = .put := rfl
    have some : toString (3 - offset) ≠ "0" := by
      rw [ne_eq, Text.toString_eq_zero]
      omega
    simp only [Connection.noted, stalled, put, reduceCtorEq, if_false,
      Rehearsal.Server.length_data, Option.some.injEq, some]
    exact ⟨_, rfl, rfl⟩

/-- A job of three bytes whose session is that of the tracker file, and the state in which its first
attempt begins. -/
def stalledJob : Job (Observed Unit) :=
  tracking.job stalled.observed 8 threeBytes 3 (Digest.md5Hex ⟨#[1, 2, 3]⟩)

def stalledState : State (Observed Unit) :=
  ⟨tracking.loadTracker trackedFiles,
    { World.initial ⟨(), []⟩ trackedFiles with metrics := Metrics.zero.initiate }⟩

theorem opens_stalled : tracking.Opens stalled.observed 8 threeBytes
    (.initial ⟨(), []⟩ trackedFiles) stalledJob stalledState :=
  .intro (Handler.inspects_bytes _ _ _ _ _ _)

/-- The tracker file can be written at any time, and all that was seen is as that store says. -/
def SeenStuck (o : Observed Unit) (files : Files.Store) : Prop :=
  Savable files ∧ ∀ x ∈ o.seen, Stuck (some ⟨"t"⟩) 3 1 x

theorem keeps_stalled : stalled.observed.Keeps SeenStuck where
  arrive _ _ _ h := h
  answer request received o files h := by
    refine ⟨h.1, fun x hx => ?_⟩
    rcases List.mem_append.1 hx with hx | hx
    · exact h.2 x hx
    · cases List.mem_singleton.1 hx
      exact stuck_stalled request received h.1
  elapse _ _ h := h

theorem job_keeps_stalled : stalledJob.Keeps SeenStuck ∧ stalledJob.KeptByDelete SeenStuck where
  left :=
    { wait := fun _ h => keeps_stalled.wait h
      start := fun _ request _ h => keeps_stalled.exchange request h
      query := fun _ _ h => keeps_stalled.exchange _ h
      send := fun _ _ _ reader _ h => keeps_stalled.send _ _ reader h
      save := by
        rintro _ token o f g ⟨⟩ saved ⟨⟨content, holds⟩, seen⟩
        obtain ⟨after, saved', held⟩ := holds.save token
        cases saved'.symm.trans saved
        exact ⟨⟨_, held⟩, seen⟩
      remove := by
        rintro _ o f ⟨⟩ ⟨⟨content, holds⟩, seen⟩
        exact ⟨⟨_, holds.remove⟩, seen⟩ }
  right := fun _ request _ h => keeps_stalled.exchange request h

theorem stuck_of_begins_stalled {u : Job (Observed Unit)} {s : State (Observed Unit)}
    (begun : tracking.Begins stalled.observed 8 threeBytes (.initial ⟨(), []⟩ trackedFiles) u s) :
    ∀ x ∈ seenSince s.world (u.attempt s).2.world, Stuck (some ⟨"t"⟩) 3 1 x := by
  obtain ⟨kept, keptByDelete⟩ := job_keeps_stalled
  have savable : Savable trackedFiles :=
    ⟨some "http://h/b/k?upload_id=1".toUTF8, by decide, [], "t", by decide, by decide, 0,
      by decide, rfl, rfl⟩
  obtain ⟨rfl, before⟩ := begun.invariant
    (I := fun u s => u = stalledJob ∧ Job.In SeenStuck s.world)
    (by rintro _ _ ⟨⟨⟩⟩; exact ⟨rfl, savable, by rintro x ⟨⟩⟩)
    fun u s t e ⟨same, before⟩ attempted _ =>
      ⟨same, kept.goes keptByDelete (same ▸ Job.goes attempted) before⟩
  intro x hx
  exact (kept.goes keptByDelete (Job.goes rfl) before).2 x (List.mem_of_mem_drop hx)

/-- Two attempts are made of an upload that has no retries and is stuck: the session of the tracker file
is taken over without its count. -/
theorem tracked_upload_stalls_late :
    (∀ u s, tracking.Begins stalled.observed 8 threeBytes (.initial ⟨(), []⟩ trackedFiles) u s →
      ∀ x ∈ seenSince s.world (u.attempt s).2.world, Stuck tracking.tracker 3 1 x) ∧
    tracking.Opens stalled.observed 8 threeBytes (.initial ⟨(), []⟩ trackedFiles) stalledJob
      stalledState ∧
    ∃ outcome, (∀ limit, 2 ≤ limit →
        stalledJob.resumable.run tracking.retries limit stalledState = some outcome) ∧
      outcome.attempts ≠ tracking.retries + 1 ∧ outcome.pauses.length ≠ tracking.retries := by
  have run : (stalledJob.resumable.run 0 2 stalledState).map
      (fun o => (o.attempts, o.pauses.length)) = some (2, 1) := by decide +kernel
  obtain ⟨outcome, run, counts⟩ := Option.map_eq_some_iff.1 run
  obtain ⟨attempts, pauses⟩ := Prod.mk.inj counts
  refine ⟨fun u s begun => stuck_of_begins_stalled begun, opens_stalled, outcome,
    fun limit enough => Resumable.run_mono run enough, ?_, ?_⟩
  · rw [attempts]
    decide
  · rw [pauses]
    decide

theorem stalled_upload_attempts : ∃ u s outcome,
    tracking.Opens stalled.observed 8 threeBytes (.initial ⟨(), []⟩ trackedFiles) u s ∧
      (∀ limit, outcome.attempts ≤ limit →
        u.resumable.run tracking.retries limit s = some outcome) ∧
      outcome.attempts = 2 ∧
      ∃ h' w', tracking.Returns stalled.observed 8 threeBytes (.initial ⟨(), []⟩ trackedFiles)
          (.error (.resumable .abortCurrentProcess (.noProgress outcome.attempts))) h' w' ∧
        w'.pauses.size + 1 = outcome.attempts := by
  have unchanging : Unchanging stalled tracking.tracker threeBytes.source ⟨#[1, 2, 3]⟩ fun _ => True :=
    unchanging_bytes _
  have stuck : ∀ u s, tracking.Begins stalled.observed 8 threeBytes (.initial ⟨(), []⟩ trackedFiles)
      u s → ∀ x ∈ seenSince s.world (u.attempt s).2.world, Stuck tracking.tracker 3 1 x :=
    fun u s begun => stuck_of_begins_stalled begun
  obtain ⟨u, s, outcome, opens, run, attempts, h', w', returned, pauses⟩ :=
    stuck_upload_attempts unchanging trivial (by decide) (fun unheld => absurd unheld (by decide))
      stuck
  exact ⟨u, s, outcome, opens, run, attempts, h', w', returned, pauses.trans (Nat.zero_add _)⟩

end ObjectTransfer.Upload
