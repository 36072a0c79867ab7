import ObjectTransfer.Proofs.Rehearsal.Held
import ObjectTransfer.Proofs.Upload.Bounds
import ObjectTransfer.Proofs.Upload.Ledger
import ObjectTransfer.Proofs.Upload.Repeats
import ObjectTransfer.Proofs.Upload.Unobserved
/-!
What the counters of a client say of its uploads to the store in memory, when no answers are arranged for.
Every call is counted as one that succeeded or one that failed. What a call that succeeds adds to the bytes
is the size of the object less the start point, and the start point is where the first data of the handler
went: for the first call of a handler that makes it what the store received, for a later one it does not.
-/
namespace ObjectTransfer.Upload
open Http Rehearsal

/-- How much of an object of this size the store has of the session that is known. -/
def State.held (s : State Server) (total : Nat) : Nat := s.world.peer.held total s.session.uri

/-- Nothing was received between two states, and as much is held, with the same start point. -/
structure State.Level (s : State Server) (total : Nat) (t : State Server) : Prop where
  regular : t.world.peer.Regular
  held : t.held total = s.held total
  received : t.world.peer.bytesReceived = s.world.peer.bytesReceived
  startPoint : t.session.startPoint = s.session.startPoint

theorem State.Level.trans {s t v : State Server} {total : Nat} (h : s.Level total t)
    (h' : t.Level total v) : s.Level total v :=
  ⟨h'.regular, h'.held.trans h.held, h'.received.trans h.received,
    h'.startPoint.trans h.startPoint⟩

theorem State.level_of_rests {s t : State Server} (regular : s.world.peer.Regular)
    (rests : s.world.peer.Rests t.world.peer) (uri : t.session.uri = s.session.uri)
    (startPoint : t.session.startPoint = s.session.startPoint) (total : Nat) : s.Level total t :=
  ⟨rests.regular regular, by rw [State.held, uri, rests.held, State.held], rests.received,
    startPoint⟩

namespace Job
variable {u : Job Server} {s t : State Server}

theorem query_tells (hc : u.connection = Server.connection) {uri : SessionUri} {w v : World Server}
    (regular : w.peer.Regular) {answer : Except Error SessionState}
    (asked : u.query uri w = (answer, v)) :
    w.peer.Rests v.peer ∧ Server.Told u.total (w.peer.held u.total (some uri)) answer := by
  have given := query_answer u uri w
  have world := query_world u uri w
  rw [asked, hc] at given world
  obtain ⟨rests, told⟩ := regular.query (Server.kindOf_query uri u.total) u.total .nothing w.files
  dsimp only at given world
  rw [world, given]
  exact ⟨rests, told⟩

theorem Starts.level (hc : u.connection = Server.connection) {result : Except Error Unit}
    (h : u.Starts s result t) (regular : s.world.peer.Regular) (none : s.held u.total = 0) :
    s.Level u.total t := by
  have after {request : Request} {answer : Except Error Response} {w : World Server}
      (made : startRequest u.key u.headers = .ok request)
      (asked : u.connection.exchange request s.world = (answer, w)) :
      w.peer.Regular ∧ w.peer.bytesReceived = s.world.peer.bytesReceived ∧
        w.peer.held u.total s.session.uri = 0 ∧
        ∀ uri, answer.bind startedSession = .ok uri → w.peer.held u.total (some uri) = 0 := by
    obtain ⟨regular', received, sessions, given⟩ :=
      regular.start (Server.kindOf_start made).1 .nothing s.world.files
    obtain ⟨answered, peer⟩ := Server.exchange_connection request s.world
    rw [hc] at asked
    rw [asked] at answered peer
    dsimp only at answered peer
    rw [← peer] at regular' received sessions
    rw [← answered] at given
    refine ⟨regular', received, Server.held_put_empty sessions none, fun uri named => ?_⟩
    have granted := Answer.grants_iff.2 (given ▸ named)
    rw [Server.held_eq _ _ (Server.uploadId?_of_grants made granted)]
    exact Server.heldOf_put_new sessions
  have kept {v : State Server} (regular' : v.world.peer.Regular)
      (received : v.world.peer.bytesReceived = s.world.peer.bytesReceived)
      (still : v.held u.total = 0) (startPoint : v.session.startPoint = s.session.startPoint) :
      s.Level u.total v := ⟨regular', still.trans none.symm, received, startPoint⟩
  cases h with
  | unmade made => exact kept regular rfl none rfl
  | failed made asked =>
    obtain ⟨regular', received, old, -⟩ := after made asked
    exact kept regular' received old rfl
  | refused made asked answered =>
    obtain ⟨regular', received, old, -⟩ := after made asked
    exact kept regular' received old rfl
  | untracked made asked answered tracker =>
    obtain ⟨regular', received, -, new⟩ := after made asked
    exact kept regular' received (new _ answered) rfl
  | saved made asked answered tracker save =>
    obtain ⟨regular', received, -, new⟩ := after made asked
    exact kept regular' received (new _ answered) rfl
  | unsaved made asked answered tracker save =>
    obtain ⟨regular', received, -, new⟩ := after made asked
    exact kept regular' received (new _ answered) rfl

/-- Wherever an attempt goes on, it is with what the store has of the session. -/
theorem Resumes.level (hc : u.connection = Server.connection)
    {result : Except Error (Option String)} (h : u.Resumes s result t)
    (regular : s.world.peer.Regular) :
    s.Level u.total t ∧ (result = .ok none → t.session.confirmed = t.held u.total) ∧
      ∀ eTag, result = .ok (some eTag) → t.held u.total = u.total := by
  have began {answer : Except Error Unit} {v : State Server} (level : s.Level u.total v)
      (none : v.held u.total = 0) (started : u.Starts v answer t) :
      s.Level u.total t ∧
        ((answer.map fun _ => Option.none (α := String)) = .ok Option.none →
          t.session.confirmed = t.held u.total) ∧
        ∀ eTag, (answer.map fun _ => Option.none (α := String)) = .ok (some eTag) →
          t.held u.total = u.total := by
    have after := started.level hc level.regular none
    refine ⟨level.trans after, fun _ => ?_, fun eTag complete => ?_⟩
    · rw [started.confirmed, after.held, none]
    · cases answer <;> cases complete
  have told {uri : SessionUri} (held : s.session.uri = some uri)
      {answer : Except Error SessionState} {w : World Server}
      (asked : u.query uri s.world = (answer, w)) {v : State Server} (world : v.world = w)
      (known : v.session.uri = s.session.uri)
      (startPoint : v.session.startPoint = s.session.startPoint) :
      s.Level u.total v ∧ Server.Told u.total (v.held u.total) answer := by
    obtain ⟨rests, told⟩ := query_tells hc regular asked
    rw [← world] at rests
    have level := State.level_of_rests regular rests known startPoint u.total
    refine ⟨level, ?_⟩
    rw [level.held, State.held, held]
    exact told
  cases h with
  | began held started =>
    have none : s.held u.total = 0 := by
      rw [State.held, held]
      rfl
    exact began ⟨regular, rfl, rfl, rfl⟩ none started
  | @restarted uri answer w result t held asked stale started =>
    obtain ⟨level, answered⟩ := told held asked (v := ⟨s.session, w⟩) rfl rfl rfl
    refine began level ?_ started
    -- No other answer that this store gives is one to start over after.
    generalize (State.mk s.session w).held u.total = n at answered
    cases answered with
    | unknown => rfl
    | unfinished => cases stale
    | finished => cases stale
  | @incomplete uri n w held asked =>
    obtain ⟨level, answered⟩ := told held asked (v := State.confirm ⟨s.session, w⟩ n) rfl rfl rfl
    refine ⟨level, fun _ => ?_, nofun⟩
    generalize (State.confirm ⟨s.session, w⟩ n).held u.total = m at answered
    cases answered
    rfl
  | @complete uri eTag w held asked =>
    obtain ⟨level, answered⟩ :=
      told held asked (v := State.confirm ⟨s.session, w⟩ u.total) rfl rfl rfl
    refine ⟨level, nofun, fun _ _ => ?_⟩
    generalize (State.confirm ⟨s.session, w⟩ u.total).held u.total = m at answered
    cases answered
    rfl
  | @untagged uri w held asked =>
    exact ⟨(told held asked (v := State.confirm ⟨s.session, w⟩ u.total) rfl rfl rfl).1, nofun, nofun⟩
  | @refused uri status w held asked auth =>
    exact ⟨(told held asked (v := ⟨s.session, w⟩) rfl rfl rfl).1, nofun, nofun⟩
  | @failed uri e w held asked disposition =>
    exact ⟨(told held asked (v := ⟨s.session, w⟩) rfl rfl rfl).1, nofun, nofun⟩

/-- What data adds to the session is what is counted as received. -/
theorem put_counts (hc : u.connection = Server.connection) {uri : SessionUri} {reader : Reader}
    {answer : Except Error Response} {body : SourceBody} {w : World Server}
    (put : u.connection.send (dataRequest uri (u.offset s) u.total) (u.rest s) reader
      (u.connection.wait s.world) = (answer, body, w))
    (known : s.session.uri = some uri) (stands : s.session.confirmed = s.held u.total)
    (small : u.total < Text.Unsigned.limit) (regular : s.world.peer.Regular) :
    w.peer.Regular ∧
      min (w.peer.held u.total (some uri)) u.total + s.world.peer.bytesReceived =
        min (s.held u.total) u.total + w.peer.bytesReceived ∧
      ∀ eTag, answer.bind storedTag = .ok eTag → w.peer.held u.total (some uri) = u.total := by
  have waits : Server.connection.Waits fun p _ => p = s.world.peer := fun _ _ same => same
  obtain ⟨received, p, f, same, few, answered, peer⟩ :=
    Connection.send_answer waits (dataRequest uri (u.offset s) u.total) (u.rest s) reader
      (Server.connection.wait s.world) rfl
  rw [← hc, put] at answered peer
  dsimp only at answered peer
  rw [hc, same] at answered peer
  have offset : u.offset s = min (s.world.peer.held u.total (some uri)) u.total := by
    rw [Job.offset, stands, State.held, known]
  obtain ⟨regular', counted⟩ := regular.data offset small few f
  have tells : ∀ eTag, answer.bind storedTag = .ok eTag → w.peer.Tells uri.uri eTag := by
    intro eTag stored
    rw [answered] at stored
    rw [peer]
    exact Server.tells_answer f rfl (Answer.stored_iff.2 stored)
  refine ⟨peer ▸ regular', ?_, fun eTag stored => (tells eTag stored).held⟩
  rw [State.held, known, ← offset, peer]
  exact counted

theorem Sends.counts (hc : u.connection = Server.connection) {uri : SessionUri}
    {result : Except Error String} (h : u.Sends uri s result t) (known : s.session.uri = some uri)
    (stands : s.session.confirmed = s.held u.total) (small : u.total < Text.Unsigned.limit)
    (regular : s.world.peer.Regular) :
    t.world.peer.Regular ∧ t.session.startPoint = s.session.startPoint ∧
      min (t.held u.total) u.total + s.world.peer.bytesReceived =
        min (s.held u.total) u.total + t.world.peer.bytesReceived ∧
      ∀ eTag, result = .ok eTag → t.held u.total = u.total := by
  cases h with
  | unopened opened =>
    rw [hc]
    exact ⟨regular, rfl, rfl, nofun⟩
  | changed opened put changed =>
    obtain ⟨regular', counted, -⟩ := put_counts hc put known stands small regular
    refine ⟨regular', rfl, ?_, nofun⟩
    rw [State.held, known]
    exact counted
  | stored opened put same answered =>
    obtain ⟨regular', counted, all⟩ := put_counts hc put known stands small regular
    refine ⟨regular', rfl, ?_, fun _ _ => ?_⟩
    · rw [State.held, known]
      exact counted
    · rw [State.held, known]
      exact all _ answered
  | @failed reader answer body w e opened put same answered =>
    obtain ⟨regular', counted, -⟩ := put_counts hc put known stands small regular
    obtain ⟨n, session⟩ := afterFailure_session u uri e ⟨s.session, w⟩
    have world := afterFailure_world u uri e ⟨s.session, w⟩
    obtain ⟨-, peer⟩ := Server.exchange_connection (queryRequest uri u.total) w
    rw [hc] at world
    dsimp only at world
    rw [← world] at peer
    have rests := (regular'.query (Server.kindOf_query uri u.total) u.total .nothing w.files).1
    rw [← peer] at rests
    refine ⟨rests.regular regular', by rw [session], ?_, nofun⟩
    rw [State.held, session, known, rests.held, rests.received]
    exact counted

theorem Finishes.level (hc : u.connection = Server.connection) {eTag : String}
    {result : Except Error Output} (h : u.Finishes eTag s result t) (regular : s.world.peer.Regular) :
    s.Level u.total t ∧
      ∀ output, result = .ok output → output.startPoint = s.session.startPoint.getD 0 := by
  have session := u.session_cleared s
  have peer : (u.cleared s).world.peer = s.world.peer := peer_removeTracker _ _
  have cleared : s.Level u.total (u.cleared s) :=
    State.level_of_rests regular (peer ▸ .refl _) (by rw [session]) (by rw [session]) u.total
  cases h with
  | verified same =>
    refine ⟨cleared, ?_⟩
    rintro output ⟨⟩
    rw [session]
  | undeleted differs made => exact ⟨cleared, nofun⟩
  | @deleted request differs made =>
    obtain ⟨-, after⟩ := Server.exchange_connection request (u.cleared s).world
    have deletes : request.method = .delete := by
      unfold deleteRequest at made
      split at made
      · cases made
      · cases made
        rfl
    have rests := Server.rests_delete deletes s.world.peer .nothing (u.cleared s).world.files
    rw [peer, ← hc] at after
    rw [← after] at rests
    exact ⟨State.level_of_rests regular rests (by rw [session]) (by rw [session]) u.total, nofun⟩

end Job

/-- A call that began when `held` bytes of the object were held and `received` bytes had been received: all
that was received since is in the session. The start point is that of the handler, or else what was held. -/
structure Counting (total held received : Nat) (start : Option Nat) (s : State Server) : Prop where
  regular : s.world.peer.Regular
  counted : min (s.held total) total + received = min held total + s.world.peer.bytesReceived
  started : s.session.startPoint = start ∧ s.held total = held ∨
    s.session.startPoint = some (start.getD held)

namespace Counting
variable {total held received : Nat} {start : Option Nat} {s t : State Server}

theorem level (h : Counting total held received start s) (level : s.Level total t) :
    Counting total held received start t := by
  refine ⟨level.regular, ?_, ?_⟩
  · rw [level.held, level.received]
    exact h.counted
  · rw [level.held, level.startPoint]
    exact h.started

theorem startAt (h : Counting total held received start s) :
    Counting total held received start (s.startAt (s.held total)) ∧
      (s.startAt (s.held total)).session.startPoint = some (start.getD held) := by
  have set : (s.startAt (s.held total)).session.startPoint = some (start.getD held) := by
    rcases h.started with ⟨first, none⟩ | later
    · rw [State.startAt, first, none]
    · rw [State.startAt, later, Option.getD_some]
  exact ⟨⟨h.regular, h.counted, .inr set⟩, set⟩

/-- The rest is sent from a session that was found open or started. -/
theorem sends {u : Job Server} (hc : u.connection = Server.connection)
    (small : u.total < Text.Unsigned.limit) (hs : Counting u.total held received start s)
    {uri : SessionUri} (known : s.session.uri = some uri)
    (stands : s.session.confirmed = s.held u.total) {result : Except Error String}
    (sent : u.Sends uri (s.startAt s.session.confirmed) result t) :
    Counting u.total held received start t ∧ t.session.startPoint = some (start.getD held) ∧
      ∀ eTag, result = .ok eTag → t.held u.total = u.total := by
  have confirmed : (s.startAt s.session.confirmed).session.confirmed =
    (s.startAt s.session.confirmed).held u.total := stands
  rw [stands] at sent confirmed
  obtain ⟨begun, set⟩ := hs.startAt
  obtain ⟨regular, startPoint, counted, all⟩ := sent.counts hc known confirmed small begun.regular
  have total := begun.counted
  refine ⟨⟨regular, by omega, .inr (startPoint.trans set)⟩, startPoint.trans set, all⟩

theorem goes {u : Job Server} (hc : u.connection = Server.connection)
    (small : u.total < Text.Unsigned.limit) {result : Except Error Output} (h : u.Goes s result t)
    (hs : Counting u.total held received start s) :
    Counting u.total held received start t ∧ ∀ output, result = .ok output →
      t.held u.total = u.total ∧ t.session.confirmed = u.total ∧
        output.startPoint = start.getD held := by
  have begun : u.begun s = s := by
    rw [Job.begun, hc]
    rfl
  cases h with
  | unreadable size => exact ⟨begun.symm ▸ hs, fun _ failed => by cases failed⟩
  | resized size differs => exact ⟨begun.symm ▸ hs, fun _ failed => by cases failed⟩
  | unresumed size resumed =>
    rw [begun] at resumed
    exact ⟨hs.level (resumed.level hc hs.regular).1, fun _ failed => by cases failed⟩
  | @complete eTag t' _ _ size resumed finished =>
    rw [begun] at resumed
    obtain ⟨level, -, all⟩ := resumed.level hc hs.regular
    obtain ⟨hs, set⟩ := (hs.level level).startAt
    rw [all _ rfl] at hs set
    obtain ⟨level, first⟩ := finished.level hc hs.regular
    refine ⟨hs.level level, fun output succeeded => ⟨level.held.trans (all _ rfl), finished.confirmed, ?_⟩⟩
    rw [first output succeeded, set, Option.getD_some]
  | unsent size resumed known sent =>
    rw [begun] at resumed
    obtain ⟨level, stands, -⟩ := resumed.level hc hs.regular
    exact ⟨((hs.level level).sends hc small known (stands rfl) sent).1, fun _ failed => by cases failed⟩
  | sent size resumed known sent finished =>
    rw [begun] at resumed
    obtain ⟨level, stands, -⟩ := resumed.level hc hs.regular
    obtain ⟨hs, set, all⟩ := (hs.level level).sends hc small known (stands rfl) sent
    obtain ⟨level, first⟩ := finished.level hc hs.regular
    refine ⟨hs.level level, fun output succeeded => ⟨level.held.trans (all _ rfl), finished.confirmed, ?_⟩⟩
    rw [first output succeeded, set, Option.getD_some]

end Counting

namespace Handler
variable {h h' : Handler} {buffer : Nat} {task : Task} {w w' : World Server}
  {result : Except Error Output}

theorem startPoint_loadTracker (h : Handler) (files : Files.Store) :
    (h.loadTracker files).startPoint = h.session.startPoint := by
  unfold loadTracker
  split
  · rfl
  · dsimp only
    split
    · rfl
    · rfl

/-- The source is looked at before the first attempt, and nothing is sent. -/
theorem Inspects.found {answer : Except Error (Nat × String)} {v : World Server}
    (inspected : Inspects Server.connection task w answer v) :
    v.peer = w.peer ∧ ∀ total md5, answer = .ok (total, md5) →
      task.source.size w.files = .ok total := by
  have files : (Server.connection.wait { w with metrics := w.metrics.initiate }).files = w.files := rfl
  unfold Inspects inspect at inspected
  dsimp only at inspected
  rw [files] at inspected
  cases size : task.source.size w.files with
  | error e =>
    rw [size] at inspected
    cases inspected
    exact ⟨rfl, nofun⟩
  | ok total =>
    rw [size] at inspected
    dsimp only at inspected
    obtain ⟨rfl, rfl⟩ := Prod.mk.inj inspected
    refine ⟨rfl, fun n md5 found => ?_⟩
    cases digest : task.source.md5 (Server.connection.wait
      (Server.connection.wait { w with metrics := w.metrics.initiate })).files with
    | error e =>
      rw [digest] at found
      cases found
    | ok text =>
      rw [digest] at found
      cases found
      rfl

theorem Begins.counting (regular : w.peer.Regular)
    (small : ∀ n, task.source.size w.files = .ok n → n < Text.Unsigned.limit) {u : Job Server}
    {s : State Server} (begun : h.Begins Server.connection buffer task w u s) :
    u.connection = Server.connection ∧ task.source.size w.files = .ok u.total ∧
      Counting u.total (w.peer.held u.total (h.loadTracker w.files).uri) w.peer.bytesReceived
        h.session.startPoint s := by
  refine begun.invariant (I := fun u s => u.connection = Server.connection ∧
    task.source.size w.files = .ok u.total ∧
      Counting u.total (w.peer.held u.total (h.loadTracker w.files).uri) w.peer.bytesReceived
        h.session.startPoint s) ?_ ?_
  · rintro _ _ ⟨inspected⟩
    obtain ⟨peer, found⟩ := inspected.found
    refine ⟨rfl, found _ _ rfl, ?_, ?_, .inl ⟨h.startPoint_loadTracker w.files, ?_⟩⟩
    · rw [peer]
      exact regular
    · rw [State.held, peer]
    · rw [State.held, peer]
  · rintro u s t e ⟨hc, size, counting⟩ attempted -
    exact ⟨hc, size, (counting.goes hc (small _ size) (Job.goes attempted)).1⟩

/-- What a call that succeeds gives as its start point, and what the store received in it. -/
theorem Returns.counts (regular : w.peer.Regular)
    (small : ∀ n, task.source.size w.files = .ok n → n < Text.Unsigned.limit)
    (returned : h.Returns Server.connection buffer task w result h' w') :
    w'.peer.Regular ∧ ∀ output, result = .ok output → ∃ total,
      task.source.size w.files = .ok total ∧ h'.session.confirmed = total ∧
      output.startPoint =
        h.session.startPoint.getD (w.peer.held total (h.loadTracker w.files).uri) ∧
      w'.peer.bytesReceived =
        w.peer.bytesReceived + (total - w.peer.held total (h.loadTracker w.files).uri) := by
  obtain ⟨-, ended⟩ := returned.ended
  generalize w'.peer = peer at ended ⊢
  generalize w'.files = files at ended
  generalize h'.session = session at ended ⊢
  cases ended with
  | uninspected inspected =>
    rw [inspected.found.1]
    exact ⟨regular, nofun⟩
  | @attempted u s t number _ begun ends =>
    obtain ⟨hc, size, counting⟩ := begun.counting regular small
    have goes {r : Except Error Output} {t : State Server} (attempt : u.attempt s = (r, t)) :=
      counting.goes hc (small _ size) (Job.goes attempt)
    cases ends with
    | finished attempt =>
      obtain ⟨after, succeeded⟩ := goes attempt
      refine ⟨after.regular, fun output same => ?_⟩
      obtain ⟨all, confirmed, startPoint⟩ := succeeded output same
      have counted := after.counted
      rw [all] at counted
      exact ⟨_, size, confirmed, startPoint, by omega⟩
    | left attempt kept => exact ⟨(goes attempt).1.regular, nofun⟩
    | @abandoned _ t attempt abort =>
      have peer : (u.discard t).world.peer = t.world.peer := Job.peer_discard u t
      exact ⟨peer ▸ (goes attempt).1.regular, nofun⟩
    | exhausted attempt retryable => exact ⟨(goes attempt).1.regular, nofun⟩

/-- The world of a client whose counters began at nothing, after some calls to the store in memory, of any
handlers. Between them anything may happen to the files and the store; only no answers are arranged for. -/
inductive Accounts : World Server → Prop
  | new {w : World Server} (counters : w.metrics = .zero) (regular : w.peer.Regular) : Accounts w
  | rearranged {w v : World Server} (before : Accounts w) (metrics : v.metrics = w.metrics)
      (regular : v.peer.Regular) : Accounts v
  | called {w v : World Server} {h h' : Handler} {buffer : Nat} {task : Task}
      {result : Except Error Output} (before : Accounts w)
      (small : ∀ n, task.source.size w.files = .ok n → n < Text.Unsigned.limit)
      (returned : h.Returns Server.connection buffer task w result h' v) : Accounts v

theorem Accounts.balance (accounts : Accounts w) :
    w.peer.Regular ∧ w.metrics.initiated = w.metrics.completed + w.metrics.failed := by
  induction accounts with
  | new counters regular => exact ⟨regular, by rw [counters]; rfl⟩
  | rearranged before metrics regular ih => exact ⟨regular, by rw [metrics]; exact ih.2⟩
  | @called w v h h' buffer task result before small returned ih =>
    refine ⟨(returned.counts ih.1 small).1, ?_⟩
    have balance := ih.2
    rw [returned.counted]
    cases result with
    | ok output =>
      dsimp only [Metrics.record, Metrics.initiate]
      omega
    | error e =>
      dsimp only [Metrics.record, Metrics.initiate]
      omega

/-- After any calls, and one more that returns: every call was counted as one that succeeded or failed. A
failed call adds nothing to the bytes. One that succeeded adds the size of the object less its start point,
which is the one that the handler had before, and without one it is what the store held when the call began;
the store received what it did not hold. So the two are the same where the handler had no start point. -/
theorem uploads_count_from_start_point (accounts : Accounts w)
    (small : ∀ n, task.source.size w.files = .ok n → n < Text.Unsigned.limit)
    (returned : h.Returns Server.connection buffer task w result h' w') :
    w'.metrics.initiated = w'.metrics.completed + w'.metrics.failed ∧
    (∀ e, result = .error e → w'.metrics.bytes = w.metrics.bytes) ∧
    ∀ output, result = .ok output → ∃ total, task.source.size w.files = .ok total ∧
      output.startPoint =
        h.session.startPoint.getD (w.peer.held total (h.loadTracker w.files).uri) ∧
      w'.metrics.bytes = w.metrics.bytes + (total - output.startPoint) ∧
      w'.peer.bytesReceived =
        w.peer.bytesReceived + (total - w.peer.held total (h.loadTracker w.files).uri) ∧
      (h.session.startPoint = none →
        w'.metrics.bytes - w.metrics.bytes = w'.peer.bytesReceived - w.peer.bytesReceived) := by
  obtain ⟨regular, -⟩ := accounts.balance
  refine ⟨(Accounts.called accounts small returned).balance.2, ?_, ?_⟩
  · rintro e rfl
    rw [returned.counted]
    rfl
  · rintro output rfl
    obtain ⟨total, size, confirmed, startPoint, received⟩ :=
      (returned.counts regular small).2 output rfl
    have bytes : w'.metrics.bytes = w.metrics.bytes + (total - output.startPoint) := by
      rw [returned.counted, ← confirmed]
      rfl
    refine ⟨total, size, startPoint, bytes, received, fun none => ?_⟩
    rw [none, Option.getD_none] at startPoint
    rw [bytes, received, startPoint]
    omega

end Handler

theorem threeBytes_small (files : Files.Store) (n : Nat)
    (size : threeBytes.source.size files = .ok n) : n < Text.Unsigned.limit := by
  cases size
  decide

theorem regular_cutting (limits : List Nat) : (cutting limits).Regular :=
  ⟨rfl, fun _ member => absurd member List.not_mem_nil⟩

theorem repeated_upload_returns : ∃ output h' w' v,
    (newcomer ⟨"t"⟩ 0 .restart).Returns Server.connection 8 threeBytes
      (.initial (cutting []) .empty) (.ok output) h' w' ∧
    h'.Returns Server.connection 8 threeBytes w' (.ok output) h' v ∧
    Handler.moved (.ok output) h'.session = 3 ∧ v.peer.bytesReceived = w'.peer.bytesReceived := by
  obtain ⟨output, h', w', returned, plain⟩ := fresh_upload_succeeds
  have unscripted := Server.scripted?_eq_none plain .query
  obtain ⟨uri, done⟩ := returned.completed rfl
  obtain ⟨v, x, again, -, peer, -⟩ :
      ∃ v x, h'.Returns Server.connection.observed 8 threeBytes w' (.ok output) h' v ∧ _ :=
    done.again unscripted
  obtain ⟨-, succeeded⟩ := returned.bare.counts (regular_cutting []) (threeBytes_small _)
  obtain ⟨total, size, confirmed, startPoint, -⟩ := succeeded output rfl
  cases size
  refine ⟨output, h', w'.bare, v.bare, returned.bare, again.bare, ?_, ?_⟩
  · simp only [Handler.moved, confirmed, startPoint]
    rfl
  · have asked : v.bare.peer = w'.bare.peer.note (some .query) x.request .empty :=
      congrArg Observed.peer peer
    rw [asked, Server.bytesReceived_note_query]

/-- The second upload sends nothing, and is counted once more with all its bytes. -/
theorem repeated_upload_counts_twice : ∃ (output : Output) (h' : Handler) (w' v : World Server),
    (newcomer ⟨"t"⟩ 0 .restart).Returns Server.connection 8 threeBytes
      (.initial (cutting []) .empty) (.ok output) h' w' ∧
    h'.Returns Server.connection 8 threeBytes w' (.ok output) h' v ∧
      v.peer.bytesReceived = w'.peer.bytesReceived ∧ v.metrics.bytes = w'.metrics.bytes + 3 := by
  obtain ⟨output, h', w', v, first, second, moved, same⟩ := repeated_upload_returns
  refine ⟨output, h', w', v, first, second, same, ?_⟩
  rw [second.counted, moved]
  rfl

/-- The first upload is counted with what it sent. -/
theorem first_upload_counts_once : ∃ output h' w',
    (newcomer ⟨"t"⟩ 0 .restart).Returns Server.connection 8 threeBytes
      (.initial (cutting []) .empty) (.ok output) h' w' ∧
    w'.metrics.initiated = w'.metrics.completed + w'.metrics.failed ∧
    w'.metrics.bytes = 3 ∧ w'.peer.bytesReceived = 3 := by
  obtain ⟨output, h', w', v, first, -⟩ := repeated_upload_returns
  obtain ⟨balance, -, succeeded⟩ := Handler.uploads_count_from_start_point
    (.new rfl (regular_cutting [])) (threeBytes_small _) first
  obtain ⟨total, size, -, -, received, fresh⟩ := succeeded output rfl
  cases size
  have bytes : w'.metrics.bytes = w'.peer.bytesReceived := fresh rfl
  exact ⟨output, h', w', first, balance, bytes.trans received, received⟩

end ObjectTransfer.Upload
