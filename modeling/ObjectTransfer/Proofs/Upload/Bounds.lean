import ObjectTransfer.Proofs.Retry.Bounds
import ObjectTransfer.Proofs.Upload.Course
import ObjectTransfer.Proofs.Upload.Send
/-!
How long an upload goes on. Progress is whatever the store says it holds. A store that never names more
bytes than the object has is asked only so often, unless it loses bytes that it had: each of these can be
sent again, and counts as progress again.
-/
namespace ObjectTransfer

/-- No answer that says how much is held of a session names more than this many bytes. -/
def Connection.NamesAtMost {σ : Type} (c : Connection σ) (bound : Nat) : Prop :=
  ∀ request received peer files response n,
    (c.answer request received peer files).1 = .ok response →
    Upload.stateOf response = .ok (.incomplete n) → n ≤ bound

namespace Upload

namespace Job
variable {σ : Type} {u : Job σ} {uri : SessionUri} {s t : State σ} {w : World σ} {bound : Nat}

theorem query_le (names : u.connection.NamesAtMost bound) {n : Nat} {v : World σ}
    (asked : u.query uri w = (.ok (.incomplete n), v)) : n ≤ bound := by
  have answer := congrArg Prod.fst asked
  rw [query_answer] at answer
  cases response : (u.connection.exchange (queryRequest uri u.total) w).1 with
  | error e =>
    rw [response] at answer
    cases answer
  | ok response' =>
    rw [response] at answer
    exact names _ _ _ _ _ _ response answer

theorem Starts.confirmed {result : Except Error Unit} (h : u.Starts s result t) :
    t.session.confirmed = 0 := by
  cases h with
  | unmade made => rfl
  | failed made asked => rfl
  | refused made asked answered => rfl
  | untracked made asked answered tracker => rfl
  | saved made asked answered tracker save => rfl
  | unsaved made asked answered tracker save => rfl

theorem Resumes.confirmed_le (names : u.connection.NamesAtMost bound) (total : u.total ≤ bound)
    {result : Except Error (Option String)} (h : u.Resumes s result t) :
    t.session.confirmed ≤ max bound s.session.confirmed := by
  cases h with
  | began held started => exact started.confirmed ▸ Nat.zero_le _
  | restarted held asked stale started => exact started.confirmed ▸ Nat.zero_le _
  | incomplete held asked => exact Nat.le_trans (query_le names asked) (Nat.le_max_left _ _)
  | complete held asked => exact Nat.le_trans total (Nat.le_max_left _ _)
  | untagged held asked => exact Nat.le_trans total (Nat.le_max_left _ _)
  | refused held asked auth => exact Nat.le_max_right _ _
  | failed held asked disposition => exact Nat.le_max_right _ _

theorem afterFailure_confirmed_le (names : u.connection.NamesAtMost bound) (e : Error)
    (s : State σ) :
    (u.afterFailure uri e s).2.session.confirmed ≤ max bound s.session.confirmed := by
  unfold afterFailure
  split
  · rename_i asked
    exact Nat.le_trans (query_le names asked) (Nat.le_max_left _ _)
  · exact Nat.le_max_right _ _
  · exact Nat.le_max_right _ _

theorem Sends.confirmed_le (names : u.connection.NamesAtMost bound)
    {result : Except Error String} (h : u.Sends uri s result t) :
    t.session.confirmed ≤ max bound s.session.confirmed := by
  cases h with
  | unopened opened => exact Nat.le_max_right _ _
  | changed opened put changed => exact Nat.le_max_right _ _
  | stored opened put same answered => exact Nat.le_max_right _ _
  | failed opened put same answered => exact afterFailure_confirmed_le names _ _

theorem Finishes.confirmed {eTag : String} {result : Except Error Output}
    (h : u.Finishes eTag s result t) : t.session.confirmed = u.total := by
  have cleared : (u.cleared s).session.confirmed = u.total := by
    rw [Job.cleared, session_removeTracker]
    rfl
  cases h with
  | verified same => exact cleared
  | undeleted differs made => exact cleared
  | deleted differs made => exact cleared

/-- What the store is known to hold after an attempt is no more than what it may name. -/
theorem Goes.confirmed_le (names : u.connection.NamesAtMost bound) (total : u.total ≤ bound)
    {result : Except Error Output} (h : u.Goes s result t) :
    t.session.confirmed ≤ max bound s.session.confirmed := by
  cases h with
  | unreadable size => exact Nat.le_max_right _ _
  | resized size differs => exact Nat.le_max_right _ _
  | unresumed size resumed =>
    have le := resumed.confirmed_le names total
    exact le
  | complete size resumed finished =>
    exact finished.confirmed ▸ Nat.le_trans total (Nat.le_max_left _ _)
  | unsent size resumed held sent =>
    have le := resumed.confirmed_le names total
    have le' := sent.confirmed_le names
    exact Nat.le_trans le' (Nat.max_le.2 ⟨Nat.le_max_left _ _, le⟩)
  | sent size resumed held sent finished =>
    exact finished.confirmed ▸ Nat.le_trans total (Nat.le_max_left _ _)

theorem reaches_confirmed_le (names : u.connection.NamesAtMost bound) (total : u.total ≤ bound)
    {retries made idle : Nat} (reached : u.resumable.Reaches retries s made idle t) :
    t.session.confirmed ≤ max bound s.session.confirmed := by
  refine reached.invariant (I := fun t : State σ =>
    t.session.confirmed ≤ max bound s.session.confirmed) (Nat.le_max_right _ _) ?_
  intro v v' e le attempted _
  exact Nat.le_trans ((goes attempted).confirmed_le names total)
    (Nat.max_le.2 ⟨Nat.le_max_left _ _, le⟩)

end Job

/-- The attempts of an upload are bounded by the bytes that may be named and the bytes that are lost:
an attempt has no greater number than the bytes that are missing, and those the store has lost between
the attempts before it, and the retries allow. If no more than some number of bytes is lost, however
many attempts are made, the call ends after that many attempts. -/
theorem attempts_bounded_by_lost_bytes {σ : Type} (h : Handler) (c : Connection σ) (buffer : Nat)
    (task : Handler.Task) (w : World σ) {bound : Nat} (names : c.NamesAtMost bound) :
    ((∀ u s, ¬ h.Opens c buffer task w u s) → (h.send c buffer 0 task w).isSome) ∧
    ∀ u s, h.Opens c buffer task w u s → u.total ≤ bound →
      (∀ made idle t, u.resumable.Reaches h.retries s made idle t →
        made < (bound - s.session.confirmed + u.resumable.fallen s made + 1) * (h.retries + 1)) ∧
      ∀ lost, (∀ made idle t, u.resumable.Reaches h.retries s made idle t →
          u.resumable.fallen s made ≤ lost) →
        (h.send c buffer ((bound - s.session.confirmed + lost + 1) * (h.retries + 1)) task
          w).isSome := by
  refine ⟨fun unopened => Handler.send_of_unopened unopened 0, fun u s opens total => ?_⟩
  have names : u.connection.NamesAtMost bound := opens.connection ▸ names
  have within (made idle : Nat) (t : State σ)
      (reached : u.resumable.Reaches h.retries s made idle t) :
      u.resumable.confirmed t ≤ max bound s.session.confirmed :=
    Job.reaches_confirmed_le names total reached
  -- a count that is too great from the start can only fall
  have missing : max bound s.session.confirmed - u.resumable.confirmed s =
      bound - s.session.confirmed := by
    have first : u.resumable.confirmed s = s.session.confirmed := rfl
    omega
  constructor
  · intro made idle t reached
    have few := reached.made_lt (within made idle t reached)
    rwa [missing] at few
  · intro lost loses
    have ends := Resumable.run_isSome_of_fallen within loses
    rw [missing] at ends
    rwa [opens.isSome_send]

instance : DecidableEq Files.Content
  | .plain written zeros, .plain written' zeros' =>
    decidable_of_iff (written.data = written'.data ∧ zeros = zeros') (by
      rcases written with ⟨written⟩
      rcases written' with ⟨written'⟩
      simp only [Files.Content.plain.injEq, ByteArray.mk.injEq])
  | .device fault, .device fault' => decidable_of_iff (fault = fault') (by
      simp only [Files.Content.device.injEq])
  | .plain _ _, .device _ => isFalse fun same => by cases same
  | .device _, .plain _ _ => isFalse fun same => by cases same

deriving instance DecidableEq for Files.Store, World, State

/-- A store that never takes an object of two bytes: it has the first of them after every other attempt
to send it, and has lost it after the next one. -/
def wavering : Connection Bool where
  arrive _ has files := (has, files)
  wants _ _ _ := true
  answer request _ has files :=
    if request.method = .post then
      (.ok ⟨⟨200⟩, [("location", .text "http://h/b/k?upload_id=1")], .empty⟩, has, files)
    else if Http.Headers.text? request.headers "content-length" = some "0" then
      (.ok ⟨⟨308⟩, if has then [("range", .text "bytes=0-0")] else [], .empty⟩, has, files)
    else (.ok ⟨⟨503⟩, [], .empty⟩, !has, files)

theorem namesAtMost_wavering : wavering.NamesAtMost 2 := by
  intro request received has files response n answered state
  have one : stateOf ⟨⟨308⟩, [("range", .text "bytes=0-0")], .empty⟩ = .ok (.incomplete 1) := by
    decide +kernel
  have none : stateOf ⟨⟨308⟩, [], .empty⟩ = .ok (.incomplete 0) := by decide +kernel
  simp only [wavering] at answered
  split at answered
  · cases answered
    cases state
  · split at answered
    · cases has with
      | true =>
        cases answered
        cases one.symm.trans state
        decide
      | false =>
        cases answered
        cases none.symm.trans state
        decide
    · cases answered
      cases state

/-- Two bytes for an object, and a handler that tries once more when there was no progress. -/
def twoBytes : Handler.Task := ⟨⟨"http://h", "b", "k"⟩, .bytes ⟨#[1, 2]⟩, [], none⟩

def persistent : Handler := ⟨none, 1, .restart, .none⟩

def waveringJob : Job Bool := persistent.job wavering 8192 twoBytes 2 (Digest.md5Hex ⟨#[1, 2]⟩)

def waveringState : State Bool :=
  ⟨persistent.loadTracker .empty,
    { World.initial false .empty with metrics := Metrics.zero.initiate }⟩

theorem opens_wavering : persistent.Opens wavering 8192 twoBytes (.initial false .empty) waveringJob
    waveringState := .intro (Handler.inspects_bytes _ _ _ _ _ _)

/-- The state after an attempt, when the store has a byte and when it has lost it. -/
def waved (has : Bool) : State Bool :=
  ⟨⟨some ⟨⟨some "http", some "h", "/b/k", some "upload_id=1"⟩⟩, if has then 1 else 0, true, some 0⟩,
    { World.initial has .empty with metrics := Metrics.zero.initiate }⟩

/-- What an attempt gives can be tried again. -/
def isRetried (result : Except Error Output) : Bool :=
  match result with
  | .ok _ => false
  | .error e => e.isRetryable

theorem attempted_of_isRetried {s t : State Bool} (retried : isRetried (waveringJob.attempt s).1)
    (after : (waveringJob.attempt s).2 = t) :
    ∃ e, waveringJob.resumable.attempt s = (.error e, t) ∧ e.isRetryable := by
  have same : waveringJob.resumable.attempt s = waveringJob.attempt s := rfl
  rw [same]
  rcases given : waveringJob.attempt s with ⟨result, t'⟩
  rw [given] at retried after
  cases result with
  | ok output => cases retried
  | error e => exact ⟨e, congrArg _ after, retried⟩

theorem runFrom_wavering (limit made : Nat) (pauses : List Nat) :
    waveringJob.resumable.runFrom 1 limit made 0 pauses (waved true) = none ∧
      waveringJob.resumable.runFrom 1 limit made 1 pauses (waved false) = none := by
  obtain ⟨e, loses, again⟩ := attempted_of_isRetried (s := waved true) (t := waved false)
    (by decide +kernel) (by decide +kernel)
  obtain ⟨e', gains, again'⟩ := attempted_of_isRetried (s := waved false) (t := waved true)
    (by decide +kernel) (by decide +kernel)
  induction limit generalizing made pauses with
  | zero => exact ⟨rfl, rfl⟩
  | succ limit ih =>
    unfold Resumable.runFrom
    rw [Resumable.turn_of_attempt loses again (by decide),
      Resumable.turn_of_attempt gains again' (by decide)]
    exact ⟨(ih _ _).2, (ih _ _).1⟩

theorem run_wavering (limit : Nat) : waveringJob.resumable.run 1 limit waveringState = none := by
  obtain ⟨e, begins, again⟩ := attempted_of_isRetried (s := waveringState) (t := waved true)
    (by decide +kernel) (by decide +kernel)
  unfold Resumable.run
  cases limit with
  | zero => rfl
  | succ limit =>
    unfold Resumable.runFrom
    rw [Resumable.turn_of_attempt begins again (by decide)]
    exact (runFrom_wavering limit _ _).1

/-- Two bytes and one retry would make six attempts, but this call has never made its last one. -/
theorem wavering_upload_never_ends :
    persistent.Opens wavering 8192 twoBytes (.initial false .empty) waveringJob waveringState ∧
    waveringJob.total = 2 ∧ persistent.retries = 1 ∧
    ∀ limit, persistent.send wavering 8192 limit twoBytes (.initial false .empty) = none := by
  refine ⟨opens_wavering, rfl, rfl, fun limit => ?_⟩
  have retries : persistent.retries = 1 := rfl
  have same := opens_wavering.isSome_send limit
  rw [retries, run_wavering limit] at same
  exact Option.isNone_iff_eq_none.1 (Option.isSome_eq_false_iff.1 same)

/-- The store of that call has lost a byte by then. -/
theorem wavering_loses_bytes : 1 ≤ waveringJob.resumable.fallen waveringState 6 := by
  obtain ⟨-, bounded⟩ := attempts_bounded_by_lost_bytes persistent wavering 8192 twoBytes
    (.initial false .empty) namesAtMost_wavering
  obtain ⟨few, -⟩ := bounded _ _ opens_wavering (Nat.le_refl 2)
  obtain ⟨idle, t, reached⟩ := Resumable.Reaches.start.runFrom_eq_none (run_wavering 6)
  have bound := few _ idle t reached
  have first : waveringState.session.confirmed = 0 := rfl
  have retries : persistent.retries = 1 := rfl
  rw [first, retries, Nat.zero_add] at bound
  omega

end Upload

end ObjectTransfer
