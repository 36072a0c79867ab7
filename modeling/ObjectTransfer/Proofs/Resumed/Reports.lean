import ObjectTransfer.Proofs.Progress
import ObjectTransfer.Proofs.Resumed.Endings
import ObjectTransfer.Proofs.Resumed.Unwatched
import ObjectTransfer.Rehearsal.MemoryObject
/-!
Progress reports of a resumed download. Each request for the rest of the object is announced with the
length from which it goes on, and what comes is reported buffer by buffer; that all is there is reported
by the attempt whose response comes to its end. A response that breaks off behind the last byte makes the
next attempt find a complete destination, and that one reports nothing.
-/
namespace ObjectTransfer

theorem RangeSource.Spares.observed {σ : Type} {r : RangeSource σ} {path : String}
    (spares : r.Spares path) : r.observed.Spares path where
  inspect s _ tidy := spares.inspect s.peer tidy
  fetch range s _ tidy := spares.fetch range s.peer tidy

/-- A range that is asked for is noted with what is given for it. -/
theorem RangeSource.log_getRange {σ : Type} (source : RangeSource σ) (range : Http.ByteRange)
    (w : World (Fetches σ)) : (source.observed.getRange range w).2.peer.log =
      w.peer.log ++ [⟨range, (source.observed.getRange range w).1⟩] := rfl

theorem RangeSource.reports_getRange {σ : Type} (source : RangeSource σ) (range : Http.ByteRange)
    (w : World σ) : (source.getRange range w).2.reports = w.reports := rfl

namespace Download
open Files Progress

/-- Where the chunks end that come before the first failure, when the first of them begins at an
offset. -/
def marks : (offset : Nat) → List (Except Cause ByteArray) → List Nat
  | offset, .ok chunk :: rest => (offset + chunk.size) :: marks (offset + chunk.size) rest
  | _, _ => []

def farthest : (offset : Nat) → List (Except Cause ByteArray) → Nat
  | offset, .ok chunk :: rest => farthest (offset + chunk.size) rest
  | offset, _ => offset

def BrokenOff (items : List (Except Cause ByteArray)) : Prop := ∃ cause, .error cause ∈ items

variable {σ : Type} {r : Reporter} {total buffer start k : Nat} {items : List (Except Cause ByteArray)}

theorem le_farthest (k : Nat) (items : List (Except Cause ByteArray)) : k ≤ farthest k items := by
  induction items generalizing k with
  | nil => exact Nat.le_refl k
  | cons item rest ih =>
    cases item with
    | error cause => exact Nat.le_refl k
    | ok chunk => exact Nat.le_trans (Nat.le_add_right _ _) (ih _)

theorem climbs_marks (total k : Nat) (items : List (Except Cause ByteArray)) :
    Climbs total k (farthest k items) ((marks k items).map fun done => (done, total)) := by
  induction items generalizing k with
  | nil => exact .nil
  | cons item rest ih =>
    cases item with
    | error cause => exact .nil
    | ok chunk =>
      have first : k ≤ k + chunk.size := Nat.le_add_right _ _
      exact (Climbs.one first (Nat.le_refl _)).append (ih _) first (le_farthest _ rest)

theorem brokenOff_cons (chunk : ByteArray) (rest : List (Except Cause ByteArray)) :
    BrokenOff (.ok chunk :: rest) ↔ BrokenOff rest := by
  simp [BrokenOff]

/-- What is reported of the response to a request for the rest behind the first `k` bytes. -/
def heard (r : Reporter) (total buffer k : Nat) (items : List (Except Cause ByteArray)) : List Report :=
  (k, total) :: ((r.tracker total buffer).onBuffers (marks k items)).2

theorem climbs_heard (r : Reporter) (total buffer k : Nat) (items : List (Except Cause ByteArray)) :
    Climbs total k (farthest k items) (heard r total buffer k items) :=
  ((climbs_marks total k items).sublist ((r.tracker total buffer).onBuffers_sublist _)).cons
    (le_farthest k items)

/-- The ranges that were asked for until the destination had got from `start` to a length, with the
reports that were made meanwhile. None of the responses came to its end with all that was missing. -/
inductive Told (r : Reporter) (total buffer start : Nat) : List Fetched → List Report → Nat → Prop
  | nothing : Told r total buffer start [] [] start
  | refused {log : List Fetched} {new : List Report} {k : Nat}
      (before : Told r total buffer start log new k) (missing : k < total) (e : Error) :
      Told r total buffer start (log ++ [⟨.allFrom k, .error e⟩]) (new ++ [(k, total)]) k
  | given {log : List Fetched} {new : List Report} {k : Nat}
      (before : Told r total buffer start log new k) (missing : k < total) (body : Http.Body)
      (fits : farthest k body.items ≤ total)
      (unfinished : BrokenOff body.items ∨ farthest k body.items < total) :
      Told r total buffer start (log ++ [⟨.allFrom k, .ok body⟩])
        (new ++ heard r total buffer k body.items) (farthest k body.items)

namespace Told
variable {log : List Fetched} {new : List Report}

theorem le (told : Told r total buffer start log new k) : start ≤ k := by
  induction told with
  | nothing => exact Nat.le_refl _
  | refused before missing e ih => exact ih
  | given before missing body fits unfinished ih => exact Nat.le_trans ih (le_farthest _ _)

theorem climbs (told : Told r total buffer start log new k) : Climbs total start k new := by
  induction told with
  | nothing => exact .nil
  | refused before missing e ih =>
    exact ih.append (.one (Nat.le_refl _) (Nat.le_refl _)) before.le (Nat.le_refl _)
  | given before missing body fits unfinished ih =>
    exact ih.append (climbs_heard ..) before.le (le_farthest _ _)

theorem first (told : Told r total buffer start log new k) :
    (log = [] ∧ new = [] ∧ k = start) ∨ new.head? = some (start, total) := by
  induction told with
  | nothing => exact .inl ⟨rfl, rfl, rfl⟩
  | refused before missing e ih =>
    rcases ih with ⟨-, rfl, rfl⟩ | ih
    · exact .inr rfl
    · exact .inr (by rw [List.head?_append, ih]; rfl)
  | given before missing body fits unfinished ih =>
    rcases ih with ⟨-, rfl, rfl⟩ | ih
    · exact .inr rfl
    · exact .inr (by rw [List.head?_append, ih]; rfl)

theorem broken (told : Told r total buffer start log new k) (asked : log ≠ []) (all : k = total) :
    ∃ earlier before last body, log = earlier ++ [⟨.allFrom last, .ok body⟩] ∧
      new = before ++ heard r total buffer last body.items ∧ Climbs total start last before ∧
      last < total ∧ BrokenOff body.items := by
  cases told with
  | nothing => contradiction
  | refused before missing e => omega
  | given before missing body fits unfinished =>
    exact ⟨_, _, _, body, rfl, rfl, before.climbs, missing, unfinished.resolve_right (by omega)⟩

end Told

namespace Job

/-- What comes of a body of which no chunk passes the size of the object: the destination gets as far as
the chunks before the first failure, and these are reported. -/
structure Took (d : Job σ) (items : List (Except Cause ByteArray)) (t : Tracker) (s : State σ)
    (out : Except Error Unit × Option Tracker × State σ) : Prop where
  tracker : ∃ t', out.2.1 = some t' ∧ t'.total = t.total
  length : out.2.2.length = farthest s.length items
  fits : farthest s.length items ≤ d.total
  requests : out.2.2.requests = s.requests
  peer : out.2.2.world.peer = s.world.peer
  reports : out.2.2.world.reports = s.world.reports ++ (t.onBuffers (marks s.length items)).2.toArray
  ending : (out.1 = .ok () ∧ ¬ BrokenOff items) ∨
    (∃ cause, out.1 = .error ⟨.transport, cause⟩) ∧ BrokenOff items

theorem receive_took (d : Job σ) {id : Nat} (items : List (Except Cause ByteArray)) (t : Tracker)
    (s : State σ) (takes : s.world.files.refusal? id = none) (le : s.length ≤ d.total) :
    (d.receive (.opened id) items (some t) s).1 = .error (.resumable .abort .tooManyBytes) ∨
      d.Took items t s (d.receive (.opened id) items (some t) s) := by
  induction items generalizing t s with
  | nil =>
    have none : ¬ BrokenOff [] := by simp [BrokenOff]
    exact .inr ⟨⟨t, rfl, rfl⟩, rfl, le, rfl, rfl, (Array.append_empty).symm, .inl ⟨rfl, none⟩⟩
  | cons item rest ih =>
    cases item with
    | error cause =>
      exact .inr ⟨⟨t, rfl, rfl⟩, rfl, le, rfl, rfl, (Array.append_empty).symm,
        .inr ⟨⟨cause, rfl⟩, cause, List.mem_cons_self⟩⟩
    | ok chunk =>
      unfold receive
      by_cases long : d.total < s.length + chunk.size
      · rw [if_pos long]
        exact .inl rfl
      · rw [if_neg long, Sink.write_opened takes]
        refine (ih (t.onBuffer (s.length + chunk.size)).1
          (count chunk.size (some t)
            { s with world := s.world.withFiles (s.world.files.append id chunk) }).2
          ((s.world.files.refusal?_append id chunk id).trans takes)
          (Nat.not_lt.1 long)).imp_right fun took => ?_
        obtain ⟨t', same, total⟩ := took.tracker
        refine ⟨⟨t', same, total.trans (t.onBuffer_fst _).1⟩, took.length, took.fits, took.requests,
          took.peer, ?_, ?_⟩
        · rw [marks, Tracker.onBuffers_cons, ← List.append_toArray, ← Array.append_assoc]
          exact took.reports
        · rw [brokenOff_cons]
          exact took.ending

variable {d : Job σ} {base : Array Report} {s : State (Fetches σ)} {new : List Report}

/-- How a watched download stands between two attempts. -/
structure Tells (d : Job σ) (r : Reporter) (base : Array Report) (start : Nat) (s : State (Fetches σ))
    (new : List Report) : Prop where
  le : s.length ≤ d.total
  requests : s.requests = s.world.peer.log.length
  reports : s.world.reports = base ++ new.toArray
  told : Told r d.total d.buffer start s.world.peer.log new s.length

/-- The response that was given last came to its end with all that was missing, which is reported. -/
structure Finishes (d : Job σ) (r : Reporter) (base : Array Report) (start : Nat)
    (s : State (Fetches σ)) : Prop where
  requests : s.requests = s.world.peer.log.length
  told : ∃ log new k body, Told r d.total d.buffer start log new k ∧ k < d.total ∧
    ¬ BrokenOff body.items ∧ farthest k body.items = d.total ∧
    s.world.peer.log = log ++ [⟨.allFrom k, .ok body⟩] ∧
    s.world.reports =
      base ++ (new ++ heard r d.total d.buffer k body.items ++ [(d.total, d.total)]).toArray

/-- What has become of an attempt. -/
inductive Came (d : Job σ) (r : Reporter) (base : Array Report) (start : Nat) :
    Except Error Unit → State (Fetches σ) → Prop
  | failed {e : Error} {s : State (Fetches σ)} {new : List Report}
      (tells : d.Tells r base start s new) : Came d r base start (.error e) s
  | burst {s : State (Fetches σ)} :
      Came d r base start (.error (.resumable .abort .tooManyBytes)) s
  | whole {s : State (Fetches σ)} {new : List Report} (tells : d.Tells r base start s new)
      (all : s.length = d.total) : Came d r base start (.ok ()) s
  | finished {s : State (Fetches σ)} (finishes : d.Finishes r base start s) :
      Came d r base start (.ok ()) s

theorem announced_observed (progress : d.progress = some r) (s : State (Fetches σ)) :
    d.observed.announced s = (some (r.tracker d.total d.buffer),
      { s with world := s.world.report [(s.length, d.total)] }) := by
  have same : d.observed.progress = some r := progress
  unfold announced
  rw [same]
  rfl

theorem Tells.received (tells : d.Tells r base start s new) (missing : s.length < d.total) {id : Nat}
    (body : Http.Body) {t : State (Fetches σ)} (takes : t.world.files.refusal? id = none)
    (length : t.length = s.length)
    (requests : t.requests = s.requests + 1)
    (log : t.world.peer.log = s.world.peer.log ++ [⟨.allFrom s.length, .ok body⟩])
    (reports : t.world.reports = s.world.reports ++ #[(s.length, d.total)]) :
    d.Came r base start
      (d.observed.received (.opened id) body.items (some (r.tracker d.total d.buffer)) t).1
      (d.observed.received (.opened id) body.items (some (r.tracker d.total d.buffer)) t).2 := by
  have le : t.length ≤ d.observed.total := by
    rw [length]
    exact tells.le
  have took := d.observed.receive_took body.items (r.tracker d.total d.buffer) t takes le
  unfold Job.received
  generalize d.observed.receive (.opened id) body.items (some (r.tracker d.total d.buffer)) t = out at took ⊢
  obtain ⟨result, p, u⟩ := out
  rcases took with fails | took
  · cases fails
    exact .burst
  · obtain ⟨⟨t', tracker, ofTotal⟩, reached, fits, asked, peer, made, ending⟩ := took
    dsimp only at tracker reached asked peer made ending
    subst tracker
    rw [length] at reached fits made
    have requested : u.requests = u.world.peer.log.length := by
      rw [asked, peer, requests, log, tells.requests, List.length_append, List.length_singleton]
    have heardOf : u.world.reports =
        base ++ (new ++ heard r d.total d.buffer s.length body.items).toArray := by
      rw [made, reports, tells.reports, heard]
      simp
    have tells' (unfinished : BrokenOff body.items ∨ farthest s.length body.items < d.total) :
        d.Tells r base start u (new ++ heard r d.total d.buffer s.length body.items) := by
      refine ⟨reached ▸ fits, requested, heardOf, ?_⟩
      rw [peer, log, reached]
      exact tells.told.given missing body fits unfinished
    rcases ending with ⟨rfl, entire⟩ | ⟨⟨cause, rfl⟩, broken⟩
    · have total : d.observed.total = d.total := rfl
      dsimp only
      rw [total]
      by_cases short : u.length < d.total
      · rw [if_pos short]
        exact .failed (tells' (.inr (reached ▸ short)))
      · rw [if_neg short]
        have all : farthest s.length body.items = d.total := by
          rw [reached] at short
          exact Nat.le_antisymm fits (Nat.not_lt.1 short)
        refine .finished ⟨requested, _, new, s.length, body, tells.told, missing, entire, all, peer ▸ log, ?_⟩
        have last : t'.finish u.length = (d.total, d.total) := by
          rw [Tracker.finish, ofTotal, reached, all]
          rfl
        rw [Option.map_some, last, ← List.append_toArray, ← Array.append_assoc, ← heardOf]
        rfl
    · exact .failed (tells' (.inl broken))

theorem Tells.fetchRest (tells : d.Tells r base start s new) (progress : d.progress = some r)
    (missing : s.length < d.total) (firm : d.observed.Firm s) (spares : d.source.Spares d.destination)
    {id : Nat} (opened : s.world.files.openAppend d.destination = .ok id) :
    d.Came r base start (d.observed.fetchRest (.opened id) s).1
      (d.observed.fetchRest (.opened id) s).2 := by
  rw [fetchRest_eq, announced_observed progress]
  dsimp only
  have log := RangeSource.log_getRange d.source (.allFrom s.length) (s.world.report [(s.length, d.total)])
  have reports := RangeSource.reports_getRange d.source.observed (.allFrom s.length)
    (s.world.report [(s.length, d.total)])
  have spared : s.world.files.Spares d.destination (d.source.observed.getRange (.allFrom s.length)
      (s.world.report [(s.length, d.total)])).2.files :=
    spares.observed.fetch (.allFrom s.length) s.world.peer firm.tidy
  have same : d.observed.source = d.source.observed := rfl
  rw [same]
  generalize d.source.observed.getRange (.allFrom s.length) (s.world.report [(s.length, d.total)]) =
    out at log reports spared ⊢
  obtain ⟨result, w⟩ := out
  cases result with
  | error e =>
    have tells' : d.Tells r base start ⟨s.length, s.requests + 1, w⟩ (new ++ [(s.length, d.total)]) := by
      refine ⟨tells.le, ?_, ?_, ?_⟩
      · rw [log, tells.requests, List.length_append, List.length_singleton]
        rfl
      · rw [reports, World.report, tells.reports]
        simp
      · rw [log]
        exact tells.told.refused missing e
    exact .failed tells'
  | ok body =>
    have firm' : d.observed.Firm ⟨s.length, s.requests + 1, w⟩ := firm.spared spared rfl
    exact tells.received missing body (firm'.refusal?_eq (spared.openAppend.trans opened)) rfl rfl log
      reports

theorem Tells.attempt (tells : d.Tells r base start s new) (progress : d.progress = some r)
    (firm : d.observed.Firm s) (spares : d.source.Spares d.destination) :
    d.Came r base start (d.observed.attempt s).1 (d.observed.attempt s).2 := by
  unfold Job.attempt
  cases opened : s.world.files.openAppend d.observed.destination with
  | error fault => exact .failed tells
  | ok id =>
    have state : { s with length := (s.world.files.content id).size } = s := by
      rw [firm.content_size opened]
    dsimp only
    by_cases all : (s.world.files.content id).size = d.observed.total
    · rw [if_pos all, state]
      exact .whole tells ((firm.content_size opened).symm.trans all)
    · rw [if_neg all, state]
      refine tells.fetchRest progress (Nat.lt_of_le_of_ne tells.le ?_) firm spares opened
      rwa [firm.content_size opened] at all

theorem Tells.run {retries limit : Nat} {o : Outcome (State (Fetches σ)) Unit}
    (tells : d.Tells r base start s new) (progress : d.progress = some r) (firm : d.observed.Firm s)
    (spares : d.source.Spares d.destination)
    (run : d.observed.resumable.run retries limit s = some o) (succeeds : o.result = .ok ()) :
    d.Came r base start (.ok ()) o.state := by
  obtain ⟨made, idle, u, reached, -, ends⟩ := Resumable.run_eq_some run
  have before : d.observed.Firm u ∧ ∃ new, d.Tells r base start u new := by
    refine reached.invariant (I := fun u => d.observed.Firm u ∧ ∃ new, d.Tells r base start u new)
      ⟨firm, new, tells⟩ fun {u v e} kept attempted retryable => ?_
    obtain ⟨firm, new, tells⟩ := kept
    have attempted : d.observed.attempt u = (.error e, v) := attempted
    have after := (firm.attempt spares.observed).1
    have came := tells.attempt progress firm spares
    rw [attempted] at after came
    cases came with
    | failed tells => exact ⟨after, _, tells⟩
    | burst => exact absurd rfl (Error.ne_abort_of_isRetryable retryable)
  obtain ⟨firm, new, tells⟩ := before
  have came := tells.attempt progress firm spares
  obtain ⟨result, last, attempts, pauses⟩ := o
  dsimp only at succeeds ends ⊢
  subst succeeds
  cases ends with
  | finished attempt =>
    have attempt : d.observed.attempt u = (.ok (), last) := attempt
    rwa [attempt] at came

end Job

theorem Handler.verify_withFiles (destination : String) (eTag : Option String) (w : World σ) :
    ∃ files, (verify destination eTag w).2 = w.withFiles files := by
  unfold verify
  cases eTag.bind plainMd5 with
  | none => exact ⟨w.files, rfl⟩
  | some expected =>
    dsimp only
    cases (InputSource.file destination).md5 w.files with
    | error e => exact ⟨w.files, rfl⟩
    | ok actual =>
      dsimp only
      split
      · exact ⟨w.files, rfl⟩
      · exact ⟨_, rfl⟩

theorem forget_withFiles (tracker : Option TrackerFile) (w : World σ) :
    ∃ files, forget tracker w = w.withFiles files := by
  cases tracker with
  | none => exact ⟨w.files, rfl⟩
  | some t => exact ⟨_, rfl⟩

namespace Call
variable {c : Call σ} {w w' : World σ} {object : ObjectMeta} {limit : Nat} {out : DownloadOutput}

theorem settled_of_ok {o : Outcome (State σ) Unit} {n : Nat}
    (settled : (c.settled object start o).1 = .ok (out, n)) :
    o.result = .ok () ∧ out = ⟨object.size, o.state.requests, object.eTag⟩ ∧
      (c.settled object start o).2.reports = o.state.world.reports ∧
      (c.settled object start o).2.peer = o.state.world.peer := by
  obtain ⟨result, s, attempts, pauses⟩ := o
  cases result with
  | error e => cases settled
  | ok u =>
    obtain ⟨files, forgotten⟩ := forget_withFiles c.handler.tracker (s.world.pauseAll (pauses.map .backoff))
    obtain ⟨files', verified⟩ := Handler.verify_withFiles c.destination object.eTag
      (forget c.handler.tracker (s.world.pauseAll (pauses.map .backoff)))
    unfold Call.settled at settled ⊢
    dsimp only at settled ⊢
    rw [verified, forgotten]
    refine ⟨rfl, ?_, rfl, rfl⟩
    generalize (Handler.verify c.destination object.eTag
      (forget c.handler.tracker (s.world.pauseAll (pauses.map .backoff)))).1 = result at settled
    cases result with
    | error e => cases settled
    | ok x =>
      cases settled
      rfl

/-- A call that asks for a range has been given an object with bytes. -/
theorem opens_of_parts (got : c.get limit w = some (.ok out, w')) (asked : 0 < out.parts) :
    ∃ object s, c.Opens w object s := by
  obtain ⟨⟨result, v⟩, transferred, same⟩ := Option.map_eq_some_iff.1 got
  have transferred : c.transfer limit w = some (result, v) := transferred
  cases result with
  | error e => cases same
  | ok made =>
    cases same
    unfold transfer Handler.transfer at transferred
    rcases inspected : c.source.objectMeta { w with metrics := w.metrics.initiate } with ⟨object, u⟩
    rw [inspected] at transferred
    cases object with
    | error e => cases transferred
    | ok object =>
      dsimp only at transferred
      by_cases bytes : object.size = 0
      · rw [if_pos bytes] at transferred
        split at transferred
        · cases transferred
        · cases transferred
          cases asked
      · rw [if_neg bytes] at transferred
        rcases resumed : c.handler.resumePoint c.destination object u with ⟨length, u'⟩
        rw [resumed] at transferred
        cases length with
        | error e => cases transferred
        | ok r => exact ⟨object, _, .intro inspected bytes resumed⟩

theorem Opens.unwatched {s : State (Fetches σ)} (opens : c.observed.Opens (watched w) object s) :
    c.Opens w object s.unwatched ∧ s.requests = 0 ∧ s.world.peer.log = [] ∧
      s.world.reports = w.reports := by
  cases opens with
  | @intro v u r asked bytes resumed =>
    have same := objectMeta_unwatched c.source { watched w with metrics := w.metrics.initiate }
    have asked' : c.source.observed.objectMeta { watched w with metrics := w.metrics.initiate } =
        (.ok object, v) := asked
    rw [asked'] at same
    have log : v.peer.log = [] := congrArg (·.2.peer.log) asked'.symm
    have reports : v.reports = w.reports := congrArg (·.2.reports) asked'.symm
    have point := c.handler.resumePoint_unwatched c.destination object v
    have resumed' : c.handler.resumePoint c.destination object v = (.ok r, u) := resumed
    rw [resumed'] at point
    obtain ⟨files, kept⟩ := c.handler.resumePoint_withFiles c.destination object v
    rw [resumed'] at kept
    dsimp only at kept
    subst kept
    exact ⟨.intro same bytes point, rfl, log, reports⟩

end Call

/-- What is known of the reports of a download of `total` bytes that went on from `start`, and of the
last range it asked for. -/
structure Followed (r : Reporter) (total buffer start : Nat) (log : List Fetched) (new : List Report) :
    Prop where
  climbs : Climbs total start total new
  first : new.head? = some (start, total)
  last : ∃ earlier k body, log = earlier ++ [⟨.allFrom k, .ok body⟩] ∧ k < total ∧
    (new.getLast? = some (total, total) ↔ ¬ BrokenOff body.items ∨
      (total, total) ∈ ((r.tracker total buffer).onBuffers (marks k body.items)).2)

theorem Job.Came.followed {d : Job σ} {base : Array Report} {s : State (Fetches σ)}
    (came : d.Came r base start (.ok ()) s) (asked : 0 < s.requests) :
    ∃ new, s.requests = s.world.peer.log.length ∧ s.world.reports = base ++ new.toArray ∧
      Followed r d.total d.buffer start s.world.peer.log new := by
  cases came with
  | @whole s new tells all =>
    have told := tells.told
    have some : s.world.peer.log ≠ [] := by
      rw [tells.requests] at asked
      exact List.ne_nil_of_length_pos asked
    obtain ⟨earlier, before, k, body, log, rfl, climbs, missing, broken⟩ := told.broken some all
    have whole := told.climbs
    rw [all] at whole
    refine ⟨_, tells.requests, tells.reports, whole, told.first.resolve_left fun none => some none.1,
      earlier, k, body, log, missing, ?_⟩
    rw [whole.getLast?_eq_iff, List.mem_append, heard, List.mem_cons]
    constructor
    · rintro (mem | same | mem)
      · have below := (climbs.within _ mem).2
        dsimp only at below
        omega
      · have same := congrArg Prod.fst same
        dsimp only at same
        omega
      · exact .inr mem
    · rintro (entire | mem)
      · exact absurd broken entire
      · exact .inr (.inr mem)
  | finished finishes =>
    obtain ⟨log, new, k, body, told, missing, entire, all, logged, reports⟩ := finishes.told
    have climbs := climbs_heard r d.total d.buffer k body.items
    have upTo := le_farthest k body.items
    rw [all] at climbs upTo
    have whole := (told.climbs.append climbs told.le upTo).append
      (.one (Nat.le_refl _) (Nat.le_refl _)) (Nat.le_trans told.le upTo) (Nat.le_refl _)
    refine ⟨_, finishes.requests, reports, whole, ?_, log, k, body, logged, missing, ?_⟩
    · rcases told.first with ⟨-, rfl, rfl⟩ | first
      · rfl
      · rw [List.head?_append, List.head?_append, first]
        rfl
    · rw [List.getLast?_concat]
      exact ⟨fun _ => .inl entire, fun _ => rfl⟩

/-- A download that succeeds after it has asked for a range reports first the length from which it went on;
its reports carry the size of the object, never pass it and never fall. The last of them says that all is
there unless the last response broke off: then all was there without the attempt having come to its end, and
the next attempt finds the destination complete and says nothing, so that the end is reported last exactly
when it was reported with the buffer that reached it. -/
theorem end_is_reported_unless_broken_off (c : Call σ) (r : Reporter) (w w' : World σ) (limit : Nat)
    (out : DownloadOutput) (progress : c.progress = some r) (spares : c.source.Spares c.destination)
    (tidy : w.files.Tidy)
    (apart : ∀ t, c.handler.tracker = some t → placeOf c.destination ≠ placeOf t.path)
    (got : c.get limit w = some (.ok out, w')) (asked : 0 < out.parts) :
    ∃ s v earlier k body, ∃ new : List Report, c.Opens w ⟨out.size, out.eTag⟩ s ∧
      c.observed.get limit (watched w) = some (.ok out, v) ∧ w' = unwatched v ∧
      v.peer.log = earlier ++ [⟨.allFrom k, .ok body⟩] ∧ v.peer.log.length = out.parts ∧ k < out.size ∧
      w'.reports = w.reports ++ new.toArray ∧
      (∀ x ∈ new, x.2 = out.size ∧ x.1 ≤ out.size) ∧ new.Pairwise (fun x y => x.1 ≤ y.1) ∧
      new.head? = some (s.length, out.size) ∧
      (new.getLast? = some (out.size, out.size) ↔ ¬ BrokenOff body.items ∨
        (out.size, out.size) ∈ ((r.tracker out.size c.buffer).onBuffers (marks k body.items)).2) := by
  have same := c.get_unwatched limit (watched w)
  rw [unwatched_watched, got] at same
  obtain ⟨⟨result, v⟩, got', seen⟩ := Option.map_eq_some_iff.1 same.symm
  cases seen
  have got' : c.observed.get limit (watched w) = some (.ok out, v) := got'
  obtain ⟨object, s, opens⟩ := Call.opens_of_parts got' asked
  obtain ⟨opens', requests, log, reports⟩ := opens.unwatched
  obtain ⟨o, run⟩ := opens.run_of_get got'
  obtain ⟨n, settled⟩ := opens.get_eq run
  rw [got'] at settled
  rcases ended : c.observed.settled object s.length o with ⟨result, u⟩
  rw [ended] at settled
  cases result with
  | error e => cases settled
  | ok x =>
    obtain ⟨made, m⟩ := x
    cases settled
    obtain ⟨succeeds, rfl, reported, peer⟩ := Call.settled_of_ok (congrArg Prod.fst ended)
    rw [ended] at reported peer
    dsimp only at reported peer asked ⊢
    obtain ⟨level, -⟩ := opens.level spares.observed tidy apart
    -- at a destination that refuses what is written no attempt would have succeeded
    have takes : s.world.files.Takes c.destination := by
      by_contra refuses
      exact (Job.closed_of_not_takes level.tidy refuses).run_fails spares.observed opens.bytes run succeeds
    have tells : (c.job object.size).Tells r w.reports s.length s [] := by
      refine ⟨level.le, by rw [requests, log]; rfl, by rw [reports]; simp, ?_⟩
      rw [log]
      exact .nothing
    have came := tells.run progress ⟨level, takes⟩ spares run succeeds
    obtain ⟨new, requests', reports', followed⟩ := came.followed asked
    obtain ⟨earlier, k, body, log', missing, last⟩ := followed.last
    exact ⟨s.unwatched, _, earlier, k, body, new, opens', got', rfl, peer ▸ log', peer ▸ requests'.symm,
      missing, reported.trans reports',
      fun x mem => ⟨followed.climbs.total x mem, (followed.climbs.within x mem).2⟩, followed.climbs.rises,
      followed.first, last⟩

theorem spares_memory (path : String) : Rehearsal.MemoryObject.source.Spares path where
  inspect _ _ _ := .refl path _
  fetch _ _ _ _ := .refl path _

/-- Downloads an object in memory to `out`, keeps no tag, and asks for few reports. -/
def memoryCall : Call Rehearsal.MemoryObject :=
  ⟨⟨none, 1⟩, Rehearsal.MemoryObject.source, "out", 8192, some ⟨2⟩⟩

/-- Three bytes whose first answer breaks off after so many of them. -/
def cutAfter (n : Nat) : World Rehearsal.MemoryObject := .initial ⟨⟨#[1, 2, 3]⟩, none, [], [n], #[]⟩ .empty

/-- What is reported of an object that is cut in the middle. -/
theorem cut_object_is_followed :
    ∃ out w', ∃ new : List Report, memoryCall.get 8 (cutAfter 2) = some (.ok out, w') ∧
      w'.reports = new.toArray ∧ (∀ x ∈ new, x.2 = out.size ∧ x.1 ≤ out.size) ∧
      new.Pairwise (fun x y => x.1 ≤ y.1) := by
  have ends : (memoryCall.get 8 (cutAfter 2)).map (fun x => x.1.toOption.map (·.parts)) =
      some (some 2) := by
    decide +kernel
  obtain ⟨⟨result, w'⟩, got, succeeds⟩ := Option.map_eq_some_iff.1 ends
  cases result with
  | error e => cases succeeds
  | ok out =>
    have parts : out.parts = 2 := Option.some.inj succeeds
    obtain ⟨-, -, -, -, -, new, -, -, -, -, -, -, reports, bounds, rises, -, -⟩ :=
      end_is_reported_unless_broken_off memoryCall ⟨2⟩ (cutAfter 2) w' 8 out rfl (spares_memory "out")
        Store.tidy_empty (fun t tracked => by cases tracked) got (by omega)
    have before : (cutAfter 2).reports = #[] := rfl
    rw [before, Array.empty_append] at reports
    exact ⟨out, w', new, got, reports, bounds, rises⟩

/-- An object that is cut right behind its last byte is downloaded, and the last report is that the
download has begun. -/
theorem object_cut_at_end_reports_no_end :
    ∃ out w', memoryCall.get 8 (cutAfter 3) = some (.ok out, w') ∧ 0 < out.parts ∧ out.size = 3 ∧
      w'.reports = #[(0, 3)] := by
  have ends : (memoryCall.get 8 (cutAfter 3)).map
      (fun x => (x.1.toOption.map fun out => (out.parts, out.size), x.2.reports)) =
        some (some (1, 3), #[(0, 3)]) := by
    decide +kernel
  obtain ⟨⟨result, w'⟩, got, same⟩ := Option.map_eq_some_iff.1 ends
  have succeeds := congrArg Prod.fst same
  cases result with
  | error e => cases succeeds
  | ok out =>
    have figures : (out.parts, out.size) = (1, 3) := Option.some.inj succeeds
    have parts := congrArg Prod.fst figures
    dsimp only at parts
    exact ⟨out, w', got, by omega, congrArg Prod.snd figures, congrArg Prod.snd same⟩

end Download

end ObjectTransfer
