import ObjectTransfer.Proofs.Resumed.Moments
import ObjectTransfer.Proofs.Retry.Likeness
/-!
Resumed downloads from two sources that answer alike. When their worlds differ in nothing but the peers, the
same is asked of both at the same time and the same is done with what they give, so that whatever was in the
destination before, the same is in it after either.
-/
namespace ObjectTransfer
open Http

/-- Two worlds that differ in their peers only, and these are related. -/
inductive World.Twins {σ τ : Type} (R : σ → τ → Prop) : World σ → World τ → Prop
  | intro {s : σ} {t : τ} (peers : R s t) (files : Files.Store) (reports : Array Progress.Report)
      (pauses : Array Pause) (metrics : Metrics) :
      Twins R ⟨s, files, reports, pauses, metrics⟩ ⟨t, files, reports, pauses, metrics⟩

variable {σ τ : Type} {F : Error → Prop} {R : σ → τ → Prop} {w : World σ} {w' : World τ}
  {r : RangeSource σ} {r' : RangeSource τ}

namespace World.Twins
variable (twins : w.Twins R w')

include twins

theorem peers : R w.peer w'.peer := by
  cases twins with
  | intro peers => exact peers

theorem files : w.files = w'.files := by
  cases twins with
  | intro peers => rfl

theorem withFiles (files : Files.Store) : (w.withFiles files).Twins R (w'.withFiles files) := by
  cases twins with
  | intro peers => exact .intro peers ..

theorem report (reports : List Progress.Report) : (w.report reports).Twins R (w'.report reports) := by
  cases twins with
  | intro peers => exact .intro peers ..

theorem pauseAll (pauses : List Pause) : (w.pauseAll pauses).Twins R (w'.pauseAll pauses) := by
  cases twins with
  | intro peers => exact .intro peers ..

theorem initiate : World.Twins R { w with metrics := w.metrics.initiate }
    { w' with metrics := w'.metrics.initiate } := by
  cases twins with
  | intro peers => exact .intro peers ..

theorem record {α : Type} {x y : Except Error α} (akin : Akin F x y) (bytes : Nat) :
    World.Twins R { w with metrics := w.metrics.record x bytes }
      { w' with metrics := w'.metrics.record y bytes } := by
  cases twins with
  | intro peers =>
    cases akin with
    | same => exact .intro peers ..
    | failed => exact .intro peers ..

theorem forget (tracker : Option TrackerFile) :
    (Download.forget tracker w).Twins R (Download.forget tracker w') := by
  cases twins with
  | intro peers =>
    cases tracker with
    | none => exact .intro peers ..
    | some t => exact .intro peers ..

end World.Twins

/-- When they are asked in twin worlds for the object, or for the rest of it, both sources answer alike and
leave twin worlds behind. -/
structure RangeSource.Alike (F : Error → Prop) (R : σ → τ → Prop) (r : RangeSource σ)
    (r' : RangeSource τ) : Prop where
  final : ∀ {e}, F e → e.Final
  inspect : ∀ {w w'}, World.Twins R w w' →
    AkinWith F (World.Twins R) (r.objectMeta w) (r'.objectMeta w')
  rest : ∀ start {w w'}, World.Twins R w w' →
    AkinWith F (World.Twins R) (r.getRange (.allFrom start) w) (r'.getRange (.allFrom start) w')

namespace Download

/-- Two states that differ in the peers only. -/
inductive State.Twins (R : σ → τ → Prop) : State σ → State τ → Prop
  | intro {w : World σ} {w' : World τ} (length requests : Nat) (worlds : w.Twins R w') :
      Twins R ⟨length, requests, w⟩ ⟨length, requests, w'⟩

theorem State.Twins.length {s : State σ} {s' : State τ} (states : s.Twins R s') :
    s.length = s'.length := by
  cases states with
  | intro length requests worlds => rfl

namespace Job
variable {s : State σ} {s' : State τ}

def fetchedFrom (d : Job σ) (source : RangeSource τ) : Job τ :=
  ⟨source, d.destination, d.tracker, d.buffer, d.progress, d.total⟩

theorem count_twins (states : s.Twins R s') (bytes : Nat) (p : Option Progress.Tracker) :
    (count bytes p s).1 = (count bytes p s').1 ∧
      (count bytes p s).2.Twins R (count bytes p s').2 := by
  cases states with
  | intro length requests worlds =>
    cases p with
    | none => exact ⟨rfl, .intro _ _ worlds⟩
    | some t => exact ⟨rfl, .intro _ _ (worlds.report _)⟩

variable (d : Job σ) (r' : RangeSource τ)

theorem announced_twins (states : s.Twins R s') :
    (d.announced s).1 = ((d.fetchedFrom r').announced s').1 ∧
      (d.announced s).2.Twins R ((d.fetchedFrom r').announced s').2 := by
  obtain ⟨source, destination, tracker, buffer, progress, total⟩ := d
  cases states with
  | intro length requests worlds =>
    cases progress with
    | none => exact ⟨rfl, .intro _ _ worlds⟩
    | some r => exact ⟨rfl, .intro _ _ (worlds.report _)⟩

theorem receive_twins (states : s.Twins R s') (f : Sink) (items : List (Except Cause ByteArray))
    (p : Option Progress.Tracker) :
    (d.receive f items p s).1 = ((d.fetchedFrom r').receive f items p s').1 ∧
      (d.receive f items p s).2.1 = ((d.fetchedFrom r').receive f items p s').2.1 ∧
      (d.receive f items p s).2.2.Twins R ((d.fetchedFrom r').receive f items p s').2.2 := by
  induction items generalizing f p s s' with
  | nil => exact ⟨rfl, rfl, states⟩
  | cons item items ih =>
    cases item with
    | error cause => exact ⟨rfl, rfl, states⟩
    | ok chunk =>
      have total : (d.fetchedFrom r').total = d.total := rfl
      unfold receive
      rw [total]
      cases states with
      | @intro w w' length requests worlds =>
        dsimp only
        by_cases long : d.total < length + chunk.size
        · rw [if_pos long, if_pos long]
          exact ⟨rfl, rfl, .intro _ _ worlds⟩
        · rw [if_neg long, if_neg long, ← worlds.files]
          cases f.write chunk w.files with
          | error fault => exact ⟨rfl, rfl, .intro _ _ worlds⟩
          | ok written =>
            obtain ⟨f, files⟩ := written
            obtain ⟨trackers, after⟩ :=
              count_twins (.intro length requests (worlds.withFiles files)) chunk.size p
            dsimp only
            rw [trackers]
            exact ih after _ _

theorem received_twins (states : s.Twins R s') (f : Sink) (items : List (Except Cause ByteArray))
    (p : Option Progress.Tracker) :
    AkinWith F (State.Twins R) (d.received f items p s)
      ((d.fetchedFrom r').received f items p s') := by
  obtain ⟨results, trackers, after⟩ := d.receive_twins r' states f items p
  have total : (d.fetchedFrom r').total = d.total := rfl
  unfold received
  rw [total]
  generalize d.receive f items p s = x at results trackers after ⊢
  generalize (d.fetchedFrom r').receive f items p s' = y at results trackers after ⊢
  obtain ⟨result, p, u⟩ := x
  obtain ⟨result', p', u'⟩ := y
  dsimp only at results trackers after ⊢
  subst results trackers
  cases result with
  | error e => exact ⟨.same _, after⟩
  | ok done =>
    cases after with
    | intro length requests worlds =>
      dsimp only
      by_cases short : length < d.total
      · rw [if_pos short, if_pos short]
        exact ⟨.same _, .intro _ _ worlds⟩
      · rw [if_neg short, if_neg short]
        exact ⟨.same _, .intro _ _ (worlds.report _)⟩

section
variable {d r'} (alike : d.source.Alike F R r')

include alike

theorem fetchRest_twins (states : s.Twins R s') (f : Sink) :
    AkinWith F (State.Twins R) (d.fetchRest f s) ((d.fetchedFrom r').fetchRest f s') := by
  obtain ⟨trackers, after⟩ := d.announced_twins r' states
  rw [fetchRest_eq, fetchRest_eq]
  generalize d.announced s = x at trackers after ⊢
  generalize (d.fetchedFrom r').announced s' = y at trackers after ⊢
  obtain ⟨p, u⟩ := x
  obtain ⟨p', u'⟩ := y
  dsimp only at trackers after ⊢
  subst trackers
  cases after with
  | intro length requests worlds =>
    have given := alike.rest length worlds
    have source : (d.fetchedFrom r').source = r' := rfl
    rw [source]
    dsimp only
    generalize d.source.getRange (.allFrom length) _ = x at given ⊢
    generalize r'.getRange (.allFrom length) _ = y at given ⊢
    obtain ⟨x, v⟩ := x
    obtain ⟨y, v'⟩ := y
    obtain ⟨akin, worlds⟩ := given
    dsimp only at akin worlds
    cases akin with
    | failed left right => exact ⟨.failed left right, .intro _ _ worlds⟩
    | same =>
      cases x with
      | error e => exact ⟨.same _, .intro _ _ worlds⟩
      | ok body => exact d.received_twins r' (.intro _ _ worlds) f body.items p

theorem attempt_twins (states : s.Twins R s') :
    AkinWith F (State.Twins R) (d.attempt s) ((d.fetchedFrom r').attempt s') := by
  have destination : (d.fetchedFrom r').destination = d.destination := rfl
  have total : (d.fetchedFrom r').total = d.total := rfl
  unfold attempt
  rw [destination, total]
  cases states with
  | @intro w w' length requests worlds =>
    dsimp only
    rw [← worlds.files]
    cases w.files.openAppend d.destination with
    | error fault => exact ⟨.same _, .intro _ _ worlds⟩
    | ok id =>
      dsimp only
      split
      · exact ⟨.same _, .intro _ _ worlds⟩
      · exact fetchRest_twins alike (.intro _ _ worlds) (.opened id)

theorem resumable_alike : d.resumable.Alike F (State.Twins R) (d.fetchedFrom r').resumable where
  final := alike.final
  confirmed states := states.length
  attempt states := attempt_twins alike states
  discard states := by
    cases states with
    | intro length requests worlds => exact .intro _ _ (worlds.forget _)

end

end Job

theorem Handler.verify_twins (twins : w.Twins R w') (destination : String) (eTag : Option String) :
    AkinWith F (World.Twins R) (verify destination eTag w) (verify destination eTag w') := by
  unfold verify
  cases eTag.bind plainMd5 with
  | none => exact ⟨.same _, twins⟩
  | some expected =>
    dsimp only
    rw [← twins.files]
    cases (InputSource.file destination).md5 w.files with
    | error e => exact ⟨.same _, twins⟩
    | ok actual =>
      dsimp only
      split
      · exact ⟨.same _, twins⟩
      · exact ⟨.same _, twins.withFiles _⟩

theorem Handler.resumePoint_twins (h : Handler) (twins : w.Twins R w') (destination : String)
    (object : ObjectMeta) :
    (h.resumePoint destination object w).1 = (h.resumePoint destination object w').1 ∧
      (h.resumePoint destination object w).2.Twins R (h.resumePoint destination object w').2 := by
  unfold resumePoint
  rw [← twins.files]
  cases h.resumable? destination object w.files with
  | some length => exact ⟨rfl, twins⟩
  | none => exact ⟨rfl, twins.withFiles _⟩

namespace Call
variable {c : Call σ}

def fetchedFrom (c : Call σ) (source : RangeSource τ) : Call τ :=
  ⟨c.handler, source, c.destination, c.buffer, c.progress⟩

theorem settled_twins {o : Outcome (State σ) Unit} {o' : Outcome (State τ) Unit}
    (alike : o.Alike F (State.Twins R) o') (object : ObjectMeta) (start : Nat) :
    AkinWith F (World.Twins R) (c.settled object start o)
      ((c.fetchedFrom r').settled object start o') := by
  obtain ⟨result, s, made, pauses⟩ := o
  obtain ⟨result', s', made', pauses'⟩ := o'
  obtain ⟨akin, states, attempts, pauses⟩ := alike
  dsimp only at akin states attempts pauses
  subst attempts pauses
  cases states with
  | @intro w w' length requests worlds =>
    have paused := worlds.pauseAll (pauses.map .backoff)
    cases akin with
    | failed left right => exact ⟨.failed left right, paused⟩
    | same =>
      cases result with
      | error e => exact ⟨.same _, paused⟩
      | ok done =>
        obtain ⟨akin, worlds⟩ := Handler.verify_twins (paused.forget c.handler.tracker)
          c.destination object.eTag
        exact ⟨akin.map _, worlds⟩

/-- The result, with the counters as they are behind it. -/
def recorded (x : Except Error (DownloadOutput × Nat) × World σ) :
    Except Error DownloadOutput × World σ :=
  (x.1.map (·.1),
    { x.2 with metrics := x.2.metrics.record x.1 (x.1.toOption.elim 0 (·.2)) })

theorem get_eq (c : Call σ) (limit : Nat) (w : World σ) :
    c.get limit w = (c.transfer limit w).map recorded := by
  refine congrArg (Option.map · _) (funext fun x => ?_)
  obtain ⟨result, w⟩ := x
  cases result <;> rfl

theorem recorded_twins {x : Except Error (DownloadOutput × Nat) × World σ}
    {y : Except Error (DownloadOutput × Nat) × World τ} (made : AkinWith F (World.Twins R) x y) :
    AkinWith F (World.Twins R) (recorded x) (recorded y) := by
  obtain ⟨result, w⟩ := x
  obtain ⟨result', w'⟩ := y
  obtain ⟨akin, worlds⟩ := made
  dsimp only at akin worlds
  have counted := worlds.record akin
  cases akin with
  | same => exact ⟨.same _, counted _⟩
  | failed e e' => exact ⟨.failed e e', counted _⟩

section
variable (alike : c.source.Alike F R r')

include alike

theorem attempts_twins (twins : w.Twins R w') (object : ObjectMeta) (start limit : Nat) :
    Option.Rel (AkinWith F (World.Twins R)) (c.attempts object start limit w)
      ((c.fetchedFrom r').attempts object start limit w') := by
  have alike : (c.job object.size).source.Alike F R r' := alike
  have runs := (Job.resumable_alike alike).run c.handler.retries limit (.intro start 0 twins)
  unfold attempts
  have job : (c.job object.size).fetchedFrom r' = (c.fetchedFrom r').job object.size := rfl
  have handler : (c.fetchedFrom r').handler = c.handler := rfl
  rw [job] at runs
  rw [handler]
  generalize (c.job _).resumable.run _ _ _ = x at runs ⊢
  generalize ((c.fetchedFrom r').job _).resumable.run _ _ _ = y at runs ⊢
  cases runs with
  | none => exact .none
  | some alike => exact .some (settled_twins alike _ _)

theorem transfer_twins (twins : w.Twins R w') (limit : Nat) :
    Option.Rel (AkinWith F (World.Twins R)) (c.transfer limit w)
      ((c.fetchedFrom r').transfer limit w') := by
  have known := alike.inspect twins.initiate
  have destination : (c.fetchedFrom r').destination = c.destination := rfl
  have handler : (c.fetchedFrom r').handler = c.handler := rfl
  have source : (c.fetchedFrom r').source = r' := rfl
  unfold transfer Handler.transfer
  rw [source, destination, handler]
  generalize c.source.objectMeta _ = x at known ⊢
  generalize r'.objectMeta _ = y at known ⊢
  obtain ⟨x, u⟩ := x
  obtain ⟨y, u'⟩ := y
  obtain ⟨akin, twins⟩ := known
  dsimp only at akin twins
  cases akin with
  | failed left right => exact .some ⟨.failed left right, twins⟩
  | same =>
    cases x with
    | error e => exact .some ⟨.same _, twins⟩
    | ok object =>
      dsimp only
      by_cases empty : object.size = 0
      · rw [if_pos empty, if_pos empty, ← twins.files]
        cases u.files.create c.destination with
        | error fault => exact .some ⟨.same _, twins⟩
        | ok made => exact .some ⟨.same _, (twins.withFiles _).forget _⟩
      · rw [if_neg empty, if_neg empty]
        obtain ⟨starts, worlds⟩ := c.handler.resumePoint_twins twins c.destination object
        generalize c.handler.resumePoint c.destination object u = x at starts worlds ⊢
        generalize c.handler.resumePoint c.destination object u' = y at starts worlds ⊢
        obtain ⟨start, v⟩ := x
        obtain ⟨start', v'⟩ := y
        dsimp only at starts worlds ⊢
        subst starts
        cases start with
        | error e => exact .some ⟨.same _, worlds⟩
        | ok start => exact attempts_twins alike worlds object start limit

theorem get_twins (twins : w.Twins R w') (limit : Nat) :
    Option.Rel (AkinWith F (World.Twins R)) (c.get limit w) ((c.fetchedFrom r').get limit w') := by
  have ends := transfer_twins alike twins limit
  rw [get_eq, get_eq]
  generalize c.transfer limit w = x at ends ⊢
  generalize (c.fetchedFrom r').transfer limit w' = y at ends ⊢
  cases ends with
  | none => exact .none
  | some made => exact .some (recorded_twins made)

end

end Call

end Download

end ObjectTransfer
