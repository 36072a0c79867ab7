import Mathlib.Logic.Relation
import ObjectTransfer.Download.Resumed
import ObjectTransfer.Proofs.Retry
/-!
The moments of a resumed download. A call begins by asking for the object; it goes on with the
destination it finds or empties it and notes the tag of the object. Then attempts are made, and each of
them opens the destination, asks for the rest and takes what comes piece by piece.
-/
namespace ObjectTransfer

/-- The transfer as if its attempts came out like this. -/
def Resumable.always {σ α : Type} (r : Resumable σ α) (outcome : Except Error α × σ) :
    Resumable σ α :=
  { r with attempt := fun _ => outcome }

theorem Resumable.turn_always {σ α : Type} (r : Resumable σ α) (retries number idle : Nat) (s : σ) :
    (r.always (r.attempt s)).turn retries number idle s = r.turn retries number idle s := rfl

namespace Download
open Relation

namespace Sink

theorem flush_error (f : Sink) (e : Error) : ∃ e', f.flush (.error e) = .error e' := by
  unfold flush
  split
  · exact ⟨e, rfl⟩
  · exact ⟨_, rfl⟩

theorem flush_opened (id : Nat) (result : Except Error Unit) : (opened id).flush result = result :=
  rfl

theorem write_opened {id : Nat} {files : Files.Store} (takes : files.refusal? id = none)
    (chunk : ByteArray) : (opened id).write chunk files = .ok (opened id, files.append id chunk) := by
  have takes : files.refusal? (opened id).id = none := takes
  have nothing : (opened id).refused = none := rfl
  rw [write, nothing, takes]
  rfl

theorem write_refused {f : Sink} {files : Files.Store} {fault : Files.Fault}
    (refuses : files.refusal? f.id = some fault) (chunk : ByteArray) :
    (∃ fault', f.write chunk files = .error fault') ∨
      ∃ f', f.write chunk files = .ok (f', files) ∧ f'.id = f.id ∧
        (f'.refused = none → f.refused = none ∧ chunk.size = 0) := by
  obtain ⟨known, due⟩ : ∃ known, (f.refused <|> files.refusal? f.id) = some known := by
    rw [refuses]
    cases f.refused with
    | none => exact ⟨fault, rfl⟩
    | some known => exact ⟨known, rfl⟩
  unfold write
  rw [due]
  dsimp only
  by_cases empty : chunk.isEmpty
  · rw [if_pos empty]
    exact .inr ⟨f, rfl, rfl, fun unknown => ⟨unknown, by simpa [ByteArray.isEmpty] using empty⟩⟩
  · rw [if_neg empty]
    split
    · exact .inl ⟨known, rfl⟩
    · exact .inr ⟨_, rfl, rfl, fun unknown => by cases unknown⟩

end Sink

namespace Job
variable {σ : Type}

/-- How far an attempt has got. -/
inductive Phase (σ : Type) where
  | trying (s : State σ)
  | receiving (f : Sink) (rest : List (Except Cause ByteArray)) (p : Option Progress.Tracker)
      (s : State σ)
  | tried (result : Except Error Unit) (s : State σ)

def Phase.state : Phase σ → State σ
  | .trying s | .receiving _ _ _ s | .tried _ s => s

def announced (d : Job σ) (s : State σ) : Option Progress.Tracker × State σ :=
  match d.progress with
  | none => (none, s)
  | some r =>
    let (t, report) := (r.tracker d.total d.buffer).start s.length
    (some t, { s with world := s.world.report [report] })

def asked (d : Job σ) (f : Sink) (s : State σ) : Phase σ :=
  let (p, s) := d.announced s
  let s := { s with requests := s.requests + 1 }
  match d.source.getRange (.allFrom s.length) s.world with
  | (.error e, w) => .tried (.error e) { s with world := w }
  | (.ok body, w) => .receiving f body.items p { s with world := w }

def opened (d : Job σ) (s : State σ) : Phase σ :=
  match s.world.files.openAppend d.destination with
  | .error fault => .tried (.error (.io fault)) s
  | .ok id =>
    let s := { s with length := (s.world.files.content id).size }
    if s.length = d.total then .tried (.ok ()) s else d.asked (.opened id) s

/-- What came is appended, or ends the attempt. -/
def taken (d : Job σ) (f : Sink) (rest : List (Except Cause ByteArray))
    (p : Option Progress.Tracker) (s : State σ) : Except Cause ByteArray → Phase σ
  | .error cause => .tried (f.flush (.error ⟨.transport, cause⟩)) s
  | .ok chunk =>
    if d.total < s.length + chunk.size then
      .tried (f.flush (.error (.resumable .abort .tooManyBytes))) s
    else
      match f.write chunk s.world.files with
      | .error fault => .tried (.error (.io fault)) s
      | .ok (f, files) =>
        let (p, s) := count chunk.size p { s with world := s.world.withFiles files }
        .receiving f rest p s

def spent (d : Job σ) (f : Sink) (p : Option Progress.Tracker) (s : State σ) : Phase σ :=
  match f.flush (.ok ()) with
  | .error e => .tried (.error e) s
  | .ok () =>
    if s.length < d.total then .tried (.error (.transport (.connectionClosed s.length d.total))) s
    else
      .tried (.ok ()) { s with world := s.world.report (p.map fun t => t.finish s.length).toList }

theorem count_eq (bytes : Nat) (p : Option Progress.Tracker) (s : State σ) :
    ∃ p' reports, count bytes p s =
      (p', ⟨s.length + bytes, s.requests, { s.world with reports }⟩) := by
  cases p with
  | none => exact ⟨none, s.world.reports, rfl⟩
  | some t => exact ⟨_, _, rfl⟩

theorem taken_eq {d : Job σ} {id : Nat} {chunk : ByteArray} {s : State σ}
    (takes : s.world.files.refusal? id = none) (fits : s.length + chunk.size ≤ d.total)
    (rest : List (Except Cause ByteArray)) (p : Option Progress.Tracker) :
    ∃ p' reports, d.taken (.opened id) rest p s (.ok chunk) =
      .receiving (.opened id) rest p' ⟨s.length + chunk.size, s.requests,
        { s.world with files := s.world.files.append id chunk, reports }⟩ := by
  obtain ⟨p', reports, counted⟩ := count_eq chunk.size p
    { s with world := s.world.withFiles (s.world.files.append id chunk) }
  refine ⟨p', reports, ?_⟩
  unfold taken
  dsimp only
  rw [if_neg (Nat.not_lt.2 fits), Sink.write_opened takes]
  dsimp only
  rw [counted]
  rfl

/-- What follows in an attempt. -/
inductive Next (d : Job σ) : Phase σ → Phase σ → Prop
  | opens (s : State σ) : Next d (.trying s) (d.opened s)
  | takes (f : Sink) (item : Except Cause ByteArray) (rest : List (Except Cause ByteArray))
      (p : Option Progress.Tracker) (s : State σ) :
      Next d (.receiving f (item :: rest) p s) (d.taken f rest p s item)
  | ends (f : Sink) (p : Option Progress.Tracker) (s : State σ) :
      Next d (.receiving f [] p s) (d.spent f p s)

/-- What comes of a body that is being received. -/
def received (d : Job σ) (f : Sink) (rest : List (Except Cause ByteArray))
    (p : Option Progress.Tracker) (s : State σ) : Except Error Unit × State σ :=
  match d.receive f rest p s with
  | (.error e, _, s) => (.error e, s)
  | (.ok (), p, s) =>
    if s.length < d.total then (.error (.transport (.connectionClosed s.length d.total)), s)
    else
      (.ok (), { s with world := s.world.report (p.map fun t => t.finish s.length).toList })

theorem received_path (d : Job σ) (f : Sink) (rest : List (Except Cause ByteArray))
    (p : Option Progress.Tracker) (s : State σ) :
    ReflTransGen d.Next (.receiving f rest p s)
      (.tried (d.received f rest p s).1 (d.received f rest p s).2) := by
  induction rest generalizing f p s with
  | nil =>
    have step := Next.ends (d := d) f p s
    unfold spent at step
    unfold received receive
    cases flushed : f.flush (.ok ()) with
    | error e =>
      rw [flushed] at step
      exact .single step
    | ok done =>
      rw [flushed] at step
      dsimp only at step ⊢
      by_cases short : s.length < d.total
      · rw [if_pos short] at step ⊢
        exact .single step
      · rw [if_neg short] at step ⊢
        exact .single step
  | cons item rest ih =>
    have step := Next.takes (d := d) f item rest p s
    cases item with
    | error cause =>
      obtain ⟨e, flushed⟩ := f.flush_error ⟨.transport, cause⟩
      unfold taken at step
      unfold received receive
      dsimp only at step
      rw [flushed] at step ⊢
      exact .single step
    | ok chunk =>
      unfold taken at step
      unfold received receive
      dsimp only at step ⊢
      by_cases long : d.total < s.length + chunk.size
      · obtain ⟨e, flushed⟩ := f.flush_error (.resumable .abort .tooManyBytes)
        rw [if_pos long, flushed] at step ⊢
        exact .single step
      · rw [if_neg long] at step ⊢
        cases written : f.write chunk s.world.files with
        | error fault =>
          rw [written] at step
          exact .single step
        | ok made =>
          rw [written] at step
          exact .head step (ih _ _ _)

theorem fetchRest_eq (d : Job σ) (f : Sink) (s : State σ) :
    d.fetchRest f s =
      match d.source.getRange (.allFrom (d.announced s).2.length) (d.announced s).2.world with
      | (.error e, w) => (.error e, ⟨(d.announced s).2.length, (d.announced s).2.requests + 1, w⟩)
      | (.ok body, w) => d.received f body.items (d.announced s).1
          ⟨(d.announced s).2.length, (d.announced s).2.requests + 1, w⟩ := rfl

theorem fetchRest_path (d : Job σ) (f : Sink) (s : State σ) :
    ReflTransGen d.Next (d.asked f s) (.tried (d.fetchRest f s).1 (d.fetchRest f s).2) := by
  rw [fetchRest_eq]
  unfold asked
  dsimp only
  rcases d.source.getRange (.allFrom (d.announced s).2.length) (d.announced s).2.world with ⟨result, w⟩
  cases result with
  | error e => exact .refl
  | ok body => exact d.received_path _ _ _ _

theorem attempt_path (d : Job σ) (s : State σ) :
    ReflTransGen d.Next (.trying s) (.tried (d.attempt s).1 (d.attempt s).2) := by
  refine .head (Next.opens s) ?_
  unfold opened attempt
  cases s.world.files.openAppend d.destination with
  | error fault => exact .refl
  | ok id =>
    dsimp only
    split
    · exact .refl
    · exact d.fetchRest_path (.opened id) _

theorem attempt_keeps {d : Job σ} {G : Phase σ → Prop} {s : State σ}
    (step : ∀ {phase phase'}, G phase → d.Next phase phase' → G phase') (begins : G (.trying s)) :
    G (.tried (d.attempt s).1 (d.attempt s).2) := by
  have along {phase : Phase σ} (path : ReflTransGen d.Next (.trying s) phase) : G phase := by
    induction path with
    | refl => exact begins
    | tail _ next ih => exact step ih next
  exact along (d.attempt_path s)

section
variable {d : Job σ} {I : State σ → Prop} {retries : Nat} {s : State σ}

theorem reaches_keeps {made idle : Nat} {t : State σ} (attempt : ∀ {u}, I u → I (d.attempt u).2)
    (begins : I s) (reached : d.resumable.Reaches retries s made idle t) : I t := by
  refine reached.invariant begins fun {u v e} holds attempted _ => ?_
  have attempted : d.attempt u = (.error e, v) := attempted
  have kept := attempt holds
  rwa [attempted] at kept

/-- As long as no attempt shortens the destination or makes it longer than the object, there are no more
of them than the missing bytes and the retries allow. -/
theorem run_isSome_of_keeps {limit : Nat}
    (attempt : ∀ {u}, I u → I (d.attempt u).2 ∧ u.length ≤ (d.attempt u).2.length)
    (le : ∀ {u}, I u → u.length ≤ d.total) (begins : I s)
    (enough : (d.total - s.length + 1) * (retries + 1) ≤ limit) :
    (d.resumable.run retries limit s).isSome := by
  refine Resumable.run_isSome (I := I) (fun s => d.total - s.length) ?_ begins enough
  intro u v e holds attempted _
  have attempted : d.attempt u = (.error e, v) := attempted
  obtain ⟨kept, grown⟩ := attempt holds
  rw [attempted] at kept grown
  have confirmed (s : State σ) : d.resumable.confirmed s = s.length := rfl
  rw [confirmed, confirmed]
  have bound := le kept
  dsimp only at bound grown
  exact ⟨kept, by omega⟩

end

end Job

/-- What a restart comes to, and the files it leaves: the destination is made, and where there are a tracker
file and a tag, that file is written behind it. -/
inductive Handler.Restarts (h : Handler) (destination : String) (files : Files.Store) :
    Except Error Unit → Files.Store → Prop
  | refused {e : Error} : Restarts h destination files (.error e) files
  | made {id : Nat} {made : Files.Store} {result : Except Error Unit}
      (created : files.create destination = .ok (id, made)) : Restarts h destination files result made
  | noted {id : Nat} {made after : Files.Store} {t : TrackerFile} {line : ByteArray}
      (created : files.create destination = .ok (id, made)) (tracked : h.tracker = some t)
      (written : made.write t.path line = .ok after) : Restarts h destination files (.ok ()) after

theorem Handler.restarts (h : Handler) (destination : String) (object : ObjectMeta)
    (files : Files.Store) :
    h.Restarts destination files (h.restart destination object files).1
      (h.restart destination object files).2 := by
  unfold restart
  cases created : files.create destination with
  | error fault => exact .refused
  | ok made =>
    dsimp only
    split
    · rename_i t eTag tracked tagged
      unfold TrackerFile.save
      cases written : made.2.write t.path (eTag ++ "\n").toUTF8 with
      | error fault => exact .made created
      | ok after => exact .noted created tracked written
    · exact .made created

theorem Handler.resumePoint_withFiles {σ : Type} (h : Handler) (destination : String) (object : ObjectMeta)
    (w : World σ) : ∃ files, (h.resumePoint destination object w).2 = w.withFiles files := by
  unfold resumePoint
  cases h.resumable? destination object w.files with
  | some length => exact ⟨w.files, rfl⟩
  | none => exact ⟨_, rfl⟩

structure Call (σ : Type) where
  handler : Handler
  source : RangeSource σ
  destination : String
  buffer : Nat
  progress : Option Progress.Reporter

namespace Call
variable {σ : Type}

/-- Makes the call, with this many attempts at most. -/
def get (c : Call σ) (limit : Nat) (w : World σ) :
    Option (Except Error DownloadOutput × World σ) :=
  c.handler.get c.source c.destination c.buffer limit c.progress w

/-- Makes the call without counting how it ends. -/
def transfer (c : Call σ) (limit : Nat) (w : World σ) :
    Option (Except Error (DownloadOutput × Nat) × World σ) :=
  c.handler.transfer c.source c.destination c.buffer limit c.progress
    { w with metrics := w.metrics.initiate }

def job (c : Call σ) (total : Nat) : Job σ :=
  ⟨c.source, c.destination, c.handler.tracker, c.buffer, c.progress, total⟩

structure Try (σ : Type) where
  object : ObjectMeta
  /-- The length of the destination before the first attempt. -/
  start : Nat
  made : Nat
  /-- Failures in a row without progress. -/
  idle : Nat
  pauses : List Nat
  /-- The state in which the attempt began. -/
  before : State σ

/-- How far a call has got. -/
inductive Moment (σ : Type) where
  | begun (w : World σ)
  /-- The destination is empty, and the tag of the object is not noted yet. -/
  | emptied (object : ObjectMeta) (w : World σ)
  | fetching (g : Try σ) (phase : Job.Phase σ)
  | ended (result : Except Error DownloadOutput) (w : World σ)

def Moment.world : Moment σ → World σ
  | .begun w | .emptied _ w | .ended _ w => w
  | .fetching _ phase => phase.state.world

def counted (result : Except Error (DownloadOutput × Nat)) (w : World σ) : Moment σ :=
  let fetched := match result with | .ok (_, n) => n | .error _ => 0
  .ended (result.map (·.1)) { w with metrics := w.metrics.record result fetched }

def first (object : ObjectMeta) (start : Nat) (w : World σ) : Moment σ :=
  .fetching ⟨object, start, 0, 0, [], ⟨start, 0, w⟩⟩ (.trying ⟨start, 0, w⟩)

/-- The destination is gone on with, or emptied; there is nothing more to do for an empty object. -/
def begins (c : Call σ) (object : ObjectMeta) (w : World σ) : Moment σ :=
  if object.size = 0 then
    match w.files.create c.destination with
    | .error fault => counted (.error (.io fault)) w
    | .ok (_, files) =>
      counted (.ok (⟨0, 0, object.eTag⟩, 0)) (forget c.handler.tracker (w.withFiles files))
  else
    match c.handler.resumable? c.destination object w.files with
    | some length => first object length w
    | none =>
      match w.files.create c.destination with
      | .error fault => counted (.error (.io fault)) w
      | .ok (_, files) => .emptied object (w.withFiles files)

def opened (c : Call σ) (w : World σ) : Moment σ :=
  match c.source.objectMeta { w with metrics := w.metrics.initiate } with
  | (.error e, w) => counted (.error e) w
  | (.ok object, w) => c.begins object w

def noted (c : Call σ) (object : ObjectMeta) (w : World σ) : Moment σ :=
  match c.handler.tracker, object.eTag with
  | some t, some eTag =>
    match t.save eTag w.files with
    | .ok files => first object 0 (w.withFiles files)
    | .error e => counted (.error e) w
  | _, _ => first object 0 w

/-- The last attempt was made. A complete destination is compared with the tag of the object. -/
def settled (c : Call σ) (object : ObjectMeta) (start : Nat) (o : Outcome (State σ) Unit) :
    Except Error (DownloadOutput × Nat) × World σ :=
  let w := o.state.world.pauseAll (o.pauses.map .backoff)
  match o.result with
  | .error e => (.error e, w)
  | .ok () =>
    let (result, w) := Handler.verify c.destination object.eTag (forget c.handler.tracker w)
    (result.map fun _ => (⟨object.size, o.state.requests, object.eTag⟩, object.size - start), w)

def closed (c : Call σ) (object : ObjectMeta) (start : Nat) (o : Outcome (State σ) Unit) :
    Moment σ :=
  counted (c.settled object start o).1 (c.settled object start o).2

/-- An attempt was made. Another one follows, or it was the last. -/
def turned (c : Call σ) (g : Try σ) (result : Except Error Unit) (s : State σ) : Moment σ :=
  match ((c.job g.object.size).resumable.always (result, s)).turn c.handler.retries (g.made + 1)
    g.idle g.before with
  | .done result t => c.closed g.object g.start ⟨result, t, g.made + 1, g.pauses.reverse⟩
  | .again idle t =>
    .fetching
      { g with
        made := g.made + 1
        idle
        pauses := min idle Resumable.maxExponent :: g.pauses
        before := t }
      (.trying t)

inductive Next (c : Call σ) : Moment σ → Moment σ → Prop
  | opens (w : World σ) : Next c (.begun w) (c.opened w)
  | notes (object : ObjectMeta) (w : World σ) : Next c (.emptied object w) (c.noted object w)
  | goes {g : Try σ} {phase phase' : Job.Phase σ} (step : (c.job g.object.size).Next phase phase') :
      Next c (.fetching g phase) (.fetching g phase')
  | turns (g : Try σ) (result : Except Error Unit) (s : State σ) :
      Next c (.fetching g (.tried result s)) (c.turned g result s)

theorem attempt_path (c : Call σ) (g : Try σ) (s : State σ) :
    ReflTransGen c.Next (.fetching g (.trying s))
      (.fetching g (.tried ((c.job g.object.size).attempt s).1 ((c.job g.object.size).attempt s).2)) := by
  have lifts : (c.job g.object.size).Next ≤ Function.onFun c.Next (Moment.fetching g) := fun _ _ => Next.goes
  exact ReflTransGen.lift (Moment.fetching g) lifts _ _ ((c.job g.object.size).attempt_path s)

theorem run_path (c : Call σ) {limit : Nat} {g : Try σ} {outcome : Outcome (State σ) Unit}
    (run : (c.job g.object.size).resumable.runFrom c.handler.retries limit g.made g.idle g.pauses
      g.before = some outcome) :
    ReflTransGen c.Next (.fetching g (.trying g.before)) (c.closed g.object g.start outcome) := by
  induction limit generalizing g with
  | zero => cases run
  | succ limit ih =>
    have turns := Next.turns (c := c) g ((c.job g.object.size).attempt g.before).1
      ((c.job g.object.size).attempt g.before).2
    have same : ((c.job g.object.size).resumable.always
        (((c.job g.object.size).attempt g.before).1, ((c.job g.object.size).attempt g.before).2)).turn
          c.handler.retries (g.made + 1) g.idle g.before =
        (c.job g.object.size).resumable.turn c.handler.retries (g.made + 1) g.idle g.before :=
      Resumable.turn_always _ _ _ _ _
    unfold turned at turns
    rw [same] at turns
    unfold Resumable.runFrom at run
    refine (c.attempt_path g g.before).trans ?_
    cases turn : (c.job g.object.size).resumable.turn c.handler.retries (g.made + 1) g.idle
      g.before with
    | done result t =>
      rw [turn] at run turns
      cases run
      exact .single turns
    | again idle t =>
      rw [turn] at run turns
      exact .head turns (ih run)

/-- The attempts, and what is made of the outcome of the last one. -/
def attempts (c : Call σ) (object : ObjectMeta) (start limit : Nat) (w : World σ) :
    Option (Except Error (DownloadOutput × Nat) × World σ) :=
  ((c.job object.size).resumable.run c.handler.retries limit ⟨start, 0, w⟩).map
    (c.settled object start)

theorem attempts_path {c : Call σ} {object : ObjectMeta} {start limit : Nat} {w v : World σ}
    {result : Except Error (DownloadOutput × Nat)}
    (h : c.attempts object start limit w = some (result, v)) :
    ReflTransGen c.Next (first object start w) (counted result v) := by
  obtain ⟨outcome, run, same⟩ := Option.map_eq_some_iff.1 h
  have path := c.run_path (g := ⟨object, start, 0, 0, [], ⟨start, 0, w⟩⟩) run
  rwa [closed, same] at path

theorem noted_eq (c : Call σ) {w : World σ} {made : Nat × Files.Store}
    (created : w.files.create c.destination = .ok made) (object : ObjectMeta) :
    c.noted object (w.withFiles made.2) =
      match c.handler.restart c.destination object w.files with
      | (.ok _, files) => first object 0 (w.withFiles files)
      | (.error e, files) => counted (.error e) (w.withFiles files) := by
  unfold noted Handler.restart
  rw [created]
  cases c.handler.tracker with
  | none => rfl
  | some t =>
    cases object.eTag with
    | none => rfl
    | some eTag =>
      dsimp only [World.withFiles]
      cases saved : t.save eTag made.2 with
      | ok files => rfl
      | error e => rfl

theorem transfer_steps (c : Call σ) (limit : Nat) (w : World σ) :
    (∃ result v, ReflTransGen c.Next (.begun w) (counted result v) ∧
      c.transfer limit w = some (result, v)) ∨
    ∃ object start v, ReflTransGen c.Next (.begun w) (first object start v) ∧
      c.transfer limit w = c.attempts object start limit v := by
  have path : ReflTransGen c.Next (.begun w) (c.opened w) := .single (.opens w)
  unfold opened at path
  unfold transfer Handler.transfer
  rcases asked : c.source.objectMeta { w with metrics := w.metrics.initiate } with ⟨object, u⟩
  rw [asked] at path
  cases object with
  | error e => exact .inl ⟨_, _, path, rfl⟩
  | ok object =>
    dsimp only at path ⊢
    unfold begins at path
    by_cases empty : object.size = 0
    · rw [if_pos empty] at path ⊢
      cases created : u.files.create c.destination with
      | error fault =>
        rw [created] at path
        exact .inl ⟨_, _, path, rfl⟩
      | ok made =>
        rw [created] at path
        exact .inl ⟨_, _, path, rfl⟩
    · rw [if_neg empty] at path ⊢
      unfold Handler.resumePoint
      cases kept : c.handler.resumable? c.destination object u.files with
      | some length =>
        rw [kept] at path
        exact .inr ⟨object, length, u, path, rfl⟩
      | none =>
        rw [kept] at path
        dsimp only at path ⊢
        cases created : u.files.create c.destination with
        | error fault =>
          have failed : c.handler.restart c.destination object u.files =
              (.error (.io fault), u.files) := by
            rw [Handler.restart, created]
          rw [created] at path
          rw [failed]
          exact .inl ⟨_, _, path, rfl⟩
        | ok made =>
          rw [created] at path
          have noting := path.tail (Next.notes object _)
          rw [c.noted_eq created object] at noting
          rcases restarted : c.handler.restart c.destination object u.files with ⟨result, files⟩
          rw [restarted] at noting
          cases result with
          | error e => exact .inl ⟨_, _, noting, rfl⟩
          | ok done => exact .inr ⟨object, 0, u.withFiles files, noting, rfl⟩

theorem get_path {c : Call σ} {limit : Nat} {w w' : World σ} {result : Except Error DownloadOutput}
    (h : c.get limit w = some (result, w')) :
    ReflTransGen c.Next (.begun w) (.ended result w') := by
  obtain ⟨⟨counting, v⟩, transfer, same⟩ := Option.map_eq_some_iff.1 h
  have ended : counted counting v = .ended result w' := by
    cases counting with
    | error e => cases same; rfl
    | ok made => cases same; rfl
  rw [← ended]
  have transfer : c.transfer limit w = some (counting, v) := transfer
  rcases c.transfer_steps limit w with ⟨result', v', path, same⟩ | ⟨object, start, u, path, same⟩
  · rw [transfer] at same
    cases same
    exact path
  · exact path.trans (attempts_path (same.symm.trans transfer))

theorem get_isSome {c : Call σ} {limit : Nat} {w : World σ}
    (ends : ∀ object start v, ReflTransGen c.Next (.begun w) (first object start v) →
      ((c.job object.size).resumable.run c.handler.retries limit ⟨start, 0, v⟩).isSome) :
    (c.get limit w).isSome := by
  have done : (c.transfer limit w).isSome := by
    rcases c.transfer_steps limit w with ⟨result, v, path, same⟩ | ⟨object, start, v, path, same⟩
    · rw [same]
      rfl
    · rw [same, attempts, Option.isSome_map]
      exact ends object start v path
  unfold get Handler.get
  rw [Option.isSome_map]
  exact done

end Call

end Download

end ObjectTransfer
