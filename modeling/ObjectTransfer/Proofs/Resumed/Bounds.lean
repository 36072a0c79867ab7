import ObjectTransfer.Proofs.Files.Tidy
import ObjectTransfer.Proofs.Resumed.Moments
import ObjectTransfer.Proofs.Retry.Bounds
/-!
How long a resumed download goes on. Whatever the source gives, a destination that takes what is written
is as long as the download believes and not longer than the object, and it gets longer with every attempt
that counts as progress; so there are only so many attempts. Of a destination that refuses what is
written, the download believes for an attempt that it has grown, and there need not be a last attempt.
-/
namespace ObjectTransfer
open Files

/-- Asking for the object leaves the file at a path as it is, whatever else it does. -/
structure RangeSource.Spares {σ : Type} (r : RangeSource σ) (path : String) : Prop where
  inspect : ∀ s {files : Store}, files.Tidy → files.Spares path (r.inspect s files).2.2
  fetch : ∀ range s {files : Store}, files.Tidy → files.Spares path (r.fetch range s files).2.2

namespace Download
open Relation

variable {σ : Type}

namespace Job
variable {d : Job σ} {s : State σ} {phase phase' : Phase σ}

/-- The destination has the length that the state says, and is not longer than the object. -/
structure Level (d : Job σ) (s : State σ) : Prop where
  tidy : s.world.files.Tidy
  size : s.world.files.size d.destination = .ok s.length
  le : s.length ≤ d.total

structure Firm (d : Job σ) (s : State σ) : Prop extends d.Level s where
  takes : s.world.files.Takes d.destination

/-- It is so all through an attempt; while the object is received the destination is open. -/
inductive Fits (d : Job σ) : Phase σ → Prop
  | trying {s : State σ} (firm : d.Firm s) : Fits d (.trying s)
  | receiving {id : Nat} {rest : List (Except Cause ByteArray)} {p : Option Progress.Tracker}
      {s : State σ} (firm : d.Firm s) (opened : s.world.files.openAppend d.destination = .ok id) :
      Fits d (.receiving (.opened id) rest p s)
  | tried {result : Except Error Unit} {s : State σ} (firm : d.Firm s) : Fits d (.tried result s)

theorem Fits.firm (fits : d.Fits phase) : d.Firm phase.state := by
  cases fits with
  | trying firm => exact firm
  | receiving firm opened => exact firm
  | tried firm => exact firm

theorem Level.spared (level : d.Level s) {s' : State σ}
    (spares : s.world.files.Spares d.destination s'.world.files) (length : s'.length = s.length) :
    d.Level s' :=
  ⟨spares.tidy level.tidy, by rw [spares.size, length, level.size], length ▸ level.le⟩

theorem Firm.spared (firm : d.Firm s) {s' : State σ}
    (spares : s.world.files.Spares d.destination s'.world.files) (length : s'.length = s.length) :
    d.Firm s' :=
  ⟨firm.toLevel.spared spares length, spares.takes_iff.2 firm.takes⟩

theorem Firm.of_files (firm : d.Firm s) {s' : State σ} (files : s'.world.files = s.world.files)
    (length : s'.length = s.length) : d.Firm s' :=
  firm.spared (files ▸ .refl d.destination _) length

theorem Level.content_size (level : d.Level s) {id : Nat}
    (opened : s.world.files.openAppend d.destination = .ok id) :
    (s.world.files.content id).size = s.length := by
  obtain ⟨place, found⟩ := Store.find_of_openAppend opened
  have size := level.size
  rw [Store.size_of_find found] at size
  exact Except.ok.inj size

theorem Firm.refusal?_eq (firm : d.Firm s) {id : Nat}
    (opened : s.world.files.openAppend d.destination = .ok id) :
    s.world.files.refusal? id = none := by
  obtain ⟨place, found⟩ := Store.find_of_openAppend opened
  exact firm.takes place id found

theorem files_announced (d : Job σ) (s : State σ) :
    (d.announced s).2.world.files = s.world.files ∧ (d.announced s).2.length = s.length := by
  unfold announced
  cases d.progress with
  | none => exact ⟨rfl, rfl⟩
  | some r => exact ⟨rfl, rfl⟩

theorem asked_cases (spares : d.source.Spares d.destination) (tidy : s.world.files.Tidy) (f : Sink) :
    ∃ u : State σ, s.world.files.Spares d.destination u.world.files ∧ u.length = s.length ∧
      ((∃ e, d.asked f s = .tried (.error e) u) ∨ ∃ rest p, d.asked f s = .receiving f rest p u) := by
  obtain ⟨files, length⟩ := d.files_announced s
  have spared := spares.fetch (.allFrom (d.announced s).2.length) (d.announced s).2.world.peer tidy
  unfold Job.asked
  dsimp only
  rcases given : d.source.getRange (.allFrom (d.announced s).2.length) (d.announced s).2.world with
    ⟨result, w⟩
  have after : s.world.files.Spares d.destination w.files := by
    rw [← files] at spared ⊢
    rw [← congrArg (·.2.files) given]
    exact spared
  refine ⟨⟨(d.announced s).2.length, (d.announced s).2.requests + 1, w⟩, after, length, ?_⟩
  cases result with
  | error e => exact .inl ⟨e, rfl⟩
  | ok body => exact .inr ⟨_, _, rfl⟩

theorem Firm.asked (firm : d.Firm s) (spares : d.source.Spares d.destination) {id : Nat}
    (opened : s.world.files.openAppend d.destination = .ok id) :
    d.Fits (d.asked (.opened id) s) ∧ (d.asked (.opened id) s).state.length = s.length := by
  obtain ⟨u, spared, length, ⟨e, same⟩ | ⟨rest, p, same⟩⟩ :=
    asked_cases spares firm.tidy (.opened id)
  · rw [same]
    exact ⟨.tried (firm.spared spared length), length⟩
  · rw [same]
    exact ⟨.receiving (firm.spared spared length) (spared.openAppend.trans opened), length⟩

theorem Firm.opened (firm : d.Firm s) (spares : d.source.Spares d.destination) :
    d.Fits (d.opened s) ∧ (d.opened s).state.length = s.length := by
  unfold Job.opened
  cases opened : s.world.files.openAppend d.destination with
  | error fault => exact ⟨.tried firm, rfl⟩
  | ok id =>
    have length := firm.content_size opened
    have firm' : d.Firm { s with length := (s.world.files.content id).size } :=
      firm.of_files rfl length
    dsimp only
    split
    · exact ⟨.tried firm', length⟩
    · obtain ⟨fits, same⟩ := firm'.asked spares opened
      exact ⟨fits, same.trans length⟩

theorem Firm.taken (firm : d.Firm s) {id : Nat} {item : Except Cause ByteArray}
    {rest : List (Except Cause ByteArray)} {p : Option Progress.Tracker}
    (opened : s.world.files.openAppend d.destination = .ok id) :
    d.Fits (d.taken (.opened id) rest p s item) ∧
      s.length ≤ (d.taken (.opened id) rest p s item).state.length := by
  cases item with
  | error cause => exact ⟨.tried firm, Nat.le_refl _⟩
  | ok chunk =>
    by_cases long : d.total < s.length + chunk.size
    · unfold Job.taken
      dsimp only
      rw [if_pos long]
      exact ⟨.tried firm, Nat.le_refl _⟩
    · have fits := Nat.not_lt.1 long
      obtain ⟨p', reports, same⟩ := taken_eq (firm.refusal?_eq opened) fits rest p
      obtain ⟨size, still⟩ :=
        firm.tidy.size_append opened (firm.refusal?_eq opened) firm.size chunk
      rw [same]
      exact ⟨.receiving ⟨⟨firm.tidy.append id chunk, size, fits⟩, firm.takes.append id chunk⟩ still,
        Nat.le_add_right _ _⟩

theorem Firm.spent (firm : d.Firm s) (id : Nat) (p : Option Progress.Tracker) :
    d.Fits (d.spent (.opened id) p s) ∧ (d.spent (.opened id) p s).state.length = s.length := by
  unfold Job.spent
  rw [Sink.flush_opened]
  dsimp only
  split
  · exact ⟨.tried firm, rfl⟩
  · exact ⟨.tried (firm.of_files rfl rfl), rfl⟩

theorem Fits.next (fits : d.Fits phase) (spares : d.source.Spares d.destination)
    (next : d.Next phase phase') :
    d.Fits phase' ∧ phase.state.length ≤ phase'.state.length := by
  cases next with
  | opens s =>
    obtain ⟨fits', same⟩ := fits.firm.opened spares
    exact ⟨fits', Nat.le_of_eq same.symm⟩
  | takes f item rest p s =>
    cases fits with
    | receiving firm opened => exact firm.taken opened
  | ends f p s =>
    cases fits with
    | receiving firm opened =>
      obtain ⟨fits', same⟩ := firm.spent _ p
      exact ⟨fits', Nat.le_of_eq same.symm⟩

theorem Firm.attempt (firm : d.Firm s) (spares : d.source.Spares d.destination) :
    d.Firm (d.attempt s).2 ∧ s.length ≤ (d.attempt s).2.length := by
  have kept := attempt_keeps (G := fun phase => d.Fits phase ∧ s.length ≤ phase.state.length)
    (fun kept next =>
      ⟨(kept.1.next spares next).1, Nat.le_trans kept.2 (kept.1.next spares next).2⟩)
    ⟨.trying firm, Nat.le_refl _⟩
  exact ⟨kept.1.firm, kept.2⟩

theorem Firm.reaches {retries made idle : Nat} {t : State σ} (firm : d.Firm s)
    (spares : d.source.Spares d.destination)
    (reached : d.resumable.Reaches retries s made idle t) : d.Firm t :=
  reaches_keeps (fun firm => (firm.attempt spares).1) firm reached

/-- There are no more attempts than the bytes that are missing and the retries allow. -/
theorem Firm.run_isSome (firm : d.Firm s) (retries : Nat)
    (spares : d.source.Spares d.destination) :
    (d.resumable.run retries ((d.total - s.length + 1) * (retries + 1)) s).isSome :=
  run_isSome_of_keeps (fun firm => firm.attempt spares) (fun firm => firm.le) firm (Nat.le_refl _)

/-- The destination refuses what is written to it, so it holds nothing. -/
structure Closed (d : Job σ) (s : State σ) : Prop where
  tidy : s.world.files.Tidy
  found : ∃ place id fault, s.world.files.find d.destination = .ok (place, .file id) ∧
    s.world.files.content id = .device fault

/-- It is so all through an attempt, and as long as no refusal is due nothing was counted. -/
inductive Fails (d : Job σ) : Phase σ → Prop
  | trying {s : State σ} (closed : d.Closed s) : Fails d (.trying s)
  | receiving {f : Sink} {fault : Fault} {rest : List (Except Cause ByteArray)}
      {p : Option Progress.Tracker} {s : State σ} (closed : d.Closed s)
      (refuses : s.world.files.refusal? f.id = some fault)
      (nothing : f.refused = none → s.length = 0) : Fails d (.receiving f rest p s)
  | tried {e : Error} {s : State σ} (closed : d.Closed s) : Fails d (.tried (.error e) s)

theorem closed_of_not_takes (tidy : s.world.files.Tidy) (refuses : ¬ s.world.files.Takes d.destination) :
    d.Closed s := by
  unfold Store.Takes at refuses
  push Not at refuses
  obtain ⟨place, id, found, refusal⟩ := refuses
  refine ⟨tidy, place, id, ?_⟩
  unfold Store.refusal? at refusal
  cases content : s.world.files.content id with
  | plain written zeros =>
    rw [content] at refusal
    exact absurd rfl refusal
  | device fault => exact ⟨fault, found, rfl⟩

theorem Closed.size (closed : d.Closed s) : s.world.files.size d.destination = .ok 0 := by
  obtain ⟨place, id, fault, found, content⟩ := closed.found
  rw [Store.size_of_find found, content]
  rfl

theorem Closed.spared (closed : d.Closed s) {s' : State σ}
    (spares : s.world.files.Spares d.destination s'.world.files) : d.Closed s' := by
  obtain ⟨place, id, fault, found, content⟩ := closed.found
  exact ⟨spares.tidy closed.tidy, place, id, fault, spares.find.trans found,
    (spares.content found).trans content⟩

theorem Closed.of_files (closed : d.Closed s) {s' : State σ}
    (files : s'.world.files = s.world.files) : d.Closed s' :=
  closed.spared (files ▸ .refl d.destination _)

theorem Closed.failed (closed : d.Closed s) (f : Sink) (e : Error) :
    d.Fails (.tried (f.flush (.error e)) s) := by
  obtain ⟨e', flushed⟩ := f.flush_error e
  rw [flushed]
  exact .tried closed

theorem Closed.opened (closed : d.Closed s) (spares : d.source.Spares d.destination)
    (bytes : d.total ≠ 0) : d.Fails (d.opened s) := by
  obtain ⟨place, id, fault, found, content⟩ := closed.found
  have opened : s.world.files.openAppend d.destination = .ok id := by
    rw [Store.openAppend, found]
  have empty : (s.world.files.content id).size = 0 := by
    rw [content]
    rfl
  unfold Job.opened
  rw [opened]
  dsimp only
  rw [empty, if_neg bytes.symm]
  obtain ⟨u, spared, length, ⟨e, same⟩ | ⟨rest, p, same⟩⟩ :=
    asked_cases (s := ⟨0, s.requests, s.world⟩) spares closed.tidy (.opened id)
  · rw [same]
    exact .tried (closed.spared spared)
  · have refuses : u.world.files.refusal? id = some fault := by
      rw [Store.refusal?, spared.content found]
      exact congrArg Content.refusal? content
    rw [same]
    exact .receiving (closed.spared spared) refuses fun _ => length

theorem Fails.next (fails : d.Fails phase) (spares : d.source.Spares d.destination)
    (bytes : d.total ≠ 0) (next : d.Next phase phase') : d.Fails phase' := by
  cases next with
  | opens s =>
    cases fails with
    | trying closed => exact closed.opened spares bytes
  | takes f item rest p s =>
    cases fails with
    | @receiving f fault rest p s closed refuses nothing =>
      cases item with
      | error cause => exact closed.failed f _
      | ok chunk =>
        unfold taken
        dsimp only
        split
        · exact closed.failed f _
        · rcases Sink.write_refused refuses chunk with
            ⟨fault', written⟩ | ⟨f', written, same, unknown⟩
          · rw [written]
            exact .tried closed
          · obtain ⟨p', reports, counted⟩ := count_eq chunk.size p
              { s with world := s.world.withFiles s.world.files }
            rw [written]
            dsimp only
            rw [counted]
            -- a chunk with bytes makes a refusal due, so only empty ones have been counted until then
            refine .receiving (closed.of_files rfl) (same ▸ refuses) fun none => ?_
            obtain ⟨before, empty⟩ := unknown none
            dsimp only
            rw [nothing before, empty]
  | ends f p s =>
    cases fails with
    | receiving closed refuses nothing =>
      unfold spent Sink.flush
      cases refused : f.refused with
      | some fault => exact .tried closed
      | none =>
        dsimp only
        rw [if_pos (by rw [nothing refused]; exact Nat.pos_of_ne_zero bytes)]
        exact .tried closed

theorem Closed.attempt (closed : d.Closed s) (spares : d.source.Spares d.destination)
    (bytes : d.total ≠ 0) : d.Closed (d.attempt s).2 ∧ (d.attempt s).1 ≠ .ok () := by
  have fails := attempt_keeps (G := d.Fails) (fun fails next => fails.next spares bytes next)
    (.trying closed)
  generalize d.attempt s = out at fails
  obtain ⟨result, u⟩ := out
  cases fails with
  | tried closed => exact ⟨closed, fun h => by cases h⟩

theorem Closed.run_fails {retries limit : Nat} {o : Outcome (State σ) Unit} (closed : d.Closed s)
    (spares : d.source.Spares d.destination) (bytes : d.total ≠ 0)
    (run : d.resumable.run retries limit s = some o) : o.result ≠ .ok () := by
  obtain ⟨made, idle, u, reached, -, ends⟩ := Resumable.run_eq_some run
  have before := reaches_keeps (fun closed => (closed.attempt spares bytes).1) closed reached
  obtain ⟨result, last, attempts, pauses⟩ := o
  rintro rfl
  cases ends with
  | finished attempted => exact (before.attempt spares bytes).2 (congrArg Prod.fst attempted)

theorem next_rightUnique (d : Job σ) : Relator.RightUnique d.Next := by
  intro phase left right hleft hright
  cases hleft with
  | opens s => cases hright; rfl
  | takes id item rest p s => cases hright; rfl
  | ends id p s => cases hright; rfl

theorem attempt_of_long {id : Nat} {chunk : ByteArray} {rest : List (Except Cause ByteArray)}
    {p : Option Progress.Tracker} {u : State σ}
    (path : ReflTransGen d.Next (.trying s) (.receiving (.opened id) (.ok chunk :: rest) p u))
    (long : d.total < u.length + chunk.size) :
    d.attempt s = (.error (.resumable .abort .tooManyBytes), u) := by
  have ends := path.tail (Next.takes (d := d) (.opened id) (.ok chunk) rest p u)
  have stop : d.taken (.opened id) rest p u (.ok chunk) =
      .tried (.error (.resumable .abort .tooManyBytes)) u := if_pos long
  rw [stop] at ends
  have final {result result' : Except Error Unit} {v v' : State σ}
      (path : ReflTransGen d.Next (.tried result v) (.tried result' v')) :
      result' = result ∧ v' = v := by
    cases path.cases_head with
    | inl same => cases same; exact ⟨rfl, rfl⟩
    | inr more =>
      obtain ⟨phase, next, -⟩ := more
      cases next
  rcases ReflTransGen.total_of_right_unique d.next_rightUnique ends (d.attempt_path s) with path | path
  · exact Prod.ext (final path).1 (final path).2
  · exact Prod.ext (final path).1.symm (final path).2.symm

/-- All through an attempt at a destination that takes what is written, no refusal is due. -/
theorem Firm.sink_eq (firm : d.Firm s) (spares : d.source.Spares d.destination) {f : Sink}
    {rest : List (Except Cause ByteArray)} {p : Option Progress.Tracker} {u : State σ}
    (path : ReflTransGen d.Next (.trying s) (.receiving f rest p u)) : ∃ id, f = .opened id := by
  have fits {phase : Phase σ} (path : ReflTransGen d.Next (.trying s) phase) : d.Fits phase := by
    induction path with
    | refl => exact .trying firm
    | tail _ next ih => exact (ih.next spares next).1
  cases fits path with
  | @receiving id => exact ⟨id, rfl⟩

end Job

namespace Call
variable {c : Call σ} {w : World σ} {object : ObjectMeta} {s : State σ}

/-- A call that is given an object with bytes makes attempts from this state on. -/
inductive Opens (c : Call σ) (w : World σ) : ObjectMeta → State σ → Prop
  | intro {object : ObjectMeta} {v u : World σ} {r : Nat}
      (asked : c.source.objectMeta { w with metrics := w.metrics.initiate } = (.ok object, v))
      (bytes : object.size ≠ 0)
      (resumed : c.handler.resumePoint c.destination object v = (.ok r, u)) :
      Opens c w object ⟨r, 0, u⟩

theorem Opens.transfer_eq (opens : c.Opens w object s) (limit : Nat) :
    c.transfer limit w = c.attempts object s.length limit s.world := by
  cases opens with
  | intro asked bytes resumed =>
    unfold transfer Handler.transfer
    rw [asked]
    dsimp only
    rw [if_neg bytes, resumed]
    rfl

theorem Opens.get_eq (opens : c.Opens w object s) {limit : Nat} {o : Outcome (State σ) Unit}
    (run : (c.job object.size).resumable.run c.handler.retries limit s = some o) :
    ∃ n, c.get limit w = some ((c.settled object s.length o).1.map (·.1),
      { (c.settled object s.length o).2 with metrics := n }) := by
  have start : s = ⟨s.length, 0, s.world⟩ := by
    cases opens
    rfl
  have made : c.transfer limit w = some (c.settled object s.length o) := by
    rw [opens.transfer_eq limit, attempts, ← start, run]
    rfl
  have made : c.handler.transfer c.source c.destination c.buffer limit c.progress
      { w with metrics := w.metrics.initiate } = some (c.settled object s.length o) := made
  unfold get Handler.get
  dsimp only
  rw [made]
  exact ⟨_, rfl⟩

theorem get_of_unopened (unopened : ∀ object s, ¬ c.Opens w object s) (limit : Nat) :
    (c.get limit w).isSome := by
  have done : (c.transfer limit w).isSome := by
    unfold transfer Handler.transfer
    rcases asked : c.source.objectMeta { w with metrics := w.metrics.initiate } with ⟨result, v⟩
    cases result with
    | error e => rfl
    | ok object =>
      dsimp only
      by_cases bytes : object.size = 0
      · rw [if_pos bytes]
        split
        · rfl
        · rfl
      · rw [if_neg bytes]
        rcases resumed : c.handler.resumePoint c.destination object v with ⟨length, u⟩
        cases length with
        | error e => rfl
        | ok r => exact absurd (.intro asked bytes resumed) (unopened object ⟨r, 0, u⟩)
  unfold get Handler.get
  rw [Option.isSome_map]
  exact done

theorem level_restart {files files' : Store} {x : Unit} (tidy : files.Tidy)
    (apart : ∀ t, c.handler.tracker = some t → placeOf c.destination ≠ placeOf t.path)
    (restarted : c.handler.restart c.destination object files = (.ok x, files')) :
    files'.Tidy ∧ files'.size c.destination = .ok 0 ∧
      (files'.Takes c.destination ↔ files.Takes c.destination) := by
  have restarts := c.handler.restarts c.destination object files
  rw [restarted] at restarts
  cases restarts with
  | made created =>
    exact ⟨tidy.create created, (tidy.find_create created).2, tidy.takes_create created⟩
  | noted created tracked written =>
    obtain ⟨found, empty⟩ := tidy.find_create created
    have spares := Store.Spares.write (tidy.create created) (apart _ tracked) found written
    exact ⟨spares.tidy (tidy.create created), spares.size.trans empty,
      spares.takes_iff.trans (tidy.takes_create created)⟩

theorem level_resumable {files : Store} {length : Nat}
    (kept : c.handler.resumable? c.destination object files = some length) :
    files.size c.destination = .ok length ∧ length ≤ object.size := by
  unfold Handler.resumable? at kept
  split at kept
  · split at kept
    · split at kept
      · rename_i n size
        split at kept
        · rename_i le
          cases kept
          exact ⟨size, le⟩
        · cases kept
      · cases kept
    · cases kept
  · cases kept

theorem Opens.level (opens : c.Opens w object s) (spares : c.source.Spares c.destination)
    (tidy : w.files.Tidy)
    (apart : ∀ t, c.handler.tracker = some t → placeOf c.destination ≠ placeOf t.path) :
    (c.job object.size).Level s ∧
      (s.world.files.Takes c.destination ↔ w.files.Takes c.destination) := by
  cases opens with
  | @intro v u r asked bytes resumed =>
    have spared := spares.inspect w.peer tidy
    have files : (c.source.inspect w.peer w.files).2.2 = v.files := congrArg (·.2.files) asked
    rw [files] at spared
    have inspected := spared.tidy tidy
    unfold Handler.resumePoint at resumed
    cases kept : c.handler.resumable? c.destination object v.files with
    | some length =>
      rw [kept] at resumed
      cases resumed
      obtain ⟨size, le⟩ := level_resumable kept
      exact ⟨⟨inspected, size, le⟩, spared.takes_iff⟩
    | none =>
      rw [kept] at resumed
      rcases restarted : c.handler.restart c.destination object v.files with ⟨result, after⟩
      rw [restarted] at resumed
      cases result with
      | error e => cases resumed
      | ok x =>
        cases resumed
        obtain ⟨tidied, empty, takes⟩ := level_restart inspected apart restarted
        exact ⟨⟨tidied, empty, Nat.zero_le _⟩, takes.trans spared.takes_iff⟩

theorem Opens.bytes (opens : c.Opens w object s) : (c.job object.size).total ≠ 0 := by
  cases opens with
  | intro asked bytes resumed => exact bytes

/-- A chunk that would pass the size of the object makes the call fail, with the destination as it was
before the chunk. -/
theorem Opens.get_of_long (opens : c.Opens w object s) {made idle : Nat} {t u : State σ}
    (reached : (c.job object.size).resumable.Reaches c.handler.retries s made idle t)
    (attempted : (c.job object.size).attempt t = (.error (.resumable .abort .tooManyBytes), u))
    {limit : Nat} (enough : made < limit) :
    ∃ v, c.get limit w = some (.error (.resumable .abort .tooManyBytes), v) ∧
      v.files = (forget c.handler.tracker u.world).files := by
  obtain ⟨pauses, run⟩ := reached.aborts attempted rfl
  obtain ⟨n, same⟩ := opens.get_eq (run limit enough)
  exact ⟨_, same, rfl⟩

end Call

/-- Whatever the source gives, a call that is given no object with bytes ends without an attempt. Any other
call ends, if the destination takes what is written, after no more attempts than the missing bytes and the
retries allow: before and after every attempt the destination has the length that the download believes,
which is not more than that of the object and never less than before. A chunk that would pass the size of
the object is not written, and the call is aborted. A destination that refuses what is written stays empty,
and no attempt succeeds. -/
theorem attempts_bounded_by_missing_bytes (c : Call σ) (w : World σ)
    (spares : c.source.Spares c.destination) (tidy : w.files.Tidy)
    (apart : ∀ t, c.handler.tracker = some t → placeOf c.destination ≠ placeOf t.path) :
    ((∀ object s, ¬ c.Opens w object s) → (c.get 0 w).isSome) ∧
    ∀ object s, c.Opens w object s →
      (w.files.Takes c.destination →
        (c.get ((object.size - s.length + 1) * (c.handler.retries + 1)) w).isSome ∧
        ∀ made idle t, (c.job object.size).resumable.Reaches c.handler.retries s made idle t →
          made < (object.size - s.length + 1) * (c.handler.retries + 1) ∧
          (c.job object.size).Level t ∧ (c.job object.size).Level ((c.job object.size).attempt t).2 ∧
          t.length ≤ ((c.job object.size).attempt t).2.length ∧
          ∀ f chunk rest p u,
            ReflTransGen (c.job object.size).Next (.trying t) (.receiving f (.ok chunk :: rest) p u) →
            object.size < u.length + chunk.size →
            (c.job object.size).attempt t = (.error (.resumable .abort .tooManyBytes), u) ∧
            ∀ limit, made < limit →
              ∃ v, c.get limit w = some (.error (.resumable .abort .tooManyBytes), v) ∧
                v.files = (forget c.handler.tracker u.world).files) ∧
      (¬ w.files.Takes c.destination →
        ∀ made idle t, (c.job object.size).resumable.Reaches c.handler.retries s made idle t →
          t.world.files.size c.destination = .ok 0 ∧ ((c.job object.size).attempt t).1 ≠ .ok ()) := by
  refine ⟨fun unopened => Call.get_of_unopened unopened 0, fun object s opens => ?_⟩
  obtain ⟨level, takes⟩ := opens.level spares tidy apart
  constructor
  · intro taken
    have firm : (c.job object.size).Firm s := ⟨level, takes.2 taken⟩
    have ends := firm.run_isSome c.handler.retries spares
    constructor
    · obtain ⟨outcome, run⟩ := Option.isSome_iff_exists.1 ends
      obtain ⟨n, same⟩ := opens.get_eq run
      have total : (c.job object.size).total = object.size := rfl
      rw [total] at same
      rw [same]
      rfl
    · intro made idle t reached
      have firm' := firm.reaches spares reached
      obtain ⟨after, le⟩ := firm'.attempt spares
      refine ⟨reached.lt_of_isSome ends, firm'.toLevel, after.toLevel, le,
        fun f chunk rest p u path long => ?_⟩
      obtain ⟨id, rfl⟩ := firm'.sink_eq spares path
      have attempted := Job.attempt_of_long path long
      exact ⟨attempted, fun limit enough => opens.get_of_long reached attempted enough⟩
  · intro refuses made idle t reached
    have closed : (c.job object.size).Closed s :=
      Job.closed_of_not_takes level.tidy fun taken => refuses (takes.1 taken)
    have closed' : (c.job object.size).Closed t :=
      Job.reaches_keeps (fun closed => (closed.attempt spares opens.bytes).1) closed reached
    exact ⟨closed'.size, (closed'.attempt spares opens.bytes).2⟩

/-- An object of three bytes that is always given as two chunks of two bytes. -/
def overfull : RangeSource Unit where
  inspect s files := (.ok ⟨3, some "v"⟩, s, files)
  fetch _ s files := (.ok (.stream [.ok ⟨#[1, 2]⟩, .ok ⟨#[3, 4]⟩]), s, files)

theorem spares_overfull (path : String) : overfull.Spares path where
  inspect _ _ _ := .refl path _
  fetch _ _ _ _ := .refl path _

/-- Downloads it to `out`, with one retry, and keeps its tag in `t`. -/
def overfullCall : Call Unit := ⟨⟨some ⟨"t"⟩, 1⟩, overfull, "out", 8192, none⟩

/-- The first two bytes are all that is written, and the call is aborted. -/
theorem overfull_attempts_bounded :
    (overfullCall.get 8 (.initial () .empty)).isSome ∧
    ∃ v, overfullCall.get 8 (.initial () .empty) =
      some (.error (.resumable .abort .tooManyBytes), v) ∧
      v.files.size "out" = .ok 2 := by
  obtain ⟨-, bounded⟩ := attempts_bounded_by_missing_bytes overfullCall (.initial () .empty)
    (spares_overfull "out") Store.tidy_empty (by rintro t ⟨⟩; decide)
  let w : World Unit := { World.initial () .empty with metrics := Metrics.zero.initiate }
  have resumed : (overfullCall.handler.resumePoint "out" ⟨3, some "v"⟩ w).1 = .ok 0 := rfl
  obtain ⟨taken, -⟩ := bounded ⟨3, some "v"⟩ _ (.intro rfl (by decide) (Prod.ext resumed rfl))
  obtain ⟨ends, along⟩ := taken fun place id found => by cases found
  refine ⟨ends, ?_⟩
  obtain ⟨-, -, -, -, long⟩ := along 0 0 _ .start
  let s : State Unit := ⟨0, 0, (overfullCall.handler.resumePoint "out" ⟨3, some "v"⟩ w).2⟩
  have opened : (overfullCall.job 3).opened s =
      .receiving (.opened 0) [.ok ⟨#[1, 2]⟩, .ok ⟨#[3, 4]⟩] none
        ((overfullCall.job 3).opened s).state := rfl
  have opens := Job.Next.opens (d := overfullCall.job 3) s
  rw [opened] at opens
  have takes := Job.Next.takes (d := overfullCall.job 3) (.opened 0) (.ok ⟨#[1, 2]⟩)
    [.ok ⟨#[3, 4]⟩] none ((overfullCall.job 3).opened s).state
  obtain ⟨-, fails⟩ := long (.opened 0) ⟨#[3, 4]⟩ [] none _ (.tail (.single opens) takes)
    (by decide +kernel)
  obtain ⟨v, failed, files⟩ := fails 8 (by decide)
  refine ⟨v, failed, ?_⟩
  rw [files]
  rfl

/-- An object of five bytes, which are given every other time. -/
def flapping : RangeSource Bool where
  inspect s files := (.ok ⟨5, none⟩, s, files)
  fetch _ s files :=
    (if s then .ok (.stream [.ok ⟨#[1, 2, 3, 4, 5]⟩]) else .error (.transport (.given "reset")), !s,
      files)

/-- Downloads it to the full device, with one retry. -/
def flappingCall : Call Bool := ⟨⟨none, 1⟩, flapping, "/dev/full", 8192, none⟩

def flappingWorld (given : Bool) : World Bool :=
  ⟨given, .besideFullDevice, #[], #[], Metrics.zero.initiate⟩

theorem openAppend_fullDevice : Store.besideFullDevice.openAppend "/dev/full" = .ok 0 := rfl

theorem attempt_flapping_given (length requests : Nat) :
    (flappingCall.job 5).attempt ⟨length, requests, flappingWorld true⟩ =
      (.error (.io .noSpace), ⟨5, requests + 1, flappingWorld false⟩) := by
  have opened : (flappingWorld true).files.openAppend "/dev/full" = .ok 0 := openAppend_fullDevice
  have destination : (flappingCall.job 5).destination = "/dev/full" := rfl
  unfold Job.attempt
  rw [destination, opened]
  rfl

theorem attempt_flapping_refused (length requests : Nat) :
    (flappingCall.job 5).attempt ⟨length, requests, flappingWorld false⟩ =
      (.error (.transport (.given "reset")), ⟨0, requests + 1, flappingWorld true⟩) := by
  have opened : (flappingWorld false).files.openAppend "/dev/full" = .ok 0 := openAppend_fullDevice
  have destination : (flappingCall.job 5).destination = "/dev/full" := rfl
  unfold Job.attempt
  rw [destination, opened]
  rfl

theorem runFrom_flapping (limit made idle requests : Nat) (pauses : List Nat) (few : idle ≤ 1) :
    (flappingCall.job 5).resumable.runFrom 1 limit made idle pauses
        ⟨0, requests, flappingWorld true⟩ = none ∧
      (flappingCall.job 5).resumable.runFrom 1 limit made 0 pauses
        ⟨5, requests, flappingWorld false⟩ = none := by
  -- by turns: from no bytes the next state has five, and from five it has none
  induction limit generalizing made idle requests pauses with
  | zero => exact ⟨rfl, rfl⟩
  | succ limit ih =>
    have given : (flappingCall.job 5).resumable.attempt ⟨0, requests, flappingWorld true⟩ = _ :=
      attempt_flapping_given 0 requests
    have refused : (flappingCall.job 5).resumable.attempt ⟨5, requests, flappingWorld false⟩ = _ :=
      attempt_flapping_refused 5 requests
    have progress : (if (0 : Nat) < 5 then 0 else idle + 1) ≤ 1 := Nat.zero_le 1
    have noProgress : (if (5 : Nat) < 0 then 0 else 0 + 1) ≤ 1 := Nat.le_refl 1
    unfold Resumable.runFrom
    rw [Resumable.turn_of_attempt given rfl progress, Resumable.turn_of_attempt refused rfl noProgress]
    exact ⟨(ih _ 0 _ _ (Nat.zero_le 1)).2, (ih _ 1 _ _ (Nat.le_refl 1)).1⟩

theorem opens_flapping :
    flappingCall.Opens (.initial true .besideFullDevice) ⟨5, none⟩ ⟨0, 0, flappingWorld true⟩ :=
  .intro rfl (by decide) rfl

/-- Five bytes and one retry would make twelve attempts, but this call has never made its last one: its
first attempt counts five bytes, and none of them is in the destination. -/
theorem flapping_download_never_ends :
    flapping.Spares "/dev/full" ∧ Store.besideFullDevice.Tidy ∧
    flappingCall.Opens (.initial true .besideFullDevice) ⟨5, none⟩ ⟨0, 0, flappingWorld true⟩ ∧
    ((flappingCall.job 5).attempt ⟨0, 0, flappingWorld true⟩).2.length = 5 ∧
    ((flappingCall.job 5).attempt ⟨0, 0, flappingWorld true⟩).2.world.files.size "/dev/full" = .ok 0 ∧
    flappingCall.handler.retries = 1 ∧
    ∀ limit, flappingCall.get limit (.initial true .besideFullDevice) = none := by
  refine ⟨⟨fun _ _ _ => .refl _ _, fun _ _ _ _ => .refl _ _⟩, Store.tidy_besideFullDevice,
    opens_flapping, ?_, ?_, rfl, fun limit => ?_⟩
  · rw [attempt_flapping_given]
  · rw [attempt_flapping_given]
    rfl
  · have run : (flappingCall.job 5).resumable.run 1 limit ⟨0, 0, flappingWorld true⟩ = none :=
      (runFrom_flapping limit 0 0 0 [] (Nat.zero_le 1)).1
    have unfinished : flappingCall.transfer limit (.initial true .besideFullDevice) = none := by
      rw [opens_flapping.transfer_eq limit]
      exact congrArg (Option.map _) run
    exact congrArg (Option.map _) unfinished

end Download

end ObjectTransfer
