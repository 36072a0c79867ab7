import ObjectTransfer.Proofs.Resumed.Bounds
import ObjectTransfer.Proofs.Resumed.Delivery
import ObjectTransfer.Proofs.Text.Pieces
/-!
The ends of a resumed download. Nothing is supposed of the source here but that it has its hands off the
two files: it may give wrong bytes, too few or too many, and fail in any way at any time. A call that
succeeds has a destination of the right length, with the digest that the tag promises if it is one; a call
that fails leaves the two files as they should be for what comes next.
-/
namespace ObjectTransfer
open Files

/-- Whatever the source does when it is asked, it does not do it to these two files. -/
structure RangeSource.LeavesAlone {σ : Type} (r : RangeSource σ) (path other : String) : Prop where
  inspect : ∀ s {files : Store} {a b}, files.Beside path other a b →
    (r.inspect s files).2.2.Beside path other a b
  fetch : ∀ range s {files : Store} {a b}, files.Beside path other a b →
    (r.fetch range s files).2.2.Beside path other a b ∧
      (r.fetch range s files).2.2.openAppend path = files.openAppend path

namespace Download
open Relation Text

/-- The tag is an MD5 digest: 32 hexadecimal digits, perhaps in quotes. The digest is written with small
letters. -/
def Promises (eTag digest : String) : Prop :=
  ∃ before digits after : List Char, eTag.toList = before ++ digits ++ after ∧
    (∀ c ∈ before, c = '"') ∧ (∀ c ∈ after, c = '"') ∧ digits.length = 32 ∧
    (∀ c ∈ digits, Hex.isHexDigit c) ∧ digest = String.ofList (digits.map Char.toLower)

theorem plainMd5_eq_some_iff {eTag digest : String} :
    plainMd5 eTag = some digest ↔ Promises eTag digest := by
  unfold plainMd5
  dsimp only
  constructor
  · intro read
    split at read
    · rename_i plain
      cases read
      obtain ⟨before, after, front, back, same⟩ := stripBy_spec (· == '"') eTag.toList
      rw [Bool.and_eq_true, decide_eq_true_eq, List.all_eq_true] at plain
      exact ⟨before, _, after, same, fun c mem => eq_of_beq (front c mem),
        fun c mem => eq_of_beq (back c mem), plain.1, plain.2, rfl⟩
    · cases read
  · rintro ⟨before, digits, after, same, front, back, length, hex, rfl⟩
    have unquoted : ∀ c ∈ digits, (c == '"') = false := by
      intro c mem
      rw [beq_eq_false_iff_ne]
      rintro rfl
      exact absurd (hex '"' mem) (by decide)
    have stripped : stripBy (· == '"') eTag.toList = digits := by
      rw [same]
      exact stripBy_eq (fun c mem => beq_iff_eq.2 (front c mem))
        (fun c mem => beq_iff_eq.2 (back c mem)) unquoted
    rw [stripped, if_pos (by rw [length]; simpa using hex)]

variable {σ : Type} {t : TrackerFile} {y : Option ByteArray}

namespace Job
variable {d : Job σ} {k : Nat} {s : State σ} {phase phase' : Phase σ}

/-- The destination is as long as the download believes, which is at least `k` bytes and not more than the
object has, and the tracker file is `y`. -/
structure Keeps (d : Job σ) (t : TrackerFile) (y : Option ByteArray) (k : Nat) (s : State σ) : Prop where
  files : ∃ data, s.world.files.Beside d.destination t.path (some data) y ∧ data.size = s.length
  least : k ≤ s.length
  le : s.length ≤ d.total

/-- It is so all through an attempt, and one that has succeeded has all bytes of the object. -/
inductive Goes (d : Job σ) (t : TrackerFile) (y : Option ByteArray) (k : Nat) : Phase σ → Prop
  | trying {s : State σ} (keeps : d.Keeps t y k s) : Goes d t y k (.trying s)
  | receiving {id : Nat} {rest : List (Except Cause ByteArray)} {p : Option Progress.Tracker}
      {s : State σ} (keeps : d.Keeps t y k s)
      (opened : s.world.files.openAppend d.destination = .ok id) :
      Goes d t y k (.receiving (.opened id) rest p s)
  | tried {result : Except Error Unit} {s : State σ} (keeps : d.Keeps t y k s)
      (complete : result = .ok () → s.length = d.total) : Goes d t y k (.tried result s)

theorem Keeps.failed (keeps : d.Keeps t y k s) (e : Error) : d.Goes t y k (.tried (.error e) s) :=
  .tried keeps fun h => by cases h

theorem Keeps.asked (keeps : d.Keeps t y k s) (alone : d.source.LeavesAlone d.destination t.path) {id : Nat}
    (opened : s.world.files.openAppend d.destination = .ok id) : d.Goes t y k (d.asked (.opened id) s) := by
  obtain ⟨same, length⟩ := d.files_announced s
  obtain ⟨data, beside, size⟩ := keeps.files
  rw [← same] at beside opened
  obtain ⟨beside', still⟩ := alone.fetch (.allFrom (d.announced s).2.length) (d.announced s).2.world.peer beside
  unfold Job.asked
  dsimp only
  rcases given : d.source.getRange (.allFrom (d.announced s).2.length) (d.announced s).2.world with
    ⟨result, w⟩
  have after : (d.source.fetch (.allFrom (d.announced s).2.length) (d.announced s).2.world.peer
      (d.announced s).2.world.files).2.2 = w.files := congrArg (·.2.files) given
  rw [after] at beside' still
  have keeps' (n : Nat) : d.Keeps t y k ⟨(d.announced s).2.length, n, w⟩ :=
    ⟨⟨data, beside', size.trans length.symm⟩, length.symm ▸ keeps.least, length.symm ▸ keeps.le⟩
  cases result with
  | error e => exact (keeps' _).failed e
  | ok body => exact .receiving (keeps' _) (still.trans opened)

/-- The destination is opened: it is complete, or the rest is asked for. -/
theorem Keeps.opened (keeps : d.Keeps t y k s) (alone : d.source.LeavesAlone d.destination t.path) :
    d.Goes t y k (d.opened s) := by
  obtain ⟨data, beside, size⟩ := keeps.files
  obtain ⟨id, opened, bytes⟩ := beside.opens
  have length : (s.world.files.content id).size = s.length := by
    rw [← Content.size_bytes, bytes, size]
  unfold Job.opened
  rw [opened]
  dsimp only
  rw [length]
  by_cases complete : s.length = d.total
  · rw [if_pos complete]
    exact .tried keeps fun _ => complete
  · rw [if_neg complete]
    exact keeps.asked alone opened

/-- A chunk that fits is appended, and one that does not is left out. -/
theorem Keeps.taken (keeps : d.Keeps t y k s) {id : Nat} {rest : List (Except Cause ByteArray)}
    (opened : s.world.files.openAppend d.destination = .ok id) (p : Option Progress.Tracker)
    (item : Except Cause ByteArray) : d.Goes t y k (d.taken (.opened id) rest p s item) := by
  cases item with
  | error cause => exact keeps.failed _
  | ok chunk =>
    by_cases long : d.total < s.length + chunk.size
    · unfold Job.taken
      dsimp only
      rw [if_pos long]
      exact keeps.failed _
    · have fits := Nat.not_lt.1 long
      obtain ⟨data, beside, size⟩ := keeps.files
      obtain ⟨p', reports, same⟩ := taken_eq (beside.takes opened) fits rest p
      obtain ⟨grown, still⟩ := beside.append opened chunk
      have length : (data ++ chunk).size = s.length + chunk.size := by
        rw [ByteArray.size_append, size]
      have least : k ≤ s.length + chunk.size := Nat.le_trans keeps.least (Nat.le_add_right _ _)
      rw [same]
      exact .receiving ⟨⟨_, grown, length⟩, least, fits⟩ still

theorem Keeps.spent (keeps : d.Keeps t y k s) (id : Nat) (p : Option Progress.Tracker) :
    d.Goes t y k (d.spent (.opened id) p s) := by
  unfold Job.spent
  rw [Sink.flush_opened]
  dsimp only
  by_cases short : s.length < d.total
  · rw [if_pos short]
    exact keeps.failed _
  · rw [if_neg short]
    exact .tried ⟨keeps.files, keeps.least, keeps.le⟩ fun _ => Nat.le_antisymm keeps.le (Nat.not_lt.1 short)

theorem Goes.next (goes : d.Goes t y k phase) (alone : d.source.LeavesAlone d.destination t.path)
    (next : d.Next phase phase') : d.Goes t y k phase' := by
  cases next with
  | opens s =>
    cases goes with
    | trying keeps => exact keeps.opened alone
  | takes f item rest p s =>
    cases goes with
    | receiving keeps opened => exact keeps.taken opened p item
  | ends f p s =>
    cases goes with
    | receiving keeps opened => exact keeps.spent _ p

theorem Keeps.attempt (keeps : d.Keeps t y k s) (alone : d.source.LeavesAlone d.destination t.path) :
    d.Keeps t y k (d.attempt s).2 ∧ ((d.attempt s).1 = .ok () → (d.attempt s).2.length = d.total) := by
  have goes := attempt_keeps (G := d.Goes t y k) (fun goes next => goes.next alone next) (.trying keeps)
  cases goes with
  | tried keeps complete => exact ⟨keeps, complete⟩

theorem Keeps.from_here (keeps : d.Keeps t y k s) : d.Keeps t y s.length s :=
  ⟨keeps.files, Nat.le_refl _, keeps.le⟩

/-- There are no more attempts than the bytes that are missing and the retries allow. -/
theorem Keeps.run_isSome (keeps : d.Keeps t y k s) (retries : Nat)
    (alone : d.source.LeavesAlone d.destination t.path) :
    (d.resumable.run retries ((d.total - s.length + 1) * (retries + 1)) s).isSome :=
  -- the length from which an attempt begins is a bound of its own for what is there afterwards
  run_isSome_of_keeps
    (fun keeps => ⟨(keeps.attempt alone).1, (keeps.from_here.attempt alone).1.least⟩) Keeps.le keeps
    (Nat.le_refl _)

/-- How the attempts end: all bytes are there, or the download goes no further and its last attempt says
why; only when that is an abort, the tracker file was deleted. -/
inductive Ending (d : Job σ) (t : TrackerFile) (y : Option ByteArray) (k : Nat) :
    Except Error Unit → State σ → Prop
  | complete {s : State σ} (keeps : d.Keeps t y k s) (all : s.length = d.total) : Ending d t y k (.ok ()) s
  | aborted {e : Error} {s : State σ} (keeps : d.Keeps t none k s) (abort : e.disposition = some .abort) :
      Ending d t y k (.error e) s
  | left {e : Error} {s : State σ} (keeps : d.Keeps t y k s) (stay : e.disposition ≠ some .abort) :
      Ending d t y k (.error e) s

theorem Keeps.discard (keeps : d.Keeps t y k s) (tracked : d.tracker = some t) :
    d.Keeps t none k (d.discard s) := by
  obtain ⟨data, beside, size⟩ := keeps.files
  have gone : d.discard s = { s with world := s.world.withFiles (t.remove s.world.files) } := by
    rw [Job.discard, tracked]
    rfl
  rw [gone]
  exact ⟨⟨data, TrackerFile.remove_beside beside, size⟩, keeps.least, keeps.le⟩

theorem Keeps.ending {retries limit : Nat} {o : Outcome (State σ) Unit} (keeps : d.Keeps t y k s)
    (tracked : d.tracker = some t) (alone : d.source.LeavesAlone d.destination t.path)
    (run : d.resumable.run retries limit s = some o) : d.Ending t y k o.result o.state := by
  obtain ⟨made, idle, u, reached, -, ends⟩ := Resumable.run_eq_some run
  have before := reaches_keeps (fun keeps => (keeps.attempt alone).1) keeps reached
  obtain ⟨after, complete⟩ := before.attempt alone
  rcases o with ⟨result, last, attempts, pauses⟩
  dsimp only at ends ⊢
  cases ends with
  | finished attempt =>
    have attempt : d.attempt u = (.ok (), last) := attempt
    rw [attempt] at after complete
    exact .complete after (complete rfl)
  | @left e v attempt kept =>
    have attempt : d.attempt u = (.error e, last) := attempt
    rw [attempt] at after
    refine .left after fun abort => ?_
    rw [abort] at kept
    simp at kept
  | @abandoned e v attempt abort =>
    have attempt : d.attempt u = (.error e, v) := attempt
    rw [attempt] at after
    exact .aborted (after.discard tracked) abort
  | @exhausted e v attempt retryable =>
    have attempt : d.attempt u = (.error e, last) := attempt
    rw [attempt] at after
    exact .left after fun abort => by cases abort

end Job

namespace Call
variable {c : Call σ} {w : World σ} {object : ObjectMeta} {s : State σ}

/-- Before the first attempt the destination is kept if it can belong to the object, and otherwise it is
emptied and the tag of the object noted. -/
theorem resumePoint_beside {a b : Option ByteArray} (tracked : c.handler.tracker = some t)
    (beside : w.files.Beside c.destination t.path a b) (object : ObjectMeta) :
    ∃ (r : Nat) (u : World σ) (y : Option ByteArray) (data : ByteArray),
      c.handler.resumePoint c.destination object w = (.ok r, u) ∧
      u.files.Beside c.destination t.path (some data) y ∧ data.size = r ∧ r ≤ object.size := by
  unfold Handler.resumePoint
  cases kept : c.handler.resumable? c.destination object w.files with
  | some r =>
    obtain ⟨size, le⟩ := level_resumable kept
    cases a with
    | none =>
      rw [beside.size_none] at size
      cases size
    | some data =>
      rw [beside.size] at size
      exact ⟨r, w, b, data, rfl, beside, Except.ok.inj size, le⟩
  | none =>
    obtain ⟨id, made, created, emptied, -⟩ := beside.create
    dsimp only
    unfold Handler.restart
    rw [created, tracked]
    cases object.eTag with
    | none => exact ⟨0, _, b, .empty, rfl, emptied, rfl, Nat.zero_le _⟩
    | some eTag =>
      obtain ⟨after, saved, noted⟩ := TrackerFile.save_beside emptied eTag
      dsimp only
      rw [saved]
      exact ⟨0, _, _, .empty, rfl, noted, rfl, Nat.zero_le _⟩

/-- How a call ends whose attempts came out like this, and what it leaves; the tracker file was `y` while
they were made. -/
inductive Ending (c : Call σ) (t : TrackerFile) (object : ObjectMeta) (y : Option ByteArray)
    (files : Store) : Except Error Unit → Except Error DownloadOutput → Prop
  | delivered {data : ByteArray} {out : DownloadOutput}
      (beside : files.Beside c.destination t.path (some data) none) (size : data.size = object.size)
      (digest : ∀ eTag digest, object.eTag = some eTag → Promises eTag digest →
        Digest.md5Hex data = digest) : Ending c t object y files (.ok ()) (.ok out)
  | corrupted {data : ByteArray} {eTag digest : String} (tag : object.eTag = some eTag)
      (promise : Promises eTag digest) (broken : Digest.md5Hex data ≠ digest)
      (size : data.size = object.size) (beside : files.Beside c.destination t.path none none) :
      Ending c t object y files (.ok ())
        (.error (.resumable .abort (.downloadCorrupted (Digest.md5Hex data) digest)))
  | aborted {data : ByteArray} {e : Error} (abort : e.disposition = some .abort)
      (beside : files.Beside c.destination t.path (some data) none) (size : data.size ≤ object.size) :
      Ending c t object y files (.error e) (.error e)
  | left {data : ByteArray} {e : Error} (stay : e.disposition ≠ some .abort)
      (beside : files.Beside c.destination t.path (some data) y) (size : data.size ≤ object.size) :
      Ending c t object y files (.error e) (.error e)

theorem Opens.run_of_get (opens : c.Opens w object s) {limit : Nat}
    {result : Except Error DownloadOutput} {w' : World σ} (got : c.get limit w = some (result, w')) :
    ∃ o, (c.job object.size).resumable.run c.handler.retries limit s = some o := by
  have start : s = ⟨s.length, 0, s.world⟩ := by
    cases opens
    rfl
  obtain ⟨made, transferred, -⟩ := Option.map_eq_some_iff.1 got
  have transferred : c.transfer limit w = some made := transferred
  rw [opens.transfer_eq limit, attempts, ← start] at transferred
  obtain ⟨o, run, -⟩ := Option.map_eq_some_iff.1 transferred
  exact ⟨o, run⟩

theorem settled_ending {o : Outcome (State σ) Unit} {k r : Nat} (tracked : c.handler.tracker = some t)
    (ending : (c.job object.size).Ending t y k o.result o.state) :
    c.Ending t object y (c.settled object r o).2.files o.result ((c.settled object r o).1.map (·.1)) := by
  rcases o with ⟨result, u, attempts, pauses⟩
  dsimp only at ending ⊢
  unfold settled
  dsimp only
  cases ending with
  | aborted keeps abort =>
    obtain ⟨data, beside, size⟩ := keeps.files
    exact .aborted abort beside (size ▸ keeps.le)
  | left keeps stay =>
    obtain ⟨data, beside, size⟩ := keeps.files
    exact .left stay beside (size ▸ keeps.le)
  | complete keeps all =>
    -- the tracker file goes before the digest is compared, so that it is gone either way
    obtain ⟨data, beside, size⟩ := keeps.files
    have whole : data.size = object.size := size.trans all
    have files : (t.remove u.world.files).Beside c.destination t.path (some data) none :=
      TrackerFile.remove_beside beside
    rw [tracked]
    dsimp only
    rcases Handler.verify_eq (v := ⟨data, object.eTag⟩)
        (w := forget (some t) (u.world.pauseAll (pauses.map .backoff))) files with
      ⟨digested, same⟩ | ⟨-, expected, after, promised, differs, same, gone⟩
    · rw [same]
      refine .delivered files whole fun eTag digest tag promise => digested digest ?_
      exact (congrArg (·.bind plainMd5) tag).trans (plainMd5_eq_some_iff.2 promise)
    · rw [same]
      obtain ⟨eTag, tag, plain⟩ := Option.bind_eq_some_iff.1 promised
      exact .corrupted tag (plainMd5_eq_some_iff.1 plain) differs whole gone

end Call

/-- Whatever the source gives for an object with bytes, and whatever the two files were before, the call
ends after no more attempts than the missing bytes and the retries allow. When it succeeds, the destination
has the size of the object and the digest that the tag promises, and the tracker file is gone. A destination
that does not have that digest is deleted with the tracker file. After another abort the tracker file is gone
too; after any other failure it is as it was when the attempts began, and the destination is never longer
than the object. -/
theorem resumed_download_never_passes_corruption (c : Call σ) (t : TrackerFile) (w v : World σ)
    (object : ObjectMeta) (a b : Option ByteArray) (tracked : c.handler.tracker = some t)
    (alone : c.source.LeavesAlone c.destination t.path)
    (files : w.files.Beside c.destination t.path a b)
    (asked : c.source.objectMeta { w with metrics := w.metrics.initiate } = (.ok object, v))
    (bytes : object.size ≠ 0) :
    ∃ r u y, c.handler.resumePoint c.destination object v = (.ok r, u) ∧
      (∃ data, u.files.Beside c.destination t.path (some data) y ∧ data.size = r) ∧
      (c.get ((object.size - r + 1) * (c.handler.retries + 1)) w).isSome ∧
      ∀ limit result w', c.get limit w = some (result, w') →
        ∃ o, (c.job object.size).resumable.run c.handler.retries limit ⟨r, 0, u⟩ = some o ∧
          c.Ending t object y w'.files o.result result := by
  have inspected : v.files.Beside c.destination t.path a b := by
    have same : (c.source.inspect w.peer w.files).2.2 = v.files := congrArg (·.2.files) asked
    exact same ▸ alone.inspect w.peer files
  obtain ⟨r, u, y, data, resumed, beside, size, le⟩ := Call.resumePoint_beside tracked inspected object
  have opens : c.Opens w object ⟨r, 0, u⟩ := .intro asked bytes resumed
  have keeps : (c.job object.size).Keeps t y r ⟨r, 0, u⟩ := ⟨⟨data, beside, size⟩, Nat.le_refl r, le⟩
  refine ⟨r, u, y, resumed, ⟨data, beside, size⟩, ?_, fun limit result w' got => ?_⟩
  · obtain ⟨o, run⟩ := Option.isSome_iff_exists.1 (keeps.run_isSome c.handler.retries alone)
    obtain ⟨n, same⟩ := opens.get_eq run
    have total : (c.job object.size).total = object.size := rfl
    rw [total] at same
    rw [same]
    rfl
  · obtain ⟨o, run⟩ := opens.run_of_get got
    obtain ⟨n, same⟩ := opens.get_eq run
    rw [got] at same
    cases same
    exact ⟨o, run, Call.settled_ending tracked (keeps.ending tracked alone run)⟩

/-- A source of three bytes that gives one and breaks off, and then goes on with other bytes than before. -/
def halting : RangeSource Nat where
  inspect n files := (.ok ⟨3, some "v"⟩, n, files)
  fetch _ n files :=
    (.ok (.stream (if n = 0 then [.ok ⟨#[1]⟩, .error (.of (.given "reset"))]
      else [.ok ⟨#[9, 9]⟩])), n + 1, files)

/-- Downloads it to `out`, with one retry, and keeps its tag in `t`. -/
def haltingCall : Call Nat := ⟨⟨some ⟨"t"⟩, 1⟩, halting, "out", 8192, none⟩

/-- Its tag is no digest, so that the three bytes are taken for the object. -/
theorem halting_download_is_complete :
    ∃ (out : DownloadOutput) (w : World Nat) (data : ByteArray),
      haltingCall.get 8 (.initial 0 .empty) = some (.ok out, w) ∧
      w.files.Beside "out" "t" (some data) none ∧ data.size = 3 := by
  obtain ⟨r, u, y, -, -, -, ends⟩ := resumed_download_never_passes_corruption haltingCall ⟨"t"⟩
    (.initial 0 .empty) _ ⟨3, some "v"⟩ none none rfl
    ⟨fun _ {_ _ _} beside => beside, fun _ _ {_ _ _} beside => ⟨beside, rfl⟩⟩ beside_empty rfl (by decide)
  have runs : (haltingCall.get 8 (.initial 0 .empty)).map (·.1.isOk) = some true := by decide +kernel
  obtain ⟨⟨result, w⟩, got, succeeds⟩ := Option.map_eq_some_iff.1 runs
  obtain ⟨o, run, ending⟩ := ends 8 result w got
  generalize o.result = outcome at ending
  cases ending with
  | @delivered data out beside size digest => exact ⟨out, w, data, got, beside, size⟩
  | corrupted tag promise broken size beside => cases succeeds
  | aborted abort beside size => cases succeeds
  | left stay beside size => cases succeeds

end Download

end ObjectTransfer
