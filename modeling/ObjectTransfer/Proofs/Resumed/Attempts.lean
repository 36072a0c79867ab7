import ObjectTransfer.Proofs.Files.Beside
import ObjectTransfer.Proofs.Resumed.Moments
import ObjectTransfer.Proofs.Source
/-!
The attempts of a resumed download. While the source gives nothing but the bytes that follow, the
destination holds the first bytes of the object at every moment, and what the download believes of its
length is true.
-/
namespace ObjectTransfer

/-- What a source gives at a time: bytes, and the tag that it reports for them. -/
structure Version where
  content : ByteArray
  eTag : Option String

namespace Version

def object (v : Version) : ObjectMeta := ⟨v.content.size, v.eTag⟩

def upTo (v : Version) (k : Nat) : ByteArray := v.content.extract 0 k

variable {v : Version} {k n : Nat}

theorem size_upTo (h : k ≤ v.content.size) : (v.upTo k).size = k := by
  rw [upTo, ByteArray.size_extract]
  omega

theorem upTo_zero (v : Version) : v.upTo 0 = .empty := by
  rw [upTo, ByteArray.extract_same]

theorem upTo_size (v : Version) : v.upTo v.content.size = v.content := ByteArray.extract_zero_size

theorem upTo_append (v : Version) (k n : Nat) :
    v.upTo k ++ v.content.extract k (k + n) = v.upTo (k + n) := by
  rw [upTo, upTo, ByteArray.extract_append_extract]
  congr 1
  omega

end Version

/-- Chunks that are the bytes from an offset on, up to a failure or to the end of the chunks. -/
def Follows (content : ByteArray) : (offset : Nat) → List (Except Cause ByteArray) → Prop
  | _, [] => True
  | _, .error _ :: _ => True
  | offset, .ok chunk :: rest =>
    chunk = content.extract offset (offset + chunk.size) ∧ Follows content (offset + chunk.size) rest

/-- As long as its peer is as `P` says, a source has this version and leaves the files alone. The rest
of the object may be refused, for a reason of which `F` is true, and what is given of it may end
early or break off. -/
structure RangeSource.Streams {σ : Type} (r : RangeSource σ) (P : σ → Prop) (F : Error → Prop)
    (v : Version) : Prop where
  inspect : ∀ s files, P s → P (r.inspect s files).2.1 ∧ (r.inspect s files).2.2 = files
  fetch : ∀ range s files, P s →
    P (r.fetch range s files).2.1 ∧ (r.fetch range s files).2.2 = files
  object : ∀ {s files object}, P s → (r.inspect s files).1 = .ok object → object = v.object
  failure : ∀ {offset s files e}, P s → (r.fetch (.allFrom offset) s files).1 = .error e → F e
  body : ∀ {offset s files body}, P s → (r.fetch (.allFrom offset) s files).1 = .ok body →
    Follows v.content offset body.items

namespace Download
open Relation Files

namespace Job
variable {σ : Type} {d : Job σ} {P : σ → Prop} {F : Error → Prop} {v : Version} {t : TrackerFile}
  {y : Option ByteArray} {m : Metrics} {k : Nat} {s s' : State σ}

/-- The destination holds the first `k` bytes of the version and the tracker file `y`. -/
structure Holding (d : Job σ) (P : σ → Prop) (v : Version) (t : TrackerFile) (y : Option ByteArray)
    (m : Metrics) (k : Nat) (s : State σ) : Prop where
  length : s.length = k
  le : k ≤ v.content.size
  peer : P s.world.peer
  files : s.world.files.Beside d.destination t.path (some (v.upTo k)) y
  metrics : s.world.metrics = m

/-- How an attempt stands when the destination holds the first `k` bytes. -/
inductive Stands (d : Job σ) (P : σ → Prop) (F : Error → Prop) (v : Version) (t : TrackerFile)
    (y : Option ByteArray) (m : Metrics) (k : Nat) : Phase σ → Prop
  | trying {s : State σ} (holding : d.Holding P v t y m k s) : Stands d P F v t y m k (.trying s)
  | receiving {id : Nat} {rest : List (Except Cause ByteArray)} {p : Option Progress.Tracker}
      {s : State σ} (holding : d.Holding P v t y m k s)
      (opened : s.world.files.openAppend d.destination = .ok id)
      (follows : Follows v.content k rest) : Stands d P F v t y m k (.receiving (.opened id) rest p s)
  | tried {result : Except Error Unit} {s : State σ} (holding : d.Holding P v t y m k s)
      (complete : result = .ok () → k = v.content.size)
      (aborts : ∀ e, result = .error e → e.disposition = some .abort → F e) :
      Stands d P F v t y m k (.tried result s)

/-- The rest behind the first `k` bytes was asked for, or nothing. -/
def Asks (d : Job σ) (k : Nat) (w w' : World σ) : Prop :=
  w'.peer = w.peer ∨ w'.peer = (d.source.fetch (.allFrom k) w.peer w.files).2.1

theorem Holding.append (h : d.Holding P v t y m k s) {id : Nat} {chunk : ByteArray}
    (opened : s.world.files.openAppend d.destination = .ok id)
    (next : chunk = v.content.extract k (k + chunk.size)) (fits : k + chunk.size ≤ v.content.size)
    (reports : Array Progress.Report) :
    d.Holding P v t y m (k + chunk.size) ⟨s.length + chunk.size, s.requests,
        { s.world with files := s.world.files.append id chunk, reports }⟩ ∧
      (s.world.files.append id chunk).openAppend d.destination = .ok id := by
  obtain ⟨files, still⟩ := h.files.append opened chunk
  have grown : v.upTo k ++ chunk = v.upTo (k + chunk.size) := by
    rw [← v.upTo_append, ← next]
  rw [grown] at files
  have length : s.length + chunk.size = k + chunk.size := by rw [h.length]
  exact ⟨⟨length, fits, h.peer, files, h.metrics⟩, still⟩

theorem Holding.failed (h : d.Holding P v t y m k s) {e : Error}
    (aborts : e.disposition = some .abort → F e) : d.Stands P F v t y m k (.tried (.error e) s) := by
  refine .tried h (fun h => by cases h) ?_
  rintro e' ⟨⟩ abort
  exact aborts abort

theorem Holding.complete (h : d.Holding P v t y m k s) (whole : k = v.content.size) :
    d.Stands P F v t y m k (.tried (.ok ()) s) :=
  .tried h (fun _ => whole) fun e h => by cases h

theorem Holding.asked (h : d.Holding P v t y m k s) (streams : d.source.Streams P F v)
    {id : Nat} (opened : s.world.files.openAppend d.destination = .ok id) :
    d.Stands P F v t y m k (d.asked (.opened id) s) ∧
      d.Asks k s.world (d.asked (.opened id) s).state.world := by
  have announced : d.Holding P v t y m k (d.announced s).2 ∧
      (d.announced s).2.world.files = s.world.files ∧
      (d.announced s).2.world.peer = s.world.peer := by
    unfold Job.announced
    cases d.progress with
    | none => exact ⟨h, rfl, rfl⟩
    | some r => exact ⟨⟨h.length, h.le, h.peer, h.files, h.metrics⟩, rfl, rfl⟩
  obtain ⟨h', files, peer⟩ := announced
  obtain ⟨peer', same⟩ := streams.fetch (.allFrom k) _ (d.announced s).2.world.files h'.peer
  have holding (n : Nat) : d.Holding P v t y m k
      ⟨(d.announced s).2.length, n,
        (d.source.getRange (.allFrom k) (d.announced s).2.world).2⟩ := by
    refine ⟨h'.length, h'.le, peer', ?_, h'.metrics⟩
    have kept : (d.source.getRange (.allFrom k) (d.announced s).2.world).2.files =
        (d.announced s).2.world.files := same
    rw [kept]
    exact h'.files
  have asks : d.Asks k s.world (d.source.getRange (.allFrom k) (d.announced s).2.world).2 := by
    right
    rw [← peer, ← files]
    rfl
  unfold Job.asked
  dsimp only
  rw [h'.length]
  rcases given : d.source.getRange (.allFrom k) (d.announced s).2.world with ⟨result, w⟩
  rw [given] at holding asks
  have gave : (d.source.fetch (.allFrom k) (d.announced s).2.world.peer
      (d.announced s).2.world.files).1 = result := congrArg Prod.fst given
  cases result with
  | error e =>
    exact ⟨Holding.failed (h'.length ▸ holding _) fun _ => streams.failure h'.peer gave, asks⟩
  | ok body =>
    have kept : w.files = (d.announced s).2.world.files := by
      rw [← same]
      exact congrArg (·.2.files) given.symm
    refine ⟨.receiving (h'.length ▸ holding _) ?_ (streams.body h'.peer gave), asks⟩
    rw [kept, files]
    exact opened

/-- The destination is opened: it is complete, or the rest is asked for. -/
theorem Holding.opened (h : d.Holding P v t y m k s) (streams : d.source.Streams P F v)
    (total : d.total = v.content.size) :
    d.Stands P F v t y m k (d.opened s) ∧ d.Asks k s.world (d.opened s).state.world := by
  obtain ⟨id, opened, bytes⟩ := h.files.opens
  have size : (s.world.files.content id).size = k := by
    rw [← Content.size_bytes, bytes, v.size_upTo h.le]
  have h' : d.Holding P v t y m k { s with length := (s.world.files.content id).size } :=
    ⟨size, h.le, h.peer, h.files, h.metrics⟩
  unfold Job.opened
  rw [opened]
  dsimp only
  by_cases complete : (s.world.files.content id).size = d.total
  · rw [if_pos complete]
    exact ⟨h'.complete (by rw [← size, complete, total]), .inl rfl⟩
  · rw [if_neg complete]
    exact h'.asked streams opened

theorem Holding.taken (h : d.Holding P v t y m k s) (total : d.total = v.content.size) {id : Nat}
    {item : Except Cause ByteArray} {rest : List (Except Cause ByteArray)}
    (opened : s.world.files.openAppend d.destination = .ok id)
    (follows : Follows v.content k (item :: rest)) (p : Option Progress.Tracker) :
    ∃ k', k ≤ k' ∧ d.Stands P F v t y m k' (d.taken (.opened id) rest p s item) ∧
      (d.taken (.opened id) rest p s item).state.world.peer = s.world.peer := by
  cases item with
  | error cause => exact ⟨k, Nat.le_refl k, h.failed fun abort => (by cases abort), rfl⟩
  | ok chunk =>
    obtain ⟨next, follows⟩ := follows
    -- a chunk that is part of the content cannot go past its end
    have fits : k + chunk.size ≤ v.content.size := by
      have size := congrArg ByteArray.size next
      rw [ByteArray.size_extract] at size
      have le := h.le
      omega
    obtain ⟨p', reports, same⟩ := taken_eq (d := d) (h.files.takes opened)
      (by rw [h.length, total]; exact fits) rest p
    obtain ⟨h', still⟩ := h.append opened next fits reports
    rw [same]
    exact ⟨k + chunk.size, Nat.le_add_right _ _, .receiving h' still follows, rfl⟩

/-- A body that has come to its end was all that was missing, or the attempt fails. -/
theorem Holding.spent (h : d.Holding P v t y m k s) (total : d.total = v.content.size) (id : Nat)
    (p : Option Progress.Tracker) :
    d.Stands P F v t y m k (d.spent (.opened id) p s) ∧
      (d.spent (.opened id) p s).state.world.peer = s.world.peer := by
  unfold Job.spent
  rw [Sink.flush_opened]
  dsimp only
  by_cases short : s.length < d.total
  · rw [if_pos short]
    exact ⟨h.failed fun abort => (by cases abort), rfl⟩
  · rw [if_neg short]
    rw [h.length, total] at short
    have h' : d.Holding P v t y m k
        { s with world := s.world.report (p.map fun t => t.finish s.length).toList } :=
      ⟨h.length, h.le, h.peer, h.files, h.metrics⟩
    exact ⟨h'.complete (Nat.le_antisymm h.le (Nat.not_lt.1 short)), rfl⟩

/-- What an attempt can do next keeps it standing so, and the destination does not get shorter. -/
theorem Stands.next {phase phase' : Phase σ} (stands : d.Stands P F v t y m k phase)
    (streams : d.source.Streams P F v) (total : d.total = v.content.size)
    (next : d.Next phase phase') :
    ∃ k', k ≤ k' ∧ d.Stands P F v t y m k' phase' ∧
      d.Asks k phase.state.world phase'.state.world := by
  cases next with
  | opens s =>
    cases stands with
    | trying h =>
      obtain ⟨stands, asks⟩ := h.opened streams total
      exact ⟨k, Nat.le_refl k, stands, asks⟩
  | takes f item rest p s =>
    cases stands with
    | receiving h opened follows =>
      obtain ⟨k', le, stands, peer⟩ := h.taken total opened follows p
      exact ⟨k', le, stands, .inl peer⟩
  | ends f p s =>
    cases stands with
    | receiving h opened follows =>
      obtain ⟨stands, peer⟩ := h.spent total _ p
      exact ⟨k, Nat.le_refl k, stands, .inl peer⟩

theorem Holding.attempt (h : d.Holding P v t y m k s) (streams : d.source.Streams P F v)
    (total : d.total = v.content.size) :
    ∃ k', k ≤ k' ∧ d.Stands P F v t y m k' (.tried (d.attempt s).1 (d.attempt s).2) := by
  refine attempt_keeps (G := fun phase => ∃ k', k ≤ k' ∧ d.Stands P F v t y m k' phase) ?_
    ⟨k, Nat.le_refl k, .trying h⟩
  rintro phase phase' ⟨k', le, stands⟩ next
  obtain ⟨k'', le', stands', -⟩ := stands.next streams total next
  exact ⟨k'', Nat.le_trans le le', stands'⟩

/-- The attempts come to an end: as long as they fail without one of them getting any further, there
are no more of them than retries, and the destination can grow only as often as it has bytes. -/
theorem Holding.run_isSome (h : d.Holding P v t y m k s) (streams : d.source.Streams P F v)
    (total : d.total = v.content.size) {retries limit : Nat}
    (enough : (v.content.size - k + 1) * (retries + 1) ≤ limit) :
    (d.resumable.run retries limit s).isSome := by
  refine run_isSome_of_keeps (I := fun s => ∃ k, d.Holding P v t y m k s) ?_ ?_ ⟨k, h⟩
    (by rwa [total, h.length])
  · rintro u ⟨k, h⟩
    obtain ⟨k', le, stands⟩ := h.attempt streams total
    cases stands with
    | tried h' complete aborts => exact ⟨⟨k', h'⟩, by rwa [h.length, h'.length]⟩
  · rintro u ⟨k, h⟩
    rw [h.length, total]
    exact h.le

end Job

end Download

end ObjectTransfer
