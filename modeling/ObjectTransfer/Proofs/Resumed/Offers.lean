import ObjectTransfer.Proofs.Download.Offers
import ObjectTransfer.Proofs.Files.Destination
import ObjectTransfer.Proofs.Resumed.Likeness
/-!
Resumed downloads of an object that is offered without fault. Two sources that offer it answer alike, so
the same comes of a download from either; and since what comes is whole, there are no more attempts than
the retries allow.
-/
namespace ObjectTransfer
open Http

section
variable {data : ByteArray} {start : Nat} {x y : Except Error Body}
  (small : data.size < Text.Unsigned.limit) (gives : (ByteRange.allFrom start).Gives data x)

include small gives

/-- The rest of an object is given unless there is none; an offset that cannot be written is behind the end
of the object. -/
theorem Http.ByteRange.Gives.rest :
    (∃ bytes, (ByteRange.allFrom start).slice? data = some bytes ∧ x = .ok (.ofBytes bytes)) ∨
      ((ByteRange.allFrom start).slice? data = none ∧ ∃ e, x = .error e ∧ e.Final) := by
  cases gives with
  | bytes slice => exact .inl ⟨_, slice, rfl⟩
  | nothing final nothing =>
    refine .inr ⟨?_, _, rfl, final⟩
    by_cases fits : start < Text.Unsigned.limit
    · exact nothing (ByteRange.sound_allFrom fits)
    · exact if_neg (by omega)

theorem Http.ByteRange.Gives.akin (gives' : (ByteRange.allFrom start).Gives data y) :
    Akin Error.Final x y := by
  obtain ⟨bytes, slice, rfl⟩ | ⟨nothing, e, rfl, final⟩ := gives.rest small
  · obtain ⟨bytes', slice', rfl⟩ | ⟨nothing, -⟩ := gives'.rest small
    · cases slice.symm.trans slice'
      exact .same _
    · cases slice.symm.trans nothing
  · obtain ⟨bytes, slice, -⟩ | ⟨-, e', rfl, final'⟩ := gives'.rest small
    · cases slice.symm.trans nothing
    · exact .failed final final'

end

/-- The peers are as `P` and `P'` say. -/
structure Both {σ τ : Type} (P : σ → Prop) (P' : τ → Prop) (s : σ) (t : τ) : Prop where
  left : P s
  right : P' t

variable {σ τ : Type} {P : σ → Prop} {P' : τ → Prop} {data : ByteArray} {tag : Option String}

theorem RangeSource.Offers.alike {r : RangeSource σ} {r' : RangeSource τ} (offers : r.Offers P data tag)
    (offers' : r'.Offers P' data tag) (small : data.size < Text.Unsigned.limit) :
    r.Alike Error.Final (Both P P') r' where
  final := id
  inspect twins := by
    obtain ⟨s, left, same⟩ := offers.objectMeta twins.peers.left
    obtain ⟨t, right, same'⟩ := offers'.objectMeta twins.peers.right
    rw [same, same']
    cases twins with
    | intro => exact ⟨.same _, .intro ⟨left, right⟩ ..⟩
  rest start w w' twins := by
    obtain ⟨x, s, left, gives, same⟩ := offers.getRange twins.peers.left (.allFrom start)
    obtain ⟨y, t, right, gives', same'⟩ := offers'.getRange twins.peers.right (.allFrom start)
    rw [same, same']
    cases twins with
    | intro => exact ⟨gives.akin small gives', .intro ⟨left, right⟩ ..⟩

namespace Download

namespace Job
variable {d : Job σ} {s : State σ}

theorem ne_empty {bytes : ByteArray} (some : 0 < bytes.size) : bytes ≠ .empty := by
  rintro rfl
  exact Nat.lt_irrefl 0 some

theorem received_whole {id : Nat} {bytes : ByteArray} (takes : s.world.files.refusal? id = none)
    (p : Option Progress.Tracker) (some : 0 < bytes.size) (whole : s.length + bytes.size = d.total) :
    (d.received (.opened id) (Body.ofBytes bytes).items p s).1 = .ok () := by
  obtain ⟨p', reports, counted⟩ := count_eq bytes.size p
    { s with world := s.world.withFiles (s.world.files.append id bytes) }
  rw [Body.items_ofBytes (ne_empty some)]
  unfold received receive
  rw [if_neg (by omega), Sink.write_opened takes]
  dsimp only
  rw [counted, receive, Sink.flush_opened]
  dsimp only
  rw [if_neg (by omega)]

/-- The count after an attempt at a destination that refuses what is written: a chunk that is too great is
refused at once, and any other one is counted before. -/
def miscounted (d : Job σ) : Nat := if Sink.room < d.total then 0 else d.total

theorem received_refused {id : Nat} {fault : Files.Fault} {bytes : ByteArray}
    (refuses : s.world.files.refusal? id = Option.some fault) (p : Option Progress.Tracker)
    (some : 0 < bytes.size) (whole : bytes.size = d.total) (nothing : s.length = 0) :
    ∃ e u, d.received (.opened id) (Body.ofBytes bytes).items p s = (.error e, u) ∧
      u.world.files = s.world.files ∧ u.world.peer = s.world.peer ∧ u.length = d.miscounted := by
  have due : ((Sink.opened id).refused <|> s.world.files.refusal? (Sink.opened id).id) =
      Option.some fault := refuses
  have bytes' : ¬ bytes.isEmpty := by simpa [ByteArray.isEmpty] using Nat.ne_of_gt some
  rw [Body.items_ofBytes (ne_empty some)]
  unfold received receive Sink.write miscounted
  rw [if_neg (by omega), due, whole]
  dsimp only
  rw [if_neg bytes']
  by_cases great : Sink.room < d.total
  · rw [if_pos (by simp [great]), if_pos great]
    exact ⟨_, s, rfl, rfl, rfl, nothing⟩
  · obtain ⟨p', reports, counted⟩ := count_eq d.total p
      { s with world := s.world.withFiles s.world.files }
    rw [if_neg (by simp [great, Sink.opened]), if_neg great]
    dsimp only
    rw [counted]
    exact ⟨_, _, rfl, rfl, rfl, by dsimp only; omega⟩

theorem announced_world (d : Job σ) (s : State σ) :
    ∃ p w, d.announced s = (p, ⟨s.length, s.requests, w⟩) ∧ w.peer = s.world.peer ∧
      w.files = s.world.files := by
  unfold announced
  cases d.progress with
  | none => exact ⟨_, _, rfl, rfl, rfl⟩
  | some r => exact ⟨_, _, rfl, rfl, rfl⟩

/-- An attempt that may be followed by another one has left the files alone: the destination could not be
opened, or it refuses what is written. -/
inductive Stays (d : Job σ) (s t : State σ) : Prop
  | unopened {fault : Files.Fault}
      (opened : s.world.files.openAppend d.destination = .error fault) (same : t = s)
  | refused {id : Nat} {fault : Files.Fault}
      (opened : s.world.files.openAppend d.destination = .ok id)
      (refuses : s.world.files.refusal? id = some fault) (files : t.world.files = s.world.files)
      (length : t.length = d.miscounted)

variable (offers : d.source.Offers P data tag) (small : data.size < Text.Unsigned.limit)
  (total : d.total = data.size)

include offers small total

theorem fetchRest_cases (peer : P s.world.peer) (f : Sink) :
    (∃ e u, d.fetchRest f s = (.error e, u) ∧ e.Final) ∨
      ∃ bytes p u, d.fetchRest f s = d.received f (Body.ofBytes bytes).items p u ∧
        P u.world.peer ∧ u.world.files = s.world.files ∧ u.length = s.length ∧
        0 < bytes.size ∧ s.length + bytes.size = d.total := by
  obtain ⟨p, w, announced, same, files⟩ := d.announced_world s
  obtain ⟨x, s', peer', gives, got⟩ := offers.getRange (same ▸ peer : P w.peer) (.allFrom s.length)
  rw [fetchRest_eq, announced]
  dsimp only
  rw [got]
  obtain ⟨bytes, slice, rfl⟩ | ⟨-, e, rfl, final⟩ := gives.rest small
  · obtain ⟨inside, rfl⟩ := ByteRange.slice_allFrom slice
    have size : (data.extract s.length data.size).size = data.size - s.length := by
      simp
    exact .inr ⟨_, p, _, rfl, peer', files, rfl, by omega, by omega⟩
  · exact .inl ⟨e, _, rfl, final⟩

/-- Where the destination can be opened and takes what is written, an attempt is the last. -/
theorem attempt_stays {t : State σ} {e : Error} (peer : P s.world.peer)
    (attempted : d.attempt s = (.error e, t)) (again : e.isRetryable) :
    P t.world.peer ∧ d.Stays s t := by
  unfold attempt at attempted
  cases opened : s.world.files.openAppend d.destination with
  | error fault =>
    rw [opened] at attempted
    cases attempted
    exact ⟨peer, .unopened opened rfl⟩
  | ok id =>
    rw [opened] at attempted
    dsimp only at attempted
    by_cases complete : (s.world.files.content id).size = d.total
    · rw [if_pos complete] at attempted
      cases attempted
    · rw [if_neg complete] at attempted
      have peer' : P (State.world ⟨(s.world.files.content id).size, s.requests, s.world⟩).peer := peer
      obtain ⟨e', u, failed, final⟩ | ⟨bytes, p, u, came, peer'', files, length, some, whole⟩ :=
        fetchRest_cases offers small total peer' (.opened id)
      · have final : e'.disposition = none := final
        rw [failed] at attempted
        cases attempted
        simp [Error.isRetryable, final] at again
      · dsimp only at files length whole
        rw [came] at attempted
        cases refusal : s.world.files.refusal? id with
        | none =>
          have done := received_whole (d := d) (files ▸ refusal : u.world.files.refusal? id = none) p
            some (by rw [length, whole])
          rw [attempted] at done
          cases done
        | some fault =>
          have empty : (s.world.files.content id).size = 0 := Files.Content.size_of_refusal? refusal
          rw [empty] at length whole
          obtain ⟨e', v, received, files', peer', count⟩ :=
            received_refused (d := d) (files ▸ refusal : u.world.files.refusal? id = Option.some fault) p
              some (by omega) length
          rw [received] at attempted
          cases attempted
          exact ⟨peer' ▸ peer'', .refused opened refusal (files'.trans files) count⟩

theorem run_isSome_of_roomy {retries limit : Nat} (peer : P s.world.peer)
    (roomy : s.world.files.Roomy) (enough : retries < limit) :
    (d.resumable.run retries limit s).isSome := by
  refine Resumable.run_isSome (I := fun u => P u.world.peer ∧ u.world.files.Roomy)
    (fun _ => 0) ?_ ⟨peer, roomy⟩ (by omega)
  rintro u v e ⟨peer, roomy⟩ attempted again
  obtain ⟨peer', stays⟩ := attempt_stays offers small total peer attempted again
  cases stays with
  | unopened opened same =>
    subst same
    exact ⟨⟨peer, roomy⟩, .inr ⟨Nat.le_refl _, Nat.le_refl _⟩⟩
  | refused opened refuses files length =>
    rw [roomy] at refuses
    cases refuses

/-- There are no more attempts than the retries allow, and one more at a destination that refuses what is
written. -/
theorem run_isSome_of_offers {retries limit : Nat} (peer : P s.world.peer)
    (enough : retries + 1 < limit ∨ retries < limit ∧ s.world.files.Roomy) :
    (d.resumable.run retries limit s).isSome := by
  rcases enough with enough | ⟨enough, roomy⟩
  · -- the files stay as they are, and so does the count behind the first attempt
    refine Resumable.run_isSome_of_first (I := fun u => P u.world.peer ∧
      u.world.files = s.world.files ∧
      ∀ id, s.world.files.openAppend d.destination = .ok id → u.length = d.miscounted) ?_ ?_ enough
    · intro v e attempted again
      obtain ⟨peer', stays⟩ := attempt_stays offers small total peer attempted again
      cases stays with
      | unopened opened same =>
        refine ⟨peer', same ▸ rfl, fun id opened' => ?_⟩
        rw [opened] at opened'
        cases opened'
      | refused opened refuses files length => exact ⟨peer', files, fun _ _ => length⟩
    · rintro u v e ⟨peer, files, counted⟩ attempted again
      obtain ⟨peer', stays⟩ := attempt_stays offers small total peer attempted again
      cases stays with
      | unopened opened same =>
        subst same
        exact ⟨⟨peer, files, counted⟩, Nat.le_refl _⟩
      | refused opened refuses files' length =>
        have before := counted _ (files ▸ opened)
        exact ⟨⟨peer', files'.trans files, fun _ _ => length⟩, Nat.le_of_eq (length.trans before.symm)⟩
  · exact run_isSome_of_roomy offers small total peer roomy enough

end Job

theorem Handler.roomy_resumePoint (h : Handler) {w : World σ} (roomy : w.files.Roomy)
    (destination : String) (object : ObjectMeta) :
    (h.resumePoint destination object w).2.files.Roomy := by
  unfold resumePoint
  cases h.resumable? destination object w.files with
  | some length => exact roomy
  | none =>
    have restarts := h.restarts destination object w.files
    dsimp only [World.withFiles]
    generalize (h.restart destination object w.files).1 = result at restarts
    generalize (h.restart destination object w.files).2 = after at restarts ⊢
    cases restarts with
    | refused => exact roomy
    | made created => exact roomy.create created
    | noted created tracked written => exact (roomy.create created).write written

theorem Call.get_isSome_of_offers {c : Call σ} {w : World σ} {limit : Nat}
    (offers : c.source.Offers P data tag) (small : data.size < Text.Unsigned.limit) (peer : P w.peer)
    (enough : c.handler.retries + 1 < limit ∨ c.handler.retries < limit ∧ w.files.Roomy) :
    (c.get limit w).isSome := by
  obtain ⟨s, peer, known⟩ := offers.objectMeta (w := { w with metrics := w.metrics.initiate }) peer
  rw [get_eq, Option.isSome_map]
  unfold transfer Handler.transfer
  rw [known]
  dsimp only
  by_cases empty : data.size = 0
  · rw [if_pos empty]
    split <;> rfl
  · rw [if_neg empty]
    have enough' := enough.imp_right fun ⟨few, roomy⟩ => And.intro few
      (c.handler.roomy_resumePoint (w := { w with metrics := w.metrics.initiate, peer := s }) roomy
        c.destination ⟨data.size, tag⟩)
    obtain ⟨files, kept⟩ := c.handler.resumePoint_withFiles c.destination ⟨data.size, tag⟩
      { w with metrics := w.metrics.initiate, peer := s }
    rcases resumed : c.handler.resumePoint c.destination ⟨data.size, tag⟩
      { w with metrics := w.metrics.initiate, peer := s } with ⟨start, v⟩
    rw [resumed] at kept enough'
    dsimp only at kept enough'
    subst kept
    cases start with
    | error e => rfl
    | ok start =>
      have offers : (c.job data.size).source.Offers P data tag := offers
      dsimp only
      rw [Option.isSome_map]
      exact Job.run_isSome_of_offers (s := ⟨start, 0, _⟩) offers small rfl peer enough'

end Download

end ObjectTransfer
