import ObjectTransfer.Proofs.Crew.Ending
import ObjectTransfer.Proofs.Download.Course
/-!
How a download in parts ends. It always does, because every try and every piece that is copied leaves
less to do; with all parts put together, or after some part failed for good, and in either case without
any staging file.
-/
namespace ObjectTransfer.Download
open Crew Files

abbrev Team (σ : Type) := Crew.State (World σ) Unit Part Fetch Staged Assembly

variable {σ : Type} {p : Plan} {source : RangeSource σ} {directory : Path} {P : σ → Prop}
  {content : ByteArray} {base : Store} {target : Nat} {progress : Option Progress.Tracker}
  {w : World (Fetches σ)} {past : List (Event Part)}
  {crew : Team (Fetches σ)}

theorem Course.listed {held held' : List (Holding Part Fetch Staged)} {o : Outlook Assembly}
    (perm : held.Perm held') (course : Course p P content base target ⟨held, o, w⟩) :
    Course p P content base target ⟨held', o, w⟩ := by
  obtain ⟨shown, expects, st⟩ := course.outlook
  have received : (receivedOf held).Perm (receivedOf held') := perm.filterMap _
  have same : Expects p content target w.peer.log w.files (receivedOf held') o shown := by
    cases expects with
    | collecting got fits =>
      refine .collecting (fun part h => got part (received.mem_iff.2 h)) { fits with
        accounted := (received.map _).symm.trans fits.accounted
        valid := fun i hi => fits.valid i ((received.map _).mem_iff.2 hi) }
    | complete a got => exact .complete a fun part h => got part (received.mem_iff.2 h)
    | lost heard gaveUp partly => exact .lost (received.mem_iff.1 heard) gaveUp partly
  exact
    { distinct := (perm.filterMap _).nodup_iff.1 course.distinct
      known := fun part h => course.known part ((perm.filterMap _).mem_iff.2 h)
      peer := course.peer
      asked := course.asked
      fits := fun h hh => course.fits h (perm.mem_iff.2 hh)
      closed := fun a ho h hh => course.closed a ho h (perm.mem_iff.2 hh)
      outlook := ⟨shown, same, st.perm ((perm.flatMap_right _).append_right _)⟩ }

theorem Course.start (peer : P w.peer.peer) (unasked : w.peer.log = [])
    (target_lt : target < w.files.fresh)
    (empty : w.files.contents.lookup target = some .empty) (progress : Option Progress.Tracker) :
    Course p P content w.files target ⟨(Part.split content.size p.partSize).map .queued,
      .collecting ⟨target, 0, .empty, none, progress⟩, w⟩ := by
  have parts : ((Part.split content.size p.partSize).map
      (.queued : Part → Holding Part Fetch Staged)).filterMap Holding.part? =
        Part.split content.size p.partSize := by
    rw [List.filterMap_map]
    exact List.filterMap_some
  have received := receivedOf_queued (Part.split content.size p.partSize)
  have files : ((Part.split content.size p.partSize).map .queued).flatMap
      (filesOf content p.partSize) = [] := by
    refine List.flatMap_eq_nil_iff.2 fun h hh => ?_
    obtain ⟨part, -, rfl⟩ := List.mem_map.1 hh
    rfl
  have appends : Assembly.Appends content p.partSize w.files 0 none _ _ := .idle 0
  rw [Part.boundary_zero, ByteArray.extract_same] at appends
  exact
    { distinct := by
        dsimp only
        rw [parts]
        exact Part.split_nodup _ _
      known := by
        dsimp only
        rw [parts]
        exact fun part h => h
      peer := peer
      asked := fun f hf => (by rw [unasked] at hf; cases hf)
      fits := by
        intro h hh
        obtain ⟨part, -, rfl⟩ := List.mem_map.1 hh
        refine .queued ?_
        rw [unasked]
        rfl
      closed := fun _ h => (by cases h)
      outlook := by
        refine ⟨ByteArray.empty, ?_, ?_⟩
        · rw [received]
          exact .collecting (fun _ h => (by cases h)) ⟨rfl, .nil, fun _ h => (by cases h),
            fun _ h => (by cases h), .refl _, fun _ h => (by cases h), appends⟩
        · rw [files]
          exact .start target_lt empty }

def Fetch.cost (f : Fetch) : Nat :=
  2 * f.policy.left + (if f.answer.isNone then 1 else 0) + Assembly.pieces f.part.size + 2

theorem Fetch.failed_cost {f f' : Fetch} {e : Error} {w w' : World σ}
    (h : f.failed e w = (.inr f', w')) :
    f'.cost < 2 * f.policy.left + Assembly.pieces f.part.size + 2 := by
  unfold Fetch.failed RetryPolicy.again? at h
  by_cases again : (f.policy.accepts e && f.policy.left != 0) = true
  · rw [if_pos again] at h
    simp only [Bool.and_eq_true, bne_iff_ne] at again
    cases h
    simp only [Fetch.cost, Option.isNone_none, if_true]
    omega
  · rw [if_neg again] at h
    cases h

/-- A try moves on or fails, and then there is one try less. -/
theorem Fetch.proceed_cost {source : RangeSource σ} {f f' : Fetch} {w w' : World σ}
    (h : f.proceed source directory w = (.inr f', w')) : f'.cost < f.cost := by
  obtain ⟨part, policy, answer⟩ := f
  cases answer with
  | none =>
    have bound : ∀ {v : World σ} {e : Error},
        Fetch.failed ⟨part, policy, none⟩ e v = (.inr f', w') →
          f'.cost < Fetch.cost ⟨part, policy, none⟩ := by
      intro v e h
      have less := failed_cost h
      simp only [Fetch.cost, Option.isNone_none, if_true] at less ⊢
      omega
    rcases hadd : w.files.addTemporary directory (".part-" ++ toString part.index ++ "-") with
      ⟨path, id, files⟩
    rcases hget : source.getRange part.range (w.withFiles files) with ⟨result, v⟩
    cases result with
    | error e =>
      rw [proceed_refused hadd hget] at h
      exact bound h
    | ok body =>
      rw [proceed_given hadd hget] at h
      cases h
      simp [Fetch.cost]
  | some answer =>
    obtain ⟨path, id, items⟩ := answer
    have bound : ∀ {v : World σ} {e : Error},
        Fetch.failed ⟨part, policy, some (path, id, items)⟩ e v = (.inr f', w') →
          f'.cost < Fetch.cost ⟨part, policy, some (path, id, items)⟩ := by
      intro v e h
      have less := failed_cost h
      simp only [Fetch.cost, Option.isNone_some, Bool.false_eq_true, if_false] at less ⊢
      omega
    unfold Fetch.proceed at h
    dsimp only at h
    split at h
    · exact bound h
    · split at h
      · cases h
      · exact bound h

theorem Fetch.proceed_size {source : RangeSource σ} {f : Fetch} {s : Staged} {w w' : World σ}
    (h : f.proceed source directory w = (.inl (.ok s), w')) : s.size = f.part.size := by
  have never {f : Fetch} {e : Error} {v : World σ} (h : f.failed e v = (.inl (.ok s), w')) : False := by
    unfold Fetch.failed at h
    split at h
    · cases h
    · cases h
  unfold Fetch.proceed at h
  split at h
  · dsimp only at h
    split at h
    · exact (never h).elim
    · cases h
  · split at h
    · exact (never h).elim
    · split at h
      · rename_i size
        cases h
        exact size
      · exact (never h).elim

theorem sum_pieces_le (hp : 0 < p.partSize) (total c : Nat) :
    ((Part.split total p.partSize).map fun part => Assembly.pieces part.size + c).sum ≤
      Part.count total p.partSize * (c + 1) + total / Assembly.pieceSize := by
  have upTo (k : Nat) (hk : k ≤ Part.count total p.partSize) :
      (((List.range k).map (Part.ofIndex total p.partSize)).map
          fun part => Assembly.pieces part.size + c).sum ≤
        k * (c + 1) + Part.boundary total p.partSize k / Assembly.pieceSize := by
    -- the bytes of a part that fill no piece count for the piece that is added for it
    induction k with
    | zero => simp
    | succ k ih =>
      have before := ih (by omega)
      have size := Part.size_eq hp (Nat.lt_of_succ_le hk)
      rw [List.range_succ, List.map_append, List.map_append, List.sum_append, Nat.succ_mul]
      simp only [List.map_cons, List.map_nil, List.sum_cons, List.sum_nil, Assembly.pieces,
        Assembly.pieceSize] at before ⊢
      omega
  have all := upTo _ (Nat.le_refl _)
  rwa [Part.boundary_count hp] at all

/-- What is given when the parts begin to be fetched: an object that is not empty, an empty
destination, and nothing asked for yet. -/
structure Ready (p : Plan) (source : RangeSource σ) (P : σ → Prop) (content : ByteArray)
    (target : Nat) (w : World (Fetches σ)) : Prop where
  serves : source.Serves P content
  partSize_pos : 0 < p.partSize
  workers_pos : 0 < p.workers
  content_pos : 0 < content.size
  peer : P w.peer.peer
  unasked : w.peer.log = []
  target_lt : target < w.files.fresh
  empty : w.files.contents.lookup target = some .empty

/-- The crew that fetches the parts, before anyone has moved. -/
def Plan.staff (p : Plan) (total id : Nat) (progress : Option Progress.Tracker) (w : World σ) :
    Team σ :=
  .initial (Part.split total p.partSize) p.workers ⟨id, 0, .empty, none, progress⟩ w

/-- There is someone to fetch the parts of an object that is not empty. -/
theorem Plan.staff_pos {total : Nat} (partSize : 0 < p.partSize) (workers : 0 < p.workers)
    (filled : 0 < total) : 0 < min p.workers (Part.split total p.partSize).length := by
  have some : 0 < Part.count total p.partSize :=
    (Part.lt_count_iff partSize).2 (by simpa using filled)
  rw [Part.length_split]
  omega

namespace Ready
variable (r : Ready p source P content target w)

include r

theorem staff_pos : 0 < min p.workers (Part.split content.size p.partSize).length :=
  Plan.staff_pos r.partSize_pos r.workers_pos r.content_pos

theorem course (h : Crew.State.Reaches (craft p source.observed directory) Assembly.desk
    (p.staff content.size target progress w) past crew) :
    Course p P content w.files target crew.view :=
  h.holds r.staff_pos .listed (.start r.peer r.unasked r.target_lt r.empty progress)
    (.change r.partSize_pos r.serves)

def costs (directory : Path) (progress : Option Progress.Tracker) :
    Costs (craft p source.observed directory) Assembly.desk
      (p.staff content.size target progress w) where
  part part := 2 * p.policy.left + 1 + Assembly.pieces part.size + 2
  work := Fetch.cost
  made s := Assembly.pieces s.size + 2
  desk := Assembly.toDo
  begins _ _ := Nat.le_refl _
  proceeds := Fetch.proceed_cost
  finishes h := by
    rw [Fetch.proceed_size h, Fetch.cost]
    omega
  accepts s a w := Nat.le_of_eq (Assembly.toDo_accept a s w)
  files := by
    -- putting away gets on only because the staging file of the next part is there
    intro past crew a a' v h phase file
    obtain ⟨shown, expects, st⟩ := (r.course h).outlook
    dsimp only [Crew.State.view] at expects st
    rw [phase] at expects st
    cases expects with
    | collecting gots fits =>
      rcases Assembly.file_cases r.partSize_pos fits (st.perm List.perm_append_comm) with
        ⟨none, -⟩ | ⟨a'', w'', file', filed⟩
      · exact absurd (none.symm.trans file) (by simp)
      · have same := file'.symm.trans file
        cases same
        exact filed.lighter

theorem costs_ahead_le (directory : Path) (progress : Option Progress.Tracker) :
    (r.costs directory progress).ahead (p.staff content.size target progress w) ≤
      p.rounds content.size (Part.split content.size p.partSize).length := by
  have parts := sum_pieces_le r.partSize_pos content.size (2 * p.policy.left + 7)
  have each : ((Part.split content.size p.partSize).map fun part =>
      (r.costs directory progress).part part + 4) =
        (Part.split content.size p.partSize).map fun part =>
          Assembly.pieces part.size + (2 * p.policy.left + 7) := by
    refine List.map_congr_left fun part _ => ?_
    simp only [costs]
    omega
  have workers (n : Nat) : ((List.replicate n (.arriving : Worker Unit Part Fetch Staged)).map
      (r.costs directory progress).worker).sum = n * 3 := by
    rw [List.map_replicate, List.sum_replicate_nat]
    rfl
  have tries : p.retry.tries = p.policy.left + 1 := by
    simp only [ChunkRetry.tries, Plan.policy]
    omega
  have ahead : (r.costs directory progress).ahead (p.staff content.size target progress w) =
      ((Part.split content.size p.partSize).map fun part =>
        (r.costs directory progress).part part + 4).sum +
      ((List.replicate (min p.workers (Part.split content.size p.partSize).length)
        (.arriving : Worker Unit Part Fetch Staged)).map (r.costs directory progress).worker).sum +
      0 + 2 := rfl
  have more : Part.count content.size p.partSize * (2 * (p.policy.left + 1) + 8) =
      Part.count content.size p.partSize * (2 * p.policy.left + 7 + 1) +
        Part.count content.size p.partSize * 2 := by
    rw [← Nat.mul_add]
    exact congrArg _ (by omega)
  rw [ahead, each, workers, Plan.rounds, tries, Part.length_split]
  omega

/-- When all parts are put together, the destination has the object, and every part was fetched. -/
theorem returned_ok {a : Assembly}
    (h : Crew.State.Reaches (craft p source.observed directory) Assembly.desk
      (p.staff content.size target progress w) past crew) (returned : crew.phase = .returned (.ok a)) :
    (∀ part ∈ Part.split content.size p.partSize, p.Got part crew.world.peer.log) ∧
      Store.Staging w.files target content [] crew.world.files := by
  have course := r.course h
  have outlook : crew.view.outlook = .complete a := by rw [Crew.State.view, returned]; rfl
  have closed := course.closed a outlook
  have none : crew.view.holdings.flatMap (filesOf content p.partSize) = [] := by
    refine List.flatMap_eq_nil_iff.2 fun held hheld => ?_
    obtain ⟨part, rfl⟩ := closed held hheld
    rfl
  have wanted : crew.cancelled = false := by rw [h.staffed.agrees.cancelled, returned]; rfl
  have perm := h.staffed.perm wanted
  obtain ⟨shown, expects, st⟩ := course.outlook
  rw [none] at st
  rw [outlook] at expects st
  cases expects with
  | complete a got =>
    refine ⟨fun part hpart => got part ?_, st⟩
    have there : part ∈ crew.view.holdings.filterMap Holding.part? := by
      rw [Crew.State.view, Crew.State.parts_holdings]
      exact perm.mem_iff.2 hpart
    obtain ⟨held, hheld, same⟩ := List.mem_filterMap.1 there
    obtain ⟨part', rfl⟩ := closed held hheld
    cases same
    exact mem_receivedOf.2 hheld

/-- When a part failed for good, no staging file is left. -/
theorem returned_error {e : Error}
    (h : Crew.State.Reaches (craft p source.observed directory) Assembly.desk
      (p.staff content.size target progress w) past crew)
    (returned : crew.phase = .returned (.error e)) :
    (∃ part ∈ Part.split content.size p.partSize, ∃ e',
      e = .around (.chunkFailed (.download part.index)) e' ∧ p.GaveUp part crew.world.peer.log e') ∧
      ∃ shown, Store.Staging w.files target shown [] crew.world.files := by
  have course := r.course h
  have outlook : crew.view.outlook = .lost e := by rw [Crew.State.view, returned]; rfl
  have gone := h.ended.gone _ returned
  have drained := h.ended.drained e returned rfl
  have noWorker : crew.workers.flatMap Worker.holdings = [] := by
    refine List.flatMap_eq_nil_iff.2 fun worker hworker => ?_
    have hgone := List.all_eq_true.1 gone worker hworker
    cases worker with
    | gone => rfl
    | _ => cases hgone
  have none : crew.view.holdings.flatMap (filesOf content p.partSize) = [] := by
    rw [Crew.State.view, Crew.State.holdings, noWorker, drained]
    refine List.flatMap_eq_nil_iff.2 fun held hheld => ?_
    simp only [List.map_nil, List.append_nil, List.mem_append, List.mem_map] at hheld
    rcases hheld with ⟨part, -, rfl⟩ | ⟨part, -, rfl⟩
    · rfl
    · rfl
  obtain ⟨shown, expects, st⟩ := course.outlook
  rw [none] at st
  rw [outlook] at expects st
  cases expects with
  | lost heard gaveUp partly =>
    refine ⟨⟨_, ?_, _, rfl, gaveUp⟩, shown, st⟩
    exact course.known _ (List.mem_filterMap.2 ⟨_, mem_receivedOf.1 heard, rfl⟩)

end Ready

end ObjectTransfer.Download
