import ObjectTransfer.Proofs.Download.Unwatched
import ObjectTransfer.Proofs.Files.Destination
import ObjectTransfer.Proofs.Rehearsal.MemoryObject
/-!
What downloads come to. Whoever moves next, a download ends: without having touched anything when the
size of the object is not to be had or the destination cannot be written, with the object in the
destination, or without the destination because some part failed for good. No staging file is left.
-/
namespace ObjectTransfer.Download
open Crew Files Rehearsal

/-- What is given when a download begins: a source that has this content. -/
structure Given {σ : Type} (p : Plan) (source : RangeSource σ) (P : σ → Prop) (content : ByteArray)
    (w : World σ) : Prop where
  serves : source.Serves P content
  peer : P w.peer
  partSize_pos : 0 < p.partSize
  workers_pos : 0 < p.workers
  sound : w.files.Sound

inductive Settled {σ : Type} (p : Plan) (source : RangeSource σ) (content : ByteArray)
    (destination : String) (w : World σ) : Except Error DownloadOutput → World (Fetches σ) → Prop
  | refused {e : Error} {w' : World (Fetches σ)}
      (unknown : (source.inspect w.peer w.files).1 = .error e) (unasked : w'.peer.log = [])
      (untouched : w'.files = w.files) : Settled p source content destination w (.error e) w'
  | denied {object : ObjectMeta} {fault : Fault} {w' : World (Fetches σ)}
      (known : (source.inspect w.peer w.files).1 = .ok object)
      (denied : w.files.create destination = .error fault) (unasked : w'.peer.log = [])
      (untouched : w'.files = w.files) :
      Settled p source content destination w (.error (.io fault)) w'
  | delivered {object : ObjectMeta} {w' : World (Fetches σ)}
      (known : (source.inspect w.peer w.files).1 = .ok object)
      (got : ∀ part ∈ Part.split content.size p.partSize, p.Got part w'.peer.log)
      (asked : ∀ f ∈ w'.peer.log, ∃ part ∈ Part.split content.size p.partSize, f.range = part.range)
      (holds : w'.files.Holds destination (some content))
      (others : w.files.KeepsOthers destination w'.files) :
      Settled p source content destination w
        (.ok ⟨content.size, Part.count content.size p.partSize, object.eTag⟩) w'
  | lost {object : ObjectMeta} {w' : World (Fetches σ)} {part : Part} {e : Error}
      (known : (source.inspect w.peer w.files).1 = .ok object)
      (valid : part ∈ Part.split content.size p.partSize) (gaveUp : p.GaveUp part w'.peer.log e)
      (gone : w'.files.Holds destination none) (others : w.files.KeepsOthers destination w'.files) :
      Settled p source content destination w
        (.error (.around (.chunkFailed (.download part.index)) e)) w'

inductive Fetching {σ : Type} (p : Plan) (source : RangeSource σ) (P : σ → Prop) (content : ByteArray)
    (destination : String) (w : World σ) (object : ObjectMeta) (directory : Path) :
    Team (Fetches σ) → Prop
  | intro {parent : Path} {name : String} {id : Nat} {progress : Option Progress.Tracker}
      {w' : World (Fetches σ)} {past : List (Event Part)} {crew : Team (Fetches σ)}
      (known : (source.inspect w.peer w.files).1 = .ok object) (size : object.size = content.size)
      (opened : w.files.Opened destination parent name id w'.files)
      (ready : Ready p source P content id w')
      (reached : Crew.State.Reaches (craft p source.observed directory) Assembly.desk
        (p.staff content.size id progress w') past crew) :
      Fetching p source P content destination w object directory crew

/-- A moment that can come after the beginning. -/
inductive Underway {σ : Type} (p : Plan) (source : RangeSource σ) (P : σ → Prop) (content : ByteArray)
    (destination : String) (w : World σ) : Moment (Fetches σ) → Prop
  | fetching {object : ObjectMeta} {directory : Path} {crew : Team (Fetches σ)}
      (h : Fetching p source P content destination w object directory crew) :
      Underway p source P content destination w (.fetching object directory crew)
  | ended {result : Except Error DownloadOutput} {w' : World (Fetches σ)}
      (settled : Settled p source content destination w result w') :
      Underway p source P content destination w (.ended result w')

/-- At this moment the destination has the first bytes of the object, as far as parts of it were put
away; and all of it when the download has succeeded. -/
def Moment.Shows (content : ByteArray) (partSize : Nat) (destination : String) {σ : Type} :
    Moment σ → Prop
  | .begun _ | .ended (.error _) _ => True
  | .fetching _ _ crew => ∃ shown, Partly content partSize shown ∧
      crew.world.files.Holds destination (some shown)
  | .ended (.ok _) w => w.files.Holds destination (some content)

variable {σ : Type} {p : Plan} {source : RangeSource σ} {P : σ → Prop} {content : ByteArray}
  {destination : String} {w : World σ} {m n : Moment (Fetches σ)}

theorem Settled.nothing {object : ObjectMeta} {directory : Path} {name : String} {id : Nat}
    {w' : World (Fetches σ)} (hp : 0 < p.partSize) (empty : content.size = 0)
    (known : (source.inspect w.peer w.files).1 = .ok object)
    (opened : w.files.Opened destination directory name id w'.files) (unasked : w'.peer.log = []) :
    Settled p source content destination w (.ok ⟨0, 0, object.eTag⟩) w' := by
  have st := Store.Staging.start opened.id_lt opened.empty
  rw [← ByteArray.size_eq_zero_iff.1 empty] at st
  have delivered : Settled p source content destination w
      (.ok ⟨content.size, Part.count content.size p.partSize, object.eTag⟩) w' := by
    refine .delivered known (fun part hpart => ?_) (fun f hf => ?_) (opened.holds st)
      (opened.keepsOthers st)
    · rw [empty, Part.split_zero hp] at hpart
      cases hpart
    · rw [unasked] at hf
      cases hf
  rwa [empty, Part.count_zero hp] at delivered

theorem Settled.recounted {before after : Metrics} {result : Except Error DownloadOutput}
    {w' : World (Fetches σ)}
    (settled : Settled p source content destination { w with metrics := before } result w') :
    Settled p source content destination w result { w' with metrics := after } := by
  cases settled with
  | refused unknown unasked untouched => exact .refused unknown unasked untouched
  | denied known denied unasked untouched => exact .denied known denied unasked untouched
  | delivered known got asked holds others => exact .delivered known got asked holds others
  | lost known valid gaveUp gone others => exact .lost known valid gaveUp gone others

theorem Given.opens (g : Given p source P content w) (destination : String) :
    Underway p source P content destination w (p.opened source.observed destination (watched w)) := by
  obtain ⟨peer', same⟩ := g.serves.inspect w.peer w.files g.peer
  rcases inspect : source.inspect w.peer w.files with ⟨result, peer, files⟩
  rw [inspect] at peer' same
  dsimp only at same
  subst same
  have asked : source.observed.objectMeta (watched w) =
      (result, ⟨⟨peer, []⟩, w.files, w.reports, w.pauses, w.metrics⟩) := by
    simp only [RangeSource.objectMeta, RangeSource.observed, watched, inspect]
  unfold Plan.opened
  rw [asked]
  cases result with
  | error e => exact .ended (.refused (by rw [inspect]) rfl rfl)
  | ok object =>
    have size : object.size = content.size := g.serves.size g.peer (by rw [inspect])
    dsimp only
    rw [World.report]
    cases created : w.files.create destination with
    | error fault => exact .ended (.denied (by rw [inspect]) created rfl rfl)
    | ok made =>
      obtain ⟨id, files⟩ := made
      obtain ⟨directory, name, opened⟩ := Store.opened_of_create g.sound created
      dsimp only
      by_cases empty : object.size = 0
      · rw [if_pos empty]
        exact .ended (.nothing g.partSize_pos (size ▸ empty) (by rw [inspect]) opened rfl)
      · rw [if_neg empty, size]
        exact .fetching ⟨by rw [inspect], size, opened,
          ⟨g.serves, g.partSize_pos, g.workers_pos, by omega, peer', rfl, opened.id_lt, opened.empty⟩,
          .start⟩

namespace Fetching
variable {object : ObjectMeta} {directory : Path} {crew crew' : Team (Fetches σ)}
  (fetching : Fetching p source P content destination w object directory crew)

include fetching

theorem moves {move : Move}
    (step : crew.step (craft p source.observed directory) Assembly.desk move = some crew') :
    Fetching p source P content destination w object directory crew' := by
  obtain ⟨known, size, opened, ready, reached⟩ := fetching
  exact ⟨known, size, opened, ready, .step reached step⟩

theorem closes {result : Except Error Assembly} (returned : crew.phase = .returned result) :
    Settled p source content destination w (p.closed destination object crew.world result).1
      (p.closed destination object crew.world result).2 := by
  obtain ⟨known, size, opened, ready, reached⟩ := fetching
  cases result with
  | ok a =>
    obtain ⟨got, st⟩ := ready.returned_ok reached returned
    have delivered : Settled p source content destination w
        (.ok ⟨content.size, Part.count content.size p.partSize, object.eTag⟩)
        (p.closed destination object crew.world (.ok a)).2 :=
      .delivered known got (ready.course reached).asked (opened.holds st) (opened.keepsOthers st)
    rwa [← Part.length_split, ← size] at delivered
  | error e =>
    obtain ⟨⟨part, valid, e', rfl, gaveUp⟩, shown, st⟩ := ready.returned_error reached returned
    obtain ⟨files, removed, gone, others⟩ := opened.removed st
    have left : Plan.removeDestination destination crew.world = crew.world.withFiles files := by
      rw [Plan.removeDestination, removed]
    rw [Plan.closed, left]
    exact .lost known valid gaveUp gone others

theorem shows : ∃ shown, Partly content p.partSize shown ∧
    crew.world.files.Holds destination (some shown) := by
  obtain ⟨known, size, opened, ready, reached⟩ := fetching
  obtain ⟨shown, expects, st⟩ := (ready.course reached).outlook
  exact ⟨shown, expects.partly ready.partSize_pos, opened.holds st⟩

theorem exists_next :
    ∃ n, Moment.Next p source.observed destination (.fetching object directory crew) n := by
  obtain ⟨known, size, opened, ready, reached⟩ := fetching
  by_cases returned : ∃ result, crew.phase = .returned result
  · obtain ⟨result, returned⟩ := returned
    exact ⟨_, .closes returned⟩
  · obtain ⟨move, crew', steps⟩ :=
      reached.staffed.exists_steps (c := craft p source.observed directory) (k := Assembly.desk)
        ready.staff_pos fun result returned' => returned ⟨result, returned'⟩
    exact ⟨_, .moves (Crew.State.step_eq_some_iff.2 steps)⟩

theorem leads : Moment.Leads p source.observed destination
    (Settled p source content destination w) (.fetching object directory crew) := by
  obtain ⟨known, size, opened, ready, reached⟩ := fetching
  -- by what is left to do: every move leaves less, and a crew that has returned only has to close
  refine (ready.costs directory _).holds_of_next (Q := fun crew => Moment.Leads p source.observed
    destination (Settled p source content destination w) (.fetching object directory crew)) ?_ reached
  intro past crew reached later
  have fetching : Fetching p source P content destination w object directory crew :=
    ⟨known, size, opened, ready, reached⟩
  refine .goesOn fetching.exists_next fun n next => ?_
  cases next with
  | moves step => exact later _ _ step
  | closes returned => exact .ended (fetching.closes returned)

theorem outcome : ∃ result w',
    p.outcome source.observed destination (.fetching object directory crew) = some (result, w') ∧
      Settled p source content destination w result w' := by
  obtain ⟨known, size, opened, ready, reached⟩ := fetching
  obtain ⟨past, worked⟩ :=
    reached.run (p.rounds content.size (Part.split content.size p.partSize).length)
  have enough := Nat.le_trans ((ready.costs directory _).ahead_le reached)
    (ready.costs_ahead_le directory _)
  obtain ⟨result, returned⟩ := reached.run_returns ready.staff_pos _ enough
  rw [Plan.outcome, Plan.worked, size, Crew.State.result?, returned]
  exact ⟨_, _, rfl, (Fetching.intro known size opened ready worked).closes returned⟩

end Fetching

namespace Underway

theorem next (underway : Underway p source P content destination w m)
    (next : Moment.Next p source.observed destination m n) :
    Underway p source P content destination w n := by
  cases underway with
  | fetching h =>
    cases next with
    | moves step => exact .fetching (h.moves step)
    | closes returned => exact .ended (h.closes returned)
  | ended settled => cases next

theorem shows (underway : Underway p source P content destination w m) :
    m.Shows content p.partSize destination := by
  cases underway with
  | fetching h => exact h.shows
  | ended settled =>
    cases settled with
    | refused unknown unasked untouched => trivial
    | denied known denied unasked untouched => trivial
    | delivered known got asked holds others => exact holds
    | lost known valid gaveUp gone others => trivial

theorem leads (underway : Underway p source P content destination w m) :
    Moment.Leads p source.observed destination (Settled p source content destination w) m := by
  cases underway with
  | fetching h => exact h.leads
  | ended settled => exact .ended settled

theorem outcome (underway : Underway p source P content destination w m) :
    ∃ result w', p.outcome source.observed destination m = some (result, w') ∧
      Settled p source content destination w result w' := by
  cases underway with
  | fetching h => exact h.outcome
  | ended settled => exact ⟨_, _, rfl, settled⟩

end Underway

namespace Given
variable (g : Given p source P content w)

include g

theorem shows (reached : Relation.ReflTransGen (Moment.Next p source.observed destination)
    (.begun (watched w)) m) : m.Shows content p.partSize destination := by
  -- only the beginning itself is not underway yet
  have underway : m = .begun (watched w) ∨ Underway p source P content destination w m := by
    induction reached with
    | refl => exact .inl rfl
    | tail before next ih =>
      rcases ih with rfl | underway
      · cases next with
        | opens => exact .inr (g.opens destination)
      · exact .inr (underway.next next)
  rcases underway with rfl | underway
  · trivial
  · exact underway.shows

theorem leads (destination : String) :
    Moment.Leads p source.observed destination (Settled p source content destination w)
      (.begun (watched w)) := by
  refine .goesOn ⟨_, .opens _⟩ fun n next => ?_
  cases next with
  | opens => exact (g.opens destination).leads

theorem transfer (destination : String) : ∃ result w',
    p.transfer source.observed destination (watched w) = some (result, w') ∧
      Settled p source content destination w result w' := by
  rw [Plan.transfer_eq]
  exact (g.opens destination).outcome

theorem download (destination : String) : ∃ result w',
    p.download source.observed destination (watched w) = some (result, w') ∧
      p.download source destination w = some (result, unwatched w') ∧
      Settled p source content destination w result w' := by
  have g' : Given p source P content { w with metrics := w.metrics.initiate } :=
    ⟨g.serves, g.peer, g.partSize_pos, g.workers_pos, g.sound⟩
  obtain ⟨result, v, transfer, settled⟩ := g'.transfer destination
  have transfer' : p.transfer source.observed destination
      { watched w with metrics := (watched w).metrics.initiate } = some (result, v) := transfer
  have download : ∃ metrics, p.download source.observed destination (watched w) =
      some (result, { v with metrics }) := by
    simp only [Plan.download]
    rw [transfer']
    exact ⟨_, rfl⟩
  obtain ⟨metrics, download⟩ := download
  have same := p.download_unwatched source destination w
  rw [download] at same
  exact ⟨_, _, download, same, settled.recounted⟩

end Given

/-- If every part is spared, the whole object is in the destination and nothing else has changed, and
every part came whole once. -/
def Plan.Delivers (p : Plan) (content : ByteArray) (destination : String) (object : ObjectMeta)
    (before : Store) (result : Except Error DownloadOutput) (w : World (Fetches σ)) : Prop :=
  (∀ part ∈ Part.split content.size p.partSize, p.Spared part w.peer.log) →
    result = .ok ⟨content.size, (content.size + p.partSize - 1) / p.partSize, object.eTag⟩ ∧
      w.files.Holds destination (some content) ∧ before.KeepsOthers destination w.files ∧
      ((w.peer.log.filter (·.isWhole)).map (·.range)).Perm
        ((Part.split content.size p.partSize).map Part.range) ∧
      (content.size = 0 → w.peer.log = [])

def Plan.LeavesNothing (p : Plan) (content : ByteArray) (destination : String) (before : Store)
    (result : Except Error DownloadOutput) (w : World (Fetches σ)) : Prop :=
  ∃ part ∈ Part.split content.size p.partSize, ∃ e,
    result = .error (.around (.chunkFailed (.download part.index)) e) ∧ p.GaveUp part w.peer.log e ∧
      w.files.Holds destination none ∧ before.KeepsOthers destination w.files

/-- A download without the size of the object has touched nothing; one of which a part failed for good
leaves nothing, and so does one that fails although the destination was made. -/
structure Plan.CleansUp (p : Plan) (source : RangeSource σ) (content : ByteArray)
    (destination : String) (w : World σ) (result : Except Error DownloadOutput)
    (w' : World (Fetches σ)) : Prop where
  refused : ∀ e, (source.inspect w.peer w.files).1 = .error e → result = .error e ∧ w'.files = w.files
  lost : ∀ part ∈ Part.split content.size p.partSize, ∀ e, p.GaveUp part w'.peer.log e →
    p.LeavesNothing content destination w.files result w'
  failed : ∀ object made e, (source.inspect w.peer w.files).1 = .ok object →
    w.files.create destination = .ok made → result = .error e →
    p.LeavesNothing content destination w.files result w'

namespace Settled
variable {object : ObjectMeta} {made : Nat × Store} {result : Except Error DownloadOutput}
  {w' : World (Fetches σ)} (settled : Settled p source content destination w result w')

include settled

theorem delivers (hp : 0 < p.partSize) (known : (source.inspect w.peer w.files).1 = .ok object)
    (writable : w.files.create destination = .ok made) :
    p.Delivers content destination object w.files result w' := by
  intro spared
  cases settled with
  | refused unknown unasked untouched => rw [known] at unknown; cases unknown
  | denied known' denied unasked untouched => rw [writable] at denied; cases denied
  | lost known' valid gaveUp gone others => exact absurd gaveUp (spared _ valid).not_gaveUp
  | delivered known' got asked holds others =>
    rw [known] at known'
    cases known'
    refine ⟨rfl, holds, others, Plan.whole_ranges hp got asked, fun empty => ?_⟩
    refine List.eq_nil_iff_forall_not_mem.2 fun f hf => ?_
    obtain ⟨part, hpart, -⟩ := asked f hf
    rw [empty, Part.split_zero hp] at hpart
    cases hpart

theorem cleansUp : p.CleansUp source content destination w result w' := by
  have unheard {part : Part} {e : Error} (unasked : w'.peer.log = []) :
      ¬ p.GaveUp part w'.peer.log e := by
    rintro ⟨earlier, left, outcomes, -⟩
    rw [unasked] at outcomes
    exact absurd outcomes.symm (by simp [Part.outcomes])
  cases settled with
  | refused unknown unasked untouched =>
    refine ⟨fun e h => ?_, fun part _ e gaveUp => absurd gaveUp (unheard unasked), ?_⟩
    · rw [unknown] at h
      cases h
      exact ⟨rfl, untouched⟩
    · intro object made e known
      rw [unknown] at known
      cases known
  | denied known denied unasked untouched =>
    refine ⟨fun e h => ?_, fun part _ e gaveUp => absurd gaveUp (unheard unasked), ?_⟩
    · rw [known] at h
      cases h
    · intro object made e _ writable
      rw [denied] at writable
      cases writable
  | delivered known got asked holds others =>
    refine ⟨fun e h => ?_, fun part hpart e gaveUp => absurd gaveUp (got part hpart).not_gaveUp,
      fun object made e _ _ h => (by cases h)⟩
    rw [known] at h
    cases h
  | lost known valid gaveUp gone others =>
    have leaves := (⟨_, valid, _, rfl, gaveUp, gone, others⟩ :
      p.LeavesNothing content destination w.files _ w')
    refine ⟨fun e h => ?_, fun _ _ _ _ => leaves, fun _ _ _ _ _ _ => leaves⟩
    rw [known] at h
    cases h

end Settled

theorem Moment.Leads.mono {Q R : Except Error DownloadOutput → World (Fetches σ) → Prop}
    (leads : Moment.Leads p source.observed destination Q m)
    (h : ∀ result w, Q result w → R result w) :
    Moment.Leads p source.observed destination R m := by
  induction leads with
  | ended q => exact .ended (h _ _ q)
  | goesOn some all ih => exact .goesOn some ih

/-- Whoever moves next, a download whose parts are spared delivers the object. -/
theorem spared_download_delivers (g : Given p source P content w) {object : ObjectMeta}
    (known : (source.inspect w.peer w.files).1 = .ok object) {made : Nat × Store}
    (writable : w.files.create destination = .ok made) :
    Moment.Leads p source.observed destination (p.Delivers content destination object w.files)
        (.begun (watched w)) ∧
      ∃ result w', p.download source.observed destination (watched w) = some (result, w') ∧
        p.download source destination w = some (result, unwatched w') ∧
        p.Delivers content destination object w.files result w' := by
  refine ⟨(g.leads destination).mono fun _ _ settled =>
    settled.delivers g.partSize_pos known writable, ?_⟩
  obtain ⟨result, w', watchedRun, run, settled⟩ := g.download destination
  exact ⟨result, w', watchedRun, run, settled.delivers g.partSize_pos known writable⟩

/-- Three bytes in memory; the third cannot be had as often as is told. -/
def threeBytes (failures : Nat) : MemoryObject := ⟨⟨#[1, 2, 3]⟩, none, [(2, failures)], [], #[]⟩

def twoWorkers : Plan := ⟨2, 2, ⟨3, 0⟩, fun _ => true, none⟩

def occupied : Store := Store.empty.edit [.write "d" ⟨#[9]⟩]

theorem threeBytes_given (failures : Nat) :
    Given twoWorkers MemoryObject.source (·.data = ⟨#[1, 2, 3]⟩) ⟨#[1, 2, 3]⟩
      (.initial (threeBytes failures) occupied) :=
  ⟨MemoryObject.serves _, rfl, by decide, by decide, Store.sound_empty.edit _⟩

/-- The third byte comes with the second try. -/
theorem late_download_delivers : ∃ w' : World (Fetches MemoryObject),
    twoWorkers.download MemoryObject.source "d" (.initial (threeBytes 1) occupied) =
      some (.ok ⟨3, 2, none⟩, unwatched w') ∧
    w'.files.Holds "d" (some ⟨#[1, 2, 3]⟩) ∧ occupied.KeepsOthers "d" w'.files ∧
    ((w'.peer.log.filter (·.isWhole)).map (·.range)).Perm [.inclusive 0 1, .inclusive 2 2] := by
  obtain ⟨made, writable⟩ : ∃ made, occupied.create "d" = .ok made := ⟨_, rfl⟩
  obtain ⟨-, result, w', watchedRun, run, delivers⟩ :=
    spared_download_delivers (threeBytes_given 1) rfl writable
  have tries : ((twoWorkers.download MemoryObject.source.observed "d"
      (watched (.initial (threeBytes 1) occupied))).map fun r =>
        (Part.split 3 2).map fun part => (part.outcomes r.2.peer.log).map Except.isOk) =
      some [[true], [false, true]] := by decide +kernel
  rw [watchedRun] at tries
  have parts : Part.split 3 2 = [⟨0, 0, 1⟩, ⟨1, 2, 2⟩] := by decide
  have spared : ∀ part ∈ Part.split 3 2, twoWorkers.Spared part w'.peer.log := by
    rw [parts] at tries ⊢
    simp only [Option.map_some, List.map_cons, List.map_nil, Option.some.injEq, List.cons.injEq,
      and_true] at tries
    intro part hpart
    rcases List.mem_cons.1 hpart with rfl | hpart
    · exact Plan.spared_of_isOk (n := 0) (fun _ => rfl) (by decide) tries.1
    · obtain rfl := List.mem_singleton.1 hpart
      exact Plan.spared_of_isOk (n := 1) (fun _ => rfl) (by decide) tries.2
  obtain ⟨rfl, holds, others, whole, -⟩ := delivers spared
  exact ⟨w', run, holds, others, whole⟩

/-- Whoever moves next, the destination only ever shows the first bytes of the object, and nothing is
left of a download that fails. -/
theorem failed_download_leaves_nothing (g : Given p source P content w) (destination : String) :
    (∀ m, Relation.ReflTransGen (Moment.Next p source.observed destination) (.begun (watched w)) m →
      m.Shows content p.partSize destination) ∧
    Moment.Leads p source.observed destination (p.CleansUp source content destination w)
      (.begun (watched w)) ∧
    ∃ result w', p.download source.observed destination (watched w) = some (result, w') ∧
      p.download source destination w = some (result, unwatched w') ∧
      p.CleansUp source content destination w result w' := by
  refine ⟨fun m reached => g.shows reached,
    (g.leads destination).mono fun _ _ settled => settled.cleansUp, ?_⟩
  obtain ⟨result, w', watchedRun, run, settled⟩ := g.download destination
  exact ⟨result, w', watchedRun, run, settled.cleansUp⟩

/-- The third byte does not come. -/
theorem lost_download_leaves_nothing : ∃ result, ∃ w' : World (Fetches MemoryObject),
    twoWorkers.download MemoryObject.source "d" (.initial (threeBytes 3) occupied) =
      some (result, unwatched w') ∧
    twoWorkers.LeavesNothing ⟨#[1, 2, 3]⟩ "d" occupied result w' := by
  obtain ⟨made, writable⟩ : ∃ made, occupied.create "d" = .ok made := ⟨_, rfl⟩
  obtain ⟨-, -, result, w', watchedRun, run, cleansUp⟩ :=
    failed_download_leaves_nothing (threeBytes_given 3) "d"
  have failed : (twoWorkers.download MemoryObject.source.observed "d"
      (watched (.initial (threeBytes 3) occupied))).map (·.1.isOk) = some false := by decide +kernel
  rw [watchedRun] at failed
  cases result with
  | ok output => cases failed
  | error e => exact ⟨_, w', run, cleansUp.failed _ _ e rfl writable rfl⟩

end ObjectTransfer.Download
