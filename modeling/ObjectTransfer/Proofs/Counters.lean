import ObjectTransfer.Proofs.Download.Reports
import ObjectTransfer.Proofs.S3.Delivery
import ObjectTransfer.Proofs.S3.Reports
/-!
What a client sees of its transfers in parts: the reports of the one that is under way, and the counters of
all that were made. Nothing that happens during a transfer touches the counters, so each of them counts its
beginning and its end and nothing else.
-/
namespace ObjectTransfer
open Relation

/-- The counters of a client before and after a transfer in parts of an object or a file of this size, in
any of the orders in which everyone can move. `moved` is the size if the transfer has succeeded. -/
inductive Metrics.Counted : Metrics → (moved : Option Nat) → Metrics → Prop
  | download {σ : Type} {p : Download.Plan} {source : RangeSource σ} {destination : String}
      {w v : World σ} {result : Except Error DownloadOutput} {total : Nat}
      (size : ∀ object, (source.inspect w.peer w.files).1 = .ok object → object.size = total)
      (path : ReflTransGen (Download.Moment.Next p source destination)
        (.begun { w with metrics := w.metrics.initiate }) (.ended result v)) :
      Counted w.metrics (result.toOption.map fun _ => total)
        (v.metrics.record result (result.toOption.elim 0 (·.size)))
  | upload {σ : Type} {p : S3.Plan} {s : S3 σ} {path : String} {d : S3.Description}
      {Q : Files.Store → Prop} {w v : World σ}
      {heard : List (Crew.Parcel S3.FilePart (S3.UploadedPart × Nat))}
      {result : Except Error (S3.Completed × Nat)} {total : Nat}
      (size : ∀ size, w.files.size path = .ok size → size = total)
      (comes : S3.Moment.Comes p s path d Q { w with metrics := w.metrics.initiate } heard
        (.ended result v)) :
      Counted w.metrics (result.toOption.map fun _ => total)
        (v.metrics.record result (result.toOption.elim 0 (·.2)))

/-- The counters of a client before and after some transfers, one after the other. -/
inductive Metrics.Counts (m : Metrics) : (moved : List (Option Nat)) → Metrics → Prop
  | nothing : Counts m [] m
  | more {m' m'' : Metrics} {moved : List (Option Nat)} {next : Option Nat}
      (before : Counts m moved m') (counted : Metrics.Counted m' next m'') :
      Counts m (moved ++ [next]) m''

namespace Metrics
variable {m m' : Metrics} {moved : Option Nat}

def after (m : Metrics) : (moved : Option Nat) → Metrics
  | some bytes => ⟨m.initiated + 1, m.completed + 1, m.failed, m.bytes + bytes⟩
  | none => ⟨m.initiated + 1, m.completed, m.failed + 1, m.bytes⟩

/-- One transfer is begun and ends once, and moves its size or nothing. -/
theorem Counted.eq_after (counted : Counted m moved m') : m' = m.after moved := by
  cases counted with
  | download size path =>
    rename_i σ p source destination w v result total
    have same : v.metrics = w.metrics.initiate :=
      (Download.lasting_metrics source w.metrics.initiate).path path rfl
    have measured := Download.Moment.measured_of_path path
    rw [same]
    cases result with
    | error e => rfl
    | ok out =>
      obtain ⟨object, known, told⟩ := measured
      have told : out.size = total := told.trans (size object known)
      change record _ (Except.ok out) out.size = _
      rw [told]
      rfl
  | upload size comes =>
    rename_i σ p s path d Q w v heard result total
    have same : v.metrics = w.metrics.initiate :=
      (S3.lasting_metrics w.metrics.initiate).comes comes rfl
    have measured := comes.measured
    rw [same]
    cases result with
    | error e => rfl
    | ok made =>
      have told : made.2 = total := size made.2 measured
      change record _ (Except.ok made) made.2 = _
      rw [told]
      rfl

/-- Every transfer is counted when it begins and when it ends; those that succeed add their sizes. -/
theorem Counts.eq {moved : List (Option Nat)} (counts : Counts m moved m') :
    m' = ⟨m.initiated + moved.length, m.completed + moved.countP Option.isSome,
      m.failed + moved.countP Option.isNone, m.bytes + (moved.filterMap id).sum⟩ := by
  induction counts with
  | nothing => rfl
  | more before counted ih =>
    rename_i next
    rw [counted.eq_after, ih]
    cases next with
    | none => simp [after, Nat.add_assoc]
    | some bytes => simp [after, Nat.add_assoc]

end Metrics

section
variable {σ τ : Type} {p : Download.Plan} {r : Progress.Reporter} {source : RangeSource σ}
  {P : σ → Prop} {content : ByteArray} {w w' : World σ} {q : S3.Plan} {r' : Progress.Reporter}
  {s : S3 τ} {path : String} {d : S3.Description} {v v' : World τ}

theorem Metrics.counted_of_download {destination : String} {result : Except Error DownloadOutput}
    (g : Download.Given p source P content w)
    (run : p.download source destination w = some (result, w')) :
    Counted w.metrics (result.toOption.map fun _ => content.size) w'.metrics := by
  obtain ⟨v, path, rfl⟩ := Download.Plan.download_path run
  exact .download (fun object known => g.serves.size g.peer known) path

theorem Metrics.counted_of_upload {size : Nat} {result : Except Error S3.Completed}
    (measured : v.files.size path = .ok size) (run : q.upload s path d v = some (result, v')) :
    Counted v.metrics (result.toOption.map fun _ => size) v'.metrics := by
  obtain ⟨heard, result', u, comes, rfl, rfl⟩ := S3.Plan.upload_path (fun _ => True) run
  have same : (result'.map (·.1)).toOption.map (fun _ => size) =
      result'.toOption.map fun _ => size := by
    cases result' <;> rfl
  rw [same]
  exact .upload (fun _ other => Except.ok.inj (other.symm.trans measured)) comes

theorem S3.Moment.Comes.tells {Q : Files.Store → Prop} {completed : S3.Completed} {size : Nat}
    {heard : List (Crew.Parcel S3.FilePart (S3.UploadedPart × Nat))}
    (comes : S3.Moment.Comes q s path d Q v heard (.ended (.ok (completed, size)) v'))
    (workers : 0 < q.workers) (wanted : q.progress = some r') :
    v.files.size path = .ok size ∧
      ∃ new, v'.reports = v.reports ++ new.toArray ∧ Progress.Whole size new := by
  refine ⟨comes.measured, ?_⟩
  cases comes.tracks workers wanted with
  | done reports whole => exact ⟨_, reports, whole⟩

/-- Whoever moves next, a download or an upload in parts that succeeds is reported from its start to its
end, and a download of which every part is wanted part by part in their order; and the counters of a client
tell how many transfers it made, how they ended and how many bytes those moved that succeeded. -/
theorem transfers_are_reported_and_counted (g : Download.Given p source P content w)
    (wanted : p.progress = some r) (destination : String) (s : S3 τ) (path : String)
    (d : S3.Description) (v : World τ) (workers : 0 < q.workers) (wanted' : q.progress = some r') :
    (∀ out w', ReflTransGen (Download.Moment.Next p source destination) (.begun w)
        (.ended (.ok out) w') →
      out.size = content.size ∧ p.Tells r content.size w.reports w'.reports) ∧
    (∀ out w', p.download source destination w = some (.ok out, w') →
      out.size = content.size ∧ p.Tells r content.size w.reports w'.reports) ∧
    (∀ Q heard completed size v',
      S3.Moment.Comes q s path d Q v heard (.ended (.ok (completed, size)) v') →
      v.files.size path = .ok size ∧
        ∃ new, v'.reports = v.reports ++ new.toArray ∧ Progress.Whole size new) ∧
    (∀ completed v', q.upload s path d v = some (.ok completed, v') →
      ∃ size, v.files.size path = .ok size ∧
        ∃ new, v'.reports = v.reports ++ new.toArray ∧ Progress.Whole size new) ∧
    (∀ result w', p.download source destination w = some (result, w') →
      Metrics.Counted w.metrics (result.toOption.map fun _ => content.size) w'.metrics) ∧
    (∀ size result v', v.files.size path = .ok size → q.upload s path d v = some (result, v') →
      Metrics.Counted v.metrics (result.toOption.map fun _ => size) v'.metrics) ∧
    ∀ m moved m', Metrics.Counts m moved m' →
      m' = ⟨m.initiated + moved.length, m.completed + moved.countP Option.isSome,
        m.failed + moved.countP Option.isNone, m.bytes + (moved.filterMap id).sum⟩ ∧
      (m.initiated = m.completed + m.failed → m'.initiated = m'.completed + m'.failed) := by
  refine ⟨fun out w' path => g.tells wanted path, fun out w' run => ?_,
    fun Q heard completed size v' comes => comes.tells workers wanted', fun completed v' run => ?_,
    fun result w' run => Metrics.counted_of_download g run,
    fun size result v' measured run => Metrics.counted_of_upload measured run,
    fun m moved m' counts => ⟨counts.eq, fun balanced => ?_⟩⟩
  · obtain ⟨v, path, rfl⟩ := Download.Plan.download_path run
    have g' : Download.Given p source P content { w with metrics := w.metrics.initiate } :=
      ⟨g.serves, g.peer, g.partSize_pos, g.workers_pos, g.sound⟩
    have tells := g'.tells wanted path
    exact tells
  · obtain ⟨heard, result, u, comes, same, rfl⟩ := S3.Plan.upload_path (fun _ => True) run
    cases result with
    | error e => cases same
    | ok made =>
      obtain ⟨completed', size⟩ := made
      exact ⟨size, comes.tells workers wanted'⟩
  · have each : moved.length = moved.countP Option.isSome + moved.countP Option.isNone := by
      rw [List.length_eq_countP_add_countP Option.isSome]
      congr 2
      funext size?
      cases size? <;> rfl
    rw [counts.eq]
    dsimp only
    omega

/-- A download whose second part comes with its second try, and an upload whose only part does. -/
theorem late_parts_are_reported_and_counted :
    (∃ out w', { Download.twoWorkers with progress := some ⟨-1⟩ }.download
        Rehearsal.MemoryObject.source "d" (.initial (Download.threeBytes 1) Download.occupied) =
          some (.ok out, w') ∧
      w'.reports = #[(0, 3), (2, 3), (3, 3), (3, 3)] ∧ w'.metrics = ⟨1, 1, 0, 3⟩) ∧
    ∃ completed v', { S3.twoWorkers with progress := some ⟨-1⟩ }.upload Rehearsal.S3Script.service "f"
        S3.plain (.initial S3.silentOnce S3.threeBytes) = some (.ok completed, v') ∧
      (∃ new, v'.reports = new.toArray ∧ Progress.Whole 3 new) ∧ v'.metrics = ⟨1, 1, 0, 3⟩ := by
  have given : Download.Given { Download.twoWorkers with progress := some ⟨-1⟩ }
      Rehearsal.MemoryObject.source (·.data = ⟨#[1, 2, 3]⟩) ⟨#[1, 2, 3]⟩
      (.initial (Download.threeBytes 1) Download.occupied) :=
    ⟨Rehearsal.MemoryObject.serves _, rfl, by decide, by decide, Files.Store.sound_empty.edit _⟩
  obtain ⟨-, downloads, -, uploads, counted, counted', sums⟩ :=
    transfers_are_reported_and_counted (q := { S3.twoWorkers with progress := some ⟨-1⟩ }) given rfl
      "d" Rehearsal.S3Script.service "f" S3.plain (.initial S3.silentOnce S3.threeBytes) (by decide) rfl
  have sum {m : Metrics} (counted : Metrics.Counted .zero (some 3) m) : m = ⟨1, 1, 0, 3⟩ :=
    (sums _ _ _ (.more .nothing counted)).1
  have measured : S3.threeBytes.size "f" = .ok 3 := rfl
  constructor
  · have fetched : (Download.Plan.download { Download.twoWorkers with progress := some ⟨-1⟩ }
        Rehearsal.MemoryObject.source "d"
        (.initial (Download.threeBytes 1) Download.occupied)).map (·.1.isOk) = some true := by
      decide +kernel
    obtain ⟨⟨result, w'⟩, run, isOk⟩ := Option.map_eq_some_iff.1 fetched
    cases result with
    | error e => cases isOk
    | ok out =>
      obtain ⟨-, new, reports, -, each⟩ := downloads out w' run
      refine ⟨out, w', run, ?_, sum (counted _ w' run)⟩
      rw [reports, each (by decide)]
      decide
  · have stored : (S3.Plan.upload { S3.twoWorkers with progress := some ⟨-1⟩ }
        Rehearsal.S3Script.service "f" S3.plain
        (.initial S3.silentOnce S3.threeBytes)).map (·.1.isOk) = some true := by
      decide +kernel
    obtain ⟨⟨result, v'⟩, run, isOk⟩ := Option.map_eq_some_iff.1 stored
    cases result with
    | error e => cases isOk
    | ok completed =>
      obtain ⟨size, same, new, reports, whole⟩ := uploads completed v' run
      obtain rfl := Except.ok.inj (same.symm.trans measured)
      refine ⟨completed, v', run, ⟨new, ?_, whole⟩, sum (counted' 3 _ v' measured run)⟩
      rw [reports]
      exact Array.empty_append

end

end ObjectTransfer
