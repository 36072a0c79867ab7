import ObjectTransfer.Proofs.Crew.Protocol
import ObjectTransfer.Proofs.Download.Budget
import ObjectTransfer.Proofs.Download.Delivery
import ObjectTransfer.Proofs.S3.Budget
/-!
The budgets of the parts of a transfer. The work on a part is tried again as long as its own budget
allows, and what becomes of other parts takes nothing from that budget; this is so for parts that are
fetched and for parts that are uploaded, in whatever order everyone moves. Therefore a download makes no
more requests for ranges than all its parts may be tried.
-/
namespace ObjectTransfer.Crew

/-- Every part is tried until a try succeeds, is not to be followed by another, or is the last one that
is allowed, with the same pause between any two tries, and what came of the last try came of the part:
of a part by itself, in whatever worlds its strokes are done, and of each part of a transfer. -/
theorem parts_have_their_own_budgets {σ : Type} :
    (∀ (r : ChunkRetry) (accepts : Error → Bool) (source : RangeSource σ) (directory : Files.Path)
      (part : Download.Part) (worlds : Nat → World (Fetches σ)),
      ∃ strokes result, along (Download.Fetch.proceed source.observed directory) part worlds
          ⟨part, r.policy accepts, none⟩ (2 * r.tries) = (strokes, .inl result) ∧
        part.Keeps r accepts strokes (.inl result)) ∧
    (∀ (r : ChunkRetry) (accepts : Error → Bool) (s : S3 σ) (u : S3.Upload) (file : Files.Entry)
      (part : S3.FilePart) (worlds : Nat → World (S3.Calls σ)),
      S3.isPartNumber part.number = true →
      ∃ strokes result, along (S3.Sending.proceed s.observed u) part worlds
          ⟨file, part, r.policy accepts, none⟩ (r.tries + 1) = (strokes, .inl result) ∧
        part.Keeps u r accepts strokes (.inl result)) ∧
    (∀ (p : Download.Plan) (source : RangeSource σ) (directory : Files.Path)
      (parts : List Download.Part) (desk : Download.Assembly) (world : World (Fetches σ))
      (R : World (Fetches σ) → World (Fetches σ) → Prop)
      (strokes : List (Stroke (World (Fetches σ)) Download.Part)) (s : Download.Team (Fetches σ)),
      parts.Nodup →
      State.Toils (Download.craft p source.observed directory) Download.Assembly.desk R
        (.initial parts p.workers desk world) strokes s →
      s.Budgeted (Download.craft p source.observed directory)
        (fun part => part.Keeps p.retry p.accepts) parts strokes) ∧
    (∀ (p : S3.Plan) (service : S3 σ) (u : S3.Upload) (path : String) (parts : List S3.FilePart)
      (desk : S3.Collection) (world : World (S3.Calls σ))
      (R : World (S3.Calls σ) → World (S3.Calls σ) → Prop)
      (strokes : List (Stroke (World (S3.Calls σ)) S3.FilePart))
      (s : State (World (S3.Calls σ)) Files.Entry S3.FilePart S3.Sending (S3.UploadedPart × Nat)
        S3.Collection),
      parts.Nodup → (∀ part ∈ parts, S3.isPartNumber part.number = true) →
      State.Toils (S3.craft p service.observed u path) S3.Collection.desk R
        (.initial parts p.workers desk world) strokes s →
      s.Budgeted (S3.craft p service.observed u path)
        (fun part => part.Keeps u p.retry Error.isRetryable) parts strokes) ∧
    (∀ (p : Download.Plan) (source : RangeSource σ) (destination : String) (w : World (Fetches σ))
      (m : Download.Moment (Fetches σ)),
      Relation.ReflTransGen (Download.Moment.Next p source.observed destination) (.begun w) m →
      (Download.noted m.world).length ≤ (Download.noted w).length + p.most source.observed w) ∧
    (∀ (p : Download.Plan) (source : RangeSource σ) (destination : String) (w w' : World (Fetches σ))
      (result : Except Error DownloadOutput),
      p.download source.observed destination w = some (result, w') →
      (Download.noted w').length ≤ (Download.noted w).length + p.most source.observed w) := by
  refine ⟨fun r accepts source directory part worlds => part.along_keeps r accepts source directory worlds,
    fun r accepts s u file part worlds valid =>
      S3.FilePart.along_keeps s u file r accepts valid worlds,
    fun p source directory parts desk world R strokes s distinct h => ?_,
    fun p service u path parts desk world R strokes s distinct valid h => ?_,
    fun p source destination w m reached => Download.Plan.length_noted_le reached,
    fun p source destination w w' result h => Download.Plan.download_length_noted_le h⟩
  · exact h.budgeted distinct fun part _ _ _ _ stint => Download.Part.keeps_of_stint stint
  · exact h.budgeted distinct fun part hpart _ _ _ stint =>
      S3.FilePart.keeps_of_stint (valid part hpart) stint

def threeTries : ChunkRetry := ⟨3, 250⟩

def tenBytes : Files.Store := Files.Store.empty.edit [.write "f" ⟨#[1, 2, 3, 4, 5, 6, 7, 8, 9, 10]⟩]

/-- Two parts fail at the same time and each of them is tried three times, in a download and in an upload
by two workers; so is a part that is uploaded by itself, and one of a download whose other part comes. -/
theorem failing_parts_have_their_own_budgets :
    (let part := S3.FilePart.ofIndex 10 4 0
    S3.isPartNumber part.number = true ∧ ∃ strokes result,
      along (S3.Sending.proceed silent.observed default) part
          (fun _ => .initial (⟨(), []⟩ : S3.Calls Unit) tenBytes)
          ⟨.file 0, part, threeTries.policy fun _ => true, none⟩ (threeTries.tries + 1) =
        (strokes, .inl result) ∧
      part.Keeps default threeTries (fun _ => true) strokes (.inl result) ∧
      (added S3.called strokes).length = 3) ∧
    (let p : Download.Plan := ⟨4, 2, threeTries, fun _ => true, none⟩
    let parts := Download.Part.split 10 4
    let c := Download.craft p unreachable.observed []
    let s := State.initial parts p.workers ⟨0, 0, .empty, none, none⟩ (.initial ⟨(), []⟩ .empty)
    let t := s.run c Download.Assembly.desk 6
    parts.Nodup ∧ ∃ strokes, State.Toils c Download.Assembly.desk (fun _ _ => False) s strokes t ∧
      t.Budgeted c (fun part => part.Keeps threeTries fun _ => true) parts strokes ∧
      (Download.noted t.world).length = 6) ∧
    (let p : S3.Plan := ⟨4, 2, threeTries, .retain, none⟩
    let parts := (List.range 3).map (S3.FilePart.ofIndex 10 4)
    let c := S3.craft p silent.observed default "f"
    let s := State.initial parts p.workers ⟨[], 0, none⟩ (.initial ⟨(), []⟩ tenBytes)
    let t := s.run c S3.Collection.desk 6
    parts.Nodup ∧ (∀ part ∈ parts, S3.isPartNumber part.number = true) ∧
      ∃ strokes, State.Toils c S3.Collection.desk (fun _ _ => False) s strokes t ∧
        t.Budgeted c (fun part => part.Keeps default threeTries Error.isRetryable) parts strokes ∧
        (S3.called t.world).length = 6) ∧
    (let w := Download.watched (.initial (Download.threeBytes 3) Download.occupied)
    ∃ result w', Relation.ReflTransGen
        (Download.Moment.Next Download.twoWorkers Rehearsal.MemoryObject.source.observed "d")
        (.begun w) (.ended result w') ∧ (Download.noted w').length ≤ 0 + 6) ∧
    (let w := Download.watched (.initial (Download.threeBytes 3) Download.occupied)
    ∃ result w', Download.twoWorkers.download Rehearsal.MemoryObject.source.observed "d" w =
        some (result, w') ∧ (Download.noted w').length ≤ 0 + 6 ∧ (Download.noted w').length = 4) := by
  refine ⟨⟨by decide, ?_⟩, ⟨by decide, ?_⟩, ⟨by decide, by decide, ?_⟩, ?_, ?_⟩
  · obtain ⟨strokes, result, ended, keeps⟩ := parts_have_their_own_budgets.2.1 threeTries
      (fun _ => true) silent default (.file 0) (S3.FilePart.ofIndex 10 4 0)
      (fun _ => .initial ⟨(), []⟩ tenBytes) (by decide)
    have calls : (added S3.called (along (S3.Sending.proceed silent.observed default)
        (S3.FilePart.ofIndex 10 4 0) (fun _ => .initial (⟨(), []⟩ : S3.Calls Unit) tenBytes)
        ⟨.file 0, S3.FilePart.ofIndex 10 4 0, threeTries.policy fun _ => true, none⟩
        (threeTries.tries + 1)).1).length = 3 := by decide +kernel
    rw [ended] at calls
    exact ⟨strokes, result, ended, keeps, calls⟩
  · obtain ⟨past, reached⟩ := State.Reaches.run
      (c := Download.craft ⟨4, 2, threeTries, fun _ => true, none⟩ unreachable.observed [])
      (k := Download.Assembly.desk) (s := .initial (Download.Part.split 10 4) 2
        ⟨0, 0, .empty, none, none⟩ (.initial ⟨(), []⟩ .empty)) .start 6
    obtain ⟨strokes, toils⟩ := reached.toils fun _ _ => False
    exact ⟨strokes, toils, parts_have_their_own_budgets.2.2.1 _ _ _ _ _ _ _ _ _ (by decide) toils,
      by decide +kernel⟩
  · obtain ⟨past, reached⟩ := State.Reaches.run
      (c := S3.craft ⟨4, 2, threeTries, .retain, none⟩ silent.observed default "f")
      (k := S3.Collection.desk) (s := .initial ((List.range 3).map (S3.FilePart.ofIndex 10 4)) 2
        ⟨[], 0, none⟩ (.initial ⟨(), []⟩ tenBytes)) .start 6
    obtain ⟨strokes, toils⟩ := reached.toils fun _ _ => False
    exact ⟨strokes, toils, parts_have_their_own_budgets.2.2.2.1 _ _ _ _ _ _ _ _ _ _ (by decide)
      (by decide) toils, by decide +kernel⟩
  · obtain ⟨result, w', transfer, -⟩ := (Download.threeBytes_given 3).transfer "d"
    have path := Download.Plan.transfer_path transfer
    exact ⟨result, w', path, parts_have_their_own_budgets.2.2.2.2.1 _ _ _ _ _ path⟩
  · obtain ⟨result, w', run, -⟩ := (Download.threeBytes_given 3).download "d"
    have asked : (Download.twoWorkers.download Rehearsal.MemoryObject.source.observed "d"
        (Download.watched (.initial (Download.threeBytes 3) Download.occupied))).map
          (fun r => (Download.noted r.2).length) = some 4 := by decide +kernel
    rw [run] at asked
    exact ⟨result, w', run, parts_have_their_own_budgets.2.2.2.2.2 _ _ _ _ _ _ run,
      Option.some.inj asked⟩

end ObjectTransfer.Crew
