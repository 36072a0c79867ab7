import ObjectTransfer.Proofs.Crew.Strokes
import ObjectTransfer.Proofs.Download.Moments
import ObjectTransfer.Proofs.Retry.Budget
/-!
The budget of a part that is fetched. Every try asks for the range of the part once, and what comes of
it decides whether another try follows; the tries of a part are told from the strokes at it, whatever
was done for other parts in between. Nothing but these tries asks for a range, so a download asks no
more often than all its parts may be tried.
-/
namespace ObjectTransfer.Download
open Crew Files
variable {σ : Type}

def noted (w : World (Fetches σ)) : List Fetched := w.peer.log

/-- What came of each time that the range of a part was asked for, oldest first. -/
def Part.tries (part : Part) (strokes : List (Stroke (World (Fetches σ)) Part)) :
    List (Except Error ByteArray) := (added noted strokes).map fun f => part.outcome f.result

structure Part.Keeps (part : Part) (r : ChunkRetry) (accepts : Error → Bool)
    (strokes : List (Stroke (World (Fetches σ)) Part)) (x : Except Error Staged ⊕ Fetch) : Prop where
  ranges : ∀ f ∈ added noted strokes, f.range = part.range
  /-- What came of the last try came of the part. -/
  finished : ∀ result, x = .inl result → r.Spent accepts (part.tries strokes) (added World.paused strokes) ∧
    ∃ o, (part.tries strokes).getLast? = some o ∧
      result.map (fun s => (s.index, s.size)) = o.map fun data => (part.index, data.size)
  /-- A try takes two strokes, and after the first one it is not known yet what will come of it. -/
  unfinished : ∀ f, x = .inr f → strokes.length < 2 * r.tries ∧
    ∃ (tried : List (Except Error ByteArray)) (pending : Option (Except Error ByteArray)),
      part.tries strokes = tried ++ pending.toList ∧ r.Spending accepts tried (added World.paused strokes)

variable {source : RangeSource σ} {directory : Path} {p : Plan} {part : Part} {f : Fetch}
  {r : ChunkRetry} {accepts : Error → Bool} {w w' : World (Fetches σ)}
  {strokes : List (Stroke (World (Fetches σ)) Part)} {x : Except Error Staged ⊕ Fetch}

theorem Part.Keeps.length_le (keeps : part.Keeps r accepts strokes x) :
    (added noted strokes).length ≤ r.tries := by
  have length : (part.tries strokes).length = (added noted strokes).length := List.length_map ..
  rw [← length]
  cases x with
  | inl result => exact (keeps.finished result rfl).1.length_le
  | inr f =>
    obtain ⟨-, tried, pending, tries, spending⟩ := keeps.unfinished f rfl
    have before := spending.length_lt
    have last : pending.toList.length ≤ 1 := by cases pending <;> simp
    rw [tries, List.length_append]
    omega

/-- What follows a try of which `o` came, after these notes were made. -/
inductive Fetch.Follows (f : Fetch) (w : World (Fetches σ)) (notes : List Fetched) :
    Except Error ByteArray → (Except Error Staged ⊕ Fetch) × World (Fetches σ) → Prop
  | comes {data : ByteArray} {path : Path} {w' : World (Fetches σ)} (log : noted w' = noted w ++ notes)
      (pauses : w'.paused = w.paused) :
      Follows f w notes (.ok data) (.inl (.ok ⟨f.part.index, data.size, path⟩), w')
  | again {e : Error} {policy : RetryPolicy} {w' : World (Fetches σ)}
      (log : noted w' = noted w ++ notes) (again : f.policy.again? e = some policy)
      (pauses : w'.paused = w.paused ++ [.fixed policy.delay]) :
      Follows f w notes (.error e) (.inr { f with policy, answer := none }, w')
  | fails {e : Error} {w' : World (Fetches σ)} (log : noted w' = noted w ++ notes)
      (last : f.policy.again? e = none) (pauses : w'.paused = w.paused) :
      Follows f w notes (.error e) (.inl (.error e), w')

theorem Fetch.Follows.log {notes : List Fetched} {o : Except Error ByteArray}
    {step : (Except Error Staged ⊕ Fetch) × World (Fetches σ)} (follows : f.Follows w notes o step) :
    noted step.2 = noted w ++ notes := by
  cases follows with
  | comes log pauses => exact log
  | again log again pauses => exact log
  | fails log last pauses => exact log

/-- What one stroke at a part comes to. -/
inductive Fetch.Goes (f : Fetch) (w : World (Fetches σ)) :
    (Except Error Staged ⊕ Fetch) × World (Fetches σ) → Prop
  | refused {e : Error} {step : (Except Error Staged ⊕ Fetch) × World (Fetches σ)}
      (fresh : f.answer = none) (follows : f.Follows w [⟨f.part.range, .error e⟩] (.error e) step) :
      Goes f w step
  | given {body : Http.Body} {path : Path} {id : Nat} {w' : World (Fetches σ)}
      (fresh : f.answer = none) (log : noted w' = noted w ++ [⟨f.part.range, .ok body⟩])
      (pauses : w'.paused = w.paused) :
      Goes f w (.inr { f with answer := some (path, id, body.items) }, w')
  | stores {path : Path} {id : Nat} {items : List (Except Cause ByteArray)}
      {step : (Except Error Staged ⊕ Fetch) × World (Fetches σ)}
      (ready : f.answer = some (path, id, items))
      (follows : ∀ body : Http.Body, body.items = items →
        f.Follows w [] (f.part.outcome (.ok body)) step) : Goes f w step

theorem Fetch.failed_follows (f : Fetch) (e : Error) {v : World (Fetches σ)} {notes : List Fetched}
    (log : noted v = noted w ++ notes) (pauses : v.paused = w.paused) :
    f.Follows w notes (.error e) (f.failed e v) := by
  unfold Fetch.failed
  cases again : f.policy.again? e with
  | none => exact .fails log again pauses
  | some policy =>
    refine .again log again ?_
    rw [World.paused_pauseAll, pauses]

theorem Fetch.store_eq (id : Nat) (items : List (Except Cause ByteArray)) (b : ByteArray)
    (w : World (Fetches σ)) :
    (Fetch.store id items b.size w).1 =
        (match Http.Body.join b items with
        | .ok data => .ok data.size
        | .error cause => .error ⟨.transport, cause⟩) ∧
      noted (Fetch.store id items b.size w).2 = noted w ∧
      (Fetch.store id items b.size w).2.paused = w.paused := by
  induction items generalizing b w with
  | nil => exact ⟨rfl, rfl, rfl⟩
  | cons item items ih =>
    cases item with
    | error cause => exact ⟨rfl, rfl, rfl⟩
    | ok chunk =>
      have later := ih (b ++ chunk) (w.withFiles (w.files.append id chunk))
      rw [ByteArray.size_append] at later
      exact later

theorem Fetch.Goes.log {step : (Except Error Staged ⊕ Fetch) × World (Fetches σ)}
    (goes : f.Goes w step) :
    ∃ notes, noted step.2 = noted w ++ notes ∧ ∀ x ∈ notes, x.range = f.part.range := by
  have mine (result : Except Error Http.Body) :
      ∀ x ∈ [(⟨f.part.range, result⟩ : Fetched)], x.range = f.part.range := by
    intro x hx
    rw [List.mem_singleton.1 hx]
  cases goes with
  | refused fresh follows => exact ⟨_, follows.log, mine _⟩
  | given fresh log pauses => exact ⟨_, log, mine _⟩
  | stores ready follows =>
    rename_i path id items
    exact ⟨[], (follows (.stream items) rfl).log, fun _ hx => (by cases hx)⟩

theorem Fetch.goes (source : RangeSource σ) (directory : Path) (f : Fetch) (w : World (Fetches σ)) :
    f.Goes w (f.proceed source.observed directory w) := by
  obtain ⟨part, policy, answer⟩ := f
  cases answer with
  | none =>
    rcases hadd : w.files.addTemporary directory (".part-" ++ toString part.index ++ "-") with
      ⟨path, id, files⟩
    obtain ⟨result, v, hget, log, pauses⟩ : ∃ result v,
        source.observed.getRange part.range (w.withFiles files) = (result, v) ∧
          noted v = noted w ++ [⟨part.range, result⟩] ∧ v.paused = w.paused :=
      ⟨_, _, rfl, rfl, rfl⟩
    cases result with
    | error e =>
      rw [proceed_refused hadd hget]
      exact .refused rfl (failed_follows _ e (v := v.withFiles (v.files.forget path)) log pauses)
    | ok body =>
      rw [proceed_given hadd hget]
      exact .given (f := ⟨part, policy, none⟩) rfl log pauses
  | some answer =>
    obtain ⟨path, id, items⟩ := answer
    refine .stores rfl fun body given => ?_
    subst given
    obtain ⟨stored, log, pauses⟩ := store_eq id body.items .empty w
    rw [ByteArray.size_empty] at stored log pauses
    rcases hstore : Fetch.store id body.items 0 w with ⟨result, v⟩
    rw [hstore] at stored log pauses
    dsimp only at stored log pauses
    have log : noted v = noted w ++ [] := log.trans (List.append_nil _).symm
    unfold Fetch.proceed Part.outcome
    simp only [hstore, stored]
    cases Http.Body.join .empty body.items with
    | error cause =>
      exact failed_follows _ _ (v := v.withFiles (v.files.forget path)) log pauses
    | ok data =>
      dsimp only
      by_cases size : data.size = part.size
      · rw [if_pos size, if_pos size]
        exact .comes (f := ⟨part, policy, some (path, id, body.items)⟩) log pauses
      · rw [if_neg size, if_neg size]
        exact failed_follows _ _ (v := v.withFiles (v.files.forget path)) log pauses

namespace Part

inductive Stands (part : Part) (r : ChunkRetry) (accepts : Error → Bool)
    (strokes : List (Stroke (World (Fetches σ)) Part)) : Except Error Staged ⊕ Fetch → Prop
  | asking {policy : RetryPolicy}
      (remains : policy.Remains r accepts (part.tries strokes) (added World.paused strokes))
      (brief : strokes.length ≤ 2 * (part.tries strokes).length) :
      Stands part r accepts strokes (.inr ⟨part, policy, none⟩)
  | answered {policy : RetryPolicy} {earlier : List (Except Error ByteArray)} {body : Http.Body}
      {path : Path} {id : Nat} (tries : part.tries strokes = earlier ++ [part.outcome (.ok body)])
      (remains : policy.Remains r accepts earlier (added World.paused strokes))
      (brief : strokes.length ≤ 2 * earlier.length + 1) :
      Stands part r accepts strokes (.inr ⟨part, policy, some (path, id, body.items)⟩)
  | ended {earlier : List (Except Error ByteArray)} {o : Except Error ByteArray}
      {result : Except Error Staged} (tries : part.tries strokes = earlier ++ [o])
      (spent : r.Spent accepts (part.tries strokes) (added World.paused strokes))
      (same : result.map (fun s => (s.index, s.size)) = o.map fun data => (part.index, data.size)) :
      Stands part r accepts strokes (.inl result)

theorem Stands.keeps (stands : part.Stands r accepts strokes x)
    (ranges : ∀ f ∈ added noted strokes, f.range = part.range) : part.Keeps r accepts strokes x where
  ranges := ranges
  finished result ends := by
    cases stands with
    | asking remains brief => cases ends
    | answered tries remains brief => cases ends
    | ended tries spent same =>
      cases ends
      exact ⟨spent, _, by rw [tries, List.getLast?_concat], same⟩
  unfinished f goesOn := by
    cases stands with
    | asking remains brief =>
      have within := remains.spending.length_lt
      exact ⟨by omega, _, none, (List.append_nil _).symm, remains.spending⟩
    | answered tries remains brief =>
      have within := remains.spending.length_lt
      exact ⟨by omega, _, some _, tries, remains.spending⟩
    | ended tries spent same => cases goesOn

/-- A try that has ended leaves the part as its outcome says. -/
theorem stands_of_follows {earlier : List (Except Error ByteArray)} {o : Except Error ByteArray}
    {policy : RetryPolicy} {answer : Option (Path × Nat × List (Except Cause ByteArray))}
    {notes : List Fetched} {step : (Except Error Staged ⊕ Fetch) × World (Fetches σ)}
    (follows : Fetch.Follows ⟨part, policy, answer⟩ w notes o step)
    (remains : policy.Remains r accepts earlier (added World.paused strokes))
    (tries : part.tries (strokes ++ [⟨part, w, step.2⟩]) = earlier ++ [o])
    (brief : strokes.length ≤ 2 * earlier.length + 1) :
    part.Stands r accepts (strokes ++ [⟨part, w, step.2⟩]) step.1 := by
  cases follows with
  | comes log pauses =>
    refine .ended tries ?_ rfl
    rw [tries, added_snoc strokes part (pauses.trans (List.append_nil _).symm), List.append_nil]
    exact remains.succeeds _
  | again log again pauses =>
    refine .asking ?_ ?_
    · rw [tries, added_snoc strokes part pauses]
      exact remains.again again
    · rw [tries, List.length_append, List.length_append, List.length_singleton, List.length_singleton]
      omega
  | fails log last pauses =>
    refine .ended tries ?_ rfl
    rw [tries, added_snoc strokes part (pauses.trans (List.append_nil _).symm), List.append_nil]
    exact remains.fails last

theorem tries_snoc (part : Part) (strokes : List (Stroke (World (Fetches σ)) Part))
    {notes : List Fetched} (log : noted w' = noted w ++ notes) :
    part.tries (strokes ++ [⟨part, w, w'⟩]) =
      part.tries strokes ++ notes.map fun f => part.outcome f.result := by
  rw [tries, tries, added_snoc strokes part log, List.map_append]

theorem Stands.part_eq (stands : part.Stands r accepts strokes (.inr f)) : f.part = part := by
  cases stands with
  | asking remains brief => rfl
  | answered tries remains brief => rfl

theorem Stands.goes (stands : part.Stands r accepts strokes (.inr f))
    {step : (Except Error Staged ⊕ Fetch) × World (Fetches σ)} (goes : f.Goes w step) :
    part.Stands r accepts (strokes ++ [⟨part, w, step.2⟩]) step.1 := by
  cases stands with
  | asking remains brief =>
    cases goes with
    | refused fresh follows =>
      exact stands_of_follows follows remains (tries_snoc part strokes follows.log) (by omega)
    | given fresh log pauses =>
      refine .answered (tries_snoc part strokes log) ?_ ?_
      · rw [added_snoc strokes part (pauses.trans (List.append_nil _).symm), List.append_nil]
        exact remains
      · rw [List.length_append, List.length_singleton]
        omega
    | stores ready follows => cases ready
  | answered tries remains brief =>
    cases goes with
    | refused fresh follows => cases fresh
    | given fresh log pauses => cases fresh
    | stores ready follows =>
      cases ready
      have follows := follows _ rfl
      refine stands_of_follows follows remains ?_ brief
      rw [tries_snoc part strokes follows.log, List.map_nil, List.append_nil]
      exact tries

theorem keeps_of_stint (h : Stint (Fetch.proceed source.observed directory) part
    ⟨part, r.policy accepts, none⟩ strokes x) : part.Keeps r accepts strokes x := by
  have along : part.Stands r accepts strokes x ∧ ∀ f ∈ added noted strokes, f.range = part.range := by
    induction h with
    | begun =>
      exact ⟨.asking (RetryPolicy.remains_policy r accepts) (Nat.zero_le _), fun _ h => (by cases h)⟩
    | goes before w ih =>
      rename_i strokes f
      obtain ⟨stands, ranges⟩ := ih
      have goes := Fetch.goes source directory f w
      obtain ⟨notes, log, mine⟩ := goes.log
      refine ⟨stands.goes goes, fun g hg => ?_⟩
      rw [added_snoc strokes part log] at hg
      rcases List.mem_append.1 hg with hg | hg
      · exact ranges g hg
      · exact stands.part_eq ▸ mine g hg
  exact along.1.keeps along.2

theorem along_keeps (part : Part) (r : ChunkRetry) (accepts : Error → Bool) (source : RangeSource σ)
    (directory : Path) (worlds : Nat → World (Fetches σ)) :
    ∃ strokes result, along (Fetch.proceed source.observed directory) part worlds
        ⟨part, r.policy accepts, none⟩ (2 * r.tries) = (strokes, .inl result) ∧
      part.Keeps r accepts strokes (.inl result) :=
  along_ends (fun _ _ stint => keeps_of_stint stint)
    (fun _ f keeps => (keeps.unfinished f rfl).1) worlds

end Part

section
variable {parts : List Part} {workers : Nat} {a : Assembly} {s : Team (Fetches σ)}
  {past : List (Event Part)} {destination : String}

theorem noted_of_file {desk : Assembly} {result : Except Error Assembly}
    (h : desk.file w = some (result, w')) : noted w' = noted w := by
  unfold Assembly.file at h
  split at h
  · rename_i part id copied appending
    dsimp only at h
    split at h
    · obtain ⟨destination, written, waiting, appended, progress⟩ := desk
      cases progress with
      | none =>
        cases h
        rfl
      | some t =>
        cases h
        rfl
    · split at h
      · cases h
        rfl
      · cases h
        rfl
  · split at h
    · cases h
    · split at h
      · cases h
        rfl
      · cases h
        rfl

theorem quiet (p : Plan) (source : RangeSource σ) (directory : Path) :
    Crew.State.Quiet (craft p source.observed directory) Assembly.desk
      (noted : World (Fetches σ) → List Fetched) where
  prepare _ := rfl
  proceed f w := by
    obtain ⟨notes, log, -⟩ := (Fetch.goes source directory f w).log
    exact ⟨notes, log.symm⟩
  abandon f w := by
    obtain ⟨part, policy, answer⟩ := f
    cases answer with
    | none => rfl
    | some answer => rfl
  discard _ _ := rfl
  accept _ _ _ := rfl
  file h := noted_of_file h
  drop _ _ := rfl

theorem length_noted_le (distinct : parts.Nodup)
    (h : Crew.State.Reaches (craft p source.observed directory) Assembly.desk
      (.initial parts workers a w) past s) :
    (noted s.world).length ≤ (noted w).length + parts.length * p.retry.tries := by
  obtain ⟨strokes, toils⟩ := h.toils fun _ _ => False
  have grown := toils.added (quiet p source directory) fun _ _ none => none.elim
  have budgeted := toils.budgeted distinct fun part _ _ _ _ stint => Part.keeps_of_stint stint
  have few (part : Part) (hpart : part ∈ parts) :
      (added noted (strokesAt part strokes)).length ≤ p.retry.tries := by
    rcases budgeted.each part hpart with none | ⟨x, keeps⟩
    · rw [none]
      exact Nat.zero_le _
    · exact keeps.length_le
  rw [grown, List.length_append]
  exact Nat.add_le_add_left (length_added_le noted parts budgeted.known few) _

end

def Moment.world : Moment σ → World σ
  | .begun w | .ended _ w => w
  | .fetching _ _ crew => crew.world

/-- The most tries of all parts together; what cannot be inspected has no parts. -/
def Plan.most (p : Plan) (source : RangeSource σ) (w : World σ) : Nat :=
  match (source.objectMeta w).1 with
  | .ok object => (Part.split object.size p.partSize).length * p.retry.tries
  | .error _ => 0

/-- A download that has asked for no more than its parts may be tried. -/
inductive Sparing (p : Plan) (source : RangeSource σ) (w : World (Fetches σ)) :
    Moment (Fetches σ) → Prop
  | begun : Sparing p source w (.begun w)
  | fetching {object : ObjectMeta} {directory : Path} {id : Nat} {progress : Option Progress.Tracker}
      {v : World (Fetches σ)} {past : List (Event Part)} {crew : Team (Fetches σ)}
      (known : (source.observed.objectMeta w).1 = .ok object) (unasked : noted v = noted w)
      (reached : Crew.State.Reaches (craft p source.observed directory) Assembly.desk
        (p.staff object.size id progress v) past crew) :
      Sparing p source w (.fetching object directory crew)
  | ended {result : Except Error DownloadOutput} {v : World (Fetches σ)}
      (few : (noted v).length ≤ (noted w).length + p.most source.observed w) :
      Sparing p source w (.ended result v)

namespace Sparing
variable {m n : Moment (Fetches σ)} {destination : String} {result : Except Error DownloadOutput}

theorem length_le (sparing : Sparing p source w m) :
    (noted m.world).length ≤ (noted w).length + p.most source.observed w := by
  cases sparing with
  | begun => exact Nat.le_add_right _ _
  | ended few => exact few
  | fetching known unasked reached =>
    rename_i object directory id progress v past crew
    have few := length_noted_le (Part.split_nodup _ _) reached
    have most : p.most source.observed w =
        (Part.split object.size p.partSize).length * p.retry.tries := by
      simp only [Plan.most, known]
    rw [most, ← unasked]
    exact few

theorem opens (p : Plan) (source : RangeSource σ) (destination : String) (w : World (Fetches σ)) :
    Sparing p source w (p.opened source.observed destination w) := by
  have unasked : noted (source.observed.objectMeta w).2 = noted w := rfl
  have few {v : World (Fetches σ)} (same : noted v = noted w) :
      (noted v).length ≤ (noted w).length + p.most source.observed w := by
    rw [same]
    exact Nat.le_add_right _ _
  unfold Plan.opened
  rcases asked : source.observed.objectMeta w with ⟨inspected, v⟩
  have known : (source.observed.objectMeta w).1 = inspected := by rw [asked]
  rw [asked] at unasked
  cases inspected with
  | error e => exact .ended (few unasked)
  | ok object =>
    dsimp only
    split
    · exact .ended (few unasked)
    · split
      · exact .ended (few unasked)
      · refine .fetching known ?_ .start
        exact unasked

theorem noted_closed (p : Plan) (destination : String) (object : ObjectMeta)
    (v : World (Fetches σ)) (result : Except Error Assembly) :
    noted (p.closed destination object v result).2 = noted v := by
  cases result with
  | ok assembly => rfl
  | error e =>
    change noted (Plan.removeDestination destination v) = _
    unfold Plan.removeDestination
    cases v.files.remove destination with
    | ok files => rfl
    | error fault => rfl

theorem next (sparing : Sparing p source w m)
    (next : Moment.Next p source.observed destination m n) : Sparing p source w n := by
  cases next with
  | opens =>
    cases sparing with
    | begun => exact opens p source destination w
  | moves step =>
    cases sparing with
    | fetching known unasked reached => exact .fetching known unasked (reached.step step)
  | closes returned =>
    have few := sparing.length_le
    refine .ended ?_
    rw [noted_closed]
    exact few

end Sparing

namespace Plan

/-- Whoever moves next, a download asks for no more ranges than its parts may be tried. -/
theorem length_noted_le {m : Moment (Fetches σ)} {destination : String}
    (reached : Relation.ReflTransGen (Moment.Next p source.observed destination) (.begun w) m) :
    (noted m.world).length ≤ (noted w).length + p.most source.observed w := by
  have sparing : Sparing p source w m := by
    induction reached with
    | refl => exact .begun
    | tail before next ih => exact ih.next next
  exact sparing.length_le

theorem download_length_noted_le {destination : String} {result : Except Error DownloadOutput}
    (h : p.download source.observed destination w = some (result, w')) :
    (noted w').length ≤ (noted w).length + p.most source.observed w := by
  obtain ⟨⟨result, v⟩, transfer, counted⟩ := Option.map_eq_some_iff.1 h
  cases counted
  exact length_noted_le (transfer_path transfer)

end Plan

end ObjectTransfer.Download
