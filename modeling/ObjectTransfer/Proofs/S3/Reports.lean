import Mathlib.Algebra.GroupWithZero.Nat
import ObjectTransfer.Proofs.Progress
import ObjectTransfer.Proofs.S3.Keeping
/-!
Progress reports of an upload in parts. What is counted is the parts that the coordinator has received, in
whatever order they were stored. So the reports rise, and when every part was received the count is the
size of the file.
-/
namespace ObjectTransfer.S3
open Crew Files Progress

theorem FilePart.sum_length (size partSize n : Nat) :
    (((List.range n).map (ofIndex size partSize)).map length).sum = min (n * partSize) size := by
  induction n with
  | zero => simp
  | succ n ih =>
    rw [List.range_succ, List.map_append, List.map_append, List.sum_append, ih, Nat.succ_mul]
    simp only [List.map_cons, List.map_nil, List.sum_cons, List.sum_nil, ofIndex]
    omega

theorem FilePart.sum_split {size partSize : Nat} {parts : List FilePart} (hp : 0 < partSize)
    (split : split size partSize = .ok parts) : (parts.map length).sum = size := by
  have covered := size_le_count_mul hp size
  rw [(split_eq split).1, sum_length]
  omega

theorem Sending.length_of_proceed {σ : Type} {s : S3 σ} {u : Upload} {t : Sending} {w w' : World σ}
    {made : UploadedPart × Nat} (proceed : t.proceed s u w = (.inl (.ok made), w')) :
    made.2 = t.part.length := by
  unfold Sending.proceed at proceed
  split at proceed
  · split at proceed
    · cases proceed
    · cases proceed
  · split at proceed
    · cases proceed
      rfl
    · split at proceed
      · cases proceed
      · cases proceed

theorem Sending.part_of_proceed {σ : Type} {s : S3 σ} {u : Upload} {t t' : Sending} {w w' : World σ}
    (proceed : t.proceed s u w = (.inr t', w')) : t'.part = t.part := by
  unfold Sending.proceed at proceed
  split at proceed
  · split at proceed
    · cases proceed
    · cases proceed
      rfl
  · split at proceed
    · cases proceed
    · split at proceed
      · cases proceed
        rfl
      · cases proceed

/-- This many bytes are counted, and reports since `base` have risen with them. -/
structure Counts (total : Nat) (base : Array Report) (sent : Nat) (d : Collection)
    (reports : Array Report) : Prop where
  count : d.sent = sent
  climbs : ∃ t new, d.progress = some t ∧ t.total = total ∧ reports = base ++ new.toArray ∧
    Climbs total 0 sent new

/-- The parts that were received are counted, and the others come with their lengths. -/
structure Counted {σ : Type} (total : Nat) (base : Array Report) (parts : List FilePart)
    (v : View (World σ) FilePart Sending (UploadedPart × Nat) Collection) : Prop where
  lengths : ∀ part made, .packed ⟨part, .ok made⟩ ∈ v.holdings →
    ∃ whole, part = some whole ∧ made.2 = whole.length
  collecting : ∀ d, v.outlook = .collecting d →
    Counts total base ((receivedOf v.holdings).map FilePart.length).sum d v.world.reports
  complete : ∀ d, v.outlook = .complete d →
    Counts total base (parts.map FilePart.length).sum d v.world.reports

section
variable {σ : Type} {total : Nat} {base : Array Report} {parts : List FilePart}
  {held held' : List (Holding FilePart Sending (UploadedPart × Nat))} {o : Outlook Collection}
  {w w' : World σ} {p : Plan} {s : S3 σ} {u : Upload} {path : String} {Q : Store → Prop}
  {d : Collection} {sent : Nat} {reports : Array Report} {part : FilePart} {made : UploadedPart × Nat}

theorem Counts.accept (counts : Counts total base sent d w.reports) (made : UploadedPart × Nat) :
    Counts total base (sent + made.2) (d.accept made w).1 (d.accept made w).2.reports := by
  obtain ⟨stored, sent, progress⟩ := d
  obtain ⟨rfl, t, new, rfl, carries, reports, climbs⟩ := counts
  have further : sent ≤ sent + made.2 := Nat.le_add_right _ _
  have one : Climbs total sent (sent + made.2) (t.onBuffer (sent + made.2)).2.toList :=
    (Climbs.one further (Nat.le_refl _)).sublist (carries ▸ t.onBuffer_sublist _)
  refine ⟨rfl, _, _, rfl, (t.onBuffer_fst _).1.trans carries, ?_,
    climbs.append one (Nat.zero_le _) further⟩
  rw [← List.append_toArray, ← Array.append_assoc, ← reports]
  rfl

theorem Counted.listed (perm : held.Perm held') (counted : Counted total base parts ⟨held, o, w⟩) :
    Counted total base parts ⟨held', o, w⟩ where
  lengths part made here := counted.lengths part made (perm.mem_iff.2 here)
  collecting d hd := by
    have received : (receivedOf held).Perm (receivedOf held') := perm.filterMap _
    exact (received.map FilePart.length).sum_nat ▸ counted.collecting d hd
  complete := counted.complete

theorem Counted.unheard (counted : Counted total base parts ⟨held, o, w⟩)
    (lengths : ∀ part made, .packed ⟨part, .ok made⟩ ∈ held' → .packed ⟨part, .ok made⟩ ∈ held ∨
      ∃ whole, part = some whole ∧ made.2 = whole.length)
    (received : receivedOf held' = receivedOf held) (reports : w'.reports = w.reports) :
    Counted total base parts ⟨held', o, w'⟩ where
  lengths part made here := (lengths part made here).elim (counted.lengths part made) id
  collecting d hd := by
    dsimp only
    rw [received, reports]
    exact counted.collecting d hd
  complete d hd := by
    dsimp only
    rw [reports]
    exact counted.complete d hd

theorem Counted.lost (counted : Counted total base parts ⟨held, o, w⟩) (e : Error)
    (fewer : ∀ part made, .packed ⟨part, .ok made⟩ ∈ held' → .packed ⟨part, .ok made⟩ ∈ held) :
    Counted total base parts ⟨held', .lost e, w'⟩ :=
  ⟨fun part made here => counted.lengths part made (fewer part made here),
    fun _ h => (by cases h), fun _ h => (by cases h)⟩

theorem Counted.accepts {part : Option FilePart}
    (counted : Counted total base parts ⟨.packed ⟨part, .ok made⟩ :: held, .collecting d, w⟩) :
    Counted total base parts ⟨part.toList.map .received ++ held, .collecting (d.accept made w).1,
      (d.accept made w).2⟩ := by
  obtain ⟨whole, rfl, length⟩ := counted.lengths part made List.mem_cons_self
  have counts := (counted.collecting d rfl).accept made
  refine ⟨fun part made here => ?_, fun d' hd => ?_, fun _ h => (by cases h)⟩
  · rcases List.mem_cons.1 here with same | here
    · cases same
    · exact counted.lengths part made (.tail _ here)
  · cases hd
    rw [length, Nat.add_comm] at counts
    exact counts

theorem Counted.closes (partless : ∀ h ∈ held, ∃ result, h = .packed ⟨none, result⟩)
    (counted : Counted total base parts ⟨parts.map .received ++ held, .collecting d, w⟩) :
    Counted total base parts ⟨parts.map .received ++ held, .complete d, w⟩ := by
  refine ⟨counted.lengths, fun _ h => (by cases h), fun d' hd => ?_⟩
  cases hd
  have counts := counted.collecting d rfl
  dsimp only at counts
  rwa [receivedOf_map parts held partless] at counts

theorem upkeep_counted (p : Plan) (s : S3 σ) (u : Upload) (path : String) (Q : Store → Prop)
    (parts : List FilePart) (total : Nat) (base : Array Report) :
    Upkeep (craft p s u path) Collection.desk (fun w w' => ∃ files, Q files ∧ w' = w.withFiles files)
      parts (Counted total base parts) (fun _ => True) (fun part t => t.part = part) where
  listed := Counted.listed
  disturbed := by
    rintro held o w w' ⟨files, -, rfl⟩ counted
    exact counted.unheard (fun _ _ here => .inl here) rfl rfl
  prepares _ _ := trivial
  begins _ _ := rfl
  proceeds _ _ same proceed := (Sending.part_of_proceed proceed).trans same
  changed := by
    intro v v' change prepared counted
    have worked {t : Sending} {result : Except Error (UploadedPart × Nat) ⊕ Sending} {w w' : World σ}
        (proceed : t.proceed s u w = (result, w')) : w'.reports = w.reports := by
      have same := (steady_reports w.reports).proceed (s := s) (u := u) t rfl
      rwa [proceed] at same
    cases change with
    | rests => exact counted
    | arrives prepare =>
      have same := congrArg Prod.snd prepare
      cases same
      exact counted
    | stumbles prepare =>
      have same := congrArg Prod.snd prepare
      cases same
      refine counted.unheard (fun part made here => ?_) rfl rfl
      rcases List.mem_cons.1 here with same | here
      · cases same
      · exact .inl here
    | takes tool part held o w =>
      refine counted.unheard (fun part made here => ?_) rfl rfl
      rcases List.mem_cons.1 here with same | here
      · cases same
      · exact .inl (.tail _ here)
    | proceeds proceed =>
      refine counted.unheard (fun part made here => ?_) rfl (worked proceed)
      rcases List.mem_cons.1 here with same | here
      · cases same
      · exact .inl (.tail _ here)
    | finishes proceed =>
      rename_i result
      refine counted.unheard (fun part made here => ?_) rfl (worked proceed)
      rcases List.mem_cons.1 here with same | here
      · cases result with
        | error e => cases same
        | ok made =>
          cases same
          exact .inr ⟨_, rfl, (Sending.length_of_proceed proceed).trans
            (congrArg FilePart.length (prepared List.mem_cons_self))⟩
      · exact .inl (.tail _ here)
    | abandons part t held e w => exact counted.lost e fun _ _ here => .tail _ here
    | drops parcel held e w => exact counted.lost e fun _ _ here => .tail _ here
    | accepts part made held idle => exact counted.accepts
    | hears part e held idle =>
      refine counted.lost e fun part made here => ?_
      rcases List.mem_append.1 here with received | here
      · obtain ⟨_, -, same⟩ := List.mem_map.1 received
        cases same
      · exact .tail _ here
    | files held file => cases file
    | misfiles held file => cases file
    | closes idle rest => exact counted.closes rest

end

/-- What is known at a moment of an upload of which someone wants to hear. -/
inductive Tracks {σ : Type} (p : Plan) (r : Reporter) (s : S3 σ) (path : String) (Q : Store → Prop)
    (w : World σ) : List (Parcel FilePart (UploadedPart × Nat)) → Moment σ → Prop
  | begun : Tracks p r s path Q w [] (.begun w)
  | uploading {u : Upload} {size : Nat} {parts : List FilePart} {v : World σ}
      {heard : List (Parcel FilePart (UploadedPart × Nat))} {crew : Team σ}
      (large : minUploadPart ≤ p.partSize) (split : FilePart.split size p.partSize = .ok parts)
      (unheard : v.reports = w.reports)
      (works : State.Works (craft p s u path) Collection.desk
        (fun w w' => ∃ files, Q files ∧ w' = w.withFiles files) (p.staff parts size v) heard crew) :
      Tracks p r s path Q w heard (.uploading u size crew)
  | failed (heard : List (Parcel FilePart (UploadedPart × Nat))) (e : Error) (w' : World σ) :
      Tracks p r s path Q w heard (.ended (.error e) w')
  | done {completed : Completed} {size : Nat} {w' : World σ}
      {heard : List (Parcel FilePart (UploadedPart × Nat))} {new : List Report}
      (reports : w'.reports = w.reports ++ new.toArray) (whole : Whole size new) :
      Tracks p r s path Q w heard (.ended (.ok (completed, size)) w')

section
variable {σ : Type} {p : Plan} {r : Reporter} {s : S3 σ} {path : String} {d : Description}
  {Q : Store → Prop} {w w' : World σ} {m n : Moment σ} {size : Nat} {u : Upload}
  {parts : List FilePart} {heard more : List (Parcel FilePart (UploadedPart × Nat))} {crew : Team σ}

theorem Plan.staff_eq (wanted : p.progress = some r) (parts : List FilePart) (size : Nat)
    (v : World σ) : p.staff parts size v = .initial parts p.workers
      ⟨[], 0, some (r.tracker size p.partSize)⟩ (v.report [(0, size)]) := by
  rw [staff, wanted]
  rfl

/-- When every part was received, the reports are those of the whole file but for its end. -/
theorem climbs_of_returned {v : World σ} {collection : Collection} (workers : 0 < p.workers)
    (wanted : p.progress = some r) (large : minUploadPart ≤ p.partSize)
    (split : FilePart.split size p.partSize = .ok parts)
    (works : State.Works (craft p s u path) Collection.desk
      (fun w w' => ∃ files, Q files ∧ w' = w.withFiles files) (p.staff parts size v) heard crew)
    (returned : crew.phase = .returned (.ok collection)) :
    Counts size (v.reports ++ #[(0, size)]) size collection crew.world.reports := by
  -- the crew counts from the report of the start on
  have some : 0 < min p.workers parts.length := by
    rw [(FilePart.split_eq split).1, List.length_map, List.length_range]
    exact Nat.lt_min.2 ⟨workers, FilePart.count_pos size p.partSize⟩
  rw [p.staff_eq wanted] at works
  have start : Counted size (v.reports ++ #[(0, size)]) parts ⟨parts.map .queued,
      .collecting ⟨[], 0, .some (r.tracker size p.partSize)⟩, v.report [(0, size)]⟩ := by
    refine ⟨fun part made here => ?_, fun d hd => ?_, fun _ h => (by cases h)⟩
    · obtain ⟨_, -, same⟩ := List.mem_map.1 here
      cases same
    · cases hd
      have none : receivedOf (parts.map .queued) = [] := by
        refine List.filterMap_eq_nil_iff.2 fun h hh => ?_
        obtain ⟨part, -, rfl⟩ := List.mem_map.1 hh
        rfl
      dsimp only
      rw [none]
      exact ⟨rfl, _, [], rfl, rfl, Array.append_empty.symm, .nil⟩
  have counted := (works.holds (upkeep_counted p s u path Q parts size _) some start).1
  have counts := counted.complete collection (by rw [Crew.State.view, returned]; rfl)
  rwa [FilePart.sum_split (Nat.lt_of_lt_of_le (by decide) large) split] at counts

theorem Counts.whole {base : Array Report} {collection : Collection}
    (counts : Counts size (base ++ #[(0, size)]) size collection w.reports) :
    ∃ new, (w.report (collection.progress.map fun t => t.finish collection.sent).toList).reports =
      base ++ new.toArray ∧ Whole size new := by
  obtain ⟨count, t, new, tracker, carries, reports, climbs⟩ := counts
  refine ⟨_, ?_, climbs.whole⟩
  change w.reports ++ _ = _
  rw [reports, tracker, count]
  have last : t.finish size = (size, size) := congrArg (Prod.mk size) carries
  simp [last]

theorem Tracks.opens (d : Description) (w : World σ) :
    Tracks p r s path Q w [] (p.opened s path d w) := by
  have opens := p.opens s path d w
  generalize p.opened s path d w = m at opens ⊢
  cases opens with
  | refused e => exact .failed [] e w
  | uninitiated asked => exact .failed [] _ _
  | uploads large measured split asked =>
    have unheard := (steady_reports w.reports).initiate (s := s) d rfl
    rw [asked] at unheard
    exact .uploading large split unheard .start

theorem Tracks.closes (workers : 0 < p.workers) (wanted : p.progress = some r)
    (tracks : Tracks p r s path Q w heard (.uploading u size crew))
    {result : Except Error Collection} (returned : crew.phase = .returned result) :
    Tracks p r s path Q w heard (.ended (p.closed s u size crew.world result).1
      (p.closed s u size crew.world result).2) := by
  cases tracks with
  | uploading large split unheard works =>
    cases result with
    | error e => exact .failed heard _ _
    | ok collection =>
      obtain ⟨new, reports, whole⟩ :=
        (climbs_of_returned workers wanted large split works returned).whole
      have after := (steady_reports _).complete (s := s) (u := u) collection.parts reports
      unfold Plan.closed
      dsimp only
      generalize s.complete u collection.parts _ = answer at after ⊢
      obtain ⟨result, v⟩ := answer
      cases result with
      | error e => exact .failed heard _ _
      | ok completed => exact .done (unheard ▸ after) whole

theorem Moment.Comes.tracks (comes : Moment.Comes p s path d Q w heard m) (workers : 0 < p.workers)
    (wanted : p.progress = some r) : Tracks p r s path Q w heard m := by
  induction comes with
  | start => exact .begun
  | next before next ih =>
    cases next with
    | opens =>
      cases ih with
      | begun => exact .opens d w
    | moves step =>
      cases ih with
      | uploading large split unheard works =>
        exact .uploading large split unheard (works.moves step)
    | disturbed q =>
      rw [List.append_nil]
      cases ih with
      | uploading large split unheard works =>
        exact .uploading large split unheard (works.disturbed ⟨_, q, rfl⟩)
    | closes returned =>
      rw [List.append_nil]
      exact ih.closes workers wanted returned

end

end ObjectTransfer.S3
