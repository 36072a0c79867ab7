import Mathlib.Tactic.Common
import ObjectTransfer.Progress
/-!
Reports of progress. What buffers lead to is told buffer by buffer; each report carries the total of the
transfer, and reports of a transfer that gets further and further rise with it.
-/
namespace ObjectTransfer.Progress

namespace Tracker
variable {t : Tracker} {ends : List Nat}

theorem foldl_gather (ends : List Nat) (t : Tracker) (newest : List Report) :
    ends.foldl gather (t, newest) =
      ((ends.foldl gather (t, [])).1, (ends.foldl gather (t, [])).2 ++ newest) := by
  induction ends generalizing t newest with
  | nil => rfl
  | cons done ends ih =>
    rw [List.foldl_cons, List.foldl_cons, gather, gather, ih, ih (t.onBuffer done).1 (_ ++ [])]
    simp

theorem onBuffers_cons (t : Tracker) (done : Nat) (ends : List Nat) :
    t.onBuffers (done :: ends) = (((t.onBuffer done).1.onBuffers ends).1,
      (t.onBuffer done).2.toList ++ ((t.onBuffer done).1.onBuffers ends).2) := by
  have report (x : Option Report) : x.toList.reverse = x.toList := by
    cases x with
    | none => rfl
    | some x => rfl
  rw [onBuffers, List.foldl_cons, gather, foldl_gather]
  simp only [List.append_nil, List.reverse_append, report]
  rfl

theorem onBuffers_append (t : Tracker) (ends more : List Nat) :
    t.onBuffers (ends ++ more) = (((t.onBuffers ends).1.onBuffers more).1,
      (t.onBuffers ends).2 ++ ((t.onBuffers ends).1.onBuffers more).2) := by
  induction ends generalizing t with
  | nil => rfl
  | cons done ends ih => simp only [List.cons_append, onBuffers_cons, ih, List.append_assoc]

theorem onBuffers_singleton (t : Tracker) (done : Nat) :
    t.onBuffers [done] = ((t.onBuffer done).1, (t.onBuffer done).2.toList) := by
  rw [onBuffers_cons]
  exact Prod.ext rfl (List.append_nil _)

theorem onBuffer_fst (t : Tracker) (done : Nat) :
    (t.onBuffer done).1.total = t.total ∧ (t.onBuffer done).1.interval = t.interval := by
  unfold onBuffer
  split
  · exact ⟨rfl, rfl⟩
  · exact ⟨rfl, rfl⟩

theorem onBuffer_sublist (t : Tracker) (done : Nat) :
    (t.onBuffer done).2.toList.Sublist [(done, t.total)] := by
  unfold onBuffer
  split
  · exact .refl _
  · exact List.nil_sublist _

theorem onBuffers_fst (t : Tracker) (ends : List Nat) :
    (t.onBuffers ends).1.total = t.total ∧ (t.onBuffers ends).1.interval = t.interval := by
  induction ends generalizing t with
  | nil => exact ⟨rfl, rfl⟩
  | cons done ends ih =>
    rw [onBuffers_cons]
    exact ⟨(ih _).1.trans (t.onBuffer_fst done).1, (ih _).2.trans (t.onBuffer_fst done).2⟩

theorem onBuffers_sublist (t : Tracker) (ends : List Nat) :
    (t.onBuffers ends).2.Sublist (ends.map fun done => (done, t.total)) := by
  induction ends generalizing t with
  | nil => exact .refl _
  | cons done ends ih =>
    have rest := ih (t.onBuffer done).1
    rw [(t.onBuffer_fst done).1] at rest
    rw [onBuffers_cons, List.map_cons, ← List.singleton_append]
    exact (t.onBuffer_sublist done).append rest

theorem onBuffers_of_everyBuffer (every : t.interval = .everyBuffer) :
    (t.onBuffers ends).2 = ends.map fun done => (done, t.total) := by
  induction ends generalizing t with
  | nil => rfl
  | cons done ends ih =>
    have due : (t.onBuffer done).2 = some (done, t.total) := by
      simp [onBuffer, isDue, every]
    obtain ⟨total, interval⟩ := t.onBuffer_fst done
    rw [onBuffers_cons, ih (interval.trans every), due, total]
    rfl

def told (t : Tracker) (ends : List Nat) : List Report :=
  let (t, first) := t.start 0
  let (t, reports) := t.onBuffers ends
  first :: reports ++ [t.finish t.total]

theorem told_tracker (r : Reporter) (total buffer : Nat) (ends : List Nat) :
    (r.tracker total buffer).told ends =
      (0, total) :: ((r.tracker total buffer).onBuffers ends).2 ++ [(total, total)] := by
  have same := ((r.tracker total buffer).onBuffers_fst ends).1
  have last (t : Tracker) (h : t.total = total) : t.finish t.total = (total, total) := by
    rw [finish, h]
  exact congrArg (fun x => (0, total) :: (_ ++ [x])) (last _ same)

theorem run_tracker (r : Reporter) (total buffer size : Nat) :
    ((r.tracker total buffer).run size).2 =
      (0, total) :: ((r.tracker total buffer).onBuffers (Tracker.ends size total)).2 ++
        [(total, total)] :=
  told_tracker r total buffer (Tracker.ends size total)

theorem interval_of_neg {r : Reporter} (neg : r.count < 0) (total buffer : Nat) :
    (r.tracker total buffer).interval = .everyBuffer := by
  have few : ¬ 2 < r.count := by omega
  simp [Reporter.tracker, Reporter.interval, few, neg]

end Tracker

/-- Reports of a transfer of `total` bytes, made while it got from `low` to `high`. -/
structure Climbs (total low high : Nat) (reports : List Report) : Prop where
  total : ∀ x ∈ reports, x.2 = total
  within : ∀ x ∈ reports, low ≤ x.1 ∧ x.1 ≤ high
  rises : reports.Pairwise fun x y => x.1 ≤ y.1

namespace Climbs
variable {total low mid high done : Nat} {reports more : List Report}

theorem nil : Climbs total low high [] := ⟨by simp, by simp, .nil⟩

theorem one (above : low ≤ done) (below : done ≤ high) : Climbs total low high [(done, total)] :=
  ⟨by simp, by simpa using ⟨above, below⟩, List.pairwise_singleton _ _⟩

theorem sublist (climbs : Climbs total low high more) (part : reports.Sublist more) :
    Climbs total low high reports :=
  ⟨fun x mem => climbs.total x (part.subset mem), fun x mem => climbs.within x (part.subset mem),
    climbs.rises.sublist part⟩

theorem append (climbs : Climbs total low mid reports) (goesOn : Climbs total mid high more)
    (first : low ≤ mid) (second : mid ≤ high) : Climbs total low high (reports ++ more) where
  total x mem := (List.mem_append.1 mem).elim (climbs.total x) (goesOn.total x)
  within x mem := by
    rcases List.mem_append.1 mem with mem | mem
    · have bounds := climbs.within x mem
      exact ⟨bounds.1, Nat.le_trans bounds.2 second⟩
    · have bounds := goesOn.within x mem
      exact ⟨Nat.le_trans first bounds.1, bounds.2⟩
  rises := List.pairwise_append.2 ⟨climbs.rises, goesOn.rises, fun x mem y mem' =>
    Nat.le_trans (climbs.within x mem).2 (goesOn.within y mem').1⟩

theorem cons (climbs : Climbs total low high reports) (le : low ≤ high) :
    Climbs total low high ((low, total) :: reports) :=
  (one (Nat.le_refl low) (Nat.le_refl low)).append climbs (Nat.le_refl low) le

theorem getLast?_eq_iff (climbs : Climbs total low high reports) :
    reports.getLast? = some (high, total) ↔ (high, total) ∈ reports := by
  refine ⟨fun last => List.mem_of_getLast? last, fun mem => ?_⟩
  rcases List.eq_nil_or_concat reports with rfl | ⟨front, x, rfl⟩
  · cases mem
  rw [List.concat_eq_append] at climbs mem ⊢
  have here : x ∈ front ++ [x] := by simp
  have above : high ≤ x.1 := by
    rcases List.mem_append.1 mem with mem | mem
    · exact (List.pairwise_append.1 climbs.rises).2.2 _ mem x (List.mem_singleton_self x)
    · exact Nat.le_of_eq (congrArg Prod.fst (List.mem_singleton.1 mem))
  have same : x = (high, total) :=
    Prod.ext (Nat.le_antisymm (climbs.within x here).2 above) (climbs.total x here)
  rw [List.getLast?_concat, same]

end Climbs

/-- Reports of a transfer of `total` bytes from its start to its end. -/
structure Whole (total : Nat) (reports : List Report) : Prop where
  carries : ∀ x ∈ reports, x.2 = total
  first : reports.head? = some (0, total)
  rises : reports.Pairwise fun x y => x.1 ≤ y.1
  last : reports.getLast? = some (total, total)

theorem Climbs.whole {total : Nat} {reports : List Report} (climbs : Climbs total 0 total reports) :
    Whole total ((0, total) :: reports ++ [(total, total)]) := by
  have all := (climbs.cons (Nat.zero_le total)).append
    (.one (Nat.le_refl total) (Nat.le_refl total)) (Nat.zero_le total) (Nat.le_refl total)
  exact ⟨all.total, rfl, all.rises, List.getLast?_concat⟩

theorem climbs_ends (size total : Nat) :
    Climbs total 0 total ((Tracker.ends size total).map fun done => (done, total)) where
  total x mem := by
    obtain ⟨done, -, rfl⟩ := List.mem_map.1 mem
    rfl
  within x mem := by
    obtain ⟨done, among, rfl⟩ := List.mem_map.1 mem
    obtain ⟨i, -, rfl⟩ := List.mem_map.1 among
    exact ⟨Nat.zero_le _, Nat.min_le_right _ _⟩
  rises := by
    rw [List.pairwise_map, Tracker.ends, List.pairwise_map]
    refine List.pairwise_lt_range.imp fun {i j} before => ?_
    have later : (i + 1) * size ≤ (j + 1) * size := Nat.mul_le_mul_right _ (by omega)
    omega

/-- A transfer that moves its buffers in order reports from its start to its end. -/
theorem whole_run (r : Reporter) (total buffer size : Nat) :
    Whole total ((r.tracker total buffer).run size).2 := by
  rw [Tracker.run_tracker]
  exact ((climbs_ends size total).sublist
    ((r.tracker total buffer).onBuffers_sublist _)).whole

theorem run_of_neg {r : Reporter} (neg : r.count < 0) (total buffer size : Nat) :
    ((r.tracker total buffer).run size).2 =
      (0, total) :: ((Tracker.ends size total).map fun done => (done, total)) ++
        [(total, total)] := by
  rw [Tracker.run_tracker, Tracker.onBuffers_of_everyBuffer (Tracker.interval_of_neg neg total buffer)]
  rfl

end ObjectTransfer.Progress
