import Mathlib.Tactic.Common
import ObjectTransfer.Http.ByteRange
import ObjectTransfer.Proofs.Http.Body
import ObjectTransfer.Proofs.Http.Grammar
import ObjectTransfer.Proofs.Source
/-!
What a range selects. A range is a condition on the positions of an object; the bytes that are cut out for
it are those at the positions where it holds, and nothing is cut out when there is no such position.
-/
namespace ObjectTransfer.Http

namespace ByteRange

def selects (r : ByteRange) (size position : Nat) : Bool :=
  match r with
  | .inclusive start stop => start ≤ position && position ≤ stop
  | .allFrom start => start ≤ position
  | .last count => size ≤ position + count

/-- The bytes at the positions that the range means, in order. -/
def selected (r : ByteRange) (data : ByteArray) : List UInt8 :=
  (data.data.toList.zipIdx.filter fun x => r.selects data.size x.2).map (·.1)

theorem filter_zipIdx {α : Type} (xs : List α) (k first stop : Nat) :
    ((xs.zipIdx k).filter fun x => first ≤ x.2 && x.2 < stop).map (·.1) =
      (xs.take (stop - k)).drop (first - k) := by
  induction xs generalizing k with
  | nil => simp
  | cons x xs ih =>
    rw [List.zipIdx_cons, List.filter_cons]
    by_cases below : stop ≤ k
    · have none : stop - k = 0 ∧ stop - (k + 1) = 0 := by omega
      have out : ¬ k < stop := by omega
      rw [if_neg (by simp [out]), ih, none.1, none.2]
      simp
    · have some : stop - k = stop - (k + 1) + 1 := by omega
      have within : k < stop := by omega
      rw [some, List.take_succ_cons]
      by_cases early : k < first
      · have later : first - k = first - (k + 1) + 1 := by omega
        rw [if_neg (by simp; omega), ih, later, List.drop_succ_cons]
      · have now : first - k = 0 ∧ first - (k + 1) = 0 := by omega
        rw [if_pos (by simp [within]; omega), List.map_cons, ih, now.1, now.2]
        rfl

theorem toList_extract (data : ByteArray) (first stop : Nat) :
    (data.extract first stop).data.toList = (data.data.toList.take stop).drop first := by
  rw [ByteArray.data_extract, Array.toList_extract, List.extract_eq_take_drop, List.drop_take]

theorem selected_eq {r : ByteRange} {data : ByteArray} {first stop : Nat}
    (means : ∀ i < data.size, r.selects data.size i = (decide (first ≤ i) && decide (i < stop))) :
    r.selected data = (data.extract first stop).data.toList := by
  have same : data.data.toList.zipIdx.filter (fun x => r.selects data.size x.2) =
      data.data.toList.zipIdx.filter fun x => first ≤ x.2 && x.2 < stop := by
    refine List.filter_congr fun x mem => means x.2 ?_
    have below := (List.mem_zipIdx mem).2.1
    rw [Array.length_toList, Nat.zero_add] at below
    exact below
  rw [selected, same, filter_zipIdx, toList_extract]
  rfl

theorem slice?_eq {r : ByteRange} (ordered : r.Ordered) (data : ByteArray) :
    r.slice? data =
      if r.selected data = [] then none else some ⟨(r.selected data).toArray⟩ := by
  have cut {first stop : Nat} (least : first < data.size → first < stop)
      (means : ∀ i < data.size, r.selects data.size i = (decide (first ≤ i) && decide (i < stop))) :
      (if first < data.size then some (data.extract first stop) else none) =
        if r.selected data = [] then none else some ⟨(r.selected data).toArray⟩ := by
    rw [selected_eq means, Array.toArray_toList]
    have size : (data.extract first stop).data.toList.length = min stop data.size - first := by
      rw [Array.length_toList, ← ByteArray.size, ByteArray.size_extract]
    by_cases begins : first < data.size
    · have some := least begins
      rw [if_pos begins, if_neg fun empty => ?_]
      rw [empty, List.length_nil] at size
      omega
    · have none : (data.extract first stop).data.toList = [] :=
        List.eq_nil_of_length_eq_zero (by omega)
      rw [if_neg begins, if_pos none]
  cases r with
  | inclusive start stop =>
    have ordered : start ≤ stop := ordered
    refine cut (by omega) fun i below => ?_
    have last : i ≤ stop ↔ i < min stop (data.size - 1) + 1 := by omega
    rw [selects, decide_eq_decide.2 last]
  | allFrom start => exact cut id fun i below => by simp [selects, below]
  | last count =>
    refine cut (by omega) fun i below => ?_
    have first : data.size ≤ i + count ↔ data.size - count ≤ i := by omega
    rw [selects, decide_eq_decide.2 first, decide_eq_true below, Bool.and_true]

theorem slice_inclusive {start stop : Nat} {data bytes : ByteArray}
    (slice : (inclusive start stop).slice? data = some bytes) :
    bytes = data.extract start (stop + 1) := by
  unfold slice? at slice
  dsimp only at slice
  split at slice
  · cases slice
    exact extract_eq_of_min_eq (by omega)
  · cases slice

theorem slice_allFrom {start : Nat} {data bytes : ByteArray}
    (slice : (allFrom start).slice? data = some bytes) :
    start < data.size ∧ bytes = data.extract start data.size := by
  unfold slice? at slice
  dsimp only at slice
  split at slice
  · rename_i inside
    cases slice
    exact ⟨inside, rfl⟩
  · cases slice

end ByteRange

end ObjectTransfer.Http
