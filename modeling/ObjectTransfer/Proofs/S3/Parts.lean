import Mathlib.Data.List.Sort
import ObjectTransfer.Proofs.Files.Content
import ObjectTransfer.Proofs.Source
import ObjectTransfer.S3.Concurrent
/-!
The parts of a file. They lie one behind the other and cover the file, so that their bytes, put
together in order, are the file. Stored parts whose numbers are those of all parts are put in order
before an upload is completed, in whatever order they came.
-/
namespace ObjectTransfer.S3

namespace FilePart

def bytes (content : ByteArray) (part : FilePart) : ByteArray :=
  content.extract part.offset (part.offset + part.length)

variable {size partSize index : Nat} {parts : List FilePart} {part : FilePart} {e : Error}

theorem count_pos (size partSize : Nat) : 0 < count size partSize := by
  unfold count
  omega

theorem split_eq (h : split size partSize = .ok parts) :
    parts = (List.range (count size partSize)).map (ofIndex size partSize) ∧
      count size partSize ≤ maxPartNumber := by
  unfold split at h
  dsimp only at h
  split at h
  · cases h
  · rename_i few
    cases h
    exact ⟨rfl, Nat.le_of_not_lt few⟩

theorem split_error (h : split size partSize = .error e) :
    maxPartNumber < count size partSize ∧
      e = .invalid (.tooManyParts size (count size partSize) partSize) := by
  unfold split at h
  dsimp only at h
  split at h
  · rename_i many
    cases h
    exact ⟨many, rfl⟩
  · cases h

/-- What is put together from the first parts are the first bytes of the file. -/
theorem join_bytes (content : ByteArray) (partSize n : Nat) :
    ((List.range n).map fun i => (ofIndex content.size partSize i).bytes content).foldl (· ++ ·)
      .empty = content.extract 0 (n * partSize) := by
  induction n with
  | zero =>
    rw [Nat.zero_mul, ByteArray.extract_same]
    rfl
  | succ n ih =>
    rw [List.range_succ, List.map_append, List.foldl_append, ih, List.map_singleton,
      List.foldl_cons, List.foldl_nil, bytes, ofIndex]
    -- a part that would end behind the file ends with it
    have ends : content.extract (n * partSize)
          (n * partSize + min partSize (content.size - n * partSize)) =
        content.extract (n * partSize) ((n + 1) * partSize) :=
      extract_eq_of_min_eq (by rw [Nat.add_mul, Nat.one_mul]; omega)
    have later : n * partSize ≤ (n + 1) * partSize := Nat.mul_le_mul_right _ (Nat.le_succ n)
    dsimp only
    rw [ends, ByteArray.extract_append_extract, Nat.zero_min, Nat.max_eq_right later]

theorem size_le_count_mul (hp : 0 < partSize) (size : Nat) :
    size ≤ count size partSize * partSize := by
  have enough : (size + partSize - 1) / partSize * partSize + partSize > size + partSize - 1 := by
    have := Nat.lt_div_mul_add (a := size + partSize - 1) hp
    omega
  have atLeast : (size + partSize - 1) / partSize * partSize ≤ count size partSize * partSize :=
    Nat.mul_le_mul_right _ (Nat.le_max_left _ _)
  omega

theorem join_all (hp : 0 < partSize) (content : ByteArray) :
    ((List.range (count content.size partSize)).map fun i =>
      (ofIndex content.size partSize i).bytes content).foldl (· ++ ·) .empty = content := by
  rw [join_bytes]
  have covered := size_le_count_mul hp content.size
  rw [extract_eq_of_min_eq (k := content.size) (by omega), ByteArray.extract_zero_size]

end FilePart

theorem Sending.read_eq {part : FilePart} {id : Nat} {files : Files.Store} {data content : ByteArray}
    (h : read part (.file id) files = .ok data) (holds : (files.content id).bytes = content) :
    data = part.bytes content := by
  unfold read at h
  split at h
  · rename_i empty
    cases h
    rw [FilePart.bytes, empty, Nat.add_zero, ByteArray.extract_same]
  · rw [Files.Store.readAt, Files.Content.read_eq, holds] at h
    dsimp only at h
    split at h
    · cases h
    · cases h
      rfl

section
variable {p q : UploadedPart} {l parts sorted : List UploadedPart} {n : Nat}

theorem insertPart_perm (new : p.number ∉ l.map (·.number)) : (insertPart p l).Perm (p :: l) := by
  induction l with
  | nil => exact .refl _
  | cons q l ih =>
    rw [List.map_cons, List.mem_cons, not_or] at new
    unfold insertPart
    split
    · exact .refl _
    · rw [if_neg new.1]
      exact ((ih new.2).cons q).trans (.swap p q l)

theorem mem_insertPart (h : q ∈ insertPart p l) : q = p ∨ q ∈ l := by
  induction l with
  | nil => exact .inl (List.mem_singleton.1 h)
  | cons r l ih =>
    unfold insertPart at h
    split at h
    · exact List.mem_cons.1 h
    · split at h
      · exact (List.mem_cons.1 h).imp_right (.tail _)
      · rcases List.mem_cons.1 h with rfl | h
        · exact .inr List.mem_cons_self
        · exact (ih h).imp_right (.tail _)

theorem insertPart_sorted (sorted : l.Pairwise fun a b => a.number < b.number) :
    (insertPart p l).Pairwise fun a b => a.number < b.number := by
  induction l with
  | nil => exact List.pairwise_singleton _ _
  | cons q l ih =>
    obtain ⟨first, rest⟩ := List.pairwise_cons.1 sorted
    unfold insertPart
    split
    · rename_i before
      refine List.pairwise_cons.2 ⟨fun r hr => ?_, sorted⟩
      rcases List.mem_cons.1 hr with rfl | hr
      · exact before
      · exact before.trans (first r hr)
    · split
      · rename_i same
        exact List.pairwise_cons.2 ⟨fun r hr => same ▸ first r hr, rest⟩
      · rename_i notBefore other
        refine List.pairwise_cons.2 ⟨fun r hr => ?_, ih rest⟩
        rcases mem_insertPart hr with rfl | hr
        · omega
        · exact first r hr

theorem sortParts_perm (distinct : (parts.map (·.number)).Nodup) : (sortParts parts).Perm parts := by
  have onto (parts : List UploadedPart) (l : List UploadedPart)
      (distinct : ((parts ++ l).map (·.number)).Nodup) :
      (parts.foldl (fun l p => insertPart p l) l).Perm (parts ++ l) := by
    induction parts generalizing l with
    | nil => exact .refl _
    | cons p parts ih =>
      have moved : (parts ++ p :: l).Perm (p :: (parts ++ l)) := List.perm_middle
      have new : p.number ∉ l.map (·.number) := by
        rw [List.cons_append, List.map_cons, List.nodup_cons, List.map_append] at distinct
        exact fun h => distinct.1 (List.mem_append_right _ h)
      have perm := (insertPart_perm new).append_left parts
      exact (ih _ ((((perm.trans moved).map _).nodup_iff).2 distinct)).trans (perm.trans moved)
  have all := onto parts [] (by rwa [List.append_nil])
  rwa [List.append_nil] at all

theorem sortParts_sorted (parts : List UploadedPart) :
    (sortParts parts).Pairwise fun a b => a.number < b.number := by
  have onto (parts : List UploadedPart) (l : List UploadedPart)
      (sorted : l.Pairwise fun a b => a.number < b.number) :
      (parts.foldl (fun l p => insertPart p l) l).Pairwise fun a b => a.number < b.number := by
    induction parts generalizing l with
    | nil => exact sorted
    | cons p parts ih => exact ih _ (insertPart_sorted sorted)
  exact onto parts [] .nil

/-- The numbers of `n` parts, in order. -/
def numbers (n : Nat) : List Int := (List.range n).map fun i : Nat => (i : Int) + 1

theorem numbers_sorted (n : Nat) : (numbers n).Pairwise (· < ·) := by
  rw [numbers, List.pairwise_map]
  exact List.pairwise_lt_range.imp fun h => by omega

theorem checkContiguous_ok {first : Nat}
    (h : parts.map (·.number) = (List.range n).map fun i : Nat => (first : Int) + i) :
    checkContiguous first parts = .ok () := by
  induction parts generalizing n first with
  | nil => rfl
  | cons p parts ih =>
    cases n with
    | zero => cases h
    | succ n =>
      rw [List.range_succ_eq_map, List.map_cons, List.map_cons, List.cons.injEq] at h
      obtain ⟨number, rest⟩ := h
      have number : p.number = (first : Int) := by simpa using number
      unfold checkContiguous
      rw [if_pos number]
      refine @ih n (first + 1) ?_
      rw [rest, List.map_map]
      refine List.map_congr_left fun i _ => ?_
      simp only [Function.comp_apply]
      omega

theorem orderedParts_ok (hn : 0 < n) (all : (parts.map (·.number)).Perm (numbers n)) :
    ∃ sorted, orderedParts parts = .ok sorted ∧ sorted.Perm parts ∧
      sorted.map (·.number) = numbers n := by
  have distinct : (parts.map (·.number)).Nodup :=
    all.nodup_iff.2 ((numbers_sorted n).imp fun h => Int.ne_of_lt h)
  have perm := sortParts_perm distinct
  have inOrder : (sortParts parts).map (·.number) = numbers n := by
    refine List.Perm.eq_of_pairwise (fun a b _ _ hab hba => ?_) ?_ (numbers_sorted n)
      ((perm.map _).trans all)
    · exact absurd (hab.trans hba) (Int.lt_irrefl a)
    · exact List.pairwise_map.2 (sortParts_sorted parts)
  refine ⟨sortParts parts, ?_, perm, inOrder⟩
  have contiguous : checkContiguous 1 (sortParts parts) = .ok () := by
    refine @checkContiguous_ok _ n 1 (inOrder.trans ?_)
    exact List.map_congr_left fun i _ => Int.add_comm _ _
  unfold orderedParts
  split
  · rename_i none
    have length := congrArg List.length inOrder
    simp only [none, numbers, List.map_nil, List.length_nil, List.length_map,
      List.length_range] at length
    omega
  · rw [contiguous]
    rfl

end

end ObjectTransfer.S3
