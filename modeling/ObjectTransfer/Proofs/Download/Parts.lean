import Mathlib.Data.List.Nodup
import ObjectTransfer.Download.Concurrent
/-!
The parts of an object. They lie one behind the other and cover the object, so that their bytes, put
together in order, are the object; their ranges tell them apart.
-/
namespace ObjectTransfer.Download.Part

/-- How many bytes the first `k` parts have. -/
def boundary (total partSize k : Nat) : Nat := min (k * partSize) total

def range (part : Part) : Http.ByteRange := .inclusive part.start part.stop

def bytes (content : ByteArray) (part : Part) : ByteArray :=
  content.extract part.start (part.stop + 1)

variable {total partSize index k : Nat}

theorem lt_count_iff (hp : 0 < partSize) :
    index < count total partSize ↔ index * partSize < total := by
  rw [count, Nat.lt_iff_add_one_le, Nat.le_div_iff_mul_le hp, Nat.add_mul, Nat.one_mul]
  omega

theorem boundary_zero : boundary total partSize 0 = 0 := by simp [boundary]

theorem boundary_le : boundary total partSize k ≤ total := Nat.min_le_right _ _

theorem boundary_count (hp : 0 < partSize) :
    boundary total partSize (count total partSize) = total := by
  have h : ¬ count total partSize * partSize < total := fun h =>
    Nat.lt_irrefl _ ((lt_count_iff hp).2 h)
  rw [boundary]
  omega

theorem mem_split {part : Part} (h : part ∈ split total partSize) :
    part = ofIndex total partSize part.index ∧ part.index < count total partSize := by
  obtain ⟨i, hi, rfl⟩ := List.mem_map.1 h
  exact ⟨rfl, List.mem_range.1 hi⟩

theorem split_nodup (total partSize : Nat) : (split total partSize).Nodup := by
  refine List.Nodup.map (fun i j h => ?_) List.nodup_range
  exact congrArg Part.index h

theorem length_split (total partSize : Nat) :
    (split total partSize).length = count total partSize := by simp [split]

theorem count_zero (hp : 0 < partSize) : count 0 partSize = 0 :=
  Nat.div_eq_of_lt (by omega)

theorem split_zero (hp : 0 < partSize) : split 0 partSize = [] := by
  rw [split, count_zero hp]
  rfl

/-- A part begins where those before it end, and ends where the next one begins. -/
theorem start_eq (hp : 0 < partSize) (h : index < count total partSize) :
    (ofIndex total partSize index).start = boundary total partSize index ∧
      (ofIndex total partSize index).stop + 1 = boundary total partSize (index + 1) ∧
      boundary total partSize index < boundary total partSize (index + 1) := by
  have inside := (lt_count_iff hp).1 h
  simp only [ofIndex, boundary, Nat.add_mul, Nat.one_mul]
  omega

theorem size_eq (hp : 0 < partSize) (h : index < count total partSize) :
    boundary total partSize index + (ofIndex total partSize index).size =
      boundary total partSize (index + 1) := by
  obtain ⟨hstart, hstop, hlt⟩ := start_eq hp h
  rw [size, hstart]
  omega

theorem size_bytes (content : ByteArray) (hp : 0 < partSize) (h : index < count content.size partSize) :
    (bytes content (ofIndex content.size partSize index)).size =
      (ofIndex content.size partSize index).size := by
  obtain ⟨hstart, hstop, hlt⟩ := start_eq hp h
  have hle : boundary content.size partSize (index + 1) ≤ content.size := boundary_le
  have hsize := size_eq hp h
  rw [bytes, ByteArray.size_extract, hstart, hstop]
  omega

theorem range_injOn (hp : 0 < partSize) {a b : Part} (ha : a ∈ split total partSize)
    (hb : b ∈ split total partSize) (h : a.range = b.range) : a = b := by
  obtain ⟨ha, hia⟩ := mem_split ha
  obtain ⟨hb, hib⟩ := mem_split hb
  have hstart : a.start = b.start := by
    injection h
  rw [ha, hb] at hstart
  have same : a.index = b.index := Nat.eq_of_mul_eq_mul_right hp hstart
  rw [ha, hb, same]

/-- What is read from a part behind its first `copied` bytes goes on where those end. -/
theorem extract_append_bytes (content : ByteArray) (hp : 0 < partSize)
    (h : index < count content.size partSize) {copied : Nat}
    (hcopied : copied ≤ (ofIndex content.size partSize index).size) (n : Nat) :
    content.extract 0 (boundary content.size partSize index + copied) ++
        (bytes content (ofIndex content.size partSize index)).extract copied (copied + n) =
      content.extract 0 (boundary content.size partSize index + (copied +
        ((bytes content (ofIndex content.size partSize index)).extract copied (copied + n)).size)) := by
  obtain ⟨hstart, hstop, hlt⟩ := start_eq hp h
  have hsize := size_eq hp h
  have hle : boundary content.size partSize (index + 1) ≤ content.size := boundary_le
  rw [bytes, hstart, hstop, ByteArray.extract_extract, ByteArray.extract_append_extract,
    ByteArray.size_extract]
  congr 1
  omega

end ObjectTransfer.Download.Part
