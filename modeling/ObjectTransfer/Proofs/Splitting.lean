import Mathlib.Data.List.Chain
import Mathlib.Data.List.Range
import ObjectTransfer.Proofs.Download.Parts
import ObjectTransfer.Proofs.S3.Parts
import ObjectTransfer.Proofs.Word
/-!
How objects and files are split. The parts of a download are given by their first and last offsets and
those of an upload by offset and length; they are the same stretches, which lie one behind the other from
the first byte to the last. With words in place of numbers they come out the same.
-/
namespace ObjectTransfer

namespace Download.Part

def size? (part : Part) : Option Nat := do
  let apart ← Word.sub? part.stop part.start
  Word.add? apart 1

def ofIndex? (total partSize index : Nat) : Option Part := do
  let start ← Word.mul? index partSize
  let behind ← Word.add? start partSize
  let stop ← Word.sub? (min behind total) 1
  pure ⟨index, start, stop⟩

def split? (total partSize : Nat) : Option (List Part) := do
  let n ← Word.ceilDiv? total partSize
  (List.range n).mapM (ofIndex? total partSize)

/-- Parts that lie one behind the other and cover an object; all but the last are of one size. -/
structure Tiles (total partSize : Nat) (parts : List Part) : Prop where
  length : parts.length = total ⌈/⌉ partSize
  indices : parts.map index = List.range parts.length
  first : ∀ part ∈ parts.head?, part.start = 0
  adjacent : parts.IsChain fun a b => b.start = a.stop + 1
  last : ∀ part ∈ parts.getLast?, part.stop + 1 = total
  filled : ∀ part ∈ parts, part.start ≤ part.stop ∧ 1 ≤ part.size
  full : ∀ part ∈ parts.dropLast, part.size = partSize
  size_le : ∀ part ∈ parts, part.size ≤ partSize

variable {total partSize index : Nat} {part : Part}

theorem count_eq_ceilDiv (total partSize : Nat) : count total partSize = total ⌈/⌉ partSize := rfl

theorem size_of_followed (hp : 0 < partSize) (followed : index + 1 < count total partSize) :
    (ofIndex total partSize index).size = partSize := by
  have inside := (lt_count_iff hp).1 followed
  have behind : (index + 1) * partSize = index * partSize + partSize := Nat.succ_mul _ _
  simp only [size, ofIndex]
  omega

theorem size_le (hp : 0 < partSize) (valid : index < count total partSize) :
    (ofIndex total partSize index).size ≤ partSize := by
  have inside := (lt_count_iff hp).1 valid
  simp only [size, ofIndex]
  omega

theorem tiles (hp : 0 < partSize) (total : Nat) : Tiles total partSize (split total partSize) := by
  have valid {part : Part} (h : part ∈ split total partSize) :
      ∃ i < count total partSize, part = ofIndex total partSize i := by
    obtain ⟨same, valid⟩ := mem_split h
    exact ⟨_, valid, same⟩
  exact
    { length := length_split total partSize
      indices := by
        rw [length_split, split, List.map_map]
        exact List.map_id _
      first := by
        intro part h
        rw [split, List.head?_map, List.head?_range] at h
        split at h
        · cases h
        · cases h
          exact Nat.zero_mul _
      adjacent := by
        rw [split, List.isChain_map, List.isChain_range]
        intro i hi
        have followed : i + 1 < count total partSize := by omega
        obtain ⟨-, stop, -⟩ := start_eq hp (Nat.lt_of_succ_lt followed)
        rw [stop]
        exact (start_eq hp followed).1
      last := by
        intro part h
        rw [split, List.getLast?_map, List.getLast?_range] at h
        split at h
        · cases h
        · rename_i some
          cases h
          have only : count total partSize - 1 < count total partSize := by omega
          have next : count total partSize - 1 + 1 = count total partSize := by omega
          rw [(start_eq hp only).2.1, next, boundary_count hp]
      filled := by
        intro part h
        obtain ⟨i, hi, rfl⟩ := valid h
        obtain ⟨start, stop, less⟩ := start_eq hp hi
        exact ⟨by omega, Nat.le_add_left 1 _⟩
      full := by
        intro part h
        rw [split, ← List.map_dropLast] at h
        obtain ⟨i, hi, rfl⟩ := List.mem_map.1 h
        obtain ⟨m, length⟩ : ∃ m, count total partSize = m + 1 :=
          Nat.exists_eq_succ_of_ne_zero fun zero => by rw [zero] at hi; cases hi
        rw [length, List.range_succ, List.dropLast_concat, List.mem_range] at hi
        exact size_of_followed hp (by omega)
      size_le := by
        intro part h
        obtain ⟨i, hi, rfl⟩ := valid h
        exact size_le hp hi }

section
variable (hp : 0 < partSize) (fits : total + partSize < Text.Unsigned.limit)

include hp fits

theorem ofIndex?_eq (valid : index < count total partSize) :
    ofIndex? total partSize index = some (ofIndex total partSize index) := by
  have inside := (lt_count_iff hp).1 valid
  simp (disch := omega) only [ofIndex?, Word.mul?_eq, Word.add?_eq, Word.sub?_eq, Option.bind_eq_bind,
    Option.bind_some]
  rfl

theorem split?_eq : split? total partSize = some (split total partSize) := by
  rw [split?, Word.ceilDiv?_eq hp (by omega)]
  exact Word.mapM_eq fun i hi => ofIndex?_eq hp fits (List.mem_range.1 hi)

theorem size?_eq (h : part ∈ split total partSize) : part.size? = some part.size := by
  have tiles := tiles hp total
  have le := tiles.size_le part h
  obtain ⟨order, -⟩ := tiles.filled part h
  rw [size] at le
  rw [size?, Word.sub?_eq order]
  exact Word.add?_eq (by omega)

end

end Download.Part

namespace S3.FilePart

def ofIndex? (size partSize index : Nat) : Option FilePart := do
  let offset ← Word.mul? index partSize
  let rest ← Word.sub? size offset
  pure ⟨index + 1, offset, min partSize rest⟩

def split? (size partSize : Nat) : Option (Except Error (List FilePart)) := do
  let needed ← Word.ceilDiv? size partSize
  let n := max needed 1
  if maxPartNumber < n then pure (.error (.invalid (.tooManyParts size n partSize)))
  else
    let parts ← (List.range n).mapM (ofIndex? size partSize)
    pure (.ok parts)

variable {size partSize index : Nat} {parts : List FilePart}

theorem count_eq_max (size partSize : Nat) : count size partSize = max (size ⌈/⌉ partSize) 1 := rfl

theorem offset_le (hp : 0 < partSize) (valid : index < count size partSize) :
    index * partSize ≤ size := by
  by_cases inside : index < Download.Part.count size partSize
  · exact Nat.le_of_lt ((Download.Part.lt_count_iff hp).1 inside)
  · -- the one part of an empty file
    have first : index = 0 := by
      rw [count_eq_max, ← Download.Part.count_eq_ceilDiv] at valid
      omega
    rw [first, Nat.zero_mul]
    exact Nat.zero_le _

theorem split?_eq (hp : 0 < partSize) (fits : size + partSize < Text.Unsigned.limit) :
    split? size partSize = some (split size partSize) := by
  have each (i : Nat) (hi : i < count size partSize) :
      ofIndex? size partSize i = some (ofIndex size partSize i) := by
    have inside := offset_le hp hi
    simp (disch := omega) only [ofIndex?, Word.mul?_eq, Word.sub?_eq, Option.bind_eq_bind,
      Option.bind_some]
    rfl
  have all : (List.range (count size partSize)).mapM (ofIndex? size partSize) =
      some ((List.range (count size partSize)).map (ofIndex size partSize)) :=
    Word.mapM_eq fun i hi => each i (List.mem_range.1 hi)
  rw [split?, Word.ceilDiv?_eq hp (by omega), Option.bind_eq_bind, Option.bind_some]
  dsimp only
  rw [← count_eq_max, all, split, Option.bind_eq_bind, Option.bind_some]
  split <;> rfl

theorem split_error_iff (size partSize : Nat) :
    (∃ e, split size partSize = .error e) ↔ maxPartNumber < size ⌈/⌉ partSize := by
  have one : ¬ maxPartNumber < 1 := by decide
  have same : maxPartNumber < count size partSize ↔ maxPartNumber < size ⌈/⌉ partSize := by
    rw [count_eq_max]
    omega
  rw [← same]
  constructor
  · rintro ⟨e, h⟩
    exact (split_error h).1
  · intro many
    exact ⟨_, if_pos many⟩

theorem ofIndex_eq (hp : 0 < partSize) (valid : index < Download.Part.count size partSize) :
    ofIndex size partSize index = ⟨index + 1, (Download.Part.ofIndex size partSize index).start,
      (Download.Part.ofIndex size partSize index).size⟩ := by
  have inside := (Download.Part.lt_count_iff hp).1 valid
  have length : min partSize (size - index * partSize) =
      (Download.Part.ofIndex size partSize index).size := by
    simp only [Download.Part.size, Download.Part.ofIndex]
    omega
  rw [ofIndex, length]
  rfl

/-- The parts of a file that is not empty are those of an object, counted from one. -/
theorem split_eq_mapIdx (hp : 0 < partSize) (filled : 0 < size) (h : split size partSize = .ok parts) :
    parts = (Download.Part.split size partSize).mapIdx fun i part => ⟨i + 1, part.start, part.size⟩ := by
  obtain ⟨rfl, -⟩ := split_eq h
  have needed : 0 < Download.Part.count size partSize :=
    (Download.Part.lt_count_iff hp).2 (by simpa using filled)
  have count : count size partSize = Download.Part.count size partSize := by
    rw [count_eq_max, ← Download.Part.count_eq_ceilDiv]
    omega
  refine List.ext_getElem? fun i => ?_
  rw [List.getElem?_mapIdx, Download.Part.split, List.getElem?_map, List.getElem?_map, count]
  rcases Nat.lt_or_ge i (Download.Part.count size partSize) with inside | behind
  · rw [List.getElem?_range inside]
    exact congrArg some (ofIndex_eq hp inside)
  · rw [List.getElem?_eq_none (by rwa [List.length_range])]
    rfl

theorem split_empty (hp : 0 < partSize) : split 0 partSize = .ok [⟨1, 0, 0⟩] := by
  have count : count 0 partSize = 1 := by
    rw [count_eq_max, ← Download.Part.count_eq_ceilDiv, Download.Part.count_zero hp]
    rfl
  have few : ¬ maxPartNumber < 1 := by decide
  rw [split, count]
  change (if maxPartNumber < 1 then _ else _) = _
  rw [if_neg few, List.range_one, List.map_singleton, ofIndex, Nat.zero_mul, Nat.sub_zero, Nat.min_zero]

end S3.FilePart

/-- Objects and files are split into the same stretches, which cover them without a gap; a file is refused
when there would be too many, and an empty one has a part of its own. With words in place of numbers
nothing else comes out, so no subtraction goes below zero. -/
theorem splittings_agree {total partSize : Nat} (hp : 0 < partSize)
    (fits : total + partSize < Text.Unsigned.limit) :
    Download.Part.Tiles total partSize (Download.Part.split total partSize) ∧
    ((∃ e, S3.FilePart.split total partSize = .error e) ↔ maxPartNumber < total ⌈/⌉ partSize) ∧
    (∀ files, S3.FilePart.split total partSize = .ok files →
      (0 < total → files = (Download.Part.split total partSize).mapIdx fun i part =>
        ⟨i + 1, part.start, part.size⟩) ∧
      (total = 0 → files = [⟨1, 0, 0⟩])) ∧
    Download.Part.split? total partSize = some (Download.Part.split total partSize) ∧
    (∀ part ∈ Download.Part.split total partSize, part.size? = some part.size) ∧
    S3.FilePart.split? total partSize = some (S3.FilePart.split total partSize) := by
  refine ⟨Download.Part.tiles hp total, S3.FilePart.split_error_iff total partSize,
    fun files h => ⟨fun filled => S3.FilePart.split_eq_mapIdx hp filled h, fun empty => ?_⟩,
    Download.Part.split?_eq hp fits, fun part h => Download.Part.size?_eq hp fits h,
    S3.FilePart.split?_eq hp fits⟩
  subst empty
  rw [S3.FilePart.split_empty hp] at h
  cases h
  rfl

/-- An object of half of all words, in parts of one byte less. -/
theorem last_byte_is_a_part : 0 < 9223372036854775807 ∧
    9223372036854775808 + 9223372036854775807 < Text.Unsigned.limit ∧
    Download.Part.split? 9223372036854775808 9223372036854775807 =
      some [⟨0, 0, 9223372036854775806⟩, ⟨1, 9223372036854775807, 9223372036854775807⟩] := by
  obtain ⟨-, -, -, words, -⟩ :=
    @splittings_agree 9223372036854775808 9223372036854775807 (by decide) (by decide)
  refine ⟨by decide, by decide, words.trans ?_⟩
  decide

end ObjectTransfer
