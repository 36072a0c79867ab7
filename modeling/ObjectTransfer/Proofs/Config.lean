import ObjectTransfer.Download.Concurrent
import ObjectTransfer.S3.Concurrent
/-!
Limits of settings. A setting that would leave a transfer without bytes to move or workers to move them is
raised, some where they are made and some where they are read; either way, whatever is set in whatever
order, the limits are kept.
-/
namespace ObjectTransfer

namespace Config

inductive Obtained : Config → Prop
  | built (hasS3 : Bool) (changes : List Change) : Obtained (build hasS3 changes)
  | loaded (retries : Option ByteArray) (changes : List Change) : Obtained (load retries changes)

/-- The limits of settings that are not raised where they are read. -/
structure Limited (c : Config) : Prop where
  bufferSize_pos : 0 < c.bufferSize
  uploadPart_le : minUploadPart ≤ c.uploadPart

theorem defaultBufferSize_pos : 0 < defaultBufferSize := by decide

theorem minUploadPart_le_default : minUploadPart ≤ defaultUploadPartSize := by decide

theorem limited_initial (hasS3 : Bool) : (initial hasS3).Limited :=
  ⟨defaultBufferSize_pos, minUploadPart_le_default⟩

theorem Limited.set {c : Config} (limited : c.Limited) (change : Change) : (c.set change).Limited := by
  obtain ⟨buffer, part⟩ := limited
  cases change with
  | bufferSize n =>
    refine ⟨?_, part⟩
    simp only [Config.set]
    by_cases zero : n = 0
    · rw [if_pos zero]
      exact defaultBufferSize_pos
    · rw [if_neg zero]
      exact Nat.pos_of_ne_zero zero
  | uploadPartSize s =>
    refine ⟨buffer, ?_⟩
    cases s with
    | auto => exact minUploadPart_le_default
    | explicit n => exact Nat.le_max_right n minUploadPart
  | _ => exact ⟨buffer, part⟩

theorem limited_build (hasS3 : Bool) (changes : List Change) : (build hasS3 changes).Limited :=
  List.foldlRecOn changes set (limited_initial hasS3) fun _ limited change _ => limited.set change

theorem Obtained.limited {c : Config} (obtained : c.Obtained) : c.Limited := by
  cases obtained with
  | built hasS3 changes => exact limited_build hasS3 changes
  | loaded retries changes => exact limited_build true _

end Config

namespace Download.Plan

structure Able (p : Plan) : Prop where
  partSize_pos : 0 < p.partSize
  workers_pos : 0 < p.workers

theorem Able.set {p : Plan} (able : p.Able) (change : Change) : (p.set change).Able := by
  obtain ⟨partSize, workers⟩ := able
  cases change with
  | partSize n => exact ⟨Nat.lt_of_lt_of_le Nat.one_pos (Nat.le_max_right n 1), workers⟩
  | workers n => exact ⟨partSize, Nat.lt_of_lt_of_le Nat.one_pos (Nat.le_max_right n 1)⟩
  | _ => exact ⟨partSize, workers⟩

theorem able_adjusted (c : Config) (changes : List Change) : (adjusted c changes).Able :=
  List.foldlRecOn changes set ⟨c.downloadPart_pos, c.workers_pos⟩ fun _ able change _ =>
    able.set change

end Download.Plan

namespace S3.Plan

theorem adjusted_workers_pos (c : Config) (changes : List Change) :
    0 < (adjusted c changes).workers := by
  refine List.foldlRecOn (motive := fun p : Plan => 0 < p.workers) changes set c.workers_pos
    fun p positive change _ => ?_
  cases change with
  | workers n => exact Nat.lt_of_lt_of_le Nat.one_pos (Nat.le_max_right n 1)
  | _ => exact positive

theorem adjusted_partSize (c : Config) {changes : List Change}
    (unchanged : ∀ n, .partSize n ∉ changes) : (adjusted c changes).partSize = c.uploadPart := by
  refine List.foldlRecOn (motive := fun p : Plan => p.partSize = c.uploadPart) changes set rfl
    fun p same change hchange => ?_
  cases change with
  | partSize n => exact absurd hchange (unchanged n)
  | _ => exact same

end S3.Plan

end ObjectTransfer
