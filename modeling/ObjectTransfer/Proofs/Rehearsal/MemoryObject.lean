import ObjectTransfer.Proofs.Download.Fetches
import ObjectTransfer.Proofs.Http.Selection
import ObjectTransfer.Proofs.Resumed.Attempts
import ObjectTransfer.Proofs.Source
import ObjectTransfer.Rehearsal.MemoryObject
/-!
The object in memory has its content, whatever was arranged for its answers.
-/
namespace ObjectTransfer.Rehearsal.MemoryObject

variable {o : MemoryObject} {bytes data : ByteArray} {range : Http.ByteRange} {body : Http.Body}

theorem data_fetch (o : MemoryObject) (range : Http.ByteRange) :
    (o.fetch range).2.data = o.data := by
  unfold fetch
  dsimp only
  split
  · rfl
  · split
    · rfl
    · rfl

theorem join_bodyOf {limit : Option Nat}
    (joined : Http.Body.join .empty (bodyOf bytes limit).items = .ok data) : data = bytes := by
  cases limit with
  | some limit => cases joined
  | none => exact Except.ok.inj (joined.symm.trans (Http.Body.join_ofBytes _))

theorem body_fetch (given : (o.fetch range).1 = .ok body) :
    ∃ bytes limit, range.slice? o.data = some bytes ∧ body = bodyOf bytes limit := by
  unfold fetch at given
  dsimp only at given
  split at given
  · cases given
  · cases slice : range.slice? o.data with
    | none => rw [slice] at given; cases given
    | some bytes =>
      rw [slice] at given
      cases given
      exact ⟨bytes, _, rfl, rfl⟩

theorem serves (content : ByteArray) : source.Serves (fun o => o.data = content) content where
  inspect o files h := ⟨h, rfl⟩
  fetch range o files h := ⟨(data_fetch o range).trans h, rfl⟩
  size := by
    rintro o files object h ⟨⟩
    exact congrArg ByteArray.size h
  bytes := by
    rintro start stop o files body data rfl given joined -
    obtain ⟨bytes, limit, slice, rfl⟩ := body_fetch given
    exact (join_bodyOf joined).trans (Http.ByteRange.slice_inclusive slice)

theorem eTag_fetch (o : MemoryObject) (range : Http.ByteRange) :
    (o.fetch range).2.eTag = o.eTag := by
  unfold fetch
  dsimp only
  split
  · rfl
  · split
    · rfl
    · rfl

theorem failure_fetch {e : Error} (failed : (o.fetch range).1 = .error e) :
    e.disposition ≠ some .abort := by
  unfold fetch at failed
  dsimp only at failed
  split at failed
  · cases failed
    decide
  · split at failed
    · cases failed
      exact fun h => by cases h
    · cases failed

theorem follows_fetch {offset : Nat} (given : (o.fetch (.allFrom offset)).1 = .ok body) :
    Follows o.data offset body.items := by
  obtain ⟨bytes, limit, slice, rfl⟩ := body_fetch given
  have rest : bytes = o.data.extract offset o.data.size := by
    unfold Http.ByteRange.slice? at slice
    dsimp only at slice
    split at slice
    · cases slice
      rfl
    · cases slice
  subst rest
  cases limit with
  | some limit =>
    refine ⟨?_, trivial⟩
    rw [ByteArray.extract_extract, ByteArray.size_extract]
    exact extract_eq_of_min_eq (by omega)
  | none =>
    rw [bodyOf, Http.Body.ofBytes, Http.Body.items]
    split
    · trivial
    · refine ⟨?_, trivial⟩
      rw [ByteArray.size_extract]
      exact extract_eq_of_min_eq (by omega)

/-- The object in memory is a version that is given honestly, and none of its failures is for good. -/
theorem streams (v : Version) :
    source.Streams (fun o => o.data = v.content ∧ o.eTag = v.eTag)
      (fun e => e.disposition ≠ some .abort) v where
  inspect o files h := ⟨h, rfl⟩
  fetch range o files h := ⟨⟨(data_fetch o range).trans h.1, (eTag_fetch o range).trans h.2⟩, rfl⟩
  object := by
    rintro o files object ⟨data, eTag⟩ ⟨⟩
    rw [objectMeta, data, eTag]
    rfl
  failure h failed := failure_fetch failed
  body := by
    rintro offset o files body ⟨data, -⟩ given
    exact data ▸ follows_fetch given

end ObjectTransfer.Rehearsal.MemoryObject
