import ObjectTransfer.Download.RangeSource
import ObjectTransfer.S3.Service
/-!
Objects of an S3 service as sources of downloads.
-/
namespace ObjectTransfer.S3

/-- The size and the tag of an object; a length that is missing or negative is no size. -/
def Head.objectMeta (h : Head) : Except Error ObjectMeta :=
  match h.length with
  | some (.ofNat size) => .ok ⟨size, h.eTag⟩
  | _ => .error (.incomplete "the HeadObject content length")

def Location.source {σ : Type} (l : Location) (s : S3 σ) : RangeSource σ where
  inspect peer files :=
    let (result, peer) := s.call (.head l) peer
    ((result.mapError Failure.error).bind Head.objectMeta, peer, files)
  fetch range peer files :=
    let (result, peer) := s.call (.get l range) peer
    ((result.mapError Failure.error).map Http.Body.unfolded, peer, files)

end ObjectTransfer.S3
