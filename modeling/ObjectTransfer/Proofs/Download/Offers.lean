import ObjectTransfer.Proofs.Download.Fetches
import ObjectTransfer.Proofs.Http.Selection
/-!
Sources that offer an object without fault. They tell its size and its tag, and give for a range the bytes
that it selects; a range that selects none is refused for good.
-/
namespace ObjectTransfer
open Http

/-- What is given for a range of an object. A range whose offsets cannot be written in a header may be
refused as well. -/
inductive Http.ByteRange.Gives (data : ByteArray) (range : ByteRange) : Except Error Body → Prop
  | bytes {chosen : ByteArray} (slice : range.slice? data = some chosen) :
      Gives data range (.ok (.ofBytes chosen))
  | nothing {e : Error} (final : e.disposition = none)
      (none : range.Sound → range.slice? data = none) : Gives data range (.error e)

namespace RangeSource
variable {σ : Type}

/-- As long as its peer is as `P` says, a source offers this object without fault and leaves the files
alone. -/
structure Offers (r : RangeSource σ) (P : σ → Prop) (data : ByteArray) (tag : Option String) : Prop where
  inspect : ∀ s files, P s →
    ∃ s', P s' ∧ r.inspect s files = (.ok ⟨data.size, tag⟩, s', files)
  fetch : ∀ range s files, P s →
    ∃ answer s', P s' ∧ range.Gives data answer ∧ r.fetch range s files = (answer, s', files)

/-- What is read from a source in this state: the size and the tag of the object, and for every range
that can be written the bytes that it selects, or nothing for good when it selects none. -/
structure Reads (r : RangeSource σ) (data : ByteArray) (tag : Option String) (s : σ) : Prop where
  inspect : ∀ files, (r.inspect s files).1 = .ok ⟨data.size, tag⟩
  chosen : ∀ range files, range.Sound → range.selected data ≠ [] →
    ∃ body, (r.fetch range s files).1 = .ok body ∧
      body.collect = .ok ⟨(range.selected data).toArray⟩
  nothing : ∀ range files, range.Sound → range.selected data = [] →
    ∃ e, (r.fetch range s files).1 = .error e ∧ e.isRetryable = false

namespace Offers
variable {r : RangeSource σ} {P : σ → Prop} {data : ByteArray} {tag : Option String} {s : σ}
  (offers : r.Offers P data tag)

include offers

theorem objectMeta {w : World σ} (peer : P w.peer) :
    ∃ s', P s' ∧ r.objectMeta w = (.ok ⟨data.size, tag⟩, { w with peer := s' }) := by
  obtain ⟨s', peer', same⟩ := offers.inspect w.peer w.files peer
  refine ⟨s', peer', ?_⟩
  rw [RangeSource.objectMeta]
  simp only [same]

theorem getRange {w : World σ} (peer : P w.peer) (range : ByteRange) :
    ∃ answer s', P s' ∧ range.Gives data answer ∧
      r.getRange range w = (answer, { w with peer := s' }) := by
  obtain ⟨answer, s', peer', gives, same⟩ := offers.fetch range w.peer w.files peer
  refine ⟨answer, s', peer', gives, ?_⟩
  rw [RangeSource.getRange]
  simp only [same]

theorem reads (peer : P s) : r.Reads data tag s where
  inspect files := by
    obtain ⟨s', -, same⟩ := offers.inspect s files peer
    rw [same]
  chosen range files sound some := by
    obtain ⟨answer, s', -, gives, same⟩ := offers.fetch range s files peer
    have slice := range.slice?_eq sound.ordered data
    rw [if_neg some] at slice
    rw [same]
    cases gives with
    | bytes slice' =>
      cases slice.symm.trans slice'
      exact ⟨_, rfl, rfl⟩
    | nothing final none => cases slice.symm.trans (none sound)
  nothing range files sound none := by
    obtain ⟨answer, s', -, gives, same⟩ := offers.fetch range s files peer
    have slice := range.slice?_eq sound.ordered data
    rw [if_pos none] at slice
    rw [same]
    cases gives with
    | bytes slice' => cases slice.symm.trans slice'
    | nothing final none => exact ⟨_, rfl, by simp [Error.isRetryable, final]⟩

theorem serves : r.Serves P data where
  inspect s files peer := by
    obtain ⟨s', peer', same⟩ := offers.inspect s files peer
    rw [same]
    exact ⟨peer', rfl⟩
  fetch range s files peer := by
    obtain ⟨answer, s', peer', -, same⟩ := offers.fetch range s files peer
    rw [same]
    exact ⟨peer', rfl⟩
  size := by
    intro s files object peer known
    obtain ⟨s', -, same⟩ := offers.inspect s files peer
    rw [same] at known
    cases known
    rfl
  bytes := by
    intro start stop s files body data' peer given joined _
    obtain ⟨answer, s', -, gives, same⟩ := offers.fetch (.inclusive start stop) s files peer
    rw [same] at given
    cases gives with
    | bytes slice =>
      cases given
      exact (Except.ok.inj (joined.symm.trans (Body.join_ofBytes _))).trans
        (ByteRange.slice_inclusive slice)
    | nothing final none => cases given

end Offers

end RangeSource

end ObjectTransfer
