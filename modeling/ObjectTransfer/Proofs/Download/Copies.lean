import ObjectTransfer.Proofs.Download.Delivery
import ObjectTransfer.Proofs.Download.Keeping
import ObjectTransfer.Proofs.Download.Offers
/-!
Downloads in parts of an object that is offered without fault. Every part that is asked for comes whole, so
none is given up: whoever moves next, the destination is a copy of the object, unless it cannot be made.
-/
namespace ObjectTransfer
open Http

namespace RangeSource
variable {σ : Type} {r : RangeSource σ} {P : σ → Prop} {data : ByteArray} {tag : Option String}

/-- The object is still offered, and everything that was noted was given for the range that was asked
for. -/
structure Fed (P : σ → Prop) (data : ByteArray) (s : Fetches σ) : Prop where
  peer : P s.peer
  log : ∀ f ∈ s.log, f.range.Gives data f.result

theorem Offers.observed (offers : r.Offers P data tag) :
    r.observed.Offers (Fed P data) data tag where
  inspect s files fed := by
    obtain ⟨s', peer, same⟩ := offers.inspect s.peer files fed.peer
    refine ⟨{ s with peer := s' }, ⟨peer, fed.log⟩, ?_⟩
    simp only [RangeSource.observed, same]
  fetch range s files fed := by
    obtain ⟨answer, s', peer, gives, same⟩ := offers.fetch range s.peer files fed.peer
    refine ⟨answer, ⟨s', s.log ++ [⟨range, answer⟩]⟩, ⟨peer, fun f mem => ?_⟩, gives, ?_⟩
    · rcases List.mem_append.1 mem with old | new
      · exact fed.log f old
      · obtain rfl := List.mem_singleton.1 new
        exact gives
    · simp only [RangeSource.observed, same]

theorem Offers.lasting (offers : r.Offers P data tag) :
    Download.Lasting r fun w => P w.peer where
  files _ peer := peer
  pause _ peer := peer
  report _ peer := peer
  fetch range w peer := by
    obtain ⟨answer, s, peer, -, same⟩ := offers.getRange peer range
    rw [same]
    exact peer
  inspect peer := by
    obtain ⟨s, peer, same⟩ := offers.objectMeta peer
    rw [same]
    exact peer

end RangeSource

namespace Download
open Crew Files

theorem Part.outcome_of_gives {data : ByteArray} {partSize : Nat} {part : Part} {answer : Except Error Body}
    (small : data.size < Text.Unsigned.limit) (hp : 0 < partSize)
    (valid : part ∈ split data.size partSize) (gives : part.range.Gives data answer) :
    (part.outcome answer).isOk := by
  obtain ⟨same, known⟩ := mem_split valid
  obtain ⟨start, stop, ordered⟩ := start_eq hp known
  rw [← same] at start stop
  have inside : boundary data.size partSize (part.index + 1) ≤ data.size := boundary_le
  have slice : part.range.slice? data = some (data.extract part.start (part.stop + 1)) := by
    unfold ByteRange.slice? range
    dsimp only
    rw [if_pos (by omega), show min part.stop (data.size - 1) + 1 = part.stop + 1 by omega]
  have sound : part.range.Sound := ByteRange.sound_inclusive (by omega) (by omega)
  cases gives with
  | nothing final nothing => cases slice.symm.trans (nothing sound)
  | bytes slice' =>
    cases slice.symm.trans slice'
    have size : (data.extract part.start (part.stop + 1)).size = part.size := by
      rw [ByteArray.size_extract, Part.size]
      omega
    unfold outcome
    dsimp only
    rw [Body.join_ofBytes]
    dsimp only
    rw [if_pos size]
    rfl

section
variable {σ : Type} {p : Plan} {source : RangeSource σ} {destination : String}

theorem Moment.Leads.lasting {K : World σ → Prop} {Q : Except Error DownloadOutput → World σ → Prop}
    {m : Moment σ} (leads : Moment.Leads p source destination Q m) (lasting : Lasting source K)
    (has : m.Has K) :
    Moment.Leads p source destination (fun result w => Q result w ∧ K w) m := by
  induction leads with
  | ended h => exact .ended ⟨h, has⟩
  | goesOn some all ih => exact .goesOn some fun n next => ih n next (lasting.next next has)

theorem Moment.Leads.unwatched {Q : Except Error DownloadOutput → World σ → Prop}
    {m : Moment (Fetches σ)}
    (leads : Moment.Leads p source.observed destination (fun result w => Q result (Download.unwatched w)) m) :
    Moment.Leads p source destination Q m.unwatched := by
  induction leads with
  | ended h => exact .ended h
  | goesOn some all ih =>
    obtain ⟨n, next⟩ := some
    refine .goesOn ⟨_, next.unwatched⟩ fun n' next' => ?_
    obtain ⟨n, rfl, next⟩ := next'.watched
    exact ih n next

/-- What a download comes to whoever moves next, it comes to in each of the orders. -/
theorem Moment.Leads.of_path {Q : Except Error DownloadOutput → World σ → Prop} {m : Moment σ}
    {result : Except Error DownloadOutput} {w : World σ}
    (leads : Moment.Leads p source destination Q m)
    (path : Relation.ReflTransGen (Moment.Next p source destination) m (.ended result w)) :
    Q result w := by
  induction leads with
  | ended h =>
    obtain same | ⟨n, next, -⟩ := path.cases_head
    · cases same
      exact h
    · cases next
  | goesOn some all ih =>
    obtain rfl | ⟨n, next, path⟩ := path.cases_head
    · obtain ⟨n, next⟩ := some
      cases next
    · exact ih n next path

end

/-- Whoever moves next, the download comes to this, and so it does when everyone takes turns. -/
structure Plan.ComesTo {σ : Type} (p : Plan) (source : RangeSource σ) (destination : String)
    (Q : Except Error DownloadOutput → Store → Prop) (w : World σ) : Prop where
  leads : Moment.Leads p source destination (fun result w' => Q result w'.files) (.begun w)
  returns : ∃ result w', p.download source destination w = some (result, w') ∧ Q result w'.files

/-- What a download of an object comes to that is offered without fault: the destination is a copy and
nothing else has changed, or it could not be made and nothing has changed at all. -/
inductive Plan.Copies (p : Plan) (data : ByteArray) (tag : Option String) (destination : String)
    (before : Store) : Except Error DownloadOutput → Store → Prop
  | made {made : Nat × Store} {after : Store} (created : before.create destination = .ok made)
      (holds : after.Holds destination (some data)) (others : before.KeepsOthers destination after) :
      Copies p data tag destination before
        (.ok ⟨data.size, Part.count data.size p.partSize, tag⟩) after
  | denied {fault : Fault} (denied : before.create destination = .error fault) :
      Copies p data tag destination before (.error (.io fault)) before

section
variable {σ : Type} {p : Plan} {source : RangeSource σ} {P : σ → Prop} {data : ByteArray}
  {tag : Option String} {destination : String} {w : World σ}
  (offers : source.Offers P data tag) (small : data.size < Text.Unsigned.limit) (peer : P w.peer)

include offers small peer

/-- No part of an object that is offered without fault is given up. -/
theorem Settled.copies {result : Except Error DownloadOutput} {w' : World (Fetches σ)}
    (settled : Settled p source data destination w result w') (hp : 0 < p.partSize)
    {made : Nat × Store} (created : w.files.create destination = .ok made)
    (fed : RangeSource.Fed P data w'.peer) :
    p.Copies data tag destination w.files result w'.files := by
  obtain ⟨s', -, inspected⟩ := offers.inspect w.peer w.files peer
  cases settled with
  | refused unknown unasked untouched =>
    rw [inspected] at unknown
    cases unknown
  | denied known denied unasked untouched => cases created.symm.trans denied
  | delivered known got asked holds others =>
    rw [inspected] at known
    cases known
    exact .made created holds others
  | @lost object w' part e known valid gaveUp gone others =>
    obtain ⟨earlier, left, outcomes, -⟩ := gaveUp
    have last : Except.error e ∈ part.outcomes w'.peer.log := outcomes ▸ List.mem_concat_self
    obtain ⟨f, asked, failed⟩ := List.mem_map.1 last
    obtain ⟨noted, range⟩ := List.mem_filter.1 asked
    have gives := fed.log f noted
    rw [of_decide_eq_true range] at gives
    have whole := Part.outcome_of_gives small hp valid gives
    rw [failed] at whole
    cases whole

/-- Whoever moves next, the destination is a copy in the end, unless it cannot be made. -/
theorem leads_copies (destination : String) (hp : 0 < p.partSize) (hw : 0 < p.workers)
    (sound : w.files.Sound) :
    Moment.Leads p source destination
      (fun result w' => p.Copies data tag destination w.files result w'.files) (.begun w) := by
  cases created : w.files.create destination with
  | error fault =>
    obtain ⟨s', peer', known⟩ := offers.objectMeta peer
    refine .goesOn ⟨_, .opens w⟩ fun n next => ?_
    cases next with
    | opens =>
      have opens := p.opens source destination w
      generalize p.opened source destination w = m at opens ⊢
      cases opens with
      | refused asked => cases known.symm.trans asked
      | denied reports asked denied =>
        cases known.symm.trans asked
        cases created.symm.trans denied
        exact .ended (.denied created)
      | nothing asked tracked created' empty =>
        cases known.symm.trans asked
        cases created.symm.trans created'
      | fetches directory asked tracked created' some =>
        cases known.symm.trans asked
        cases created.symm.trans created'
  | ok made =>
    have g : Given p source P data w := ⟨offers.serves, peer, hp, hw, sound⟩
    have begun : RangeSource.Fed P data (watched w).peer := ⟨peer, fun f mem => by cases mem⟩
    have leads := (g.leads destination).lasting offers.observed.lasting begun
    exact Moment.Leads.unwatched (leads.mono fun result w' ended =>
      ended.1.copies offers small peer hp created ended.2)

theorem comesTo_copies (destination : String) (hp : 0 < p.partSize) (hw : 0 < p.workers)
    (sound : w.files.Sound) :
    p.ComesTo source destination (p.Copies data tag destination w.files) w := by
  refine ⟨leads_copies offers small peer destination hp hw sound, ?_⟩
  have g : Given p source P data w := ⟨offers.serves, peer, hp, hw, sound⟩
  obtain ⟨result, w', -, run, -⟩ := g.download destination
  obtain ⟨v, path, same⟩ := Plan.download_path run
  have leads := leads_copies (w := { w with metrics := w.metrics.initiate })
    (p := p) offers small peer destination hp hw sound
  refine ⟨result, _, run, ?_⟩
  rw [same]
  have copies := leads.of_path path
  exact copies

end

end Download
end ObjectTransfer
