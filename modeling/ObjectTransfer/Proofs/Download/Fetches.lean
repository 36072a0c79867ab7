import Mathlib.Data.List.Basic
import ObjectTransfer.Proofs.Download.Parts
/-!
Fetches. The observer of a source notes every range that is asked for with what was given for it, and
changes nothing else. What comes of a part is told from these notes: how often it was tried, whether
it was fetched and why it was given up.
-/
namespace ObjectTransfer

/-- A range that was asked for, and what was given. -/
structure Fetched where
  range : Http.ByteRange
  result : Except Error Http.Body

/-- As many bytes came as were asked for. -/
def Fetched.isWhole (f : Fetched) : Bool :=
  match f.range, f.result with
  | .inclusive start stop, .ok body =>
    match Http.Body.join .empty body.items with
    | .ok data => data.size = stop - start + 1
    | .error _ => false
  | _, _ => false

/-- A peer, and all ranges that it was asked for, oldest first. -/
structure Fetches (σ : Type) where
  peer : σ
  log : List Fetched

namespace RangeSource
variable {σ : Type}

def observed (r : RangeSource σ) : RangeSource (Fetches σ) where
  inspect s files :=
    let (result, peer, files) := r.inspect s.peer files
    (result, { s with peer }, files)
  fetch range s files :=
    let (result, peer, files) := r.fetch range s.peer files
    (result, ⟨peer, s.log ++ [⟨range, result⟩]⟩, files)

/-- As long as its peer is as `P` says, a source has this content and leaves the files alone. A range
of it may be refused, and what is given for it may break off or have a wrong length, but as many bytes
as were asked for are the right ones. -/
structure Serves (r : RangeSource σ) (P : σ → Prop) (content : ByteArray) : Prop where
  inspect : ∀ s files, P s → P (r.inspect s files).2.1 ∧ (r.inspect s files).2.2 = files
  fetch : ∀ range s files, P s →
    P (r.fetch range s files).2.1 ∧ (r.fetch range s files).2.2 = files
  size : ∀ {s files object}, P s → (r.inspect s files).1 = .ok object → object.size = content.size
  bytes : ∀ {start stop s files body data}, P s →
    (r.fetch (.inclusive start stop) s files).1 = .ok body →
    Http.Body.join .empty body.items = .ok data → data.size = stop - start + 1 → data = content.extract start (stop + 1)

variable {r : RangeSource σ} {P : σ → Prop} {content : ByteArray}

theorem Serves.getRange_observed (serves : r.Serves P content) {w : World (Fetches σ)}
    (peer : P w.peer.peer) (range : Http.ByteRange) :
    ∃ result peer', P peer' ∧ r.observed.getRange range w =
        (result, { w with peer := ⟨peer', w.peer.log ++ [⟨range, result⟩]⟩ }) ∧
      ∀ {start stop body data}, range = .inclusive start stop → result = .ok body →
        Http.Body.join .empty body.items = .ok data → data.size = stop - start + 1 →
        data = content.extract start (stop + 1) := by
  obtain ⟨peer', same⟩ := serves.fetch range w.peer.peer w.files peer
  refine ⟨(r.fetch range w.peer.peer w.files).1, _, peer', ?_, ?_⟩
  · rw [RangeSource.getRange, observed]
    simp only [same]
  · rintro start stop body data rfl hbody
    exact serves.bytes peer hbody

end RangeSource

namespace Download

namespace Part

/-- What an answer to the request for its range makes of a part. -/
def outcome (part : Part) : Except Error Http.Body → Except Error ByteArray
  | .error e => .error e
  | .ok body =>
    match Http.Body.join .empty body.items with
    | .error cause => .error ⟨.transport, cause⟩
    | .ok data =>
      if data.size = part.size then .ok data
      else .error (.transport (.wrongPartLength part.index data.size part.size))

/-- What came of a part each time its range was asked for, oldest first. -/
def outcomes (part : Part) (log : List Fetched) : List (Except Error ByteArray) :=
  (log.filter (·.range = part.range)).map fun f => part.outcome f.result

def GivenBy (content : ByteArray) (part : Part) (body : Http.Body) : Prop :=
  ∀ data, Http.Body.join .empty body.items = .ok data → data.size = part.size →
    data = part.bytes content

variable {part other : Part} {log more : List Fetched}

theorem isWhole_eq (part : Part) {f : Fetched} (range : f.range = part.range) :
    f.isWhole = (part.outcome f.result).isOk := by
  obtain ⟨_, result⟩ := f
  cases range
  cases result with
  | error e => rfl
  | ok body =>
    unfold Fetched.isWhole outcome
    dsimp only [Part.range]
    cases Http.Body.join .empty body.items with
    | error cause => rfl
    | ok data =>
      dsimp only
      by_cases whole : data.size = part.size
      · rw [if_pos whole]
        exact decide_eq_true whole
      · rw [if_neg whole]
        exact decide_eq_false whole

theorem outcomes_snoc (part : Part) (log : List Fetched) (result : Except Error Http.Body) :
    part.outcomes (log ++ [⟨part.range, result⟩]) = part.outcomes log ++ [part.outcome result] := by
  simp [outcomes]

theorem outcomes_append_of_ne (h : ∀ f ∈ more, f.range ≠ part.range) :
    part.outcomes (log ++ more) = part.outcomes log := by
  have none : more.filter (·.range = part.range) = [] := by
    rw [List.filter_eq_nil_iff]
    intro f hf
    simpa using h f hf
  rw [outcomes, outcomes, List.filter_append, none, List.append_nil]

end Part

namespace Plan

/-- These tries have failed and `left` more can follow the next one, after failures that other tries
may follow. -/
def Tried (p : Plan) (tries : List (Except Error ByteArray)) (left : Nat) : Prop :=
  (∀ o ∈ tries, ∃ e, o = .error e ∧ p.accepts e = true) ∧ tries.length + left + 1 = p.retry.tries

def Got (p : Plan) (part : Part) (log : List Fetched) : Prop :=
  ∃ earlier left data, part.outcomes log = earlier ++ [.ok data] ∧ p.Tried earlier left

/-- The part failed for good: it was not to be tried again after the last failure, or there were no
tries left. -/
def GaveUp (p : Plan) (part : Part) (log : List Fetched) (e : Error) : Prop :=
  ∃ earlier left, part.outcomes log = earlier ++ [.error e] ∧ p.Tried earlier left ∧
    (p.accepts e = false ∨ left = 0)

/-- However often the part is tried, it comes within the number of tries, and no failure before that
forbids another try. -/
def Spared (p : Plan) (part : Part) (log : List Fetched) : Prop :=
  ∃ earlier data, part.outcomes log <+: earlier ++ [.ok data] ∧ earlier.length < p.retry.tries ∧
    ∀ o ∈ earlier, ∃ e, o = .error e ∧ p.accepts e = true

variable {p : Plan} {part : Part} {log : List Fetched} {e : Error}

theorem Got.not_gaveUp (got : p.Got part log) : ¬ p.GaveUp part log e := by
  obtain ⟨earlier, left, data, outcomes, -⟩ := got
  rintro ⟨earlier', left', outcomes', -⟩
  have same := (List.append_inj' (outcomes.symm.trans outcomes') rfl).2
  cases same

/-- A part comes after fewer failures than tries, when every failure may be followed by a try. -/
theorem spared_of_isOk {n : Nat} (accepts : ∀ e, p.accepts e = true) (within : n < p.retry.tries)
    (outcomes : (part.outcomes log).map Except.isOk = List.replicate n false ++ [true]) :
    p.Spared part log := by
  obtain ⟨earlier, rest, split, failed, came⟩ := List.map_eq_append_iff.1 outcomes
  have length : earlier.length = n := by
    simpa using congrArg List.length failed
  obtain ⟨o, rfl, came⟩ := List.map_eq_singleton_iff.1 came
  cases o with
  | error e => cases came
  | ok data =>
    refine ⟨earlier, data, split ▸ List.prefix_rfl, length ▸ within, fun o ho => ?_⟩
    have missed := List.mem_map_of_mem (f := Except.isOk) ho
    rw [failed] at missed
    cases o with
    | error e => exact ⟨e, rfl, accepts e⟩
    | ok data => cases (List.mem_replicate.1 missed).2

theorem Spared.not_gaveUp (spared : p.Spared part log) : ¬ p.GaveUp part log e := by
  obtain ⟨earlier, data, first, within, accepted⟩ := spared
  rintro ⟨tries, left, outcomes, ⟨-, count⟩, final⟩
  rw [outcomes] at first
  -- the last try failed, so it is not the one that succeeds, and all of them come before that one
  have failed : tries ++ [.error e] <+: earlier := by
    rcases List.prefix_concat_iff.1 first with same | failed
    · cases (List.append_inj' same rfl).2
    · exact failed
  obtain ⟨e', same, accepts⟩ := accepted (.error e) (failed.subset (by simp))
  cases same
  have length := failed.length_le
  rw [List.length_append, List.length_singleton] at length
  rcases final with refused | last
  · rw [accepts] at refused
    cases refused
  · omega

theorem Got.once (got : p.Got part log) :
    ((log.filter (·.isWhole)).map (·.range)).count part.range = 1 := by
  obtain ⟨earlier, left, data, outcomes, ⟨failures, -⟩⟩ := got
  have failed : earlier.countP Except.isOk = 0 := by
    refine List.countP_eq_zero.2 fun o ho => ?_
    obtain ⟨e, rfl, -⟩ := failures o ho
    exact Bool.false_ne_true
  calc ((log.filter (·.isWhole)).map (·.range)).count part.range
      = (log.filter (·.isWhole)).countP (·.range == part.range) := List.countP_map
    _ = (log.filter (·.range = part.range)).countP (·.isWhole) := by
        rw [List.countP_filter, List.countP_filter]
        exact List.countP_congr fun f _ => by simp [and_comm]
    _ = (part.outcomes log).countP Except.isOk := by
        rw [Part.outcomes, List.countP_map]
        refine List.countP_congr fun f hf => ?_
        have range : f.range = part.range := by simpa using (List.mem_filter.1 hf).2
        rw [part.isWhole_eq range]
        rfl
    _ = 1 := by
        rw [outcomes, List.countP_append, failed]
        rfl

theorem whole_ranges {total : Nat} (hp : 0 < p.partSize)
    (got : ∀ part ∈ Part.split total p.partSize, p.Got part log)
    (asked : ∀ f ∈ log, ∃ part ∈ Part.split total p.partSize, f.range = part.range) :
    ((log.filter (·.isWhole)).map (·.range)).Perm ((Part.split total p.partSize).map Part.range) := by
  have distinct : ((Part.split total p.partSize).map Part.range).Nodup :=
    (Part.split_nodup _ _).map_on fun a ha b hb => Part.range_injOn hp ha hb
  refine List.perm_iff_count.2 fun range => ?_
  by_cases known : range ∈ (Part.split total p.partSize).map Part.range
  · rw [List.count_eq_one_of_mem distinct known]
    obtain ⟨part, hpart, rfl⟩ := List.mem_map.1 known
    exact (got part hpart).once
  · rw [List.count_eq_zero_of_not_mem known]
    refine List.count_eq_zero_of_not_mem fun again => known ?_
    obtain ⟨f, hf, rfl⟩ := List.mem_map.1 again
    obtain ⟨part, hpart, same⟩ := asked f (List.mem_filter.1 hf).1
    exact same ▸ List.mem_map_of_mem hpart

end Plan

end Download

end ObjectTransfer
