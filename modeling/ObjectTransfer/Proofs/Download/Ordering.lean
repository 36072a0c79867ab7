import ObjectTransfer.Proofs.Config
import ObjectTransfer.Proofs.Download.Budget
import ObjectTransfer.Proofs.Download.Keeping
import ObjectTransfer.Proofs.Download.Sequencer
/-!
The order in which parts are appended. The coordinator takes every part that it receives into its
sequencer and appends what that gives out, so in whatever order the parts come, those that it has appended
or begun to append are the first ones.
-/
namespace ObjectTransfer.Download
open Crew Files Relation

/-- What holds at every moment of a sequencer that is to give out the numbers below `n`. -/
structure Sequencer.InOrder {α : Type} (n : Nat) (come given : List (Nat × α)) (s : Sequencer α) :
    Prop where
  numbers : given.map (·.1) = List.range given.length
  given_subset : given ⊆ come
  /-- Something is given out when the thing with the next number has come. -/
  isSome_iff : s.pop.1.isSome ↔ given.length ∈ come.map (·.1) ∧ given.length ∉ given.map (·.1)
  eq_some_iff : ∀ x, s.pop.1 = some x ↔ x ∈ come ∧ x.1 = given.length
  pending : s.pending + given.length = come.length
  /-- When all have come, as many calls as things are left give out the rest in order. -/
  rest : come.length = n →
    (s.pops (n - given.length)).1.map (·.1) = List.range' given.length (n - given.length) ∧
    come.Perm (given ++ (s.pops (n - given.length)).1) ∧ (s.pops (n - given.length)).2.pending = 0

def FirstMissing (m : Nat) (come : List Nat) : Prop := (∀ i < m, i ∈ come) ∧ m ∉ come

namespace Sequencer
variable {α : Type} {n : Nat} {order : List Nat} {come given : List (Nat × α)} {s : Sequencer α}

theorem nodup_of_before (all : order.Perm (List.range n)) (before : come.map (·.1) <+: order) :
    (come.map (·.1)).Nodup :=
  before.sublist.nodup (all.nodup_iff.2 List.nodup_range)

theorem perm_of_length (all : order.Perm (List.range n)) (before : come.map (·.1) <+: order)
    (length : come.length = n) : (come.map (·.1)).Perm (List.range n) := by
  have same : come.map (·.1) = order := before.eq_of_length (by
    rw [List.length_map, length, all.length_eq, List.length_range])
  exact same ▸ all

theorem Reached.inOrder (reached : Reached come given s) (all : order.Perm (List.range n))
    (before : come.map (·.1) <+: order) : InOrder n come given s := by
  have distinct := nodup_of_before all before
  have keeps := reached.keeps distinct
  have gives (x : Nat × α) := keeps.pop_eq_some_iff (x := x) distinct
  exact
    { numbers := keeps.next_eq ▸ keeps.first
      given_subset := keeps.given_subset
      isSome_iff := by
        rw [Option.isSome_iff_exists, List.mem_map]
        constructor
        · rintro ⟨x, hx⟩
          obtain ⟨came, turn⟩ := (gives x).1 hx
          exact ⟨⟨x, came, turn⟩, keeps.turn_notMem_given⟩
        · rintro ⟨⟨x, came, turn⟩, -⟩
          exact ⟨x, (gives x).2 ⟨came, turn⟩⟩
      eq_some_iff := gives
      pending := by
        rw [keeps.rest.length_eq, List.length_append, Nat.add_comm]
        rfl
      rest := fun length => keeps.pops (perm_of_length all before length) }

theorem firstMissing_sequence (all : order.Perm (List.range n)) (before : come.map (·.1) <+: order) :
    FirstMissing (empty.sequence come).1.length (come.map (·.1)) := by
  obtain ⟨reached, waits⟩ := Reached.sequence (α := α) .start rfl come
  exact (reached.keeps (nodup_of_before all before)).run_of_pop_eq_none waits

end Sequencer

/-- What was made of a part bears its index. -/
def Labelled : Holding Part Fetch Staged → Prop
  | .working part f => f.part = part
  | .packed ⟨part, .ok made⟩ => ∃ p, part = some p ∧ made.index = p.index
  | _ => True

/-- The sequencer of the coordinator got the parts that were received, one after the other. -/
structure Sequenced {σ : Type} (v : View (World σ) Part Fetch Staged Assembly) : Prop where
  labelled : ∀ h ∈ v.holdings, Labelled h
  taken : ∀ a, v.outlook = .collecting a → ∃ come given, Sequencer.Reached come given a.waiting ∧
    (come.map (·.1)).Perm ((receivedOf v.holdings).map Part.index)

variable {σ : Type} {p : Plan} {source : RangeSource σ} {destination : String} {directory : Path}
  {w w' : World σ} {f : Fetch} {a : Assembly} {held held' : List (Holding Part Fetch Staged)}
  {o : Outlook Assembly} {part : Part} {h h' : Holding Part Fetch Staged} {crew : Team σ}

/-- Whatever comes of a part when it is worked on bears its index. -/
theorem Fetch.Goes.labelled {v : World (Fetches σ)}
    {step : (Except Error Staged ⊕ Fetch) × World (Fetches σ)} (goes : f.Goes v step) :
    Labelled (standing p source directory f.part step.1) := by
  have after {notes : List Fetched} {o : Except Error ByteArray} (follows : f.Follows v notes o step) :
      Labelled (standing p source directory f.part step.1) := by
    cases follows with
    | comes log pauses => exact ⟨f.part, rfl, rfl⟩
    | again log again pauses => rfl
    | fails log last pauses => trivial
  cases goes with
  | refused fresh follows => exact after follows
  | given fresh log pauses => rfl
  | stores ready follows =>
    rename_i path id items
    exact after (follows (.stream items) rfl)

theorem Fetch.labelled_proceed {result : Except Error Staged ⊕ Fetch} (same : f.part = part)
    (proceed : f.proceed source directory w = (result, w')) :
    Labelled (standing p source directory part result) := by
  have goes := Fetch.goes source directory f (watched w)
  have result_eq : (f.proceed source.observed directory (watched w)).1 = result := by
    have watchedStep := Fetch.proceed_unwatched source directory f (watched w)
    rw [unwatched_watched, proceed] at watchedStep
    exact (congrArg Prod.fst watchedStep).symm
  rw [← result_eq, ← same]
  exact goes.labelled

namespace Sequenced

theorem listed (perm : held.Perm held') (seq : Sequenced (σ := σ) ⟨held, o, w⟩) :
    Sequenced (σ := σ) ⟨held', o, w⟩ where
  labelled h hh := seq.labelled h (perm.mem_iff.2 hh)
  taken a ha := by
    obtain ⟨come, given, reached, received⟩ := seq.taken a ha
    exact ⟨come, given, reached, received.trans ((perm.filterMap _).map _)⟩

theorem replaced (seq : Sequenced (σ := σ) ⟨h :: held, o, w⟩) (new : List (Holding Part Fetch Staged))
    (labelled : ∀ h ∈ new, Labelled h) (unreceived : receivedOf [h] = receivedOf new) :
    Sequenced (σ := σ) ⟨new ++ held, o, w'⟩ where
  labelled h hh := by
    rcases List.mem_append.1 hh with hh | hh
    · exact labelled h hh
    · exact seq.labelled h (.tail _ hh)
  taken a ha := by
    obtain ⟨come, given, reached, received⟩ := seq.taken a ha
    refine ⟨come, given, reached, ?_⟩
    have same : receivedOf (new ++ held) = receivedOf (h :: held) := by
      have apart : receivedOf ([h] ++ held) = receivedOf [h] ++ receivedOf held :=
        List.filterMap_append
      exact List.filterMap_append.trans ((congrArg (· ++ _) unreceived.symm).trans apart.symm)
    rw [same]
    exact received

theorem lost {e : Error} (labelled : ∀ h ∈ held, Labelled h) :
    Sequenced (σ := σ) ⟨held, .lost e, w⟩ := ⟨labelled, fun _ ha => (by cases ha)⟩

theorem accepts {made : Staged} {part : Option Part}
    (seq : Sequenced (σ := σ) ⟨.packed ⟨part, .ok made⟩ :: held, .collecting a, w⟩) :
    Sequenced (σ := σ) ⟨part.toList.map .received ++ held, .collecting (Assembly.desk.accept made a w).1,
      w⟩ := by
  obtain ⟨part, rfl, index⟩ := seq.labelled _ List.mem_cons_self
  refine ⟨fun h hh => ?_, fun a' ha => ?_⟩
  · rcases List.mem_cons.1 hh with rfl | hh
    · trivial
    · exact seq.labelled h (.tail _ hh)
  · cases ha
    obtain ⟨come, given, reached, received⟩ := seq.taken a rfl
    refine ⟨_, given, reached.push (made.index, made), ?_⟩
    rw [List.map_append, List.map_singleton, index]
    exact (List.perm_append_singleton _ _).trans (received.cons _)

theorem files {a' : Assembly} (file : a.file w = some (.ok a', w'))
    (seq : Sequenced (σ := σ) ⟨held, .collecting a, w⟩) :
    Sequenced (σ := σ) ⟨held, .collecting a', w'⟩ := by
  refine ⟨seq.labelled, fun b hb => ?_⟩
  cases hb
  obtain ⟨come, given, reached, received⟩ := seq.taken a rfl
  cases Assembly.goes_of_file file with
  | copies appending n files => exact ⟨come, given, reached, received⟩
  | completes appending =>
    rename_i part id copied
    have same : (a.completed part w).1.waiting = a.waiting := by
      unfold Assembly.completed
      cases a.progress <;> rfl
    exact ⟨come, given, same ▸ reached, received⟩
  | opens idle next =>
    rename_i part rest id
    have popped : a.waiting.pop.2 = ⟨a.waiting.next + 1, rest⟩ := by
      rw [Sequencer.pop, next]
      exact congrArg Prod.snd (if_pos rfl)
    exact ⟨come, _, popped ▸ reached.pop, received⟩

theorem change {parts : List Part} {v v' : View (World σ) Part Fetch Staged Assembly}
    (change : Change (craft p source directory) Assembly.desk parts v v') (seq : Sequenced v) :
    Sequenced v' := by
  have one {h : Holding Part Fetch Staged} (labelled : Labelled h) : ∀ h' ∈ [h], Labelled h' := by
    intro h' hh
    rwa [List.mem_singleton.1 hh]
  have none : ∀ h' ∈ ([] : List (Holding Part Fetch Staged)), Labelled h' := fun _ hh => (by cases hh)
  cases change with
  | rests => exact seq
  | arrives prepare =>
    cases prepare
    exact seq
  | stumbles prepare => cases prepare
  | takes tool part held o w => exact seq.replaced [_] (one rfl) rfl
  | proceeds proceed =>
    have same := seq.labelled _ List.mem_cons_self
    exact seq.replaced [_] (one (Fetch.labelled_proceed (p := p) same proceed)) rfl
  | finishes proceed =>
    have same := seq.labelled _ List.mem_cons_self
    exact seq.replaced [_] (one (Fetch.labelled_proceed (p := p) same proceed)) rfl
  | abandons part f held e w => exact seq.replaced [] none rfl
  | drops parcel held e w => exact seq.replaced [] none rfl
  | accepts part made held idle => exact seq.accepts
  | hears part e held idle =>
    refine .lost fun h hh => ?_
    rcases List.mem_append.1 hh with hh | hh
    · obtain ⟨part, -, rfl⟩ := List.mem_map.1 hh
      trivial
    · exact seq.labelled h (.tail _ hh)
  | files held file => exact seq.files file
  | misfiles held file => exact .lost seq.labelled
  | closes idle rest => exact ⟨seq.labelled, fun _ ha => (by cases ha)⟩

end Sequenced

theorem receivedOf_holdings (crew : Team σ) : receivedOf crew.holdings = crew.received := by
  have packed : receivedOf (crew.channel.map .packed) = [] := by
    rw [receivedOf, List.filterMap_map]
    exact List.filterMap_eq_nil_iff.2 fun _ _ => rfl
  have inHand : receivedOf (crew.workers.flatMap Worker.holdings) = [] := by
    rw [receivedOf, List.filterMap_flatMap]
    refine List.flatMap_eq_nil_iff.2 fun worker _ => ?_
    cases worker <;> rfl
  have apart (l l' : List (Holding Part Fetch Staged)) :
      receivedOf (l ++ l') = receivedOf l ++ receivedOf l' := List.filterMap_append
  rw [Crew.State.holdings, apart, apart, apart, receivedOf_queued, inHand, packed,
    Course.receivedOf_map]
  rfl

theorem Assembly.pop_of_file (idle : a.file w = none) : a.waiting.pop.1 = none := by
  obtain ⟨destination, written, waiting, appending, progress⟩ := a
  unfold Assembly.file at idle
  dsimp only at idle ⊢
  cases appending with
  | some appending =>
    obtain ⟨part, id, copied⟩ := appending
    dsimp only at idle
    split at idle
    · cases idle
    · split at idle <;> cases idle
  | none =>
    dsimp only at idle
    rcases popped : waiting.pop with ⟨given, rest⟩
    rw [popped] at idle
    cases given with
    | none => rfl
    | some x =>
      dsimp only at idle
      split at idle <;> cases idle

theorem Moment.sequenced_of_path (able : p.Able) {object : ObjectMeta}
    (path : ReflTransGen (Moment.Next p source destination) (.begun w) (.fetching object directory crew))
    (collecting : crew.phase = .collecting a) :
    ∃ order come given, order.Perm (List.range (Part.count object.size p.partSize)) ∧
      come.map (·.1) <+: order ∧ (come.map (·.1)).Perm (crew.received.map Part.index) ∧
      Sequencer.Reached come given a.waiting := by
  obtain ⟨filled, id, progress, v, past, reached⟩ := Moment.staffed_of_path path
  have staff := Plan.staff_pos able.partSize_pos able.workers_pos (Nat.pos_of_ne_zero filled)
  have start : Sequenced (σ := σ) ⟨(Part.split object.size p.partSize).map .queued,
      .collecting ⟨id, 0, .empty, none, progress⟩, v⟩ := by
    refine ⟨fun h hh => ?_, fun a ha => ?_⟩
    · obtain ⟨part, -, rfl⟩ := List.mem_map.1 hh
      trivial
    · cases ha
      refine ⟨[], [], .start, ?_⟩
      rw [receivedOf_queued]
      exact .refl _
  have seq : Sequenced crew.view := reached.holds staff .listed start .change
  obtain ⟨come, given, sequencer, received⟩ := seq.taken a (by rw [Crew.State.view, collecting]; rfl)
  rw [Crew.State.view, receivedOf_holdings] at received
  obtain ⟨dropped, places, -⟩ := reached.staffed.places
  -- the parts that are still to come make the order complete
  let others := crew.queue ++ crew.inHand ++ crew.underWay ++ dropped
  refine ⟨come.map (·.1) ++ others.map Part.index, come, given, ?_, List.prefix_append _ _, received,
    sequencer⟩
  have all : (crew.received ++ others).Perm (Part.split object.size p.partSize) := by
    refine .trans ?_ places
    rw [Crew.State.parts, List.append_assoc _ crew.received]
    exact List.perm_append_comm_assoc _ _ _
  have indices := (all.map Part.index)
  rw [List.map_append, Part.split, List.map_map] at indices
  exact (received.append_right _).trans (indices.trans (.of_eq (List.map_id _)))

/-- In whatever order things come, and however often it is called in between, a sequencer gives them out by
their numbers; called until nothing comes after each of them, it has given out those before the first
that is missing. So does the coordinator of a download, which does it with the parts as they come. -/
theorem parts_are_given_out_in_order {n : Nat} {order : List Nat} (all : order.Perm (List.range n)) :
    (∀ {α : Type} {come given : List (Nat × α)} {s : Sequencer α}, Sequencer.Reached come given s →
      come.map (·.1) <+: order → Sequencer.InOrder n come given s) ∧
    (∀ {α : Type} {come : List (Nat × α)}, come.map (·.1) <+: order →
      FirstMissing (Sequencer.empty.sequence come).1.length (come.map (·.1))) ∧
    ∀ {σ : Type} (c : Config) (changes : List Plan.Change) (source : RangeSource σ) (destination : String)
      (w : World σ) {object : ObjectMeta} {directory : Path} {crew : Team σ} {a : Assembly},
      ReflTransGen (Moment.Next (Plan.adjusted c changes) source destination) (.begun w)
        (.fetching object directory crew) → crew.phase = .collecting a →
      ∃ come given, Sequencer.Reached come given a.waiting ∧
        (come.map (·.1)).Perm (crew.received.map Part.index) ∧
        Sequencer.InOrder (Part.count object.size (Plan.adjusted c changes).partSize) come given a.waiting ∧
        (a.file crew.world = none → FirstMissing given.length (crew.received.map Part.index)) := by
  refine ⟨fun reached before => reached.inOrder all before,
    fun before => Sequencer.firstMissing_sequence all before,
    fun c changes source destination w object directory crew a path collecting => ?_⟩
  obtain ⟨order, come, given, every, before, received, reached⟩ :=
    Moment.sequenced_of_path (Plan.able_adjusted c changes) path collecting
  refine ⟨come, given, reached, received, reached.inOrder every before, fun idle => ?_⟩
  have keeps := reached.keeps (Sequencer.nodup_of_before every before)
  obtain ⟨earlier, missing⟩ := keeps.run_of_pop_eq_none (Assembly.pop_of_file idle)
  exact ⟨fun i hi => received.mem_iff.1 (earlier i hi), fun came => missing (received.mem_iff.2 came)⟩

/-- The first of three parts is given out as soon as it has come, behind the last one. -/
theorem first_of_three_is_given_out : [2, 0, 1].Perm (List.range 3) ∧
    (Sequencer.empty.sequence [(2, 'c'), (0, 'a')]).1.length = 1 := by
  have all : [2, 0, 1].Perm (List.range 3) := by decide
  have run : FirstMissing (Sequencer.empty.sequence [(2, 'c'), (0, 'a')]).1.length [2, 0] :=
    (parts_are_given_out_in_order all).2.1 ⟨[1], rfl⟩
  obtain ⟨earlier, missing⟩ := run
  generalize (Sequencer.empty.sequence [(2, 'c'), (0, 'a')]).1.length = passed at earlier missing ⊢
  refine ⟨all, ?_⟩
  have some : passed ≠ 0 := by
    rintro rfl
    exact missing (by decide)
  by_contra other
  have one := earlier 1 (by omega)
  exact absurd one (by decide)

end ObjectTransfer.Download
