import Mathlib.Data.List.Nodup
import ObjectTransfer.Download.Sequencer
/-!
What a sequencer does with things that come in any order. Whatever is called, and how often: what was
given out has the numbers from zero on, and with what is held back it is all that came, as long as no
number comes twice.
-/
namespace ObjectTransfer.Download.Sequencer
variable {α : Type}

theorem insert_perm (n : Nat) (a : α) (l : List (Nat × α)) : (insert n a l).Perm ((n, a) :: l) := by
  induction l with
  | nil => exact .refl _
  | cons x l ih =>
    unfold insert
    by_cases h : n < x.1
    · rw [if_pos h]
    · rw [if_neg h]
      exact (ih.cons x).trans (.swap _ _ _)

theorem insert_sorted {n : Nat} (a : α) {l : List (Nat × α)} (sorted : l.Pairwise (·.1 < ·.1))
    (new : ∀ x ∈ l, x.1 ≠ n) : (insert n a l).Pairwise (·.1 < ·.1) := by
  induction l with
  | nil => exact List.pairwise_singleton _ _
  | cons x l ih =>
    obtain ⟨first, rest⟩ := List.pairwise_cons.1 sorted
    unfold insert
    by_cases h : n < x.1
    · rw [if_pos h]
      refine List.pairwise_cons.2 ⟨fun y hy => ?_, sorted⟩
      rcases List.mem_cons.1 hy with rfl | hy
      · exact h
      · exact Nat.lt_trans h (first y hy)
    · rw [if_neg h]
      refine List.pairwise_cons.2 ⟨fun y hy => ?_, ih rest fun y hy => new y (.tail _ hy)⟩
      rcases List.mem_cons.1 ((insert_perm n a l).mem_iff.1 hy) with rfl | hy
      · have hne := new x List.mem_cons_self
        change x.1 < n
        omega
      · exact first y hy

/-- Things with these numbers have come: those below the next number were given out, and the others are
held back in order. -/
structure Seen (numbers : List Nat) (s : Sequencer α) : Prop where
  sorted : s.held.Pairwise (·.1 < ·.1)
  ahead : ∀ x ∈ s.held, s.next ≤ x.1
  accounted : numbers.Perm (List.range s.next ++ s.held.map (·.1))

namespace Seen
variable {numbers numbers' : List Nat} {s : Sequencer α} {n : Nat}

theorem perm (perm : numbers'.Perm numbers) (seen : Seen numbers s) : Seen numbers' s :=
  { seen with accounted := perm.trans seen.accounted }

theorem push (seen : Seen numbers s) (new : n ∉ numbers) (a : α) : Seen (n :: numbers) (s.push n a) := by
  have perm := insert_perm n a s.held
  have unlisted := fun h => new (seen.accounted.mem_iff.2 h)
  refine ⟨?_, ?_, ?_⟩
  · refine insert_sorted a seen.sorted fun x hx h => unlisted ?_
    exact List.mem_append_right _ (List.mem_map.2 ⟨x, hx, h⟩)
  · intro x hx
    rcases List.mem_cons.1 (perm.mem_iff.1 hx) with rfl | hx
    · -- the numbers below are those that were given out
      by_contra early
      exact unlisted (List.mem_append_left _ (List.mem_range.2 (Nat.not_le.1 early)))
    · exact seen.ahead x hx
  · have held := (perm.map (·.1)).append_left (List.range s.next)
    exact (seen.accounted.cons _).trans (List.perm_middle.symm.trans held.symm)

/-- A sequencer gives out the thing with the next number, or that has not come yet. -/
theorem pop_cases (seen : Seen numbers s) :
    ((∀ x ∈ s.held, s.next < x.1) ∧ s.next ∉ numbers ∧ s.pop = (none, s)) ∨
      ∃ a rest, s.held = (s.next, a) :: rest ∧ s.pop = (some (s.next, a), ⟨s.next + 1, rest⟩) ∧
        Seen numbers ⟨s.next + 1, rest⟩ := by
  obtain ⟨next, held⟩ := s
  obtain ⟨sorted, ahead, accounted⟩ := seen
  dsimp only at sorted ahead accounted ⊢
  have missing (later : ∀ x ∈ held, next < x.1) : next ∉ numbers := by
    intro came
    rcases List.mem_append.1 (accounted.mem_iff.1 came) with early | waits
    · exact absurd (List.mem_range.1 early) (Nat.lt_irrefl _)
    · obtain ⟨y, hy, same⟩ := List.mem_map.1 waits
      exact absurd same (Nat.ne_of_gt (later y hy))
  cases held with
  | nil =>
    have later : ∀ x ∈ ([] : List (Nat × α)), next < x.1 := fun _ h => (by cases h)
    exact .inl ⟨later, missing later, rfl⟩
  | cons x rest =>
    obtain ⟨n, a⟩ := x
    obtain ⟨above, sorted⟩ := List.pairwise_cons.1 sorted
    by_cases turn : n = next
    · subst turn
      refine .inr ⟨a, rest, rfl, if_pos rfl, sorted, above, ?_⟩
      rw [List.range_succ, List.append_assoc]
      exact accounted
    · have least := ahead _ List.mem_cons_self
      have later : ∀ y ∈ (n, a) :: rest, next < y.1 := by
        intro y hy
        dsimp only at least above
        rcases List.mem_cons.1 hy with rfl | hy
        · change next < n
          omega
        · exact Nat.lt_of_le_of_lt least (above y hy)
      exact .inl ⟨later, missing later, if_neg turn⟩

end Seen

/-- The sequencers that calls lead to, in any order and number, with what came and what was given out
on the way, each in the order of the calls. -/
inductive Reached : (come given : List (Nat × α)) → Sequencer α → Prop
  | start : Reached [] [] empty
  | push {come given : List (Nat × α)} {s : Sequencer α} (before : Reached come given s)
      (x : Nat × α) : Reached (come ++ [x]) given (s.push x.1 x.2)
  | pop {come given : List (Nat × α)} {s : Sequencer α} (before : Reached come given s) :
      Reached come (given ++ s.pop.1.toList) s.pop.2

/-- A sequencer that keeps the order: what was given out has the first numbers, and what is held back is
the rest of what came. -/
structure Keeps (come given : List (Nat × α)) (s : Sequencer α) : Prop extends
    Seen (come.map (·.1)) s where
  first : given.map (·.1) = List.range s.next
  rest : come.Perm (given ++ s.held)

variable {come given : List (Nat × α)} {s : Sequencer α} {x : Nat × α}

namespace Keeps

theorem start : Keeps [] [] (empty : Sequencer α) :=
  ⟨⟨.nil, fun _ h => (by cases h), .refl _⟩, rfl, .refl _⟩

theorem next_eq (keeps : Keeps come given s) : s.next = given.length := by
  rw [← List.length_map (·.1), keeps.first, List.length_range]

theorem push (keeps : Keeps come given s) (new : x.1 ∉ come.map (·.1)) :
    Keeps (come ++ [x]) given (s.push x.1 x.2) := by
  have last := List.perm_append_singleton x come
  refine ⟨(keeps.toSeen.push new x.2).perm (last.map _), keeps.first, ?_⟩
  have front : (x :: (given ++ s.held)).Perm (given ++ insert x.1 x.2 s.held) :=
    List.perm_middle.symm.trans ((insert_perm x.1 x.2 s.held).symm.append_left given)
  exact last.trans ((keeps.rest.cons x).trans front)

theorem pop (keeps : Keeps come given s) : Keeps come (given ++ s.pop.1.toList) s.pop.2 := by
  rcases keeps.pop_cases with ⟨-, -, none⟩ | ⟨a, rest, held, popped, seen⟩
  · rw [none, Option.toList_none, List.append_nil]
    exact keeps
  · have all := keeps.rest
    rw [held] at all
    rw [popped]
    refine ⟨seen, ?_, ?_⟩
    · rw [List.map_append, keeps.first, List.range_succ]
      rfl
    · rw [List.append_assoc]
      exact all

/-- Only what came is given out, with the number whose turn it is. -/
theorem pop_eq_some_iff (keeps : Keeps come given s) (distinct : (come.map (·.1)).Nodup) :
    s.pop.1 = some x ↔ x ∈ come ∧ x.1 = given.length := by
  rw [← keeps.next_eq]
  rcases keeps.pop_cases with ⟨-, missing, none⟩ | ⟨a, rest, held, popped, -⟩
  · rw [none]
    constructor
    · intro h
      cases h
    · rintro ⟨came, turn⟩
      exact absurd (List.mem_map.2 ⟨x, came, turn⟩) missing
  · have came : (s.next, a) ∈ come :=
      keeps.rest.mem_iff.2 (List.mem_append_right _ (held ▸ List.mem_cons_self))
    rw [popped, Option.some.injEq]
    constructor
    · rintro rfl
      exact ⟨came, rfl⟩
    · rintro ⟨came', turn⟩
      exact List.inj_on_of_nodup_map distinct came came' turn.symm

theorem pending_eq (keeps : Keeps come given s) : s.pending = come.length - given.length := by
  rw [keeps.rest.length_eq, List.length_append, Nat.add_sub_cancel_left]
  rfl

theorem given_subset (keeps : Keeps come given s) : given ⊆ come := fun _ h =>
  keeps.rest.mem_iff.2 (List.mem_append_left _ h)

theorem turn_notMem_given (keeps : Keeps come given s) : given.length ∉ given.map (·.1) := by
  rw [keeps.first, ← keeps.next_eq]
  exact fun h => absurd (List.mem_range.1 h) (Nat.lt_irrefl _)

theorem run_of_pop_eq_none (keeps : Keeps come given s) (none : s.pop.1 = none) :
    (∀ i < given.length, i ∈ come.map (·.1)) ∧ given.length ∉ come.map (·.1) := by
  constructor
  · intro i hi
    rw [← keeps.next_eq] at hi
    obtain ⟨x, hx, same⟩ := List.mem_map.1 (keeps.first ▸ List.mem_range.2 hi)
    exact List.mem_map.2 ⟨x, keeps.given_subset hx, same⟩
  · rcases keeps.pop_cases with ⟨-, missing, -⟩ | ⟨a, rest, -, popped, -⟩
    · exact keeps.next_eq ▸ missing
    · rw [popped] at none
      cases none

end Keeps

/-- The order is kept whatever is called, as long as no number comes twice. -/
theorem Reached.keeps (reached : Reached come given s) (distinct : (come.map (·.1)).Nodup) :
    Keeps come given s := by
  induction reached with
  | start => exact .start
  | push before x ih =>
    rw [List.map_append] at distinct
    obtain ⟨earlier, -, apart⟩ := List.nodup_append.1 distinct
    exact (ih earlier).push fun again => apart _ again _ (List.mem_singleton_self _) rfl
  | pop before ih => exact (ih distinct).pop

/-- So many calls that give out the next thing. -/
def pops : Nat → Sequencer α → List (Nat × α) × Sequencer α
  | 0, s => ([], s)
  | n + 1, s => (s.pop.1.toList ++ (pops n s.pop.2).1, (pops n s.pop.2).2)

/-- When all numbers below `n` have come, so many calls as there are things left give out the rest. -/
theorem Keeps.pops {n : Nat} (keeps : Keeps come given s)
    (all : (come.map (·.1)).Perm (List.range n)) :
    (s.pops (n - given.length)).1.map (·.1) = List.range' given.length (n - given.length) ∧
      come.Perm (given ++ (s.pops (n - given.length)).1) ∧
      (s.pops (n - given.length)).2.pending = 0 := by
  have total : come.length = n := by
    rw [← List.length_map (·.1), all.length_eq, List.length_range]
  generalize left : n - given.length = m
  induction m generalizing given s with
  | zero =>
    have pending := keeps.pending_eq
    rw [total, left] at pending
    have through := keeps.rest
    rw [List.eq_nil_of_length_eq_zero pending] at through
    exact ⟨rfl, through, pending⟩
  | succ m ih =>
    rcases keeps.pop_cases with ⟨-, missing, -⟩ | ⟨a, rest, held, popped, -⟩
    · refine absurd (all.mem_iff.2 (List.mem_range.2 ?_)) missing
      rw [keeps.next_eq]
      omega
    · have next := keeps.pop
      rw [popped] at next
      have length : (given ++ [(s.next, a)]).length = given.length + 1 := List.length_append
      obtain ⟨numbers, perm, none⟩ := ih next (by rw [Option.toList_some, length]; omega)
      rw [Option.toList_some] at numbers perm
      rw [length] at numbers
      rw [List.append_assoc] at perm
      rw [Sequencer.pops, popped]
      refine ⟨?_, perm, none⟩
      rw [Option.toList_some, List.map_append, numbers, List.range'_succ, keeps.next_eq]
      rfl

theorem pending_pop {s' : Sequencer α} (h : s.pop = (some x, s')) : s'.pending < s.pending := by
  obtain ⟨next, held⟩ := s
  cases held with
  | nil => cases h
  | cons y rest =>
    unfold pop at h
    split at h
    · cases h
    · rename_i held
      cases held
      split at h
      · cases h
        exact Nat.lt_succ_self _
      · cases h

/-- Calls until nothing is given out any more. -/
def drain (s : Sequencer α) : List (Nat × α) × Sequencer α :=
  match _ : s.pop with
  | (none, _) => ([], s)
  | (some x, s') =>
    let (more, t) := drain s'
    (x :: more, t)
termination_by s.pending
decreasing_by exact pending_pop ‹_›

/-- Takes in one thing after the other, and after each gives out all whose turn it is. -/
def sequence : List (Nat × α) → Sequencer α → List (Nat × α) × Sequencer α
  | [], s => ([], s)
  | x :: rest, s =>
    let (given, s) := (s.push x.1 x.2).drain
    let (more, t) := sequence rest s
    (given ++ more, t)

theorem Reached.drain (reached : Reached come given s) :
    Reached come (given ++ s.drain.1) s.drain.2 ∧ s.drain.2.pop.1 = none := by
  induction s using drain.induct generalizing given with
  | case1 s t none =>
    rw [Sequencer.drain]
    split
    · rw [List.append_nil]
      exact ⟨reached, by rw [none]⟩
    · rename_i some
      cases none.symm.trans some
  | case2 s x t popped more u drained ih =>
    have next := reached.pop
    rw [popped] at next
    obtain ⟨through, done⟩ := ih next
    rw [Sequencer.drain]
    split
    · rename_i none
      cases popped.symm.trans none
    · rename_i y t' same
      cases popped.symm.trans same
      rw [List.append_assoc] at through
      exact ⟨through, done⟩

theorem Reached.sequence (reached : Reached come given s) (waits : s.pop.1 = none)
    (things : List (Nat × α)) :
    Reached (come ++ things) (given ++ (s.sequence things).1) (s.sequence things).2 ∧
      (s.sequence things).2.pop.1 = none := by
  induction things generalizing come given s with
  | nil =>
    rw [Sequencer.sequence, List.append_nil, List.append_nil]
    exact ⟨reached, waits⟩
  | cons x things ih =>
    obtain ⟨through, done⟩ := (reached.push x).drain
    have rest := ih through done
    rw [List.append_assoc, List.append_assoc] at rest
    exact rest

end ObjectTransfer.Download.Sequencer
