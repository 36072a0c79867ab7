import ObjectTransfer.Proofs.S3.Calls
import ObjectTransfer.Proofs.S3.Parts
import ObjectTransfer.Rehearsal.S3Script
/-!
From what an upload is completed. The parts may be named in any order and any of them again: for each
number the last part counts, and an upload is completed exactly when the numbers that occur are those from
one to some number of parts.
-/
namespace ObjectTransfer.S3
open Rehearsal

def lastOf (number : Int) (parts : List UploadedPart) : Option UploadedPart :=
  parts.reverse.find? fun p => p.number = number

/-- The numbers that occur are those from one to `n`. -/
def Numbered (n : Nat) (parts : List UploadedPart) : Prop :=
  ∀ i : Int, (∃ p ∈ parts, p.number = i) ↔ 1 ≤ i ∧ i ≤ n

/-- The `n` parts from which an upload is completed: in the order of their numbers, and for each number the
last part that has it. -/
structure Chosen (n : Nat) (parts sorted : List UploadedPart) : Prop where
  length : sorted.length = n
  ascending : sorted.Pairwise fun a b => a.number < b.number
  last : ∀ i < n, ∃ p, sorted[i]? = some p ∧ p.number = i + 1 ∧ lastOf (i + 1) parts = some p

/-- Why an upload is not completed: there is no part, or behind the numbers from one to some `k` (perhaps
none) comes a number that is not the next one. -/
inductive Unfit (parts : List UploadedPart) : Reason → Prop
  | empty (none : parts = []) : Unfit parts .noParts
  | gap {k : Nat} {found : Int} (before : ∀ i : Int, 1 ≤ i → i ≤ k → ∃ p ∈ parts, p.number = i)
      (held : ∃ p ∈ parts, p.number = found) (other : found ≠ k + 1)
      (below : ∀ p ∈ parts, p.number < found ↔ 1 ≤ p.number ∧ p.number ≤ k) :
      Unfit parts (.partsNotContiguous (k + 1) found)

variable {p : UploadedPart} {parts others l sorted : List UploadedPart} {number : Int} {n : Nat}

theorem lastOf_cons : lastOf number (p :: parts) =
    (lastOf number parts).or (if p.number = number then some p else none) := by
  rw [lastOf, List.reverse_cons, List.find?_append]
  by_cases same : p.number = number <;> simp [lastOf, same]

theorem lastOf_isSome : (lastOf number parts).isSome ↔ ∃ p ∈ parts, p.number = number := by
  simp [lastOf]

theorem find?_insertPart : (insertPart p l).find? (fun q => q.number = number) =
    if p.number = number then some p else l.find? fun q => q.number = number := by
  induction l with
  | nil => by_cases same : p.number = number <;> simp [insertPart, same]
  | cons q l ih =>
    unfold insertPart
    split
    · by_cases same : p.number = number <;> simp [same]
    · split
      · rename_i again
        by_cases same : p.number = number <;> simp [← again, same]
      · rename_i other
        by_cases same : q.number = number
        · have different : p.number ≠ number := fun h => other (h.trans same.symm)
          simp [same, different]
        · simp [same, ih]

theorem find?_sortParts : (sortParts parts).find? (fun q => q.number = number) =
    lastOf number parts := by
  have onto (parts l : List UploadedPart) :
      (parts.foldl (fun l p => insertPart p l) l).find? (fun q => q.number = number) =
        (lastOf number parts).or (l.find? fun q => q.number = number) := by
    induction parts generalizing l with
    | nil => rfl
    | cons p parts ih =>
      rw [List.foldl_cons, ih, find?_insertPart, lastOf_cons, Option.or_assoc]
      by_cases same : p.number = number <;> simp [same]
  exact (onto parts []).trans (Option.or_none)

theorem mem_sortParts : p ∈ sortParts parts ↔ lastOf p.number parts = some p := by
  rw [← find?_sortParts]
  refine ⟨fun held => ?_, List.mem_of_find?_eq_some⟩
  obtain ⟨before, after, split⟩ := List.append_of_mem held
  have sorted := sortParts_sorted parts
  rw [split] at sorted ⊢
  refine List.find?_eq_some_iff_append.2 ⟨by simp, before, after, rfl, fun q hq => ?_⟩
  have smaller := (List.pairwise_append.1 sorted).2.2 q hq p List.mem_cons_self
  simpa using Int.ne_of_lt smaller

theorem mem_numbers_sortParts :
    number ∈ (sortParts parts).map (·.number) ↔ ∃ p ∈ parts, p.number = number := by
  rw [← lastOf_isSome, ← find?_sortParts, List.find?_isSome, List.mem_map]
  simp

theorem eq_of_ascending (hs : sorted.Pairwise fun a b => a.number < b.number)
    (hl : l.Pairwise fun a b => a.number < b.number) (same : ∀ p, p ∈ sorted ↔ p ∈ l) : sorted = l :=
  have : Std.Irrefl fun a b : UploadedPart => a.number < b.number := ⟨fun _ => Int.lt_irrefl _⟩
  hs.eq_of_mem_iff hl same

theorem sortParts_congr (same : ∀ i, lastOf i others = lastOf i parts) :
    sortParts others = sortParts parts := by
  refine eq_of_ascending (sortParts_sorted others) (sortParts_sorted parts) fun p => ?_
  rw [mem_sortParts, mem_sortParts, same]

theorem mem_numbers {i : Int} : i ∈ numbers n ↔ 1 ≤ i ∧ i ≤ n := by
  rw [numbers, List.mem_map]
  constructor
  · rintro ⟨k, held, rfl⟩
    rw [List.mem_range] at held
    omega
  · rintro ⟨low, high⟩
    exact ⟨(i - 1).toNat, List.mem_range.2 (by omega), by omega⟩

/-- The numbers that occur are told by the list that is put together. -/
theorem numbered_iff : Numbered n parts ↔ (sortParts parts).map (·.number) = numbers n := by
  have ascending : ((sortParts parts).map (·.number)).Pairwise (· < ·) :=
    List.pairwise_map.2 (sortParts_sorted parts)
  constructor
  · intro h
    refine ascending.eq_of_mem_iff (numbers_sorted n) fun i => ?_
    rw [mem_numbers_sortParts, mem_numbers]
    exact h i
  · intro h i
    rw [← mem_numbers, ← h, mem_numbers_sortParts]

theorem Numbered.chosen (h : Numbered n parts) : Chosen n parts (sortParts parts) := by
  have inOrder := numbered_iff.1 h
  have length : (sortParts parts).length = n := by
    simpa [numbers] using congrArg List.length inOrder
  refine ⟨length, sortParts_sorted parts, fun i hi => ?_⟩
  have inside : i < (sortParts parts).length := length ▸ hi
  have number : (sortParts parts)[i].number = i + 1 := by
    have at_i := congrArg (·[i]?) inOrder
    simpa [numbers, inside, hi] using at_i
  refine ⟨_, List.getElem?_eq_getElem inside, number, ?_⟩
  rw [← number]
  exact mem_sortParts.1 (List.getElem_mem inside)

theorem checkContiguous_cases (first : Int) (l : List UploadedPart) :
    l.map (·.number) = (List.range l.length).map (fun i : Nat => first + i) ∨
    ∃ before q after, l = before ++ q :: after ∧
      before.map (·.number) = (List.range before.length).map (fun i : Nat => first + i) ∧
      q.number ≠ first + before.length ∧ checkContiguous first l =
        .error (.invalid (.partsNotContiguous (first + before.length) q.number)) := by
  induction l generalizing first with
  | nil => exact .inl rfl
  | cons p l ih =>
    have later (l : List UploadedPart) (expected : p.number = first)
        (rest : l.map (·.number) = (List.range l.length).map (fun i : Nat => first + 1 + i)) :
        (p :: l).map (·.number) = (List.range (p :: l).length).map (fun i : Nat => first + i) := by
      rw [List.length_cons, List.range_succ_eq_map, List.map_cons, List.map_cons, rest, List.map_map]
      refine congrArg₂ List.cons (by simpa using expected) (List.map_congr_left fun i _ => ?_)
      simp only [Function.comp_apply]
      omega
    unfold checkContiguous
    by_cases expected : p.number = first
    · rw [if_pos expected]
      rcases ih (first + 1) with all | ⟨before, q, after, rfl, inOrder, other, refused⟩
      · exact .inl (later l expected all)
      · have moved : first + 1 + (before.length : Int) = first + ((p :: before).length : Nat) := by
          rw [List.length_cons]
          omega
        rw [moved] at other refused
        exact .inr ⟨p :: before, q, after, rfl, later before expected inOrder, other, refused⟩
    · rw [if_neg expected]
      exact .inr ⟨[], p, l, rfl, rfl, by simpa using expected, by simp⟩

theorem unfit_of_cut {before after : List UploadedPart} {q : UploadedPart}
    (cut : sortParts parts = before ++ q :: after)
    (inOrder : before.map (·.number) = (List.range before.length).map (fun i : Nat => 1 + (i : Int)))
    (other : q.number ≠ 1 + before.length) :
    Unfit parts (.partsNotContiguous (1 + before.length) q.number) := by
  have numbered (i : Int) : i ∈ before.map (·.number) ↔ 1 ≤ i ∧ i ≤ before.length := by
    rw [inOrder, ← mem_numbers, numbers]
    simp only [Int.add_comm]
  have sorted := sortParts_sorted parts
  rw [cut] at sorted
  have held (i : Int) (h : i ∈ (sortParts parts).map (·.number)) : ∃ p ∈ parts, p.number = i :=
    mem_numbers_sortParts.1 h
  rw [cut, List.map_append, List.map_cons] at held
  rw [Int.add_comm] at other ⊢
  obtain ⟨-, rest, apart⟩ := List.pairwise_append.1 sorted
  refine .gap (fun i low high => held i ?_) (held _ ?_) other fun p hp => ?_
  · exact List.mem_append_left _ ((numbered i).2 ⟨low, high⟩)
  · exact List.mem_append_right _ List.mem_cons_self
  · rw [← numbered]
    constructor
    · intro smaller
      have listed := mem_numbers_sortParts.2 ⟨p, hp, rfl⟩
      rw [cut, List.map_append, List.map_cons, List.mem_append, List.mem_cons] at listed
      rcases listed with listed | same | later
      · exact listed
      · omega
      · -- what stands behind a part in the list has a larger number
        obtain ⟨r, hr, same⟩ := List.mem_map.1 later
        have larger := (List.pairwise_cons.1 rest).1 r hr
        omega
    · intro earlier
      obtain ⟨r, hr, same⟩ := List.mem_map.1 earlier
      exact same ▸ apart r hr q List.mem_cons_self

theorem Unfit.not_numbered {reason : Reason} (h : Unfit parts reason) (positive : 0 < n) :
    ¬ Numbered n parts := by
  intro all
  cases h with
  | empty none =>
    obtain ⟨p, held, -⟩ := (all 1).2 (by omega)
    rw [none] at held
    cases held
  | @gap k found before held other below =>
    obtain ⟨low, high⟩ := (all found).1 held
    obtain ⟨p, hp, rfl⟩ := held
    have behind : ¬ (1 ≤ p.number ∧ p.number ≤ k) := fun h => Int.lt_irrefl _ ((below p hp).2 h)
    -- the number that was expected occurs before the one that was found
    obtain ⟨r, hr, next⟩ := (all (k + 1)).2 (by omega)
    have expected := (below r hr).1 (by omega)
    omega

theorem orderedParts_cases (parts : List UploadedPart) :
    (∃ n, 0 < n ∧ Numbered n parts ∧ orderedParts parts = .ok (sortParts parts)) ∨
    ∃ reason, Unfit parts reason ∧ orderedParts parts = .error (.invalid reason) := by
  unfold orderedParts
  split
  · rename_i nothing
    have none : parts = [] := by
      refine List.eq_nil_iff_forall_not_mem.2 fun p hp => ?_
      have listed := mem_numbers_sortParts.2 ⟨p, hp, rfl⟩
      rw [nothing] at listed
      cases listed
    exact .inr ⟨_, .empty none, rfl⟩
  · rename_i some
    rcases checkContiguous_cases 1 (sortParts parts) with inOrder | ⟨before, q, after, cut, inOrder, other, no⟩
    · refine .inl ⟨(sortParts parts).length, List.length_pos_iff.2 some, numbered_iff.2 ?_, ?_⟩
      · rw [inOrder, numbers]
        simp only [Int.add_comm]
      · have contiguous : checkContiguous 1 (sortParts parts) = .ok () := @checkContiguous_ok _ _ 1 inOrder
        rw [contiguous]
        rfl
    · refine .inr ⟨_, unfit_of_cut cut inOrder other, ?_⟩
      rw [no]
      rfl

variable {σ : Type}

/-- An upload is completed exactly when the numbers that occur among its parts are those from one to some
number of parts; otherwise nothing is sent, and the parts are refused as invalid. One call completes it,
with one part for each number, in ascending order and each the last that was named with its number, and
their count is what is reported. So nothing else of the list matters, neither the order of parts with
different numbers nor a part that is named again later. -/
theorem completes_from_last_parts (s : S3 σ) (u : Upload) (parts : List UploadedPart)
    (w : World (Calls σ)) :
    ((∃ n sorted result peer, 0 < n ∧ Numbered n parts ∧ Chosen n parts sorted ∧
        s.observed.complete u parts w =
          ((given "the completed object ETag" result).map fun eTag => ⟨eTag, n⟩,
            noted w peer ⟨.complete u sorted, result⟩)) ∨
      (∀ n, 0 < n → ¬ Numbered n parts) ∧ ∃ reason, Unfit parts reason ∧
        s.observed.complete u parts w = (.error (.of .inputInvalid reason), w)) ∧
    ∀ others, (∀ i, lastOf i others = lastOf i parts) →
      s.observed.complete u others w = s.observed.complete u parts w := by
  refine ⟨?_, fun others same => ?_⟩
  · rcases orderedParts_cases parts with ⟨n, positive, numbered, ordered⟩ | ⟨reason, refused, no⟩
    · obtain ⟨result, peer, made⟩ := complete_observed s (u := u) ordered w
      have chosen := numbered.chosen
      rw [chosen.length] at made
      exact .inl ⟨n, _, result, peer, positive, numbered, chosen, made⟩
    · refine .inr ⟨fun n positive => refused.not_numbered positive, reason, refused, ?_⟩
      rw [complete, no]
      rfl
  · have ordered : orderedParts others = orderedParts parts := by
      rw [orderedParts, orderedParts, sortParts_congr same]
    rw [complete, complete, ordered]

def namedAgain : List UploadedPart := [⟨2, "b"⟩, ⟨1, "a"⟩, ⟨2, "b2"⟩]

theorem part_named_again_counts : ∃ result peer,
    S3Script.service.observed.complete ⟨⟨"b", "k"⟩, "upload-1"⟩ namedAgain
        (watched (.initial .empty .empty)) =
      ((given "the completed object ETag" result).map fun eTag => ⟨eTag, 2⟩,
        noted (watched (.initial .empty .empty)) peer
          ⟨.complete ⟨⟨"b", "k"⟩, "upload-1"⟩ [⟨1, "a"⟩, ⟨2, "b2"⟩], result⟩) ∧
    S3Script.service.observed.complete ⟨⟨"b", "k"⟩, "upload-1"⟩ [⟨2, "b2"⟩, ⟨1, "a"⟩]
        (watched (.initial .empty .empty)) =
      S3Script.service.observed.complete ⟨⟨"b", "k"⟩, "upload-1"⟩ namedAgain
        (watched (.initial .empty .empty)) := by
  obtain ⟨done, alike⟩ := completes_from_last_parts S3Script.service ⟨⟨"b", "k"⟩, "upload-1"⟩ namedAgain
    (watched (.initial .empty .empty))
  have numbers : Numbered 2 namedAgain := by
    intro i
    simp only [namedAgain, List.mem_cons, List.not_mem_nil, or_false, exists_eq_or_imp,
      exists_eq_left]
    omega
  obtain ⟨n, sorted, result, peer, -, numbered, chosen, made⟩ | ⟨other, -⟩ := done
  · obtain rfl : n = 2 := by
      have least := (numbered 2).1 ((numbers 2).2 (by omega))
      have most := (numbers n).1 ((numbered n).2 (by omega))
      omega
    obtain ⟨a, b, rfl⟩ := List.length_eq_two.1 chosen.length
    obtain ⟨_, stands, -, first⟩ := chosen.last 0 (by omega)
    cases stands
    obtain ⟨_, stands, -, second⟩ := chosen.last 1 (by omega)
    cases stands
    cases first
    cases second
    refine ⟨result, peer, made, alike _ fun i => ?_⟩
    by_cases first : 1 = i
    · subst first
      rfl
    · by_cases second : 2 = i
      · subst second
        rfl
      · simp [lastOf, namedAgain, first, second]
  · exact absurd numbers (other 2 (by omega))

end ObjectTransfer.S3
