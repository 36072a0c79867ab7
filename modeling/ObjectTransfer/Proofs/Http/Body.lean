import Mathlib.Data.List.ReduceOption
import ObjectTransfer.Http.Body
import ObjectTransfer.Proofs.Source.Stream
/-!
The views of a body. The items of a body can be asked for one after the other, be taken as a stream, or be
collected into one piece, also when some of them have been asked for before. Whichever way they are taken,
they are the same items in the same order, and no byte of the content is lost or comes twice. Only a stream
that unfolds a state cannot be asked for ever: it tells its end once.
-/
namespace ObjectTransfer.Http.Body
open SourceBody (joined)

def chunks : List (Except Cause ByteArray) → List ByteArray
  | [] => []
  | .ok chunk :: items => chunk :: chunks items
  | .error _ :: items => chunks items

def failures : List (Except Cause ByteArray) → List Cause
  | [] => []
  | .ok _ :: items => failures items
  | .error cause :: items => cause :: failures items

def bytes? : Body → Option ByteArray
  | .whole data => some (data.getD .empty)
  | .stream _ | .unfolding _ => none

/-- All bytes of a body, those behind a failure too. -/
def content : Body → ByteArray
  | .whole data => data.getD .empty
  | .stream items => joined (chunks items)
  | .unfolding state => joined (chunks (state.getD []))

/-- What was found when a body was asked for items, and the body that is left. -/
structure Asked where
  found : List (Option (Except Cause ByteArray))
  rest : Body

/-- Asks for the next item this often; `none` when one of the calls is a panic. -/
def ask : Nat → Body → Option Asked
  | 0, b => some ⟨[], b⟩
  | k + 1, b => b.poll.bind fun answer =>
    (ask k answer.2).map fun a => ⟨answer.1 :: a.found, a.rest⟩

/-- How often a body can be asked, where there is a limit to it: for each item, and for the end. -/
def polls? : Body → Option Nat
  | .whole _ | .stream _ => none
  | .unfolding state => some (state.elim 0 fun items => items.length + 1)

/-- The body can be asked this often, and once more. -/
def Lasts (b : Body) (k : Nat) : Prop := ∀ n ∈ b.polls?, k < n

variable {data : ByteArray} {b later : Body} {k : Nat} {a : Asked}
  {found : Option (Except Cause ByteArray)}

theorem foldl_append (front : ByteArray) (cs : List ByteArray) :
    cs.foldl (· ++ ·) front = front ++ joined cs := by
  have : Std.Associative fun c d : ByteArray => c ++ d := ⟨fun _ _ _ => ByteArray.append_assoc⟩
  calc
    cs.foldl (· ++ ·) front = cs.foldl (· ++ ·) (front ++ .empty) := by rw [ByteArray.append_empty]
    _ = front ++ joined cs := List.foldl_assoc

theorem joined_append (cs ds : List ByteArray) : joined (cs ++ ds) = joined cs ++ joined ds := by
  rw [joined, List.foldl_append]
  exact foldl_append (joined cs) ds

theorem chunks_append (items later : List (Except Cause ByteArray)) :
    chunks (items ++ later) = chunks items ++ chunks later := by
  induction items with
  | nil => rfl
  | cons item items ih =>
    cases item with
    | ok chunk => exact congrArg (chunk :: ·) ih
    | error cause => exact ih

theorem join_eq (front : ByteArray) (items : List (Except Cause ByteArray)) :
    join front items =
      (failures items).head?.elim (.ok (front ++ joined (chunks items))) .error := by
  induction items generalizing front with
  | nil => exact congrArg Except.ok ByteArray.append_empty.symm
  | cons item items ih =>
    cases item with
    | ok chunk =>
      have same : front ++ chunk ++ joined (chunks items) = front ++ joined (chunk :: chunks items) := by
        rw [← foldl_append, ← foldl_append]
        rfl
      rw [join, ih, same]
      rfl
    | error cause => rfl

theorem items_ofBytes (filled : data ≠ .empty) : (ofBytes data).items = [.ok data] := by
  refine if_neg fun empty => filled ?_
  rwa [ByteArray.isEmpty, beq_iff_eq, ByteArray.size_eq_zero_iff] at empty

theorem unbroken_ofBytes (data : ByteArray) :
    failures (ofBytes data).items = [] ∧ joined (chunks (ofBytes data).items) = data := by
  by_cases empty : data = .empty
  · rw [empty]
    exact ⟨rfl, rfl⟩
  · rw [items_ofBytes empty]
    exact ⟨rfl, ByteArray.empty_append⟩

theorem join_ofBytes (data : ByteArray) : join .empty (ofBytes data).items = .ok data := by
  obtain ⟨unbroken, whole⟩ := unbroken_ofBytes data
  rw [join_eq, unbroken, whole]
  exact congrArg Except.ok ByteArray.empty_append

theorem items_of_bytes? (held : b.bytes? = some data) :
    b.items = (ofBytes data).items ∧ b.collect = .ok data ∧ b.content = data := by
  cases b with
  | whole bytes =>
    cases held
    cases bytes with
    | none => exact ⟨rfl, rfl, rfl⟩
    | some data => exact ⟨rfl, rfl, rfl⟩
  | stream items => cases held
  | unfolding state => cases held

theorem collect_eq_join (b : Body) : b.collect = join .empty b.items := by
  cases b with
  | whole bytes =>
    obtain ⟨items, collect, -⟩ := items_of_bytes? (b := .whole bytes) rfl
    rw [collect, items, join_ofBytes]
  | stream items => rfl
  | unfolding state => rfl

theorem joined_chunks (b : Body) : joined (chunks b.items) = b.content := by
  cases b with
  | whole bytes =>
    obtain ⟨items, -, content⟩ := items_of_bytes? (b := .whole bytes) rfl
    rw [content, items]
    exact (unbroken_ofBytes _).2
  | stream items => rfl
  | unfolding state => rfl

theorem collect_eq (b : Body) :
    b.collect = (failures b.items).head?.elim (.ok b.content) .error := by
  rw [collect_eq_join, join_eq, ByteArray.empty_append, joined_chunks]

theorem Lasts.mono {j : Nat} (lasts : b.Lasts k) (le : j ≤ k) : b.Lasts j :=
  fun n limit => Nat.lt_of_le_of_lt le (lasts n limit)

theorem poll_isSome_iff (b : Body) : b.poll.isSome ↔ b.Lasts 0 := by
  cases b with
  | whole bytes => cases bytes <;> simp [poll, Lasts, polls?]
  | stream items => cases items <;> simp [poll, Lasts, polls?]
  | unfolding state =>
    cases state with
    | none => simp [poll, Lasts, polls?]
    | some items => cases items <;> simp [poll, Lasts, polls?]

theorem lasts_poll (polled : b.poll = some (found, later)) : later.Lasts k ↔ b.Lasts (k + 1) := by
  cases b with
  | whole bytes => cases bytes <;> cases polled <;> simp [Lasts, polls?]
  | stream items => cases items <;> cases polled <;> simp [Lasts, polls?]
  | unfolding state =>
    cases state with
    | none => cases polled
    | some items => cases items <;> cases polled <;> simp [Lasts, polls?]

/-- What is left when some items were asked for: the other items, and the calls that were not made. -/
theorem ask_rest (asked : b.ask k = some a) :
    a.rest.items = b.items.drop k ∧ (a.rest.Lasts 0 ↔ b.Lasts k) := by
  induction k generalizing b a with
  | zero =>
    cases asked
    exact ⟨rfl, Iff.rfl⟩
  | succ k ih =>
    obtain ⟨⟨found, later⟩, polled, others⟩ := Option.bind_eq_some_iff.1 asked
    obtain ⟨a', asked', rfl⟩ := Option.map_eq_some_iff.1 others
    obtain ⟨items, lasts⟩ := ih asked'
    refine ⟨?_, lasts.trans (lasts_poll polled)⟩
    calc
      a'.rest.items = later.items.drop k := items
      _ = b.items.tail.drop k := by rw [(poll_eq polled).2]
      _ = b.items.drop (k + 1) := List.drop_tail

theorem ask_found (asked : b.ask k = some a) :
    a.found = (b.items.take k).map some ++ List.replicate (k - b.items.length) none := by
  induction k generalizing b a with
  | zero =>
    cases asked
    rw [Nat.zero_sub]
    rfl
  | succ k ih =>
    obtain ⟨⟨found, later⟩, polled, others⟩ := Option.bind_eq_some_iff.1 asked
    obtain ⟨a', asked', rfl⟩ := Option.map_eq_some_iff.1 others
    obtain ⟨first, tail⟩ := poll_eq polled
    dsimp only
    rw [ih asked', first, tail]
    cases b.items with
    | nil => simp [List.replicate_succ]
    | cons item items => simp

theorem ask_succ_isSome_iff (b : Body) (k : Nat) : (b.ask (k + 1)).isSome ↔ b.Lasts k := by
  induction k generalizing b with
  | zero =>
    rw [← poll_isSome_iff]
    cases polled : b.poll <;> simp [ask, polled]
  | succ k ih =>
    cases polled : b.poll with
    | none =>
      have ended : ¬b.Lasts 0 := by rw [← poll_isSome_iff, polled]; simp
      rw [ask, polled]
      simpa using fun lasts : b.Lasts (k + 1) => ended (lasts.mono (Nat.zero_le _))
    | some answer =>
      obtain ⟨found, later⟩ := answer
      rw [ask, polled, ← lasts_poll polled, ← ih later]
      simp

theorem Lasts.asked (lasts : b.Lasts k) : ∃ a, b.ask k = some a := by
  cases k with
  | zero => exact ⟨_, rfl⟩
  | succ k =>
    exact Option.isSome_iff_exists.1
      ((ask_succ_isSome_iff b k).2 (lasts.mono (Nat.le_succ k)))

theorem Lasts.collect?_eq (lasts : b.Lasts 0) : b.collect? = some b.collect := by
  obtain ⟨_, polled⟩ := Option.isSome_iff_exists.1 (b.poll_isSome_iff.2 lasts)
  rw [collect?, polled]
  rfl

theorem Lasts.drain?_eq (lasts : b.Lasts 0) : b.drain? = some b.items := by
  obtain ⟨_, polled⟩ := Option.isSome_iff_exists.1 (b.poll_isSome_iff.2 lasts)
  rw [drain?, polled]
  rfl

theorem reduceOption_found (asked : b.ask k = some a) : a.found.reduceOption = b.items.take k := by
  have all (items : List (Except Cause ByteArray)) : (items.map some).reduceOption = items := by
    rw [List.reduceOption, List.filterMap_map]
    exact List.filterMap_some
  rw [ask_found asked, List.reduceOption_append, all, List.reduceOption_replicate_none,
    List.append_nil]

theorem content_rest (asked : b.ask k = some a) :
    joined (chunks a.found.reduceOption) ++ a.rest.content = b.content := by
  rw [reduceOption_found asked, ← joined_chunks, (ask_rest asked).1, ← joined_append,
    ← chunks_append, List.take_append_drop, joined_chunks]

/-- What is found when a body is asked for items, and what is then left of it: the others of its items as a
stream, and in one piece what is missing of the content, unless there is a failure among them. Of several
failures the first one counts. -/
structure Shares (b : Body) (k : Nat) (a : Asked) : Prop where
  found : a.found = (b.items.take k).map some ++ List.replicate (k - b.items.length) none
  rest : a.rest.drain? = some (b.items.drop k)
  whole : failures (b.items.drop k) = [] → ∃ rest, a.rest.collect? = some (.ok rest) ∧
    joined (chunks a.found.reduceOption) ++ rest = b.content
  broken : ∀ cause ∈ (failures (b.items.drop k)).head?, a.rest.collect? = some (.error cause)

theorem Lasts.shares (lasts : b.Lasts k) (asked : b.ask k = some a) : b.Shares k a := by
  obtain ⟨items, left⟩ := ask_rest asked
  have collected := (left.2 lasts).collect?_eq
  rw [collect_eq, items] at collected
  refine ⟨ask_found asked, ?_, fun unbroken => ?_, fun cause first => ?_⟩
  · rw [(left.2 lasts).drain?_eq, items]
  · rw [unbroken] at collected
    exact ⟨_, collected, content_rest asked⟩
  · rw [Option.mem_def.1 first] at collected
    exact collected

/-- Nothing is left of a body. -/
structure Empties (a : Asked) : Prop where
  rest : a.rest.drain? = some []
  nothing : a.rest.collect? = some (.ok .empty)

theorem Shares.empties (shares : b.Shares k a) (spent : b.items.drop k = [])
    (lasts : a.rest.Lasts 0) (asked : b.ask k = some a) : Empties a where
  rest := by rw [shares.rest, spent]
  nothing := by
    rw [lasts.collect?_eq, collect_eq_join, (ask_rest asked).1, spent]
    rfl

/-- Three chunks, one of them empty, and a failure behind the first. -/
def interrupted : List (Except Cause ByteArray) :=
  [.ok ⟨#[97, 98]⟩, .error (.of (.given "reset")), .ok .empty, .ok ⟨#[99]⟩]

end ObjectTransfer.Http.Body
