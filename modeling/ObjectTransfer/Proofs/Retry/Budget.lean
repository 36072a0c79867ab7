import Mathlib.Data.List.Basic
import ObjectTransfer.Config
import ObjectTransfer.Proofs.Retry
import ObjectTransfer.World
/-!
The budget of a part. A part is tried until a try succeeds, or fails in a way after which no other try
is wanted, or is the last one that is allowed; between two tries there is always the same pause. What
is left of a budget can be told from the tries of the part alone.
-/
namespace ObjectTransfer
variable {α : Type} {r : ChunkRetry} {accepts : Error → Bool} {outcomes : List (Except Error α)}
  {pauses : List Pause} {o : Except Error α}

def World.paused {σ : Type} (w : World σ) : List Pause := w.pauses.toList

theorem World.paused_pauseAll {σ : Type} (w : World σ) (pauses : List Pause) :
    (w.pauseAll pauses).paused = w.paused ++ pauses := Array.toList_append

namespace ChunkRetry

/-- The policy of a part that was not tried yet. -/
def policy (r : ChunkRetry) (accepts : Error → Bool) : RetryPolicy :=
  ⟨r.maxAttempts - 1, r.delay, accepts⟩

/-- No try follows the one with this number, counted from one, when `o` came of it. -/
def Stops (r : ChunkRetry) (accepts : Error → Bool) (number : Nat) (o : Except Error α) : Prop :=
  o.isOk ∨ (∃ e, o = .error e ∧ accepts e = false) ∨ number = r.tries

/-- After each of these tries there was a pause, and another one follows. -/
structure Spending (r : ChunkRetry) (accepts : Error → Bool) (outcomes : List (Except Error α))
    (pauses : List Pause) : Prop where
  goesOn : ∀ i o, outcomes[i]? = some o → ¬ r.Stops accepts (i + 1) o
  paused : pauses = List.replicate outcomes.length (.fixed r.delay)

/-- These are all tries: the last one is the first that no other follows, and there was a pause between
any two of them. -/
structure Spent (r : ChunkRetry) (accepts : Error → Bool) (outcomes : List (Except Error α))
    (pauses : List Pause) : Prop where
  tried : outcomes ≠ []
  least : ∀ i o, outcomes[i]? = some o → (r.Stops accepts (i + 1) o ↔ i + 1 = outcomes.length)
  paused : pauses = List.replicate (outcomes.length - 1) (.fixed r.delay)

theorem length_le_of_stops (h : ∀ i o, outcomes[i]? = some o → r.Stops accepts (i + 1) o →
    i + 1 = outcomes.length) : outcomes.length ≤ r.tries := by
  by_contra more
  have first : r.tries - 1 + 1 = r.tries := Nat.sub_add_cancel r.tries_pos
  have within : r.tries - 1 < outcomes.length := by omega
  have last := h _ _ (List.getElem?_eq_getElem within) (.inr (.inr first))
  omega

theorem Spent.length_le (spent : r.Spent accepts outcomes pauses) : outcomes.length ≤ r.tries :=
  length_le_of_stops fun i o h => (spent.least i o h).1

theorem Spending.length_lt (spending : r.Spending accepts outcomes pauses) :
    outcomes.length < r.tries := by
  have le := length_le_of_stops fun i o h stops => absurd stops (spending.goesOn i o h)
  refine Nat.lt_of_le_of_ne le fun all => ?_
  have within : outcomes.length - 1 < outcomes.length := by have := r.tries_pos; omega
  exact spending.goesOn _ _ (List.getElem?_eq_getElem within) (.inr (.inr (by omega)))

theorem Spending.spent (spending : r.Spending accepts outcomes pauses)
    (stops : r.Stops accepts (outcomes.length + 1) o) :
    r.Spent accepts (outcomes ++ [o]) pauses where
  tried := by simp
  least i o' h := by
    rw [List.length_append, List.length_singleton]
    rcases Nat.lt_trichotomy i outcomes.length with before | rfl | behind
    · rw [List.getElem?_append_left before] at h
      exact iff_of_false (spending.goesOn i o' h) (by omega)
    · rw [List.getElem?_concat_length] at h
      cases h
      exact iff_of_true stops rfl
    · rw [List.getElem?_eq_none (by simp; omega)] at h
      cases h
  paused := by
    rw [List.length_append, List.length_singleton, Nat.add_sub_cancel]
    exact spending.paused

end ChunkRetry

namespace RetryPolicy
variable {p q : RetryPolicy} {e : Error}

theorem again?_delay (h : p.again? e = some q) : q.delay = p.delay := by
  unfold again? at h
  split at h
  · cases h
    rfl
  · cases h

theorem again?_eq_none (h : p.again? e = none) : p.accepts e = false ∨ p.left = 0 := by
  unfold again? at h
  split at h
  · cases h
  · rename_i last
    cases accepted : p.accepts e with
    | false => exact .inl rfl
    | true => simpa [accepted] using last

structure Remains (r : ChunkRetry) (accepts : Error → Bool) (outcomes : List (Except Error α))
    (pauses : List Pause) (p : RetryPolicy) : Prop where
  failed : ∀ o ∈ outcomes, ∃ e, o = .error e ∧ accepts e = true
  left : outcomes.length + 1 + p.left = r.tries
  delay : p.delay = r.delay
  accepts : p.accepts = accepts
  paused : pauses = List.replicate outcomes.length (.fixed r.delay)

theorem remains_policy (r : ChunkRetry) (accepts : Error → Bool) :
    Remains r accepts ([] : List (Except Error α)) [] (r.policy accepts) where
  failed _ h := by cases h
  left := by simp only [List.length_nil, ChunkRetry.policy, ChunkRetry.tries]; omega
  delay := rfl
  accepts := rfl
  paused := rfl

namespace Remains

theorem again (h : Remains r accepts outcomes pauses p) (again : p.again? e = some q) :
    Remains r accepts (outcomes ++ [.error e]) (pauses ++ [.fixed q.delay]) q := by
  obtain ⟨accepted, same, left⟩ := again?_eq_some again
  have delay : q.delay = r.delay := (again?_delay again).trans h.delay
  refine ⟨fun o ho => ?_, ?_, delay, same.trans h.accepts, ?_⟩
  · rcases List.mem_append.1 ho with ho | ho
    · exact h.failed o ho
    · exact ⟨e, List.mem_singleton.1 ho, h.accepts ▸ accepted⟩
  · have before := h.left
    rw [List.length_append, List.length_singleton]
    omega
  · rw [h.paused, delay, List.length_append, List.length_singleton, List.replicate_succ']

theorem spending (h : Remains r accepts outcomes pauses p) : r.Spending accepts outcomes pauses where
  goesOn i o hi := by
    obtain ⟨e, rfl, accepted⟩ := h.failed o (List.mem_of_getElem? hi)
    have within := (List.getElem?_eq_some_iff.1 hi).1
    have left := h.left
    rintro (came | ⟨e', same, refused⟩ | last)
    · cases came
    · cases same
      rw [accepted] at refused
      cases refused
    · omega
  paused := h.paused

theorem succeeds (h : Remains r accepts outcomes pauses p) (a : α) :
    r.Spent accepts (outcomes ++ [.ok a]) pauses := h.spending.spent (.inl rfl)

theorem fails (h : Remains r accepts outcomes pauses p) (last : p.again? e = none) :
    r.Spent accepts (outcomes ++ [.error e]) pauses := by
  refine h.spending.spent (.inr ?_)
  rcases again?_eq_none last with refused | used
  · exact .inl ⟨e, rfl, h.accepts ▸ refused⟩
  · have left := h.left
    exact .inr (by omega)

end Remains

end RetryPolicy

end ObjectTransfer
