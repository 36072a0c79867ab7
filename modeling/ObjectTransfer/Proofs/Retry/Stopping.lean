import ObjectTransfer.Proofs.Retry
/-!
When a transfer stops trying. The attempts are counted from zero and follow one another in states
that do not depend on any counter; the rule that says which attempt is the last one, and what is
returned after it, is stated of these states alone.
-/
namespace ObjectTransfer

theorem Error.disposition_of_isRetryable (e : Error) (h : e.isRetryable) :
    e.disposition = some .startOver ∨ e.disposition = some .waitBeforeRetry := by
  simpa [Error.isRetryable] using h

namespace Resumable
variable {σ α : Type}

def after (r : Resumable σ α) (s : σ) : Nat → σ
  | 0 => s
  | k + 1 => (r.attempt (r.after s k)).2

/-- What attempt `k` gives. -/
def given (r : Resumable σ α) (s : σ) (k : Nat) : Except Error α := (r.attempt (r.after s k)).1

/-- Attempt `k` fails in a way that lets it be made again. -/
def Retryable (r : Resumable σ α) (s : σ) (k : Nat) : Prop :=
  ∃ e, r.given s k = .error e ∧ e.isRetryable

/-- Attempt `k` does not move forward. -/
def Stands (r : Resumable σ α) (s : σ) (k : Nat) : Prop :=
  r.confirmed (r.after s (k + 1)) ≤ r.confirmed (r.after s k)

/-- Attempt `k` and the `retries` attempts right before it have all failed without moving forward,
and could all be made again. -/
def Exhausts (r : Resumable σ α) (retries : Nat) (s : σ) (k : Nat) : Prop :=
  retries ≤ k ∧ ∀ j, k - retries ≤ j → j ≤ k → r.Retryable s j ∧ r.Stands s j

/-- Attempt `k` is one to stop at, with what is returned then and the state it is returned in. -/
inductive Stops (r : Resumable σ α) (retries : Nat) (s : σ) (k : Nat) : Except Error α → σ → Prop
  | finished {a : α} (given : r.given s k = .ok a) :
      Stops r retries s k (.ok a) (r.after s (k + 1))
  | left {e : Error} (given : r.given s k = .error e)
      (kept : e.disposition = none ∨ e.disposition = some .abortCurrentProcess) :
      Stops r retries s k (.error e) (r.after s (k + 1))
  | abandoned {e : Error} (given : r.given s k = .error e)
      (abort : e.disposition = some .abort) :
      Stops r retries s k (.error e) (r.discard (r.after s (k + 1)))
  | exhausted (exhausts : r.Exhausts retries s k) :
      Stops r retries s k (.error (.resumable .abortCurrentProcess (.noProgress (k + 1))))
        (r.after s (k + 1))

/-- How many of the first `k` attempts, counted back from the last of them, did not move forward. -/
def stalled (r : Resumable σ α) (s : σ) : Nat → Nat
  | 0 => 0
  | k + 1 =>
    if r.confirmed (r.after s k) < r.confirmed (r.after s (k + 1)) then 0 else r.stalled s k + 1

variable {r : Resumable σ α} {retries : Nat} {s : σ}

theorem le_stalled_iff {k m : Nat} :
    m ≤ r.stalled s k ↔ m ≤ k ∧ ∀ j, k - m ≤ j → j < k → r.Stands s j := by
  induction k generalizing m with
  | zero =>
    constructor
    · intro h
      exact ⟨h, fun j _ hj => absurd hj (Nat.not_lt_zero j)⟩
    · intro h
      exact h.1
  | succ k ih =>
    by_cases forward : r.confirmed (r.after s k) < r.confirmed (r.after s (k + 1))
    · simp only [stalled, forward, if_true, Nat.le_zero]
      constructor
      · rintro rfl
        exact ⟨Nat.zero_le _, fun j hj hjk => by omega⟩
      · rintro ⟨hm, stands⟩
        by_contra hne
        exact absurd (stands k (by omega) (Nat.lt_succ_self k)) (Nat.not_le.2 forward)
    · simp only [stalled, forward, if_false]
      have step : m ≤ r.stalled s k + 1 ↔ m - 1 ≤ r.stalled s k := by omega
      rw [step, ih]
      constructor
      · rintro ⟨hm, stands⟩
        refine ⟨by omega, fun j hj hjk => ?_⟩
        by_cases last : j = k
        · subst last
          exact Nat.not_lt.1 forward
        · exact stands j (by omega) (by omega)
      · rintro ⟨hm, stands⟩
        exact ⟨by omega, fun j hj hjk => stands j (by omega) (by omega)⟩

theorem retryable_of_goes_on {k : Nat} (goesOn : ∀ result t, ¬ r.Stops retries s k result t) :
    r.Retryable s k := by
  cases hg : r.given s k with
  | ok a => exact absurd (.finished hg) (goesOn _ _)
  | error e =>
    refine ⟨e, hg, ?_⟩
    cases hd : e.disposition with
    | none => exact absurd (.left hg (.inl hd)) (goesOn _ _)
    | some d =>
      cases d with
      | startOver => simp [Error.isRetryable, hd]
      | waitBeforeRetry => simp [Error.isRetryable, hd]
      | abortCurrentProcess => exact absurd (.left hg (.inr hd)) (goesOn _ _)
      | abort => exact absurd (.abandoned hg hd) (goesOn _ _)

/-- The counter says when the attempts are exhausted, as long as all of them could be made again. -/
theorem exhausts_iff {k : Nat} (before : ∀ j, j ≤ k → r.Retryable s j) :
    r.Exhausts retries s k ↔ retries < r.stalled s (k + 1) := by
  rw [Nat.lt_iff_add_one_le, le_stalled_iff]
  constructor
  · rintro ⟨hk, all⟩
    exact ⟨by omega, fun j hj hjk => (all j (by omega) (by omega)).2⟩
  · rintro ⟨hk, stands⟩
    exact ⟨by omega, fun j hj hjk => ⟨before j hjk, stands j (by omega) (by omega)⟩⟩

theorem turn_of_retryable {k : Nat} (again : r.Retryable s k) :
    r.turn retries (k + 1) (r.stalled s k) (r.after s k) =
      if retries < r.stalled s (k + 1) then
        .done (.error (.resumable .abortCurrentProcess (.noProgress (k + 1)))) (r.after s (k + 1))
      else .again (r.stalled s (k + 1)) (r.after s (k + 1)) := by
  obtain ⟨e, hg, he⟩ := again
  have hattempt : r.attempt (r.after s k) = (.error e, r.after s (k + 1)) := Prod.ext hg rfl
  unfold turn
  rw [hattempt]
  rcases e.disposition_of_isRetryable he with hd | hd
  · simp only [hd]
    rfl
  · simp only [hd]
    rfl

theorem turn_of_stops {k : Nat} (before : ∀ j, j < k → r.Retryable s j) {result : Except Error α}
    {t : σ} (stops : r.Stops retries s k result t) :
    r.turn retries (k + 1) (r.stalled s k) (r.after s k) = .done result t := by
  have attempted {result : Except Error α} (hg : r.given s k = result) :
      r.attempt (r.after s k) = (result, r.after s (k + 1)) := Prod.ext hg rfl
  cases stops with
  | finished hg =>
    unfold turn
    rw [attempted hg]
  | left hg kept =>
    unfold turn
    rw [attempted hg]
    rcases kept with hd | hd
    · simp only [hd]
    · simp only [hd]
  | abandoned hg abort =>
    unfold turn
    rw [attempted hg]
    simp only [abort]
  | exhausted exhausts =>
    have again : r.Retryable s k := (exhausts.2 k (Nat.sub_le _ _) (Nat.le_refl k)).1
    have all (j : Nat) (hj : j ≤ k) : r.Retryable s j := by
      rcases Nat.lt_or_eq_of_le hj with hlt | rfl
      · exact before j hlt
      · exact again
    rw [turn_of_retryable again, if_pos ((exhausts_iff all).1 exhausts)]

theorem turn_of_goes_on {k : Nat} (before : ∀ j, j < k → r.Retryable s j)
    (goesOn : ∀ result t, ¬ r.Stops retries s k result t) :
    r.turn retries (k + 1) (r.stalled s k) (r.after s k) =
      .again (r.stalled s (k + 1)) (r.after s (k + 1)) := by
  have again := retryable_of_goes_on goesOn
  have all (j : Nat) (hj : j ≤ k) : r.Retryable s j := by
    rcases Nat.lt_or_eq_of_le hj with hlt | rfl
    · exact before j hlt
    · exact again
  have kept : ¬ retries < r.stalled s (k + 1) := fun h =>
    goesOn _ _ (.exhausted ((exhausts_iff all).2 h))
  rw [turn_of_retryable again, if_neg kept]

/-- The exponents of the pauses after the first `k` attempts, one after each. -/
def pausesAfter (r : Resumable σ α) (s : σ) (k : Nat) : List Nat :=
  (List.range k).map fun j => min (r.stalled s (j + 1)) maxExponent

theorem pausesAfter_succ (k : Nat) :
    r.pausesAfter s (k + 1) = r.pausesAfter s k ++ [min (r.stalled s (k + 1)) maxExponent] := by
  simp [pausesAfter, List.range_succ]

/-- Attempt `k` is the first one to stop at, and this is what comes of the transfer. -/
structure EndsAt (r : Resumable σ α) (retries : Nat) (s : σ) (k : Nat) (outcome : Outcome σ α) :
    Prop where
  first : ∀ j, j < k → ∀ result t, ¬ r.Stops retries s j result t
  stops : r.Stops retries s k outcome.result outcome.state
  attempts : outcome.attempts = k + 1
  pauses : outcome.pauses = r.pausesAfter s k

/-- From attempt `made` on, by induction on the attempts that may still be made. -/
theorem runFrom_eq_some_iff {limit made : Nat} {outcome : Outcome σ α}
    (before : ∀ j, j < made → ∀ result t, ¬ r.Stops retries s j result t) :
    r.runFrom retries limit made (r.stalled s made) (r.pausesAfter s made).reverse
        (r.after s made) = some outcome ↔
      ∃ k, made ≤ k ∧ k < made + limit ∧ r.EndsAt retries s k outcome := by
  induction limit generalizing made with
  | zero =>
    simp only [runFrom, reduceCtorEq, false_iff, not_exists, not_and]
    intro k hk hlt
    omega
  | succ limit ih =>
    have retried (j : Nat) (hj : j < made) : r.Retryable s j := retryable_of_goes_on (before j hj)
    unfold runFrom
    by_cases stop : ∃ result t, r.Stops retries s made result t
    · obtain ⟨result, t, stop⟩ := stop
      rw [turn_of_stops retried stop]
      constructor
      · intro h
        cases h
        exact ⟨made, Nat.le_refl _, by omega,
          ⟨before, stop, rfl, List.reverse_reverse (r.pausesAfter s made)⟩⟩
      · rintro ⟨k, hk, -, ends⟩
        obtain rfl : k = made := by
          by_contra hne
          exact ends.first made (by omega) _ _ stop
        have same := (turn_of_stops retried stop).symm.trans (turn_of_stops retried ends.stops)
        obtain ⟨rfl, rfl⟩ := Turn.done.inj same
        dsimp only
        rw [List.reverse_reverse, ← ends.attempts, ← ends.pauses]
    · have goesOn (result : Except Error α) (t : σ) : ¬ r.Stops retries s made result t :=
        fun h => stop ⟨result, t, h⟩
      have before' (j : Nat) (hj : j < made + 1) (result : Except Error α) (t : σ) :
          ¬ r.Stops retries s j result t := by
        rcases Nat.lt_or_eq_of_le (Nat.le_of_lt_succ hj) with hlt | rfl
        · exact before j hlt result t
        · exact goesOn result t
      have pauses : min (r.stalled s (made + 1)) maxExponent :: (r.pausesAfter s made).reverse =
          (r.pausesAfter s (made + 1)).reverse := by
        rw [pausesAfter_succ, List.reverse_append, List.reverse_singleton, List.singleton_append]
      rw [turn_of_goes_on retried goesOn]
      dsimp only
      rw [pauses, ih before']
      constructor
      · rintro ⟨k, hk, hlt, ends⟩
        exact ⟨k, by omega, by omega, ends⟩
      · rintro ⟨k, hk, hlt, ends⟩
        have hne : k ≠ made := by
          rintro rfl
          exact goesOn _ _ ends.stops
        exact ⟨k, by omega, by omega, ends⟩

theorem run_eq_some_iff {limit : Nat} {outcome : Outcome σ α} :
    r.run retries limit s = some outcome ↔ ∃ k, k < limit ∧ r.EndsAt retries s k outcome := by
  have unstopped (j : Nat) (hj : j < 0) (result : Except Error α) (t : σ) :
      ¬ r.Stops retries s j result t := absurd hj (Nat.not_lt_zero j)
  have h : r.runFrom retries limit 0 (r.stalled s 0) (r.pausesAfter s 0).reverse (r.after s 0) =
      some outcome ↔ ∃ k, 0 ≤ k ∧ k < 0 + limit ∧ r.EndsAt retries s k outcome :=
    runFrom_eq_some_iff unstopped
  simpa [run, stalled, after, pausesAfter] using h

theorem Stops.not_isRetryable {k : Nat} {e : Error} {t : σ}
    (stops : r.Stops retries s k (.error e) t) : ¬ e.isRetryable := by
  cases stops with
  | left given kept =>
    rcases kept with hd | hd
    · simp [Error.isRetryable, hd]
    · simp [Error.isRetryable, hd]
  | abandoned given abort => simp [Error.isRetryable, abort]
  | exhausted exhausts => simp [Error.isRetryable]

/-- A transfer that never moves forward stops at attempt `retries`, counted from zero. -/
theorem endsAt_of_stuck (retries : Nat) (stuck : ∀ k, r.Retryable s k ∧ r.Stands s k) :
    r.EndsAt retries s retries ⟨.error (.resumable .abortCurrentProcess (.noProgress (retries + 1))),
      r.after s (retries + 1), retries + 1, r.pausesAfter s retries⟩ where
  first := by
    intro j hj result t stops
    obtain ⟨e, hg, he⟩ := (stuck j).1
    cases stops with
    | finished given => rw [hg] at given; cases given
    | left given kept =>
      rw [hg] at given
      cases given
      rcases kept with hd | hd
      · simp [Error.isRetryable, hd] at he
      · simp [Error.isRetryable, hd] at he
    | abandoned given abort =>
      rw [hg] at given
      cases given
      simp [Error.isRetryable, abort] at he
    | exhausted exhausts => exact absurd exhausts.1 (by omega)
  stops := .exhausted ⟨Nat.le_refl _, fun j _ _ => stuck j⟩
  attempts := rfl
  pauses := rfl

theorem EndsAt.length_pauses {k : Nat} {outcome : Outcome σ α}
    (ends : r.EndsAt retries s k outcome) : outcome.pauses.length = k := by
  rw [ends.pauses, pausesAfter, List.length_map, List.length_range]

/-- A transfer returns if and only if one of its attempts is one to stop at, and then right after the
first of these: with what that attempt gave, or with the failure that says how many attempts were
made, and what it kept for later is discarded exactly when the failure is an abort. There is one
pause between any two attempts and none behind the last one, and no failure that could be tried again
is returned. A transfer that never moves forward is attempted once more than there are retries. -/
theorem run_stops_by_rule (r : Resumable σ α) (retries : Nat) (s : σ) :
    (∀ limit outcome, r.run retries limit s = some outcome ↔
      ∃ k, k < limit ∧ r.EndsAt retries s k outcome) ∧
    (∀ limit outcome, r.run retries limit s = some outcome →
      outcome.pauses.length + 1 = outcome.attempts ∧
        ∀ e, outcome.result = .error e → ¬ e.isRetryable) ∧
    ((∀ k, r.Retryable s k ∧ r.Stands s k) → ∀ limit, retries < limit →
      ∃ outcome, r.run retries limit s = some outcome ∧
        outcome.result = .error (.resumable .abortCurrentProcess (.noProgress (retries + 1))) ∧
        outcome.attempts = retries + 1 ∧ outcome.pauses.length = retries) := by
  refine ⟨fun limit outcome => run_eq_some_iff, fun limit outcome returned => ?_,
    fun stuck limit hlimit => ?_⟩
  · obtain ⟨k, -, ends⟩ := run_eq_some_iff.1 returned
    refine ⟨by rw [ends.length_pauses, ends.attempts], fun e failed => ?_⟩
    have stops := ends.stops
    rw [failed] at stops
    exact stops.not_isRetryable
  · have ends := endsAt_of_stuck retries stuck
    exact ⟨_, run_eq_some_iff.2 ⟨retries, hlimit, ends⟩, rfl, rfl, ends.length_pauses⟩

/-- A transfer whose connection is always reset; its state counts the attempts. -/
def broken : Resumable Nat Unit where
  confirmed _ := 0
  attempt n := (.error (.transport (.given "connection reset")), n + 1)
  discard := id

theorem broken_stops_by_rule :
    (∀ k, broken.Retryable 0 k ∧ broken.Stands 0 k) ∧
    ∃ outcome, broken.run 3 10 0 = some outcome ∧
      outcome.result = .error (.resumable .abortCurrentProcess (.noProgress 4)) ∧
      outcome.attempts = 4 ∧ outcome.pauses.length = 3 := by
  have stuck (k : Nat) : broken.Retryable 0 k ∧ broken.Stands 0 k :=
    ⟨⟨_, rfl, rfl⟩, Nat.le_refl 0⟩
  exact ⟨stuck, (run_stops_by_rule broken 3 0).2.2 stuck 10 (by decide)⟩

end Resumable

end ObjectTransfer
