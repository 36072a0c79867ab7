import ObjectTransfer.Proofs.Retry.Stopping
/-!
How many attempts there can be. Between two attempts that move forward there are no more of them than
the retries allow, and a transfer can move forward only as far as it may get, and as often again as
what it had was lost. The count of what has arrived is followed through the attempts, up and down.
-/
namespace ObjectTransfer.Resumable
variable {σ α : Type}

/-- By how much the first `k` attempts have moved forward, those that moved back left out. -/
def risen (r : Resumable σ α) (s : σ) : Nat → Nat
  | 0 => 0
  | k + 1 => r.risen s k + (r.confirmed (r.after s (k + 1)) - r.confirmed (r.after s k))

/-- By how much the first `k` attempts have moved back, those that moved forward left out. -/
def fallen (r : Resumable σ α) (s : σ) : Nat → Nat
  | 0 => 0
  | k + 1 => r.fallen s k + (r.confirmed (r.after s k) - r.confirmed (r.after s (k + 1)))

variable {r : Resumable σ α} {retries made idle : Nat} {s t : σ}

/-- What was lost and won makes the difference between the last count and the first. -/
theorem confirmed_add_fallen (r : Resumable σ α) (s : σ) (k : Nat) :
    r.confirmed (r.after s k) + r.fallen s k = r.confirmed s + r.risen s k := by
  induction k with
  | zero => rfl
  | succ k ih =>
    rw [fallen, risen]
    omega

theorem turn_of_attempt {number : Nat} {e : Error} (attempted : r.attempt s = (.error e, t))
    (retryable : e.isRetryable)
    (few : (if r.confirmed s < r.confirmed t then 0 else idle + 1) ≤ retries) :
    r.turn retries number idle s =
      .again (if r.confirmed s < r.confirmed t then 0 else idle + 1) t := by
  unfold turn
  rw [attempted]
  rcases e.disposition_of_isRetryable retryable with hd | hd
  · simp only [hd, Nat.not_lt.2 few, if_false]
  · simp only [hd, Nat.not_lt.2 few, if_false]

theorem Reaches.eq_after (h : r.Reaches retries s made idle t) : t = r.after s made := by
  induction h with
  | start => rfl
  | again before turn ih =>
    obtain ⟨e, attempted, -, -, -⟩ := turn_again turn
    rw [after, ← ih, attempted]

theorem Reaches.idle_le (h : r.Reaches retries s made idle t) : idle ≤ retries := by
  cases h with
  | start => exact Nat.zero_le _
  | again before turn =>
    obtain ⟨e, -, -, le, -⟩ := turn_again turn
    exact le

/-- Each attempt either moves forward, which starts the count of idle attempts again, or is one more
of these. -/
theorem Reaches.made_le (h : r.Reaches retries s made idle t) :
    made ≤ r.risen s made * (retries + 1) + idle := by
  induction h with
  | start => exact Nat.zero_le _
  | @again made idle idle' t t' before turn ih =>
    obtain ⟨e, -, -, -, counted⟩ := turn_again turn
    have le := before.idle_le
    have here := before.eq_after
    have there := (before.again turn).eq_after
    rw [here, there] at counted
    rw [risen]
    by_cases forward : r.confirmed (r.after s made) < r.confirmed (r.after s (made + 1))
    · rw [if_pos forward] at counted
      have more : (r.risen s made + 1) * (retries + 1) ≤
          (r.risen s made + (r.confirmed (r.after s (made + 1)) - r.confirmed (r.after s made))) *
            (retries + 1) := Nat.mul_le_mul_right _ (by omega)
      rw [Nat.add_mul] at more
      omega
    · rw [if_neg forward] at counted
      have still : r.confirmed (r.after s (made + 1)) - r.confirmed (r.after s made) = 0 :=
        Nat.sub_eq_zero_of_le (Nat.not_lt.1 forward)
      rw [still, Nat.add_zero (r.risen s made)]
      omega

/-- The number of attempts before one of them, as long as no more than `bound` can arrive. -/
theorem Reaches.made_lt {bound : Nat} (h : r.Reaches retries s made idle t)
    (within : r.confirmed t ≤ bound) :
    made < (bound - r.confirmed s + r.fallen s made + 1) * (retries + 1) := by
  have le := h.idle_le
  have count := r.confirmed_add_fallen s made
  rw [← h.eq_after] at count
  have more : (r.risen s made + 1) * (retries + 1) ≤
      (bound - r.confirmed s + r.fallen s made + 1) * (retries + 1) :=
    Nat.mul_le_mul_right _ (by omega)
  have few := h.made_le
  rw [Nat.add_mul] at more
  omega

/-- From an attempt on, a run is what is still to be done. -/
theorem Reaches.run_eq (h : r.Reaches retries s made idle t) :
    ∃ pauses, ∀ limit,
      r.run retries (made + limit) s = r.runFrom retries limit made idle pauses t := by
  induction h with
  | start => exact ⟨[], fun limit => by rw [Nat.zero_add, run]⟩
  | @again made idle idle' t t' before turn ih =>
    obtain ⟨pauses, same⟩ := ih
    refine ⟨min idle' maxExponent :: pauses, fun limit => ?_⟩
    rw [Nat.add_assoc, Nat.add_comm 1 limit, same (limit + 1), runFrom, turn]

theorem Reaches.lt_of_isSome {limit : Nat} (h : r.Reaches retries s made idle t)
    (ended : (r.run retries limit s).isSome) : made < limit := by
  by_contra few
  obtain ⟨outcome, run⟩ := Option.isSome_iff_exists.1 ended
  obtain ⟨pauses, same⟩ := h.run_eq
  have none : r.run retries made s = .none := same 0
  rw [run_mono run (Nat.not_lt.1 few)] at none
  cases none

theorem Reaches.run_eq_some {result : Except Error α} {u : σ}
    (h : r.Reaches retries s made idle t)
    (turn : r.turn retries (made + 1) idle t = .done result u) :
    ∃ pauses, ∀ limit, made < limit →
      r.run retries limit s = some ⟨result, u, made + 1, pauses⟩ := by
  obtain ⟨pauses, same⟩ := h.run_eq
  refine ⟨pauses.reverse, fun limit enough => run_mono ?_ enough⟩
  rw [same 1, runFrom, turn]

/-- An attempt that fails for good is the last one, and what was kept for later is discarded. -/
theorem Reaches.aborts {e : Error} {u : σ} (h : r.Reaches retries s made idle t)
    (attempted : r.attempt t = (.error e, u)) (abort : e.disposition = some .abort) :
    ∃ pauses, ∀ limit, made < limit →
      r.run retries limit s = some ⟨.error e, r.discard u, made + 1, pauses⟩ := by
  refine h.run_eq_some ?_
  unfold turn
  rw [attempted]
  simp only [abort]

/-- As long as a transfer has not ended, there is one more attempt to make. -/
theorem Reaches.runFrom_eq_none {limit : Nat} {pauses : List Nat}
    (h : r.Reaches retries s made idle t)
    (more : r.runFrom retries limit made idle pauses t = none) :
    ∃ idle' t', r.Reaches retries s (made + limit) idle' t' := by
  induction limit generalizing made idle pauses t with
  | zero => exact ⟨idle, t, h⟩
  | succ limit ih =>
    unfold runFrom at more
    split at more
    · cases more
    · rename_i idle' t' turn
      obtain ⟨idle'', t'', later⟩ := ih (h.again turn) more
      rw [Nat.add_assoc, Nat.add_comm 1 limit] at later
      exact ⟨idle'', t'', later⟩

theorem run_isSome_of_reaches {limit : Nat}
    (few : ∀ made idle t, r.Reaches retries s made idle t → made < limit) :
    (r.run retries limit s).isSome := by
  cases ended : r.run retries limit s with
  | some outcome => rfl
  | none =>
    obtain ⟨idle, t, later⟩ := Reaches.start.runFrom_eq_none ended
    rw [Nat.zero_add] at later
    exact absurd (few _ _ _ later) (Nat.lt_irrefl limit)

/-- What is lost in all bounds the number of attempts: a transfer that loses no more than `lost`
between its attempts, of which no more than `bound` arrives, comes to an end. -/
theorem run_isSome_of_fallen {bound lost : Nat}
    (within : ∀ made idle t, r.Reaches retries s made idle t → r.confirmed t ≤ bound)
    (loses : ∀ made idle t, r.Reaches retries s made idle t → r.fallen s made ≤ lost) :
    (r.run retries ((bound - r.confirmed s + lost + 1) * (retries + 1)) s).isSome := by
  refine run_isSome_of_reaches fun made idle t h => ?_
  have few := h.made_lt (within _ _ _ h)
  have less := loses _ _ _ h
  have more : (bound - r.confirmed s + r.fallen s made + 1) * (retries + 1) ≤
      (bound - r.confirmed s + lost + 1) * (retries + 1) := Nat.mul_le_mul_right _ (by omega)
  omega

end ObjectTransfer.Resumable
