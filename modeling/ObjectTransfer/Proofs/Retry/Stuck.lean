import ObjectTransfer.Proofs.Retry.Bounds
/-!
Transfers that are stuck: every attempt fails in a way that lets it be made again, and leaves the count
of what has arrived at the same number. The count with which such a transfer begins may be out of date.
Where it is too small, the first attempt learns what has arrived, and that is taken for progress.
-/
namespace ObjectTransfer.Resumable
variable {σ α : Type} {r : Resumable σ α} {retries made idle held : Nat} {s t u : σ}

/-- Wherever an attempt begins, it fails, can be made again, and leaves the count at `held`. -/
def StuckAt (r : Resumable σ α) (retries held : Nat) (s : σ) : Prop :=
  ∀ made idle t, r.Reaches retries s made idle t →
    ∃ e u, r.attempt t = (.error e, u) ∧ e.isRetryable ∧ r.confirmed u = held

/-- One attempt more when the count is only learned by the first one. -/
def late (known held : Nat) : Nat := if held ≤ known then 0 else 1

theorem turn_of_exhausted {number : Nat} {e : Error} (attempted : r.attempt s = (.error e, t))
    (retryable : e.isRetryable)
    (many : retries < if r.confirmed s < r.confirmed t then 0 else idle + 1) :
    r.turn retries number idle s =
      .done (.error (.resumable .abortCurrentProcess (.noProgress number))) t := by
  unfold turn
  rw [attempted]
  rcases e.disposition_of_isRetryable retryable with hd | hd
  · simp only [hd, many, if_true]
  · simp only [hd, many, if_true]

theorem length_pauses {limit : Nat} {outcome : Outcome σ α}
    (run : r.run retries limit s = some outcome) : outcome.pauses.length + 1 = outcome.attempts := by
  obtain ⟨k, -, ends⟩ := run_eq_some_iff.1 run
  rw [ends.length_pauses, ends.attempts]

/-- The failures in a row that are counted after an attempt that leaves the count at `held`. -/
theorem idle_of_stuck (first : made = 0 → idle = 0 ∧ t = s)
    (later : 0 < made → r.confirmed t = held ∧ idle + late (r.confirmed s) held = made)
    (stuck : r.confirmed u = held) :
    (if r.confirmed t < r.confirmed u then 0 else idle + 1) + late (r.confirmed s) held =
      made + 1 := by
  rcases Nat.eq_zero_or_pos made with none | some
  · obtain ⟨rfl, rfl⟩ := first none
    rw [stuck, none, late]
    split
    · rw [if_neg (by omega)]
    · rw [if_pos (by omega)]
  · obtain ⟨same, count⟩ := later some
    rw [if_neg (by omega)]
    omega

/-- The attempts that are made: all but the first begin with the count at `held`. -/
theorem StuckAt.reaches (stuck : r.StuckAt retries held s) {k : Nat}
    (few : k ≤ retries + late (r.confirmed s) held) :
    ∃ idle t, r.Reaches retries s k idle t ∧ (k = 0 → idle = 0 ∧ t = s) ∧
      (0 < k → r.confirmed t = held ∧ idle + late (r.confirmed s) held = k) := by
  induction k with
  | zero => exact ⟨0, s, .start, fun _ => ⟨rfl, rfl⟩, fun h => absurd h (Nat.lt_irrefl 0)⟩
  | succ k ih =>
    obtain ⟨idle, t, reached, first, later⟩ := ih (by omega)
    obtain ⟨e, u, attempted, retryable, same⟩ := stuck k idle t reached
    have count := idle_of_stuck first later same
    refine ⟨_, u, reached.again (turn_of_attempt attempted retryable (by omega)), by omega,
      fun _ => ⟨same, count⟩⟩

theorem StuckAt.run (stuck : r.StuckAt retries held s) :
    ∃ outcome, (∀ limit, outcome.attempts ≤ limit → r.run retries limit s = some outcome) ∧
      outcome.attempts = retries + 1 + late (r.confirmed s) held ∧
      outcome.result = .error (.resumable .abortCurrentProcess (.noProgress outcome.attempts)) ∧
      outcome.pauses.length + 1 = outcome.attempts := by
  obtain ⟨idle, t, reached, first, later⟩ := stuck.reaches (Nat.le_refl _)
  obtain ⟨e, u, attempted, retryable, same⟩ := stuck _ idle t reached
  have count := idle_of_stuck first later same
  obtain ⟨pauses, run⟩ :=
    reached.run_eq_some (turn_of_exhausted attempted retryable (by omega))
  exact ⟨_, fun limit enough => run limit enough, Nat.add_right_comm retries _ 1, rfl,
    length_pauses (run _ (Nat.lt_succ_self _))⟩

end ObjectTransfer.Resumable
