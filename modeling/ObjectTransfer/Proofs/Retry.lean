import Mathlib.Tactic.Common
import ObjectTransfer.Retry
/-!
Runs of attempts: the states in which attempts begin, how the last one ends, and why there is a last
one. What holds at the first attempt and is kept by each of them holds at the last.
-/
namespace ObjectTransfer

@[simp] theorem Error.disposition_resumable (d : Disposition) (reason : Reason) :
    (Error.resumable d reason).disposition = some d := rfl

theorem Error.ne_abort_of_isRetryable {e : Error} (h : e.isRetryable) :
    e.disposition ≠ some .abort := by
  intro habort
  simp [Error.isRetryable, habort] at h

def Outcome.through {σ τ α : Type} (f : σ → τ) (o : Outcome σ α) : Outcome τ α :=
  ⟨o.result, f o.state, o.attempts, o.pauses⟩

/-- The same turn in another kind of state. -/
def Turn.through {σ τ α : Type} (f : σ → τ) : Turn σ α → Turn τ α
  | .done result s => .done result (f s)
  | .again idle s => .again idle (f s)

namespace Resumable
variable {σ α : Type} {r : Resumable σ α} {retries : Nat}

/-- The states in which the attempts of a transfer from `s` begin: `made` attempts were made before,
the last `idle` of them without progress. -/
inductive Reaches (r : Resumable σ α) (retries : Nat) (s : σ) : (made idle : Nat) → σ → Prop
  | start : Reaches r retries s 0 0 s
  | again {made idle idle' : Nat} {t t' : σ} (before : Reaches r retries s made idle t)
      (turn : r.turn retries (made + 1) idle t = .again idle' t') :
      Reaches r retries s (made + 1) idle' t'

inductive Ends (r : Resumable σ α) (number : Nat) (s : σ) : Except Error α → σ → Prop
  | finished {a : α} {t : σ} (attempt : r.attempt s = (.ok a, t)) : Ends r number s (.ok a) t
  | left {e : Error} {t : σ} (attempt : r.attempt s = (.error e, t))
      (kept : e.disposition = none ∨ e.disposition = some .abortCurrentProcess) :
      Ends r number s (.error e) t
  | abandoned {e : Error} {t : σ} (attempt : r.attempt s = (.error e, t))
      (abort : e.disposition = some .abort) : Ends r number s (.error e) (r.discard t)
  | exhausted {e : Error} {t : σ} (attempt : r.attempt s = (.error e, t))
      (retryable : e.isRetryable) :
      Ends r number s (.error (.resumable .abortCurrentProcess (.noProgress number))) t

theorem turn_done {number idle : Nat} {s t : σ} {result : Except Error α}
    (h : r.turn retries number idle s = .done result t) : Ends r number s result t := by
  unfold turn at h
  split at h
  · rename_i a u ha
    cases h
    exact .finished ha
  · rename_i e u ha
    split at h
    · rename_i hd
      cases h
      exact .left ha (.inl hd)
    · rename_i hd
      cases h
      exact .left ha (.inr hd)
    · rename_i hd
      cases h
      exact .abandoned ha hd
    · rename_i hd
      dsimp only at h
      by_cases hi : retries < if r.confirmed s < r.confirmed u then 0 else idle + 1
      · rw [if_pos hi] at h
        cases h
        exact .exhausted ha (by simp [Error.isRetryable, hd])
      · rw [if_neg hi] at h
        cases h
    · rename_i hd
      dsimp only at h
      by_cases hi : retries < if r.confirmed s < r.confirmed u then 0 else idle + 1
      · rw [if_pos hi] at h
        cases h
        exact .exhausted ha (by simp [Error.isRetryable, hd])
      · rw [if_neg hi] at h
        cases h

theorem turn_again {number idle idle' : Nat} {s t : σ}
    (h : r.turn retries number idle s = .again idle' t) :
    ∃ e, r.attempt s = (.error e, t) ∧ e.isRetryable ∧ idle' ≤ retries ∧
      idle' = if r.confirmed s < r.confirmed t then 0 else idle + 1 := by
  unfold turn at h
  split at h
  · cases h
  · rename_i e u ha
    split at h
    · cases h
    · cases h
    · cases h
    · rename_i hd
      dsimp only at h
      by_cases hi : retries < if r.confirmed s < r.confirmed u then 0 else idle + 1
      · rw [if_pos hi] at h
        cases h
      · rw [if_neg hi] at h
        cases h
        exact ⟨e, ha, by simp [Error.isRetryable, hd], Nat.le_of_not_lt hi, rfl⟩
    · rename_i hd
      dsimp only at h
      by_cases hi : retries < if r.confirmed s < r.confirmed u then 0 else idle + 1
      · rw [if_pos hi] at h
        cases h
      · rw [if_neg hi] at h
        cases h
        exact ⟨e, ha, by simp [Error.isRetryable, hd], Nat.le_of_not_lt hi, rfl⟩

theorem Reaches.runFrom_eq_some {limit made idle : Nat} {pauses : List Nat} {s t : σ}
    {outcome : Outcome σ α} (hr : r.Reaches retries s made idle t)
    (h : r.runFrom retries limit made idle pauses t = some outcome) :
    ∃ made' idle' t', r.Reaches retries s made' idle' t' ∧ outcome.attempts = made' + 1 ∧
      r.Ends (made' + 1) t' outcome.result outcome.state := by
  induction limit generalizing made idle pauses t with
  | zero => cases h
  | succ limit ih =>
    unfold runFrom at h
    split at h
    · rename_i result u ht
      cases h
      exact ⟨made, idle, t, hr, rfl, turn_done ht⟩
    · rename_i idle' u ht
      exact ih (.again hr ht) h

theorem run_eq_some {limit : Nat} {s : σ} {outcome : Outcome σ α}
    (h : r.run retries limit s = some outcome) :
    ∃ made idle t, r.Reaches retries s made idle t ∧ outcome.attempts = made + 1 ∧
      r.Ends (made + 1) t outcome.result outcome.state :=
  Reaches.start.runFrom_eq_some h

/-- What every attempt that is followed by another one keeps holds wherever one begins. -/
theorem Reaches.invariant {I : σ → Prop} {s t : σ} {made idle : Nat} (hs : I s)
    (hstep : ∀ {u v e}, I u → r.attempt u = (.error e, v) → e.isRetryable → I v)
    (h : r.Reaches retries s made idle t) : I t := by
  induction h with
  | start => exact hs
  | again _ turn ih =>
    obtain ⟨e, ha, he, -, -⟩ := turn_again turn
    exact hstep ih ha he

/-- The measure that bounds a run: `left` failures that can still be followed by progress, between
which there are no more attempts than the retries allow. -/
theorem runFrom_isSome {I : σ → Prop} (left : σ → Nat)
    (hstep : ∀ {u v e}, I u → r.attempt u = (.error e, v) → e.isRetryable →
      I v ∧ (left v < left u ∨ (left v ≤ left u ∧ r.confirmed v ≤ r.confirmed u)))
    {limit made idle : Nat} {pauses : List Nat} {s : σ} (hs : I s) (hi : idle ≤ retries)
    (hl : left s * (retries + 1) + (retries - idle) < limit) :
    (r.runFrom retries limit made idle pauses s).isSome := by
  induction limit generalizing made idle pauses s with
  | zero => omega
  | succ limit ih =>
    unfold runFrom
    split
    · rfl
    · rename_i idle' t ht
      obtain ⟨e, ha, he, hle, hidle⟩ := turn_again ht
      obtain ⟨ht', hdown⟩ := hstep hs ha he
      apply ih ht' hle
      rcases hdown with hlt | ⟨hle', hconf⟩
      · have hm : (left t + 1) * (retries + 1) ≤ left s * (retries + 1) :=
          Nat.mul_le_mul_right _ hlt
        rw [Nat.add_mul] at hm
        omega
      · have hm : left t * (retries + 1) ≤ left s * (retries + 1) := Nat.mul_le_mul_right _ hle'
        have hn : ¬ r.confirmed s < r.confirmed t := by omega
        rw [if_neg hn] at hidle
        omega

theorem run_isSome {I : σ → Prop} (left : σ → Nat)
    (hstep : ∀ {u v e}, I u → r.attempt u = (.error e, v) → e.isRetryable →
      I v ∧ (left v < left u ∨ (left v ≤ left u ∧ r.confirmed v ≤ r.confirmed u)))
    {limit : Nat} {s : σ} (hs : I s) (hl : (left s + 1) * (retries + 1) ≤ limit) :
    (r.run retries limit s).isSome := by
  apply runFrom_isSome left hstep hs (Nat.zero_le _)
  rw [Nat.add_mul] at hl
  omega

theorem run_isSome_of_first {I : σ → Prop} {s : σ}
    (first : ∀ {v e}, r.attempt s = (.error e, v) → e.isRetryable → I v)
    (later : ∀ {u v e}, I u → r.attempt u = (.error e, v) → e.isRetryable →
      I v ∧ r.confirmed v ≤ r.confirmed u)
    {limit : Nat} (enough : retries + 1 < limit) : (r.run retries limit s).isSome := by
  obtain ⟨more, rfl⟩ := Nat.exists_eq_add_of_le' (Nat.lt_of_le_of_lt (Nat.zero_le _) enough)
  unfold run runFrom
  split
  · rfl
  · rename_i idle t turn
    obtain ⟨e, attempted, again, le, -⟩ := turn_again turn
    refine runFrom_isSome (fun _ => 0) ?_ (first attempted again) le (by omega)
    intro u v e holds attempted again
    obtain ⟨kept, still⟩ := later holds attempted again
    exact ⟨kept, .inr ⟨Nat.le_refl _, still⟩⟩

theorem runFrom_mono {limit limit' made idle : Nat} {pauses : List Nat} {s : σ}
    {outcome : Outcome σ α} (h : r.runFrom retries limit made idle pauses s = some outcome)
    (hl : limit ≤ limit') : r.runFrom retries limit' made idle pauses s = some outcome := by
  induction limit generalizing limit' made idle pauses s with
  | zero => cases h
  | succ limit ih =>
    obtain ⟨more, rfl⟩ := Nat.exists_eq_add_of_le' hl
    rw [← Nat.add_assoc]
    unfold runFrom at h ⊢
    cases ht : r.turn retries (made + 1) idle s with
    | done result t =>
      rw [ht] at h
      exact h
    | again idle' t =>
      rw [ht] at h
      exact ih h (by omega)

theorem run_mono {limit limit' : Nat} {s : σ} {outcome : Outcome σ α}
    (h : r.run retries limit s = some outcome) (hl : limit ≤ limit') :
    r.run retries limit' s = some outcome := runFrom_mono h hl

section
variable {τ : Type} {r' : Resumable τ α} {f : σ → τ}

/-- One transfer is another one whose states are seen through a map. -/
structure Through (r : Resumable σ α) (r' : Resumable τ α) (f : σ → τ) : Prop where
  confirmed : ∀ s, r'.confirmed (f s) = r.confirmed s
  attempt : ∀ s, r'.attempt (f s) = ((r.attempt s).1, f (r.attempt s).2)
  discard : ∀ s, r'.discard (f s) = f (r.discard s)

theorem Through.turn (h : r.Through r' f) (retries number idle : Nat) (s : σ) :
    r'.turn retries number idle (f s) = (r.turn retries number idle s).through f := by
  simp only [Resumable.turn, h.attempt, h.confirmed]
  rcases r.attempt s with ⟨result, t⟩
  have counted (idle : Nat) :
      (if retries < idle then
        .done (.error (.resumable .abortCurrentProcess (.noProgress number))) (f t)
      else .again idle (f t) : Turn τ α) =
      Turn.through f (if retries < idle then
        .done (.error (.resumable .abortCurrentProcess (.noProgress number))) t
      else .again idle t) := by
    split <;> rfl
  cases result with
  | ok a => rfl
  | error e =>
    dsimp only
    cases e.disposition with
    | none => rfl
    | some disposition =>
      cases disposition with
      | abortCurrentProcess => rfl
      | abort => exact congrArg _ (h.discard t)
      | startOver => simpa only [h.confirmed] using counted _
      | waitBeforeRetry => simpa only [h.confirmed] using counted _

theorem Through.runFrom (h : r.Through r' f) (retries limit made idle : Nat) (pauses : List Nat)
    (s : σ) : r'.runFrom retries limit made idle pauses (f s) =
      (r.runFrom retries limit made idle pauses s).map (Outcome.through f) := by
  induction limit generalizing made idle pauses s with
  | zero => rfl
  | succ limit ih =>
    simp only [Resumable.runFrom, h.turn]
    cases r.turn retries (made + 1) idle s with
    | done result t => rfl
    | again idle t => exact ih _ _ _ _

theorem Through.run (h : r.Through r' f) (retries limit : Nat) (s : σ) :
    r'.run retries limit (f s) = (r.run retries limit s).map (Outcome.through f) :=
  h.runFrom retries limit 0 0 [] s

end

end Resumable

/-- Another try follows only a failure that may be followed by one, and there is one try less then. -/
theorem RetryPolicy.again?_eq_some {p q : RetryPolicy} {e : Error} (h : p.again? e = some q) :
    p.accepts e = true ∧ q.accepts = p.accepts ∧ q.left + 1 = p.left := by
  unfold again? at h
  split at h
  · rename_i more
    simp only [Bool.and_eq_true, bne_iff_ne, ne_eq] at more
    cases h
    exact ⟨more.1, rfl, by dsimp only; omega⟩
  · cases h

end ObjectTransfer
