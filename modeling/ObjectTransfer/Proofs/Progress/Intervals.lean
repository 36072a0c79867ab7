import Mathlib.Algebra.Order.Floor.Div
import ObjectTransfer.Proofs.Progress
/-!
How many reports a transfer makes. The buffers are divided among the reports that are wanted, and one
report is made of as many buffers as come out. Both divisions round down, so there are more reports than
wanted, but never twice as many.
-/
namespace ObjectTransfer.Progress

namespace Tracker
variable {t : Tracker} {n : Nat}

/-- The buffers of a transfer are as many as it takes to hold all of its bytes. -/
theorem length_ends (size total : Nat) : (ends size total).length = total ⌈/⌉ size := by
  rw [ends, List.length_map, List.length_range, Nat.ceilDiv_eq_add_pred_div]

theorem onBuffers_of_silent (silent : ∀ since, t.isDue (since + 1) = false) (ends : List Nat) :
    (t.onBuffers ends).2 = [] := by
  induction ends generalizing t with
  | nil => rfl
  | cons done ends ih =>
    have quiet : t.onBuffer done = ({ t with since := t.since + 1 }, none) := by
      rw [onBuffer, silent]
      rfl
    rw [onBuffers_cons, quiet]
    exact ih silent

/-- A report is made of every `n` buffers, those since the last report included. -/
theorem length_onBuffers_of_every (every : t.interval = .every n) (waits : t.since < n)
    (ends : List Nat) : (t.onBuffers ends).2.length = (t.since + ends.length) / n := by
  induction ends generalizing t with
  | nil => exact (Nat.div_eq_of_lt waits).symm
  | cons done ends ih =>
    have due : t.isDue (t.since + 1) = decide (t.since + 1 = n) := by rw [isDue, every]
    rw [onBuffers_cons, List.length_append, onBuffer, due]
    by_cases full : t.since + 1 = n
    · have rest := @ih { t with since := 0 } every (Nat.zero_lt_of_lt waits)
      have all : t.since + (done :: ends).length = 0 + ends.length + n := by
        rw [List.length_cons]
        omega
      rw [all, Nat.add_div_right _ (Nat.zero_lt_of_lt waits), ← rest, decide_eq_true full]
      exact Nat.add_comm _ _
    · have rest := @ih { t with since := t.since + 1 } every (by dsimp only; omega)
      have all : t.since + (done :: ends).length = t.since + 1 + ends.length := by
        rw [List.length_cons]
        omega
      rw [all, ← rest, decide_eq_false full]
      exact Nat.zero_add _

theorem interval_of_few {r : Reporter} (nonneg : 0 ≤ r.count) (few : r.count ≤ 2)
    (total buffer : Nat) : (r.tracker total buffer).interval = .never := by
  have notMany : ¬ 2 < r.count := by omega
  have notNeg : ¬ r.count < 0 := by omega
  simp [Reporter.tracker, Reporter.interval, notMany, notNeg]

theorem interval_of_many {r : Reporter} {m buffer : Nat} (wanted : r.count = m + 2) (some : 0 < m)
    (pos : 0 < buffer) (total : Nat) :
    (r.tracker total buffer).interval = .every (total / buffer / m) := by
  have many : 2 < r.count := by omega
  have between : (r.count - 2).toNat = m := by omega
  have whole : max buffer 1 = buffer := by omega
  simp [Reporter.tracker, Reporter.interval, many, between, whole]

theorem length_onBuffers_of_few {r : Reporter} (nonneg : 0 ≤ r.count) (few : r.count ≤ 2)
    (total buffer : Nat) (ends : List Nat) :
    ((r.tracker total buffer).onBuffers ends).2.length = 0 := by
  have never := interval_of_few nonneg few total buffer
  rw [onBuffers_of_silent (fun since => by rw [isDue, never])]
  rfl

theorem length_onBuffers_of_many {r : Reporter} {m buffer : Nat} (wanted : r.count = m + 2)
    (some : 0 < m) (pos : 0 < buffer) (total : Nat) (ends : List Nat) :
    ((r.tracker total buffer).onBuffers ends).2.length =
      ends.length / (total / buffer / m) := by
  have every := interval_of_many wanted some pos total
  rcases Nat.eq_zero_or_pos (total / buffer / m) with zero | several
  · -- no buffer is the zeroth since the last report
    rw [zero] at every
    rw [onBuffers_of_silent (fun since => by rw [isDue, every]; exact decide_eq_false (by omega)),
      zero, Nat.div_zero]
    rfl
  · rw [length_onBuffers_of_every every several]
    exact congrArg (· / _) (Nat.zero_add _)

end Tracker

/-- Divided by what comes out when they are divided by `m`, things are at least `m` and at most twice as
many; one more or less of them makes no difference. -/
theorem quotient_bounds {k n m : Nat} (atLeast : n ≤ k) (atMost : k ≤ n + 1) (some : 0 < n / m) :
    m ≤ k / (n / m) ∧ k / (n / m) ≤ 2 * m := by
  have low : n / m * m ≤ n := Nat.div_mul_le_self n m
  have pos : 0 < m := by
    rcases Nat.eq_zero_or_pos m with rfl | pos
    · rw [Nat.div_zero] at some
      exact absurd some (Nat.lt_irrefl 0)
    · exact pos
  have high : n < n / m * m + m := Nat.lt_div_mul_add pos
  have one : m ≤ n / m * m := Nat.le_mul_of_pos_left m some
  constructor
  · rw [Nat.le_div_iff_mul_le some, Nat.mul_comm]
    exact Nat.le_trans low atLeast
  · refine Nat.div_le_of_le_mul ?_
    rw [Nat.mul_left_comm]
    omega

theorem ceilDiv_bounds (total : Nat) {size : Nat} (pos : 0 < size) :
    total / size ≤ total ⌈/⌉ size ∧ total ⌈/⌉ size ≤ total / size + 1 := by
  rw [Nat.ceilDiv_eq_add_pred_div]
  constructor
  · exact Nat.div_le_div_right (by omega)
  · rw [← Nat.add_div_right total pos]
    exact Nat.div_le_div_right (by omega)

/-- A transfer reports all of its buffers, none of them, or one of every so many; in no case more than
twice as often as was wanted. The first report is of its start, and the last one of its end. -/
theorem reports_are_bounded (r : Reporter) {total size : Nat} (pos : 0 < size) {ends : List Nat}
    (all : ends.length = total ⌈/⌉ size) :
    let reports := (r.tracker total size).told ends
    (r.count < 0 → reports.length = ends.length + 2) ∧
    (0 ≤ r.count → r.count ≤ 2 → reports.length = 2) ∧
    (∀ m : Nat, 0 < m → r.count = m + 2 →
      let q := total / size / m
      (q = 0 → reports.length = 2) ∧
      (q ≠ 0 → reports.length = 2 + ends.length / q ∧
        m ≤ ends.length / q ∧ ends.length / q ≤ 2 * m)) ∧
    (0 < r.count → (reports.length : Int) ≤ 2 * r.count) ∧
    reports.head? = some (0, total) ∧ reports.getLast? = some (total, total) := by
  have length : ((r.tracker total size).told ends).length =
      ((r.tracker total size).onBuffers ends).2.length + 2 := by
    rw [Tracker.told_tracker, List.length_append, List.length_cons, List.length_singleton]
  have many {m : Nat} (some : 0 < m) (wanted : r.count = m + 2) :=
    length.trans (congrArg (· + 2) (Tracker.length_onBuffers_of_many wanted some pos total ends))
  have few (nonneg : 0 ≤ r.count) (few : r.count ≤ 2) :=
    length.trans (congrArg (· + 2) (Tracker.length_onBuffers_of_few nonneg few total size ends))
  have bounds {m : Nat} (some : total / size / m ≠ 0) :
      m ≤ ends.length / (total / size / m) ∧ ends.length / (total / size / m) ≤ 2 * m := by
    obtain ⟨atLeast, atMost⟩ := ceilDiv_bounds total pos
    exact quotient_bounds (all ▸ atLeast) (all ▸ atMost) (Nat.pos_of_ne_zero some)
  refine ⟨fun neg => ?_, few, fun m some wanted => ⟨fun none => ?_, fun several => ⟨?_, bounds several⟩⟩,
    fun wanted => ?_, ?_, ?_⟩
  · rw [length, Tracker.onBuffers_of_everyBuffer (Tracker.interval_of_neg neg total size),
      List.length_map]
  · rw [many some wanted, none, Nat.div_zero]
  · rw [many some wanted, Nat.add_comm]
  · by_cases small : r.count ≤ 2
    · rw [few (by omega) small]
      omega
    · obtain ⟨m, count⟩ : ∃ m : Nat, r.count = m + 2 := ⟨(r.count - 2).toNat, by omega⟩
      have told := many (by omega) count
      rcases Nat.eq_zero_or_pos (total / size / m) with none | several
      · rw [none, Nat.div_zero] at told
        omega
      · have twice := (bounds (Nat.ne_of_gt several)).2
        omega
  · rw [Tracker.told_tracker]
    rfl
  · rw [Tracker.told_tracker]
    exact List.getLast?_concat

/-- Someone who wants to hear five times of nine bytes in buffers of two hears of each of the five
buffers. -/
theorem nine_bytes_are_reported_seven_times :
    0 < 2 ∧ (Tracker.ends 2 9).length = 9 ⌈/⌉ 2 ∧
      (((⟨5⟩ : Reporter).tracker 9 2).run 2).2.length = 7 :=
  ⟨by decide, Tracker.length_ends 2 9,
    (((reports_are_bounded ⟨5⟩ (by decide) (Tracker.length_ends 2 9)).2.2.1 3 (by decide) rfl).2
      (by decide)).1⟩

end ObjectTransfer.Progress
