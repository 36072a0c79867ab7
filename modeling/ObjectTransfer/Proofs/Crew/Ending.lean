import Mathlib.Algebra.GroupWithZero.Nat
import ObjectTransfer.Proofs.Crew.Liveness
/-!
Crews come to an end. When the work on a part takes only so many moves, and so does putting away what
came of it, then every move leaves less to do, whoever makes it; so a crew that is never stuck returns
in the end, and taking turns it returns within as many rounds as there was to do.
-/
namespace ObjectTransfer.Crew
variable {τ κ α ω β δ : Type}

/-- How many moves things can take: a part, work that has begun, what came of it, and what is on the
desk. Putting away needs to make progress only in states that are reached from `s`. -/
structure Costs (c : Craft τ κ α ω β) (k : Desk τ β δ) (s : State τ κ α ω β δ) where
  part : α → Nat
  work : ω → Nat
  made : β → Nat
  desk : δ → Nat
  begins : ∀ tool a, work (c.begin tool a) ≤ part a
  proceeds : ∀ {f f' w w'}, c.proceed f w = (.inr f', w') → work f' < work f
  finishes : ∀ {f b w w'}, c.proceed f w = (.inl (.ok b), w') → made b ≤ work f
  accepts : ∀ b d w, desk (k.accept b d w).1 ≤ desk d + made b
  files : ∀ {past t d d' w}, State.Reaches c k s past t → t.phase = .collecting d →
    k.file d t.world = some (.ok d', w) → desk d' < desk d

namespace Costs
variable {c : Craft τ κ α ω β} {k : Desk τ β δ} {s t u : State τ κ α ω β δ} {m : Move}
  {past : List (Event α)} (x : Costs c k s)

def parcel (p : Parcel α β) : Nat :=
  match p.result with
  | .ok b => x.made b + 1
  | .error _ => 1

def worker : Worker κ α ω β → Nat
  | .arriving => 3
  | .waiting _ => 1
  | .working _ _ f => x.work f + 4
  | .handing (some _) p => x.parcel p + 2
  | .handing none p => x.parcel p + 1
  | .gone => 0

def phase : Phase δ → Nat
  | .collecting d => x.desk d + 2
  | .failing _ | .closing _ => 1
  | .returned _ => 0

def ahead (t : State τ κ α ω β δ) : Nat :=
  (t.queue.map fun a => x.part a + 4).sum + (t.workers.map x.worker).sum +
    (t.channel.map x.parcel).sum + x.phase t.phase

theorem sum_map_set {γ : Type} (f : γ → Nat) {l : List γ} {i : Nat} {a : γ} (h : l[i]? = some a)
    (b : γ) : ((l.set i b).map f).sum + f a = (l.map f).sum + f b := by
  obtain ⟨before, behind, hl, hset⟩ := State.exists_around h
  rw [hset, hl]
  simp only [List.map_append, List.map_cons, List.sum_append, List.sum_cons]
  omega

theorem ahead_setWorker {i : Nat} {w : Worker κ α ω β} (h : t.workers[i]? = some w)
    (w' : Worker κ α ω β) : x.ahead (t.setWorker i w') + x.worker w = x.ahead t + x.worker w' := by
  have moved := sum_map_set x.worker h w'
  simp only [ahead, State.setWorker]
  omega

theorem ahead_fail (t : State τ κ α ω β δ) {d : δ} (h : t.phase = .collecting d) (e : Error) :
    x.ahead (t.fail k d e) < x.ahead t := by
  simp only [ahead, State.fail, h, phase]
  omega

theorem ahead_taken {p : Parcel α β} {rest : List (Parcel α β)} (channel : t.channel = p :: rest) :
    x.ahead { t with channel := rest } + x.parcel p = x.ahead t := by
  simp only [ahead, channel, List.map_cons, List.sum_cons]
  omega

theorem parcel_pos (p : Parcel α β) : 0 < x.parcel p := by
  unfold parcel
  split
  · exact Nat.succ_pos _
  · exact Nat.succ_pos _

theorem lighter (before : State.Reaches c k s past t) (h : State.Steps c k t m u) :
    x.ahead u < x.ahead t := by
  have stays {i : Nat} {w w' : Worker κ α ω β} {v : State τ κ α ω β δ}
      (worker : t.workers[i]? = some w) (same : v.workers = t.workers)
      (less : x.ahead v + x.worker w' < x.ahead t + x.worker w) :
      x.ahead (v.setWorker i w') < x.ahead t := by
    have moved := x.ahead_setWorker (t := v) (same ▸ worker) w'
    omega
  cases h with
  | files phase file =>
    have less := x.files before phase file
    simp only [ahead, phase, Costs.phase]
    omega
  | misfiles phase file => exact x.ahead_fail { t with world := _ } phase _
  | closes phase idle complete =>
    simp only [ahead, phase, Costs.phase]
    omega
  | accepts phase idle incomplete channel =>
    rename_i d part b rest
    have taken := x.ahead_taken channel
    have cost : x.parcel ⟨part, .ok b⟩ = x.made b + 1 := rfl
    have filed := x.accepts b d t.world
    simp only [ahead, phase, Costs.phase] at taken ⊢
    omega
  | hears phase idle incomplete channel =>
    rename_i d part e rest
    have taken := x.ahead_taken channel
    have failed := x.ahead_fail { t with channel := rest } phase e
    exact Nat.lt_of_lt_of_le failed (by omega)
  | deserted phase idle incomplete channel gone => exact x.ahead_fail t phase _
  | drains phase drains channel =>
    rename_i e p rest
    have taken := x.ahead_taken channel
    have pos := x.parcel_pos p
    have less : x.ahead { t with channel := rest } < x.ahead t := by omega
    exact less
  | givesUp phase drained gone =>
    simp only [ahead, phase, Costs.phase]
    omega
  | returns phase gone =>
    simp only [ahead, phase, Costs.phase]
    omega
  | arrives worker prepare =>
    refine stays worker rfl ?_
    simp only [ahead, Costs.worker]
    omega
  | stumbles worker prepare =>
    refine stays worker rfl ?_
    simp only [ahead, Costs.worker, parcel]
    omega
  | leaves worker queue =>
    refine stays worker rfl ?_
    simp only [Costs.worker]
    omega
  | takes worker queue =>
    rename_i i tool a rest
    have begun := x.begins tool a
    refine stays worker rfl ?_
    simp only [ahead, Costs.worker, queue, List.map_cons, List.sum_cons]
    omega
  | proceeds worker proceed =>
    have less := x.proceeds proceed
    refine stays worker rfl ?_
    simp only [ahead, Costs.worker]
    omega
  | finishes worker proceed =>
    have less := x.finishes proceed
    refine stays worker rfl ?_
    simp only [ahead, Costs.worker, parcel, State.parcel, Except.mapError]
    omega
  | breaks worker proceed =>
    refine stays worker rfl ?_
    simp only [ahead, Costs.worker, parcel, State.parcel, Except.mapError]
    omega
  | drops worker shut =>
    rename_i i tool p
    have pos := x.parcel_pos p
    refine stays worker rfl ?_
    cases tool with
    | none =>
      simp only [ahead, Costs.worker]
      omega
    | some tool =>
      simp only [ahead, Costs.worker]
      omega
  | handsOver worker isOpen room =>
    refine stays worker rfl ?_
    simp only [ahead, Costs.worker, List.map_append, List.map_cons, List.map_nil, List.sum_append,
      List.sum_cons, List.sum_nil]
    omega
  | reports worker isOpen room =>
    refine stays worker rfl ?_
    simp only [ahead, Costs.worker, List.map_append, List.map_cons, List.map_nil, List.sum_append,
      List.sum_cons, List.sum_nil]
    omega
  | stops cancelled worker =>
    refine stays worker rfl ?_
    simp only [Costs.worker]
    omega
  | abandons cancelled worker =>
    refine stays worker rfl ?_
    simp only [ahead, Costs.worker]
    omega

theorem ahead_le (h : State.Reaches c k s past t) : x.ahead t ≤ x.ahead s := by
  induction h with
  | start => exact Nat.le_refl _
  | step before step ih =>
    exact Nat.le_trans (Nat.le_of_lt (x.lighter before (State.steps_of_step step))) ih

theorem holds_of_next (x : Costs c k s) {Q : State τ κ α ω β δ → Prop}
    (next : ∀ {past t}, State.Reaches c k s past t → (∀ m u, t.step c k m = some u → Q u) → Q t)
    (h : State.Reaches c k s past t) : Q t := by
  induction hn : x.ahead t using Nat.strongRecOn generalizing past t with
  | ind n ih =>
    refine next h fun m u step => ?_
    have less := x.lighter h (State.steps_of_step step)
    exact ih (x.ahead u) (hn ▸ less) (.step h step) rfl

theorem ahead_turn (h : State.Reaches c k s past t) (m : Move) :
    x.ahead (t.turn c k m) ≤ x.ahead t := by
  unfold State.turn
  cases step : t.step c k m with
  | none => exact Nat.le_refl _
  | some u => exact Nat.le_of_lt (x.lighter h (State.steps_of_step step))

theorem ahead_follow (h : State.Reaches c k s past t) (moves : List Move) :
    x.ahead (t.follow c k moves) ≤ x.ahead t := by
  induction moves generalizing past t with
  | nil => exact Nat.le_refl _
  | cons m moves ih =>
    obtain ⟨past', h'⟩ := h.turn m
    exact Nat.le_trans (ih h') (x.ahead_turn h m)

/-- When one of the moves was possible at the beginning, at least one of them is made: nothing has
changed when its turn comes, or another one was made before. -/
theorem follow_lighter (h : State.Reaches c k s past t) {moves : List Move} (hm : m ∈ moves)
    (possible : t.step c k m = some u) : x.ahead (t.follow c k moves) < x.ahead t := by
  induction moves with
  | nil => cases hm
  | cons first moves ih =>
    cases step : t.step c k first with
    | some v =>
      have moved : t.turn c k first = v := by rw [State.turn, step]; rfl
      have later := x.ahead_follow (.step h step) moves
      have less := x.lighter h (State.steps_of_step step)
      change x.ahead ((t.turn c k first).follow c k moves) < _
      rw [moved]
      omega
    | none =>
      have same : t.turn c k first = t := by rw [State.turn, step]; rfl
      have hm : m ∈ moves := by
        rcases List.mem_cons.1 hm with rfl | hm
        · rw [possible] at step
          cases step
        · exact hm
      change x.ahead ((t.turn c k first).follow c k moves) < _
      rw [same]
      exact ih hm

end Costs

namespace State
variable {c : Craft τ κ α ω β} {k : Desk τ β δ} {t u : State τ κ α ω β δ} {m : Move}

theorem mem_turns (step : t.step c k m = some u) : m ∈ turns t.workers.length := by
  have here {i : Nat} {w : Worker κ α ω β} (worker : t.workers[i]? = some w) :
      i < t.workers.length := (List.getElem?_eq_some_iff.1 worker).1
  have later {i : Nat} (hi : i < t.workers.length) (hm : m ∈ [.notice i, .worker i, .coordinator]) :
      m ∈ turns t.workers.length :=
    List.mem_cons_of_mem _ (List.mem_flatMap.2 ⟨i, List.mem_range.2 hi, hm⟩)
  cases m with
  | coordinator => exact List.mem_cons_self
  | worker i =>
    cases steps_of_step step with
    | arrives worker prepare => exact later (here worker) (by simp)
    | stumbles worker prepare => exact later (here worker) (by simp)
    | leaves worker queue => exact later (here worker) (by simp)
    | takes worker queue => exact later (here worker) (by simp)
    | proceeds worker proceed => exact later (here worker) (by simp)
    | finishes worker proceed => exact later (here worker) (by simp)
    | breaks worker proceed => exact later (here worker) (by simp)
    | drops worker shut => exact later (here worker) (by simp)
    | handsOver worker isOpen room => exact later (here worker) (by simp)
    | reports worker isOpen room => exact later (here worker) (by simp)
  | notice i =>
    cases steps_of_step step with
    | stops cancelled worker => exact later (here worker) (by simp)
    | abandons cancelled worker => exact later (here worker) (by simp)

variable {parts : List α} {workers : Nat} {desk : δ} {world : τ} {past : List (Event α)}

theorem run_of_returned {result : Except Error δ} (returned : t.phase = .returned result)
    (limit : Nat) : t.run c k limit = t := by
  cases limit with
  | zero => rfl
  | succ limit =>
    have isOver : t.result?.isSome := by rw [result?, returned]; rfl
    rw [State.run, if_pos isOver]

theorem run_of_running (running : ∀ result, t.phase ≠ .returned result) (limit : Nat) :
    t.run c k (limit + 1) = (t.follow c k (turns t.workers.length)).run c k limit := by
  have isOpen : ¬ t.result?.isSome := by
    unfold result?
    split
    · rename_i result phase
      exact absurd phase (running result)
    · simp
  rw [State.run, if_neg isOpen]

/-- A crew returns within as many rounds as it can still make moves. -/
theorem Reaches.run_returns (hn : 0 < min workers parts.length)
    (x : Costs c k (initial parts workers desk world)) {limit : Nat}
    (h : Reaches c k (initial parts workers desk world) past t) (enough : x.ahead t ≤ limit) :
    ∃ result, (t.run c k limit).phase = .returned result := by
  induction limit generalizing past t with
  | zero =>
    by_contra stuck
    have running (result : Except Error δ) : t.phase ≠ .returned result :=
      fun phase => stuck ⟨result, phase⟩
    obtain ⟨m, u, steps⟩ := h.staffed.exists_steps (c := c) (k := k) hn running
    have less := x.lighter h steps
    omega
  | succ limit ih =>
    by_cases returned : ∃ result, t.phase = .returned result
    · obtain ⟨result, returned⟩ := returned
      rw [run_of_returned returned]
      exact ⟨result, returned⟩
    · have running (result : Except Error δ) : t.phase ≠ .returned result :=
        fun phase => returned ⟨result, phase⟩
      obtain ⟨m, u, steps⟩ := h.staffed.exists_steps (c := c) (k := k) hn running
      have possible := step_eq_some_iff.2 steps
      -- a round in which somebody can move leaves less to do
      have less := x.follow_lighter h (mem_turns possible) possible
      obtain ⟨past', h'⟩ := h.follow (turns t.workers.length)
      rw [run_of_running running]
      exact ih h' (by omega)

end State

end ObjectTransfer.Crew
