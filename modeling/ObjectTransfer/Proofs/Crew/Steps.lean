import Mathlib.Tactic.Common
import ObjectTransfer.Crew.Run
/-!
What a crew can do. Every move that is possible is one of these steps, each with the conditions under
which it is taken, so that what a step keeps is shown step by step; and the states that a crew reaches,
whoever moves next, with what happened on the way.
-/
namespace ObjectTransfer.Crew
variable {τ κ α ω β δ : Type}

inductive Event (α : Type) where
  | took (worker : Nat) (part : α)
  /-- The part failed for good. -/
  | failed (part : α) (e : Error)
  /-- The worker could not begin. -/
  | stumbled (worker : Nat) (e : Error)
  /-- Something that was received could not be put away. -/
  | misfiled (e : Error)

def Event.taken? : Event α → Option α
  | .took _ part => some part
  | _ => none

def Event.failure? (c : Craft τ κ α ω β) : Event α → Option Error
  | .took _ _ => none
  | .failed part e => some (.around (.chunkFailed (c.chunk part)) e)
  | .stumbled _ e => some e
  | .misfiled e => some e

namespace State

inductive Steps (c : Craft τ κ α ω β) (k : Desk τ β δ) (s : State τ κ α ω β δ) :
    Move → State τ κ α ω β δ → Prop
  | files {desk desk' : δ} {world : τ} (phase : s.phase = .collecting desk)
      (file : k.file desk s.world = some (.ok desk', world)) :
      Steps c k s .coordinator { s with phase := .collecting desk', world }
  | misfiles {desk : δ} {e : Error} {world : τ} (phase : s.phase = .collecting desk)
      (file : k.file desk s.world = some (.error e, world)) :
      Steps c k s .coordinator ({ s with world }.fail k desk e)
  | closes {desk : δ} (phase : s.phase = .collecting desk) (idle : k.file desk s.world = none)
      (complete : s.received.length = s.total) :
      Steps c k s .coordinator { s with phase := .closing desk }
  | accepts {desk : δ} {part : Option α} {made : β} {rest : List (Parcel α β)}
      (phase : s.phase = .collecting desk) (idle : k.file desk s.world = none)
      (incomplete : s.received.length ≠ s.total) (channel : s.channel = ⟨part, .ok made⟩ :: rest) :
      Steps c k s .coordinator
        { s with
          channel := rest
          received := part.toList ++ s.received
          phase := .collecting (k.accept made desk s.world).1
          world := (k.accept made desk s.world).2 }
  | hears {desk : δ} {part : Option α} {e : Error} {rest : List (Parcel α β)}
      (phase : s.phase = .collecting desk) (idle : k.file desk s.world = none)
      (incomplete : s.received.length ≠ s.total) (channel : s.channel = ⟨part, .error e⟩ :: rest) :
      Steps c k s .coordinator
        ({ s with channel := rest, received := part.toList ++ s.received }.fail k desk e)
  | deserted {desk : δ} (phase : s.phase = .collecting desk) (idle : k.file desk s.world = none)
      (incomplete : s.received.length ≠ s.total) (channel : s.channel = []) (gone : s.deserted) :
      Steps c k s .coordinator (s.fail k desk (.of .runtimeError k.deserted))
  | drains {e : Error} {parcel : Parcel α β} {rest : List (Parcel α β)}
      (phase : s.phase = .failing e) (drains : k.drains = true) (channel : s.channel = parcel :: rest) :
      Steps c k s .coordinator { s with channel := rest, world := parcel.drop c s.world }
  | givesUp {e : Error} (phase : s.phase = .failing e) (drained : k.drains = true → s.channel = [])
      (gone : s.deserted) : Steps c k s .coordinator { s with phase := .returned (.error e) }
  | returns {desk : δ} (phase : s.phase = .closing desk) (gone : s.deserted) :
      Steps c k s .coordinator { s with phase := .returned (.ok desk) }
  | arrives {i : Nat} {tool : κ} {world : τ} (worker : s.workers[i]? = some .arriving)
      (prepare : c.prepare s.world = (.ok tool, world)) :
      Steps c k s (.worker i) ({ s with world }.setWorker i (.waiting tool))
  | stumbles {i : Nat} {e : Error} {world : τ} (worker : s.workers[i]? = some .arriving)
      (prepare : c.prepare s.world = (.error e, world)) :
      Steps c k s (.worker i) ({ s with world }.setWorker i (.handing none ⟨none, .error e⟩))
  | leaves {i : Nat} {tool : κ} (worker : s.workers[i]? = some (.waiting tool))
      (queue : s.queue = []) : Steps c k s (.worker i) (s.setWorker i .gone)
  | takes {i : Nat} {tool : κ} {part : α} {rest : List α}
      (worker : s.workers[i]? = some (.waiting tool)) (queue : s.queue = part :: rest) :
      Steps c k s (.worker i)
        ({ s with queue := rest }.setWorker i (.working tool part (c.begin tool part)))
  | proceeds {i : Nat} {tool : κ} {part : α} {work work' : ω} {world : τ}
      (worker : s.workers[i]? = some (.working tool part work))
      (proceed : c.proceed work s.world = (.inr work', world)) :
      Steps c k s (.worker i) ({ s with world }.setWorker i (.working tool part work'))
  | finishes {i : Nat} {tool : κ} {part : α} {work : ω} {made : β} {world : τ}
      (worker : s.workers[i]? = some (.working tool part work))
      (proceed : c.proceed work s.world = (.inl (.ok made), world)) :
      Steps c k s (.worker i)
        ({ s with world }.setWorker i (.handing (some tool) (parcel c part (.ok made))))
  | breaks {i : Nat} {tool : κ} {part : α} {work : ω} {e : Error} {world : τ}
      (worker : s.workers[i]? = some (.working tool part work))
      (proceed : c.proceed work s.world = (.inl (.error e), world)) :
      Steps c k s (.worker i)
        ({ s with world }.setWorker i (.handing none (parcel c part (.error e))))
  | drops {i : Nat} {tool : Option κ} {parcel : Parcel α β}
      (worker : s.workers[i]? = some (.handing tool parcel)) (shut : s.isOpen = false) :
      Steps c k s (.worker i) ({ s with world := parcel.drop c s.world }.setWorker i .gone)
  | handsOver {i : Nat} {tool : κ} {parcel : Parcel α β}
      (worker : s.workers[i]? = some (.handing (some tool) parcel)) (isOpen : s.isOpen = true)
      (room : s.channel.length < s.room) :
      Steps c k s (.worker i)
        ({ s with channel := s.channel ++ [parcel] }.setWorker i (.waiting tool))
  | reports {i : Nat} {parcel : Parcel α β}
      (worker : s.workers[i]? = some (.handing none parcel)) (isOpen : s.isOpen = true)
      (room : s.channel.length < s.room) :
      Steps c k s (.worker i) ({ s with channel := s.channel ++ [parcel] }.setWorker i .gone)
  | stops {i : Nat} {tool : κ} (cancelled : s.cancelled = true)
      (worker : s.workers[i]? = some (.waiting tool)) :
      Steps c k s (.notice i) (s.setWorker i .gone)
  | abandons {i : Nat} {tool : κ} {part : α} {work : ω} (cancelled : s.cancelled = true)
      (worker : s.workers[i]? = some (.working tool part work)) :
      Steps c k s (.notice i) ({ s with world := c.abandon work s.world }.setWorker i .gone)

variable {c : Craft τ κ α ω β} {k : Desk τ β δ} {s t : State τ κ α ω β δ}

theorem steps_of_receive {desk : δ} (phase : s.phase = .collecting desk)
    (idle : k.file desk s.world = none) (incomplete : s.received.length ≠ s.total)
    (h : s.receive k desk = some t) : Steps c k s .coordinator t := by
  unfold receive at h
  cases hc : s.channel with
  | nil =>
    simp only [hc] at h
    by_cases gone : s.deserted
    · rw [if_pos gone] at h
      cases h
      exact .deserted phase idle incomplete hc gone
    · rw [if_neg gone] at h
      cases h
  | cons parcel rest =>
    obtain ⟨part, result⟩ := parcel
    simp only [hc] at h
    cases result with
    | ok made =>
      cases h
      exact .accepts phase idle incomplete hc
    | error e =>
      cases h
      exact .hears phase idle incomplete hc

theorem steps_of_coordinate (h : s.coordinate c k = some t) : Steps c k s .coordinator t := by
  unfold coordinate at h
  split at h
  · rename_i desk phase
    split at h
    · rename_i desk' world file
      cases h
      exact .files phase file
    · rename_i e world file
      cases h
      exact .misfiles phase file
    · rename_i idle
      by_cases complete : s.received.length = s.total
      · rw [if_pos complete] at h
        cases h
        exact .closes phase idle complete
      · rw [if_neg complete] at h
        exact steps_of_receive phase idle complete h
  · rename_i e phase
    split at h
    · rename_i parcel rest drains channel
      cases h
      exact .drains phase drains channel
    · rename_i undrained
      have drained (drains : k.drains = true) : s.channel = [] := by
        cases channel : s.channel with
        | nil => rfl
        | cons parcel rest => exact (undrained parcel rest drains channel).elim
      by_cases gone : s.deserted
      · rw [if_pos gone] at h
        cases h
        exact .givesUp phase drained gone
      · rw [if_neg gone] at h
        cases h
  · rename_i desk phase
    by_cases gone : s.deserted
    · rw [if_pos gone] at h
      cases h
      exact .returns phase gone
    · rw [if_neg gone] at h
      cases h
  · cases h

theorem steps_of_work {i : Nat} (h : s.work c i = some t) : Steps c k s (.worker i) t := by
  unfold work at h
  cases worker : s.workers[i]? with
  | none => simp only [worker, reduceCtorEq] at h
  | some w =>
    cases w with
    | gone => simp only [worker, reduceCtorEq] at h
    | arriving =>
      simp only [worker] at h
      rcases prepare : c.prepare s.world with ⟨result, world⟩
      simp only [prepare] at h
      cases result with
      | ok tool =>
        cases h
        exact .arrives worker prepare
      | error e =>
        cases h
        exact .stumbles worker prepare
    | waiting tool =>
      simp only [worker] at h
      cases queue : s.queue with
      | nil =>
        simp only [queue] at h
        cases h
        exact .leaves worker queue
      | cons part rest =>
        simp only [queue] at h
        cases h
        exact .takes worker queue
    | working tool part work =>
      simp only [worker] at h
      rcases proceed : c.proceed work s.world with ⟨result, world⟩
      simp only [proceed] at h
      rcases result with (e | made) | work'
      · cases h
        exact .breaks worker proceed
      · cases h
        exact .finishes worker proceed
      · cases h
        exact .proceeds worker proceed
    | handing tool parcel =>
      simp only [worker] at h
      cases isOpen : s.isOpen with
      | false =>
        rw [if_pos (by rw [isOpen]; rfl)] at h
        cases h
        exact .drops worker isOpen
      | true =>
        rw [if_neg (by simp [isOpen])] at h
        by_cases room : s.channel.length < s.room
        · rw [if_pos room] at h
          cases tool with
          | none =>
            cases h
            exact .reports worker isOpen room
          | some tool =>
            cases h
            exact .handsOver worker isOpen room
        · rw [if_neg room] at h
          cases h

theorem steps_of_stop {i : Nat} (h : s.stop c i = some t) : Steps c k s (.notice i) t := by
  unfold stop at h
  cases cancelled : s.cancelled with
  | false =>
    rw [if_pos (by rw [cancelled]; rfl)] at h
    cases h
  | true =>
    rw [if_neg (by simp [cancelled])] at h
    split at h
    · rename_i tool worker
      cases h
      exact .stops cancelled worker
    · rename_i tool part work worker
      cases h
      exact .abandons cancelled worker
    · cases h

theorem steps_of_step {m : Move} (h : s.step c k m = some t) : Steps c k s m t := by
  cases m with
  | coordinator => exact steps_of_coordinate h
  | worker i => exact steps_of_work h
  | notice i => exact steps_of_stop h

theorem step_eq_some_iff {m : Move} : s.step c k m = some t ↔ Steps c k s m t := by
  refine ⟨steps_of_step, fun h => ?_⟩
  cases h with
  | files phase file => simp [step, coordinate, phase, file]
  | misfiles phase file => simp [step, coordinate, phase, file]
  | closes phase idle complete => simp [step, coordinate, phase, idle, complete]
  | accepts phase idle incomplete channel =>
    simp [step, coordinate, phase, idle, incomplete, receive, channel]
  | hears phase idle incomplete channel =>
    simp [step, coordinate, phase, idle, incomplete, receive, channel]
  | deserted phase idle incomplete channel gone =>
    simp [step, coordinate, phase, idle, incomplete, receive, channel, gone]
  | drains phase drains channel => simp [step, coordinate, phase, drains, channel]
  | givesUp phase drained gone =>
    cases drains : k.drains with
    | false => simp [step, coordinate, phase, drains, gone]
    | true => simp [step, coordinate, phase, drained drains, gone]
  | returns phase gone => simp [step, coordinate, phase, gone]
  | arrives worker prepare => simp [step, work, worker, prepare]
  | stumbles worker prepare => simp [step, work, worker, prepare]
  | leaves worker queue => simp [step, work, worker, queue]
  | takes worker queue => simp [step, work, worker, queue]
  | proceeds worker proceed => simp [step, work, worker, proceed]
  | finishes worker proceed => simp [step, work, worker, proceed]
  | breaks worker proceed => simp [step, work, worker, proceed]
  | drops worker shut => simp [step, work, worker, shut]
  | handsOver worker isOpen room => simp [step, work, worker, isOpen, room]
  | reports worker isOpen room => simp [step, work, worker, isOpen, room]
  | stops cancelled worker => simp [step, stop, cancelled, worker]
  | abandons cancelled worker => simp [step, stop, cancelled, worker]

def events (c : Craft τ κ α ω β) (k : Desk τ β δ) (s : State τ κ α ω β δ) : Move → List (Event α)
  | .coordinator =>
    match s.phase with
    | .collecting desk =>
      match k.file desk s.world with
      | some (.error e, _) => [.misfiled e]
      | _ => []
    | _ => []
  | .worker i =>
    match s.workers[i]? with
    | some .arriving =>
      match (c.prepare s.world).1 with
      | .ok _ => []
      | .error e => [.stumbled i e]
    | some (.waiting _) => s.queue.head?.toList.map (.took i)
    | some (.working _ part work) =>
      match (c.proceed work s.world).1 with
      | .inl (.error e) => [.failed part e]
      | _ => []
    | _ => []
  | .notice _ => []

/-- The states that a crew reaches from `s`, in whatever order the parties move, with what is
remembered of the way there, oldest first. -/
inductive Reaches (c : Craft τ κ α ω β) (k : Desk τ β δ) (s : State τ κ α ω β δ) :
    List (Event α) → State τ κ α ω β δ → Prop
  | start : Reaches c k s [] s
  | step {past : List (Event α)} {t u : State τ κ α ω β δ} {m : Move}
      (before : Reaches c k s past t) (step : t.step c k m = some u) :
      Reaches c k s (past ++ t.events c k m) u

theorem Reaches.invariant {I : State τ κ α ω β δ → Prop} {past : List (Event α)}
    (h : Reaches c k s past t) (start : I s) (kept : ∀ {t u m}, I t → Steps c k t m u → I u) :
    I t := by
  induction h with
  | start => exact start
  | step before step ih => exact kept ih (steps_of_step step)

theorem Reaches.turn {past : List (Event α)} (h : Reaches c k s past t) (m : Move) :
    ∃ past, Reaches c k s past (t.turn c k m) := by
  unfold State.turn
  cases step : t.step c k m with
  | none => exact ⟨past, h⟩
  | some u => exact ⟨_, .step h step⟩

theorem Reaches.follow {past : List (Event α)} (h : Reaches c k s past t) (moves : List Move) :
    ∃ past, Reaches c k s past (t.follow c k moves) := by
  induction moves generalizing past t with
  | nil => exact ⟨past, h⟩
  | cons m moves ih =>
    obtain ⟨past, h⟩ := h.turn m
    exact ih h

/-- Taking turns is one of the orders in which the parties can move. -/
theorem Reaches.run {past : List (Event α)} (h : Reaches c k s past t) (limit : Nat) :
    ∃ past, Reaches c k s past (t.run c k limit) := by
  induction limit generalizing past t with
  | zero => exact ⟨past, h⟩
  | succ limit ih =>
    unfold State.run
    by_cases returned : t.result?.isSome
    · rw [if_pos returned]
      exact ⟨past, h⟩
    · rw [if_neg returned]
      obtain ⟨past, h⟩ := h.follow (turns t.workers.length)
      exact ih h

theorem phase_of_result? {result : Except Error δ} (h : s.result? = some result) :
    s.phase = .returned result := by
  unfold result? at h
  split at h
  · rename_i phase
    cases h
    exact phase
  · cases h

end State

end ObjectTransfer.Crew
