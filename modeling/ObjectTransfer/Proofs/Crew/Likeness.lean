import ObjectTransfer.Crew.Run
/-!
Crews that do the same in worlds that look alike. When one world shows all of the other one that work
and desk depend on, crews in both make the same moves, and their worlds look alike afterwards.
-/
namespace ObjectTransfer.Crew
variable {τ υ κ α ω β δ : Type}

/-- The same work and the same desk, seen through `f`. -/
structure Alike (f : τ → υ) (c : Craft τ κ α ω β) (k : Desk τ β δ) (c' : Craft υ κ α ω β)
    (k' : Desk υ β δ) : Prop where
  prepare : ∀ w, c'.prepare (f w) = (c.prepare w).map id f
  chunk : c'.chunk = c.chunk
  begin : c'.begin = c.begin
  proceed : ∀ x w, c'.proceed x (f w) = (c.proceed x w).map id f
  abandon : ∀ x w, c'.abandon x (f w) = f (c.abandon x w)
  discard : ∀ b w, c'.discard b (f w) = f (c.discard b w)
  accept : ∀ b d w, k'.accept b d (f w) = (k.accept b d w).map id f
  file : ∀ d w, k'.file d (f w) = (k.file d w).map (Prod.map id f)
  drop : ∀ d w, k'.drop d (f w) = f (k.drop d w)
  deserted : k'.deserted = k.deserted
  drains : k'.drains = k.drains

def State.through (f : τ → υ) (s : State τ κ α ω β δ) : State υ κ α ω β δ :=
  ⟨s.queue, s.workers, s.channel, s.room, s.isOpen, s.cancelled, s.total, s.received, s.phase,
    f s.world⟩

namespace Alike
variable {f : τ → υ} {c : Craft τ κ α ω β} {k : Desk τ β δ} {c' : Craft υ κ α ω β} {k' : Desk υ β δ}
  (alike : Alike f c k c' k')

include alike

theorem dropped (p : Parcel α β) (w : τ) : p.drop c' (f w) = f (p.drop c w) := by
  unfold Parcel.drop
  cases p.result with
  | error e => rfl
  | ok made => exact alike.discard made w

theorem receive (desk : δ) (s : State τ κ α ω β δ) :
    (s.through f).receive k' desk = (s.receive k desk).map (.through f) := by
  obtain ⟨queue, workers, channel, room, isOpen, cancelled, total, received, phase, world⟩ := s
  cases channel with
  | nil =>
    by_cases gone : workers.all (·.isGone)
    · simp [State.receive, State.through, State.deserted, gone, State.fail, alike.drop,
        alike.deserted]
    · simp [State.receive, State.through, State.deserted, gone]
  | cons parcel rest =>
    obtain ⟨part, result⟩ := parcel
    cases result with
    | error e => simp [State.receive, State.through, State.fail, alike.drop]
    | ok made => simp [State.receive, State.through, alike.accept]

theorem coordinate (s : State τ κ α ω β δ) :
    (s.through f).coordinate c' k' = (s.coordinate c k).map (.through f) := by
  have receive (desk : δ) := alike.receive desk s
  obtain ⟨queue, workers, channel, room, isOpen, cancelled, total, received, phase, world⟩ := s
  cases phase with
  | collecting desk =>
    have file := alike.file desk world
    simp only [State.coordinate, State.through] at receive ⊢
    rw [file]
    cases k.file desk world with
    | none =>
      by_cases complete : received.length = total
      · simp [complete, State.through]
      · simpa [complete] using receive desk
    | some filed =>
      obtain ⟨result, world'⟩ := filed
      cases result with
      | ok desk' => rfl
      | error e => simp [State.fail, State.through, alike.drop]
  | failing e =>
    cases drains : k.drains with
    | false => simp [State.coordinate, State.through, State.deserted, alike.drains, drains]
    | true =>
      cases channel with
      | nil => simp [State.coordinate, State.through, State.deserted, alike.drains, drains]
      | cons parcel rest =>
        simp [State.coordinate, State.through, alike.drains, drains, alike.dropped]
  | closing desk => simp [State.coordinate, State.through, State.deserted]
  | returned result => rfl

theorem work (i : Nat) (s : State τ κ α ω β δ) :
    (s.through f).work c' i = (s.work c i).map (.through f) := by
  obtain ⟨queue, workers, channel, room, isOpen, cancelled, total, received, phase, world⟩ := s
  simp only [State.work, State.through]
  cases workers[i]? with
  | none => rfl
  | some worker =>
    cases worker with
    | gone => rfl
    | arriving =>
      simp only [alike.prepare]
      rcases c.prepare world with ⟨result, world'⟩
      cases result with
      | ok tool => rfl
      | error e => rfl
    | waiting tool =>
      simp only [alike.begin]
      cases queue with
      | nil => rfl
      | cons part rest => rfl
    | working tool part x =>
      simp only [alike.proceed, State.parcel, alike.chunk]
      rcases c.proceed x world with ⟨result, world'⟩
      rcases result with (e | made) | x'
      · rfl
      · rfl
      · rfl
    | handing tool parcel =>
      simp only [alike.dropped]
      cases isOpen with
      | false => rfl
      | true =>
        by_cases full : channel.length < room
        · simp [full, State.setWorker, State.through]
        · simp [full]

theorem stop (i : Nat) (s : State τ κ α ω β δ) :
    (s.through f).stop c' i = (s.stop c i).map (.through f) := by
  obtain ⟨queue, workers, channel, room, isOpen, cancelled, total, received, phase, world⟩ := s
  simp only [State.stop, State.through]
  cases cancelled with
  | false => rfl
  | true =>
    cases workers[i]? with
    | none => rfl
    | some worker =>
      cases worker with
      | working tool part x =>
        simp only [alike.abandon]
        rfl
      | gone => rfl
      | arriving => rfl
      | waiting tool => rfl
      | handing tool parcel => rfl

theorem step (m : Move) (s : State τ κ α ω β δ) :
    (s.through f).step c' k' m = (s.step c k m).map (.through f) := by
  cases m with
  | coordinator => exact alike.coordinate s
  | worker i => exact alike.work i s
  | notice i => exact alike.stop i s

theorem turn (s : State τ κ α ω β δ) (m : Move) :
    (s.through f).turn c' k' m = (s.turn c k m).through f := by
  rw [State.turn, State.turn, alike.step]
  cases s.step c k m <;> rfl

theorem follow (s : State τ κ α ω β δ) (moves : List Move) :
    (s.through f).follow c' k' moves = (s.follow c k moves).through f := by
  induction moves generalizing s with
  | nil => rfl
  | cons m moves ih =>
    change ((s.through f).turn c' k' m).follow c' k' moves = _
    rw [alike.turn]
    exact ih _

theorem run (limit : Nat) (s : State τ κ α ω β δ) :
    (s.through f).run c' k' limit = (s.run c k limit).through f := by
  induction limit generalizing s with
  | zero => rfl
  | succ limit ih =>
    unfold State.run
    change (if s.result?.isSome then _ else _) = _
    by_cases returned : s.result?.isSome
    · rw [if_pos returned, if_pos returned]
    · rw [if_neg returned, if_neg returned, alike.follow]
      exact ih _

end Alike

end ObjectTransfer.Crew
