import ObjectTransfer.Error
/-!
Crews. A transfer in parts is done by a coordinator and several workers. The parts wait in a queue;
a worker takes one, works on it in steps, and hands what it made of it to the coordinator through a
channel with room for one parcel per worker. The first failure that the coordinator receives ends
the work: the channel is closed, the workers are called off, and the coordinator waits until all
have gone.

A crew moves one step at a time, and any party that can move may move next. A worker that was called
off stops when it notices that; until then it may go on with what it is doing.
-/
namespace ObjectTransfer.Crew

/-- What a worker does. `τ` is the world, `κ` what a worker holds, `α` a part, `ω` a part that is
being worked on, and `β` what a finished part gives. -/
structure Craft (τ κ α ω β : Type) where
  /-- What a worker does before its first part; a failure is reported as it is. -/
  prepare : τ → Except Error κ × τ
  /-- How the failure of a part is named. -/
  chunk : α → ChunkId
  /-- Takes a part up. -/
  begin : κ → α → ω
  /-- Goes on with a part by one step, after which it is finished or not. -/
  proceed : ω → τ → (Except Error β ⊕ ω) × τ
  /-- Drops a part that is being worked on. -/
  abandon : ω → τ → τ
  /-- Drops what a finished part gave. -/
  discard : β → τ → τ

/-- What the coordinator does with finished parts; `δ` is what it has collected. -/
structure Desk (τ β δ : Type) where
  accept : β → δ → τ → δ × τ
  /-- Goes on with putting away what was accepted; `none` when there is nothing to do. -/
  file : δ → τ → Option (Except Error δ × τ)
  /-- Drops what is not put away. -/
  drop : δ → τ → τ
  /-- The failure when all workers have gone too early. -/
  deserted : Reason
  /-- Whether parcels left in the channel are taken out after a failure, before the workers are
  waited for. -/
  drains : Bool

/-- What a worker hands over. The part is missing when the worker could not even begin. -/
structure Parcel (α β : Type) where
  part : Option α
  result : Except Error β

def Parcel.drop {τ κ α ω β : Type} (c : Craft τ κ α ω β) (p : Parcel α β) (world : τ) : τ :=
  match p.result with
  | .ok made => c.discard made world
  | .error _ => world

inductive Worker (κ α ω β : Type) where
  | arriving
  | waiting (tool : κ)
  | working (tool : κ) (part : α) (work : ω)
  /-- Has a parcel for the channel; afterwards waits again, or leaves when it has no tool. -/
  | handing (tool : Option κ) (parcel : Parcel α β)
  | gone

def Worker.isGone {κ α ω β : Type} : Worker κ α ω β → Bool
  | .gone => true
  | _ => false

inductive Phase (δ : Type) where
  /-- Receives parcels and puts away what is in them. -/
  | collecting (desk : δ)
  /-- Waits for the workers to go, after a failure. -/
  | failing (e : Error)
  /-- Waits for the workers to go, with every part received. -/
  | closing (desk : δ)
  | returned (result : Except Error δ)

structure State (τ κ α ω β δ : Type) where
  /-- The parts that no worker has taken. -/
  queue : List α
  workers : List (Worker κ α ω β)
  /-- The parcels under way to the coordinator, oldest first. -/
  channel : List (Parcel α β)
  /-- The most parcels in the channel. -/
  room : Nat
  isOpen : Bool
  cancelled : Bool
  /-- The number of parts at the beginning. -/
  total : Nat
  /-- The parts whose parcels the coordinator has received, newest first. -/
  received : List α
  phase : Phase δ
  world : τ

/-- Who moves. -/
inductive Move where
  | coordinator
  | worker (index : Nat)
  /-- A worker notices that it was called off. -/
  | notice (index : Nat)
  deriving Repr, DecidableEq, Inhabited

variable {τ κ α ω β δ : Type}

/-- Workers for these parts: no more than there are parts, with a channel that has room for as many
parcels. -/
def State.initial (parts : List α) (workers : Nat) (desk : δ) (world : τ) : State τ κ α ω β δ :=
  let n := min workers parts.length
  ⟨parts, List.replicate n .arriving, [], n, true, false, parts.length, [], .collecting desk, world⟩

namespace State

def deserted (s : State τ κ α ω β δ) : Bool := s.workers.all (·.isGone)

def setWorker (s : State τ κ α ω β δ) (i : Nat) (w : Worker κ α ω β) : State τ κ α ω β δ :=
  { s with workers := s.workers.set i w }

/-- The first failure: what was collected is dropped, the channel closed and the workers called
off. -/
def fail (k : Desk τ β δ) (desk : δ) (e : Error) (s : State τ κ α ω β δ) : State τ κ α ω β δ :=
  { s with isOpen := false, cancelled := true, phase := .failing e, world := k.drop desk s.world }

def receive (k : Desk τ β δ) (desk : δ) (s : State τ κ α ω β δ) : Option (State τ κ α ω β δ) :=
  match s.channel with
  | parcel :: rest =>
    let s := { s with channel := rest, received := parcel.part.toList ++ s.received }
    match parcel.result with
    | .error e => some (s.fail k desk e)
    | .ok made =>
      let (desk, world) := k.accept made desk s.world
      some { s with phase := .collecting desk, world }
  | [] => if s.deserted then some (s.fail k desk (.of .runtimeError k.deserted)) else none

def coordinate (c : Craft τ κ α ω β) (k : Desk τ β δ) (s : State τ κ α ω β δ) :
    Option (State τ κ α ω β δ) :=
  match s.phase with
  | .collecting desk =>
    match k.file desk s.world with
    | some (.ok desk, world) => some { s with phase := .collecting desk, world }
    | some (.error e, world) => some ({ s with world }.fail k desk e)
    | none =>
      if s.received.length = s.total then some { s with phase := .closing desk }
      else s.receive k desk
  | .failing e =>
    match k.drains, s.channel with
    | true, parcel :: rest =>
      some { s with channel := rest, world := parcel.drop c s.world }
    | _, _ => if s.deserted then some { s with phase := .returned (.error e) } else none
  | .closing desk => if s.deserted then some { s with phase := .returned (.ok desk) } else none
  | .returned _ => none

/-- The parcel of a finished part; a failure is named after the part. -/
def parcel (c : Craft τ κ α ω β) (part : α) (result : Except Error β) : Parcel α β :=
  ⟨some part, result.mapError fun e => .around (.chunkFailed (c.chunk part)) e⟩

def work (c : Craft τ κ α ω β) (i : Nat) (s : State τ κ α ω β δ) : Option (State τ κ α ω β δ) :=
  match s.workers[i]? with
  | none | some .gone => none
  | some .arriving =>
    match c.prepare s.world with
    | (.ok tool, world) => some ({ s with world }.setWorker i (.waiting tool))
    | (.error e, world) => some ({ s with world }.setWorker i (.handing none ⟨none, .error e⟩))
  | some (.waiting tool) =>
    match s.queue with
    | [] => some (s.setWorker i .gone)
    | part :: rest =>
      some ({ s with queue := rest }.setWorker i (.working tool part (c.begin tool part)))
  | some (.working tool part unfinished) =>
    match c.proceed unfinished s.world with
    | (.inr unfinished, world) =>
      some ({ s with world }.setWorker i (.working tool part unfinished))
    | (.inl (.ok made), world) =>
      some ({ s with world }.setWorker i (.handing (some tool) (parcel c part (.ok made))))
    | (.inl (.error e), world) =>
      some ({ s with world }.setWorker i (.handing none (parcel c part (.error e))))
  | some (.handing tool parcel) =>
    if !s.isOpen then
      some ({ s with world := parcel.drop c s.world }.setWorker i .gone)
    else if s.channel.length < s.room then
      let after := match tool with | some tool => .waiting tool | none => .gone
      some ({ s with channel := s.channel ++ [parcel] }.setWorker i after)
    else none

/-- A worker that waits or works notices that it was called off, and goes. -/
def stop (c : Craft τ κ α ω β) (i : Nat) (s : State τ κ α ω β δ) : Option (State τ κ α ω β δ) :=
  if !s.cancelled then none
  else
    match s.workers[i]? with
    | some (.waiting _) => some (s.setWorker i .gone)
    | some (.working _ _ unfinished) =>
      some ({ s with world := c.abandon unfinished s.world }.setWorker i .gone)
    | _ => none

/-- One move; `none` when the party cannot move now. -/
def step (c : Craft τ κ α ω β) (k : Desk τ β δ) (s : State τ κ α ω β δ) :
    Move → Option (State τ κ α ω β δ)
  | .coordinator => s.coordinate c k
  | .worker i => s.work c i
  | .notice i => s.stop c i

end State

end ObjectTransfer.Crew
