import Mathlib.Data.List.Count
import Mathlib.Data.List.Nodup
import Mathlib.Data.List.Perm.Basic
import ObjectTransfer.Proofs.Crew.Steps
/-!
Where the parts are. A part waits in the queue, is with a worker, is under way to the coordinator or
was received by it; no step makes a part or takes one twice, and one is dropped only after the
coordinator has failed. With that it is known who can still move: a crew whose coordinator has not
returned is never stuck.
-/
namespace ObjectTransfer.Crew
variable {τ κ α ω β δ : Type}

def Worker.parts : Worker κ α ω β → List α
  | .working _ part _ => [part]
  | .handing _ parcel => parcel.part.toList
  | _ => []

/-- What a worker has in hand fits what it will do next: it leaves only with a failure. -/
def Worker.Fits : Worker κ α ω β → Prop
  | .handing (some _) parcel => parcel.part.isSome
  | .handing none parcel => ∃ e, parcel.result = .error e
  | _ => True

def Phase.isLost : Phase δ → Bool
  | .failing _ | .returned (.error _) => true
  | _ => false

namespace State

def inHand (s : State τ κ α ω β δ) : List α := s.workers.flatMap Worker.parts

def underWay (s : State τ κ α ω β δ) : List α := s.channel.flatMap fun parcel => parcel.part.toList

def parts (s : State τ κ α ω β δ) : List α := s.queue ++ s.inHand ++ s.underWay ++ s.received

variable {c : Craft τ κ α ω β} {k : Desk τ β δ} {s t : State τ κ α ω β δ} {m : Move}

theorem exists_around {γ : Type} {l : List γ} {i : Nat} {a : γ} (h : l[i]? = some a) :
    ∃ before behind, l = before ++ a :: behind ∧ ∀ b, l.set i b = before ++ b :: behind := by
  obtain ⟨hi, rfl⟩ := List.getElem?_eq_some_iff.1 h
  refine ⟨l.take i, l.drop (i + 1), ?_, fun b => ?_⟩
  · rw [← List.drop_eq_getElem_cons hi, List.take_append_drop]
  · rw [List.set_eq_take_append_cons_drop, if_pos hi]

theorem perm_flatMap_set {γ ε : Type} (f : γ → List ε) {l : List γ} {i : Nat} {a : γ}
    (h : l[i]? = some a) (b : γ) : (f a ++ (l.set i b).flatMap f).Perm (f b ++ l.flatMap f) := by
  obtain ⟨before, behind, hl, hset⟩ := exists_around h
  rw [hset, hl]
  simp only [List.flatMap_append, List.flatMap_cons]
  classical
  rw [List.perm_iff_count]
  intro x
  simp only [List.count_append]
  omega

/-- The channel is open and the workers are wanted until the coordinator has failed. -/
structure Agrees (s : State τ κ α ω β δ) : Prop where
  opened : s.isOpen = !s.cancelled
  cancelled : s.cancelled = s.phase.isLost

theorem Agrees.steps (a : s.Agrees) (h : Steps c k s m t) : t.Agrees := by
  cases h with
  | files phase file => exact ⟨a.opened, by rw [a.cancelled, phase]; rfl⟩
  | misfiles phase file => exact ⟨rfl, rfl⟩
  | closes phase idle complete => exact ⟨a.opened, by rw [a.cancelled, phase]; rfl⟩
  | accepts phase idle incomplete channel => exact ⟨a.opened, by rw [a.cancelled, phase]; rfl⟩
  | hears phase idle incomplete channel => exact ⟨rfl, rfl⟩
  | deserted phase idle incomplete channel gone => exact ⟨rfl, rfl⟩
  | givesUp phase drained gone => exact ⟨a.opened, by rw [a.cancelled, phase]; rfl⟩
  | returns phase gone => exact ⟨a.opened, by rw [a.cancelled, phase]; rfl⟩
  | _ => exact ⟨a.opened, a.cancelled⟩

theorem parts_setWorker (s : State τ κ α ω β δ) {i : Nat} {w : Worker κ α ω β}
    (worker : s.workers[i]? = some w) (w' : Worker κ α ω β) :
    (w.parts ++ (s.setWorker i w').parts).Perm (w'.parts ++ s.parts) := by
  have moved := perm_flatMap_set Worker.parts worker w'
  classical
  rw [List.perm_iff_count] at moved ⊢
  intro x
  have hx := moved x
  simp only [State.parts, inHand, underWay, setWorker, List.count_append] at hx ⊢
  omega

theorem parts_setWorker_same (s : State τ κ α ω β δ) {i : Nat} {w w' : Worker κ α ω β}
    (worker : s.workers[i]? = some w) (same : w'.parts = w.parts) :
    (s.setWorker i w').parts.Perm s.parts := by
  have h := s.parts_setWorker worker w'
  rw [same] at h
  exact (List.perm_append_left_iff _).1 h

theorem parts_taken {part : α} {rest : List α} (queue : s.queue = part :: rest) :
    s.parts = [part] ++ { s with queue := rest }.parts := by
  simp [State.parts, inHand, underWay, queue]

theorem parts_received {parcel : Parcel α β} {rest : List (Parcel α β)}
    (channel : s.channel = parcel :: rest) :
    ({ s with channel := rest, received := parcel.part.toList ++ s.received }.parts).Perm
      s.parts := by
  classical
  rw [List.perm_iff_count]
  intro x
  simp only [State.parts, inHand, underWay, channel, List.flatMap_cons, List.count_append]
  omega

theorem parts_drained {parcel : Parcel α β} {rest : List (Parcel α β)}
    (channel : s.channel = parcel :: rest) :
    ({ s with channel := rest }.parts ++ parcel.part.toList).Perm s.parts := by
  classical
  rw [List.perm_iff_count]
  intro x
  simp only [State.parts, inHand, underWay, channel, List.flatMap_cons, List.count_append]
  omega

theorem parts_handedOver {i : Nat} {parcel : Parcel α β} {tool : Option κ} {w : Worker κ α ω β}
    (worker : s.workers[i]? = some (.handing tool parcel)) (empty : w.parts = []) :
    ({ s with channel := s.channel ++ [parcel] }.setWorker i w).parts.Perm s.parts := by
  have moved := { s with channel := s.channel ++ [parcel] }.parts_setWorker worker w
  rw [empty] at moved
  classical
  rw [List.perm_iff_count] at moved ⊢
  intro x
  have hx := moved x
  simp only [State.parts, inHand, underWay, setWorker, List.flatMap_append, List.flatMap_cons,
    List.flatMap_nil, List.append_nil, List.nil_append, List.count_append, Worker.parts] at hx ⊢
  omega

theorem parts_left {i : Nat} {w w' : Worker κ α ω β} (worker : s.workers[i]? = some w)
    (empty : w'.parts = []) : ((s.setWorker i w').parts ++ w.parts).Perm s.parts := by
  have moved := s.parts_setWorker worker w'
  rw [empty, List.nil_append] at moved
  exact List.perm_append_comm.trans moved

/-- What a step does to the parts that are there: it moves them, and drops one only when the crew was
called off. -/
theorem Steps.parts (a : s.Agrees) (h : Steps c k s m t) :
    ∃ dropped, (t.parts ++ dropped).Perm s.parts ∧ (dropped ≠ [] → t.cancelled = true) := by
  have same {u : State τ κ α ω β δ} (h : u.parts.Perm s.parts) :
      ∃ dropped, (u.parts ++ dropped).Perm s.parts ∧ (dropped ≠ [] → u.cancelled = true) :=
    ⟨[], by rwa [List.append_nil], fun h => absurd rfl h⟩
  cases h with
  | files phase file => exact same (.refl _)
  | misfiles phase file => exact same (.refl _)
  | closes phase idle complete => exact same (.refl _)
  | accepts phase idle incomplete channel => exact same (parts_received channel)
  | hears phase idle incomplete channel => exact same (parts_received channel)
  | deserted phase idle incomplete channel gone => exact same (.refl _)
  | drains phase drains channel =>
    exact ⟨_, parts_drained channel, fun _ => by rw [a.cancelled, phase]; rfl⟩
  | givesUp phase drained gone => exact same (.refl _)
  | returns phase gone => exact same (.refl _)
  | arrives worker prepare => exact same (parts_setWorker_same { s with world := _ } worker rfl)
  | stumbles worker prepare => exact same (parts_setWorker_same { s with world := _ } worker rfl)
  | leaves worker queue => exact same (parts_setWorker_same s worker rfl)
  | takes worker queue =>
    rename_i i tool part rest
    have moved := parts_setWorker { s with queue := rest } worker
      (.working tool part (c.begin tool part))
    apply same
    rw [parts_taken queue]
    exact moved
  | proceeds worker proceed => exact same (parts_setWorker_same { s with world := _ } worker rfl)
  | finishes worker proceed => exact same (parts_setWorker_same { s with world := _ } worker rfl)
  | breaks worker proceed => exact same (parts_setWorker_same { s with world := _ } worker rfl)
  | drops worker shut =>
    have cancelled : s.cancelled = true := by simpa [shut] using a.opened
    exact ⟨_, parts_left (s := { s with world := _ }) worker rfl, fun _ => cancelled⟩
  | handsOver worker isOpen room => exact same (parts_handedOver worker rfl)
  | reports worker isOpen room => exact same (parts_handedOver worker rfl)
  | stops cancelled worker => exact same (parts_setWorker_same s worker rfl)
  | abandons cancelled worker =>
    exact ⟨_, parts_left (s := { s with world := _ }) worker rfl, fun _ => cancelled⟩

theorem Steps.cancelled (h : Steps c k s m t) (cancelled : s.cancelled = true) :
    t.cancelled = true := by
  cases h with
  | misfiles phase file => rfl
  | hears phase idle incomplete channel => rfl
  | deserted phase idle incomplete channel gone => rfl
  | _ => exact cancelled

theorem Steps.constants (h : Steps c k s m t) :
    t.workers.length = s.workers.length ∧ t.room = s.room ∧ t.total = s.total := by
  cases h <;> simp [setWorker, fail]

theorem mem_setWorker {i : Nat} {w w' : Worker κ α ω β} (h : w ∈ (s.setWorker i w').workers) :
    w ∈ s.workers ∨ w = w' := List.mem_or_eq_of_mem_set h

theorem Steps.fits (h : Steps c k s m t) (fit : ∀ w ∈ s.workers, w.Fits) :
    ∀ w ∈ t.workers, w.Fits := by
  have replaced {u : State τ κ α ω β δ} {i : Nat} {w' : Worker κ α ω β}
      (same : u.workers = s.workers) (fits : w'.Fits) : ∀ w ∈ (u.setWorker i w').workers, w.Fits := by
    intro w hw
    rcases mem_setWorker hw with hw | rfl
    · exact fit w (same ▸ hw)
    · exact fits
  cases h with
  | arrives worker prepare => exact replaced rfl trivial
  | stumbles worker prepare => exact replaced rfl ⟨_, rfl⟩
  | leaves worker queue => exact replaced rfl trivial
  | takes worker queue => exact replaced rfl trivial
  | proceeds worker proceed => exact replaced rfl trivial
  | finishes worker proceed => exact replaced rfl rfl
  | breaks worker proceed => exact replaced rfl ⟨_, rfl⟩
  | drops worker shut => exact replaced rfl trivial
  | handsOver worker isOpen room => exact replaced rfl trivial
  | reports worker isOpen room => exact replaced rfl trivial
  | stops cancelled worker => exact replaced rfl trivial
  | abandons cancelled worker => exact replaced rfl trivial
  | _ => exact fit

/-- A worker that left early has reported a failure, which the coordinator has still to receive. -/
def Explained (s : State τ κ α ω β δ) : Prop :=
  s.cancelled = false → .gone ∈ s.workers →
    s.queue = [] ∨ ∃ parcel ∈ s.channel, ∃ e, parcel.result = .error e

theorem Steps.explained (h : Steps c k s m t) (a : s.Agrees) (fit : ∀ w ∈ s.workers, w.Fits)
    (explained : s.Explained) : t.Explained := by
  have busy {u : State τ κ α ω β δ} {i : Nat} {w' : Worker κ α ω β} (same : u.workers = s.workers)
      (stays : w' ≠ .gone) (gone : .gone ∈ (u.setWorker i w').workers) : .gone ∈ s.workers := by
    rcases mem_setWorker gone with gone | gone
    · exact same ▸ gone
    · exact absurd gone.symm stays
  intro wanted gone
  cases h with
  | misfiles phase file => cases wanted
  | hears phase idle incomplete channel => cases wanted
  | deserted phase idle incomplete channel hgone => cases wanted
  | accepts phase idle incomplete channel =>
    refine (explained wanted gone).imp_right ?_
    rintro ⟨parcel, hparcel, e, he⟩
    rw [channel, List.mem_cons] at hparcel
    rcases hparcel with rfl | hparcel
    · cases he
    · exact ⟨parcel, hparcel, e, he⟩
  | drains phase drains channel =>
    rw [a.cancelled, phase] at wanted
    cases wanted
  | arrives worker prepare => exact explained wanted (busy rfl (by simp) gone)
  | stumbles worker prepare => exact explained wanted (busy rfl (by simp) gone)
  | leaves worker queue => exact .inl queue
  | takes worker queue =>
    refine (explained wanted (busy rfl (by simp) gone)).imp_left fun empty => ?_
    rw [queue] at empty
    cases empty
  | proceeds worker proceed => exact explained wanted (busy rfl (by simp) gone)
  | finishes worker proceed => exact explained wanted (busy rfl (by simp) gone)
  | breaks worker proceed => exact explained wanted (busy rfl (by simp) gone)
  | drops worker shut =>
    have cancelled : s.cancelled = true := by simpa [shut] using a.opened
    exact absurd (cancelled.symm.trans wanted) (by simp)
  | handsOver worker isOpen room =>
    refine (explained wanted (busy rfl (by simp) gone)).imp_right ?_
    rintro ⟨parcel, hparcel, e, he⟩
    exact ⟨parcel, List.mem_append_left _ hparcel, e, he⟩
  | reports worker isOpen room =>
    obtain ⟨e, he⟩ := fit _ (List.mem_of_getElem? worker)
    exact .inr ⟨_, List.mem_append_right _ (List.mem_singleton_self _), e, he⟩
  | stops cancelled worker => exact absurd (cancelled.symm.trans wanted) (by simp)
  | abandons cancelled worker => exact absurd (cancelled.symm.trans wanted) (by simp)
  | _ => exact explained wanted gone

def present (s : State τ κ α ω β δ) : Nat := s.workers.countP fun w => !w.isGone

/-- How many failures to begin are under way. -/
def excuses (s : State τ κ α ω β δ) : Nat := s.channel.countP fun parcel => parcel.part.isNone

theorem present_set (s : State τ κ α ω β δ) {i : Nat} {w : Worker κ α ω β}
    (worker : s.workers[i]? = some w) (w' : Worker κ α ω β) :
    (s.setWorker i w').present + (if w.isGone then 0 else 1) =
      s.present + if w'.isGone then 0 else 1 := by
  obtain ⟨before, behind, hl, hset⟩ := exists_around worker
  have hpresent : s.present = (before ++ w :: behind).countP fun w => !w.isGone := by rw [← hl]; rfl
  have hset : (s.setWorker i w').present = (before ++ w' :: behind).countP fun w => !w.isGone := by
    rw [← hset]; rfl
  rw [hpresent, hset]
  simp only [List.countP_append, List.countP_cons]
  cases w.isGone <;> cases w'.isGone <;> simp only [Bool.not_true, Bool.not_false, if_true,
    Bool.false_eq_true, if_false] <;> omega

theorem present_stays {i : Nat} {w w' : Worker κ α ω β} (worker : s.workers[i]? = some w)
    (here : w.isGone = false) (stays : w'.isGone = false) :
    (s.setWorker i w').present = s.present := by
  have h := s.present_set worker w'
  rw [here, stays] at h
  exact Nat.succ.inj h

theorem present_leaves {i : Nat} {w : Worker κ α ω β} (worker : s.workers[i]? = some w)
    (here : w.isGone = false) : (s.setWorker i .gone).present + 1 = s.present := by
  have h := s.present_set worker .gone
  rwa [here] at h

/-- A worker that could not begin has left its place to the news of it. -/
theorem Steps.excuses (h : Steps c k s m t) (fit : ∀ w ∈ s.workers, w.Fits) :
    t.excuses + t.present ≤ s.excuses + s.present := by
  have stays {n : Nat} (h : n = s.present) : s.excuses + n ≤ s.excuses + s.present :=
    Nat.le_of_eq (congrArg (s.excuses + ·) h)
  have leaves {n : Nat} (h : n + 1 = s.present) : s.excuses + n ≤ s.excuses + s.present := by omega
  have taken {parcel : Parcel α β} {rest : List (Parcel α β)} (channel : s.channel = parcel :: rest) :
      rest.countP (fun parcel => parcel.part.isNone) + s.present ≤ s.excuses + s.present := by
    simp [State.excuses, channel, List.countP_cons]
  have sent (parcel : Parcel α β) :
      (s.channel ++ [parcel]).countP (fun parcel => parcel.part.isNone) =
        s.excuses + if parcel.part.isNone then 1 else 0 := by
    simp [State.excuses, List.countP_append, List.countP_cons]
  cases h with
  | accepts phase idle incomplete channel => exact taken channel
  | hears phase idle incomplete channel => exact taken channel
  | drains phase drains channel => exact taken channel
  | arrives worker prepare => exact stays (present_stays worker rfl rfl)
  | stumbles worker prepare => exact stays (present_stays worker rfl rfl)
  | leaves worker queue => exact leaves (present_leaves worker rfl)
  | takes worker queue => exact stays (present_stays worker rfl rfl)
  | proceeds worker proceed => exact stays (present_stays worker rfl rfl)
  | finishes worker proceed => exact stays (present_stays worker rfl rfl)
  | breaks worker proceed => exact stays (present_stays worker rfl rfl)
  | drops worker shut => exact leaves (present_leaves worker rfl)
  | handsOver worker isOpen room =>
    rename_i i tool parcel
    have hpart : parcel.part.isSome := fit _ (List.mem_of_getElem? worker)
    have hnone : parcel.part.isNone = false := by
      cases hp : parcel.part with
      | none => simp [hp] at hpart
      | some part => rfl
    have hsent := sent parcel
    rw [hnone] at hsent
    have hpresent : (s.setWorker i (.waiting tool)).present = s.present :=
      present_stays worker rfl rfl
    exact Nat.le_of_eq (congrArg₂ (· + ·) hsent hpresent)
  | reports worker isOpen room =>
    rename_i i parcel
    have hsent : (s.channel ++ [parcel]).countP (fun parcel => parcel.part.isNone) ≤ s.excuses + 1 := by
      rw [sent parcel]
      split <;> omega
    have hpresent := present_leaves worker rfl
    have h : (s.channel ++ [parcel]).countP (fun parcel => parcel.part.isNone) +
        (s.setWorker i .gone).present ≤ s.excuses + s.present := by omega
    exact h
  | stops cancelled worker => exact leaves (present_leaves worker rfl)
  | abandons cancelled worker => exact leaves (present_leaves worker rfl)
  | _ => exact Nat.le_refl _

end State

/-- Where a part can be. -/
inductive Place where
  | queue
  | worker (index : Nat)
  | channel
  | coordinator
  | dropped

/-- The part is in this place; a part that is in no other one was dropped. -/
def State.Has (s : State τ κ α ω β δ) (part : α) : Place → Prop
  | .queue => part ∈ s.queue
  | .worker i => ∃ w, s.workers[i]? = some w ∧ part ∈ w.parts
  | .channel => part ∈ s.underWay
  | .coordinator => part ∈ s.received
  | .dropped => part ∉ s.parts

namespace State
variable {s : State τ κ α ω β δ} {part : α}

theorem exists_has (s : State τ κ α ω β δ) (part : α) : ∃ place, s.Has part place := by
  by_cases there : part ∈ s.parts
  · simp only [parts, List.mem_append] at there
    rcases there with ((h | h) | h) | h
    · exact ⟨.queue, h⟩
    · obtain ⟨w, hw, hpart⟩ := List.mem_flatMap.1 h
      obtain ⟨i, hi, rfl⟩ := List.getElem_of_mem hw
      exact ⟨.worker i, _, List.getElem?_eq_getElem hi, hpart⟩
    · exact ⟨.channel, h⟩
    · exact ⟨.coordinator, h⟩
  · exact ⟨.dropped, there⟩

theorem worker_unique (distinct : s.inHand.Nodup) {i j : Nat} (hi : s.Has part (.worker i))
    (hj : s.Has part (.worker j)) : i = j := by
  obtain ⟨v, hv, hpv⟩ := hi
  obtain ⟨w, hw, hpw⟩ := hj
  obtain ⟨hi, rfl⟩ := List.getElem?_eq_some_iff.1 hv
  obtain ⟨hj, rfl⟩ := List.getElem?_eq_some_iff.1 hw
  have apart := List.pairwise_iff_getElem.1 (List.nodup_flatMap.1 distinct).2
  rcases Nat.lt_trichotomy i j with hlt | heq | hlt
  · exact (apart i j hi hj hlt hpv hpw).elim
  · exact heq
  · exact (apart j i hj hi hlt hpw hpv).elim

theorem has_unique (distinct : s.parts.Nodup) {p q : Place} (hp : s.Has part p)
    (hq : s.Has part q) : p = q := by
  obtain ⟨distinct, -, apart⟩ := List.nodup_append.1 distinct
  obtain ⟨distinct, -, apart'⟩ := List.nodup_append.1 distinct
  obtain ⟨-, distinct, apart''⟩ := List.nodup_append.1 distinct
  have inHand {i : Nat} (h : s.Has part (.worker i)) : part ∈ s.inHand := by
    obtain ⟨w, hw, hpart⟩ := h
    exact List.mem_flatMap.2 ⟨w, List.mem_of_getElem? hw, hpart⟩
  cases p <;> cases q <;> grind [State.Has, worker_unique, State.parts]

end State

end ObjectTransfer.Crew
