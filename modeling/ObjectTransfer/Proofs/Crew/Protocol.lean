import ObjectTransfer.Download.Concurrent
import ObjectTransfer.Proofs.Crew.Liveness
import ObjectTransfer.S3.Concurrent
/-!
The protocol of a crew. Whoever moves next, every part is in one place, is taken up by one worker and
is dropped only after something failed; the coordinator always returns in the end unless a worker
goes on for ever, and it never finds its workers gone too early. Both kinds of transfers in parts are
done by such crews.
-/
namespace ObjectTransfer.Crew
variable {τ κ α ω β δ : Type}

namespace State
variable {c : Craft τ κ α ω β} {k : Desk τ β δ} {s t u : State τ κ α ω β δ} {m : Move} {n : Nat}
  {parts : List α} {past : List (Event α)}

theorem Steps.taken (h : Steps c k s m t) :
    (s.events c k m).filterMap Event.taken? ++ t.queue = s.queue := by
  cases h with
  | files phase file => simp [events, phase, file]
  | misfiles phase file => simp [events, phase, file, Event.taken?, fail]
  | closes phase idle complete => simp [events, phase, idle]
  | accepts phase idle incomplete channel => simp [events, phase, idle]
  | hears phase idle incomplete channel => simp [events, phase, idle, fail]
  | deserted phase idle incomplete channel gone => simp [events, phase, idle, fail]
  | drains phase drains channel => simp [events, phase]
  | givesUp phase drained gone => simp [events, phase]
  | returns phase gone => simp [events, phase]
  | arrives worker prepare => simp [events, worker, prepare, setWorker]
  | stumbles worker prepare => simp [events, worker, prepare, setWorker, Event.taken?]
  | leaves worker queue => simp [events, worker, queue, setWorker]
  | takes worker queue => simp [events, worker, queue, setWorker, Event.taken?]
  | proceeds worker proceed => simp [events, worker, proceed, setWorker]
  | finishes worker proceed => simp [events, worker, proceed, setWorker]
  | breaks worker proceed => simp [events, worker, proceed, setWorker, Event.taken?]
  | drops worker shut => simp [events, worker, setWorker]
  | handsOver worker isOpen room => simp [events, worker, setWorker]
  | reports worker isOpen room => simp [events, worker, setWorker]
  | stops cancelled worker => rfl
  | abandons cancelled worker => rfl

theorem Reaches.taken (h : Reaches c k s past t) :
    past.filterMap Event.taken? ++ t.queue = s.queue := by
  induction h with
  | start => rfl
  | step before step ih =>
    rw [List.filterMap_append, List.append_assoc, (steps_of_step step).taken]
    exact ih

/-- Every failure that is known of, or about to be, happened. -/
structure Accounted (c : Craft τ κ α ω β) (past : List (Event α)) (s : State τ κ α ω β δ) :
    Prop where
  inHand : ∀ tool parcel e, .handing tool parcel ∈ s.workers → parcel.result = .error e →
    ∃ event ∈ past, event.failure? c = some e
  underWay : ∀ parcel e, parcel ∈ s.channel → parcel.result = .error e →
    ∃ event ∈ past, event.failure? c = some e
  heard : ∀ e, s.phase = .failing e ∨ s.phase = .returned (.error e) →
    ∃ event ∈ past, event.failure? c = some e

theorem Accounted.later (a : s.Accounted c past) (new : List (Event α)) :
    s.Accounted c (past ++ new) := by
  have later {e : Error} (h : ∃ event ∈ past, event.failure? c = some e) :
      ∃ event ∈ past ++ new, event.failure? c = some e := by
    obtain ⟨event, hevent, he⟩ := h
    exact ⟨event, List.mem_append_left _ hevent, he⟩
  exact ⟨fun tool parcel e hw he => later (a.inHand tool parcel e hw he),
    fun parcel e hp he => later (a.underWay parcel e hp he), fun e he => later (a.heard e he)⟩

theorem Accounted.setWorker (a : s.Accounted c past) {i : Nat} {w : Worker κ α ω β}
    (accounted : ∀ tool parcel e, w = .handing tool parcel → parcel.result = .error e →
      ∃ event ∈ past, event.failure? c = some e) : (s.setWorker i w).Accounted c past where
  inHand tool parcel e hw he := by
    rcases mem_setWorker hw with hw | hw
    · exact a.inHand tool parcel e hw he
    · exact accounted tool parcel e hw.symm he
  underWay := a.underWay
  heard := a.heard

theorem Accounted.hear (a : s.Accounted c past) (k : Desk τ β δ) (desk : δ) {e : Error}
    (happened : ∃ event ∈ past, event.failure? c = some e) : (s.fail k desk e).Accounted c past where
  inHand := a.inHand
  underWay := a.underWay
  heard e' h := by
    rcases h with h | h
    · cases h
      exact happened
    · cases h

theorem Accounted.send (a : s.Accounted c past) {i : Nat} {tool : Option κ} {parcel : Parcel α β}
    (worker : s.workers[i]? = some (.handing tool parcel)) :
    ({ s with channel := s.channel ++ [parcel] }).Accounted c past where
  inHand := a.inHand
  underWay parcel' e hp he := by
    rcases List.mem_append.1 hp with hp | hp
    · exact a.underWay parcel' e hp he
    · obtain rfl := List.mem_singleton.1 hp
      exact a.inHand tool parcel' e (List.mem_of_getElem? worker) he
  heard := a.heard

theorem Accounted.receive (a : s.Accounted c past) {parcel : Parcel α β} {rest : List (Parcel α β)}
    (channel : s.channel = parcel :: rest) (received : List α) (world : τ) :
    ({ s with channel := rest, received, world }).Accounted c past where
  inHand := a.inHand
  underWay parcel' e hp he := a.underWay parcel' e (channel ▸ List.mem_cons_of_mem _ hp) he
  heard := a.heard

theorem Accounted.reworld (a : s.Accounted c past) (world : τ) :
    ({ s with world }).Accounted c past := ⟨a.inHand, a.underWay, a.heard⟩

theorem Accounted.requeue (a : s.Accounted c past) (queue : List α) :
    ({ s with queue }).Accounted c past := ⟨a.inHand, a.underWay, a.heard⟩

theorem Accounted.steps (a : s.Accounted c past) (st : s.Staffed n parts) (hn : 0 < n)
    (h : Steps c k s m t) : t.Accounted c (past ++ s.events c k m) := by
  have now (event : Event α) {e : Error} (new : s.events c k m = [event])
      (he : event.failure? c = some e) :
      ∃ event ∈ past ++ s.events c k m, event.failure? c = some e := by
    rw [new]
    exact ⟨event, List.mem_append_right _ (List.mem_singleton_self _), he⟩
  have a := a.later (s.events c k m)
  cases h with
  | files phase file => exact ⟨a.inHand, a.underWay, by rintro e (h | h) <;> cases h⟩
  | misfiles phase file =>
    exact (a.reworld _).hear k _ (now (.misfiled _) (by simp [events, phase, file]) rfl)
  | closes phase idle complete => exact ⟨a.inHand, a.underWay, by rintro e (h | h) <;> cases h⟩
  | accepts phase idle incomplete channel =>
    have a := a.receive channel s.received s.world
    exact ⟨a.inHand, a.underWay, by rintro e (h | h) <;> cases h⟩
  | hears phase idle incomplete channel =>
    exact (a.receive channel _ _).hear k _
      (a.underWay _ _ (channel ▸ List.mem_cons_self) rfl)
  | deserted phase idle incomplete channel gone =>
    have wanted : s.cancelled = false := by rw [st.agrees.cancelled, phase]; rfl
    exact absurd (gone.symm.trans (st.not_deserted hn wanted incomplete channel)) (by simp)
  | drains phase drains channel => exact a.receive channel _ _
  | givesUp phase drained gone =>
    refine ⟨a.inHand, a.underWay, ?_⟩
    rintro e (h | h)
    · cases h
    · cases h
      exact a.heard _ (.inl phase)
  | returns phase gone => exact ⟨a.inHand, a.underWay, by rintro e (h | h) <;> cases h⟩
  | arrives worker prepare =>
    exact (a.reworld _).setWorker fun _ _ _ h => (by cases h)
  | stumbles worker prepare =>
    rename_i i e world
    refine (a.reworld _).setWorker fun tool parcel e hw he => ?_
    cases hw
    cases he
    exact now (.stumbled i e) (by simp [events, worker, prepare]) rfl
  | leaves worker queue => exact a.setWorker fun _ _ _ h => (by cases h)
  | takes worker queue => exact (a.requeue _).setWorker fun _ _ _ h => (by cases h)
  | proceeds worker proceed => exact (a.reworld _).setWorker fun _ _ _ h => (by cases h)
  | finishes worker proceed =>
    refine (a.reworld _).setWorker fun tool parcel e hw he => ?_
    cases hw
    cases he
  | breaks worker proceed =>
    refine (a.reworld _).setWorker fun tool parcel e hw he => ?_
    cases hw
    cases he
    exact now (.failed _ _) (by simp [events, worker, proceed]) rfl
  | drops worker shut => exact (a.reworld _).setWorker fun _ _ _ h => (by cases h)
  | handsOver worker isOpen room => exact (a.send worker).setWorker fun _ _ _ h => (by cases h)
  | reports worker isOpen room => exact (a.send worker).setWorker fun _ _ _ h => (by cases h)
  | stops cancelled worker => exact a.setWorker fun _ _ _ h => (by cases h)
  | abandons cancelled worker => exact (a.reworld _).setWorker fun _ _ _ h => (by cases h)

theorem Reaches.accounted {workers : Nat} {desk : δ} {world : τ} (hn : 0 < min workers parts.length)
    (h : Reaches c k (initial parts workers desk world) past s) : s.Accounted c past := by
  induction h with
  | start =>
    refine ⟨fun tool parcel e hw _ => ?_, fun parcel e hp _ => ?_, ?_⟩
    · cases (List.mem_replicate.1 hw).2
    · cases hp
    · rintro e (h | h) <;> cases h
  | step before step ih => exact ih.steps before.staffed hn (steps_of_step step)

end State

/-- What is always true of a crew with these parts, whatever happened before. -/
structure State.Orderly (c : Craft τ κ α ω β) (k : Desk τ β δ) (parts : List α)
    (past : List (Event α)) (s : State τ κ α ω β δ) : Prop where
  /-- Every part is in one place. -/
  placed : ∀ part ∈ parts, ∃ place, s.Has part place ∧ ∀ other, s.Has part other → other = place
  /-- No part is there twice, in the same place or in two. -/
  distinct : s.parts.Nodup
  /-- Parts are dropped only after something failed. -/
  dropped : ∀ part ∈ parts, s.Has part .dropped → ∃ event ∈ past, ∃ e, event.failure? c = some e
  /-- No part was taken up twice. -/
  once : (past.filterMap Event.taken?).Nodup
  /-- Somebody can move until the coordinator has returned. -/
  moves : (∀ result, s.phase ≠ .returned result) → ∃ m t, s.step c k m = some t
  /-- The coordinator does not find all workers gone while it waits for a parcel. -/
  manned : ∀ desk, s.phase = .collecting desk → k.file desk s.world = none →
    s.received.length ≠ s.total → s.channel = [] → s.deserted = false
  /-- A failure that is returned is one that happened. -/
  blamed : ∀ e, s.phase = .returned (.error e) → ∃ event ∈ past, event.failure? c = some e

theorem State.Reaches.orderly {c : Craft τ κ α ω β} {k : Desk τ β δ} {parts : List α}
    {workers : Nat} {desk : δ} {world : τ} {past : List (Event α)} {s : State τ κ α ω β δ}
    (some : parts ≠ []) (distinct : parts.Nodup) (hworkers : 0 < workers)
    (h : Reaches c k (initial parts workers desk world) past s) : s.Orderly c k parts past := by
  have hn : 0 < min workers parts.length := by
    have := List.length_pos_iff.2 some
    omega
  have st := h.staffed
  obtain ⟨dropped, perm, lost⟩ := st.places
  have hnodup : s.parts.Nodup := (List.nodup_append.1 (perm.nodup_iff.2 distinct)).1
  have taken := h.taken
  refine ⟨fun part _ => ?_, hnodup, fun part hpart hdropped => ?_, ?_, fun running => ?_,
    fun desk phase idle incomplete channel => ?_, fun e returned => ?_⟩
  · obtain ⟨place, hplace⟩ := s.exists_has part
    exact ⟨place, hplace, fun other hother => has_unique hnodup hother hplace⟩
  · have hmem : part ∈ dropped := (List.mem_append.1 (perm.mem_iff.2 hpart)).resolve_left hdropped
    have cancelled := lost (List.ne_nil_of_mem hmem)
    rw [st.agrees.cancelled] at cancelled
    have heard := (h.accounted hn).heard
    cases phase : s.phase with
    | collecting desk => rw [phase] at cancelled; cases cancelled
    | closing desk => rw [phase] at cancelled; cases cancelled
    | failing e =>
      obtain ⟨event, hevent, he⟩ := heard e (.inl phase)
      exact ⟨event, hevent, e, he⟩
    | returned result =>
      cases result with
      | ok desk => rw [phase] at cancelled; cases cancelled
      | error e =>
        obtain ⟨event, hevent, he⟩ := heard e (.inr phase)
        exact ⟨event, hevent, e, he⟩
  · have hparts : (past.filterMap Event.taken? ++ s.queue).Nodup := taken ▸ distinct
    exact (List.nodup_append.1 hparts).1
  · obtain ⟨m, t, hsteps⟩ := st.exists_steps (c := c) (k := k) hn running
    exact ⟨m, t, step_eq_some_iff.2 hsteps⟩
  · have wanted : s.cancelled = false := by rw [st.agrees.cancelled, phase]; rfl
    exact st.not_deserted hn wanted incomplete channel
  · exact (h.accounted hn).heard e (.inr returned)

/-- Downloads and uploads in parts keep the protocol, in whatever order their parties move and
whatever becomes of the parts. -/
theorem transfers_keep_protocol {σ : Type} :
    (∀ (p : Download.Plan) (source : RangeSource σ) (directory : Files.Path)
      (parts : List Download.Part) (desk : Download.Assembly) (world : World σ)
      (past : List (Event Download.Part)) (s : State (World σ) Unit Download.Part Download.Fetch
        Download.Staged Download.Assembly),
      parts ≠ [] → parts.Nodup → 0 < p.workers →
      State.Reaches (Download.craft p source directory) Download.Assembly.desk
        (.initial parts p.workers desk world) past s →
      s.Orderly (Download.craft p source directory) Download.Assembly.desk parts past) ∧
    (∀ (p : S3.Plan) (service : S3 σ) (u : S3.Upload) (path : String) (parts : List S3.FilePart)
      (desk : S3.Collection) (world : World σ) (past : List (Event S3.FilePart))
      (s : State (World σ) Files.Entry S3.FilePart S3.Sending (S3.UploadedPart × Nat) S3.Collection),
      parts ≠ [] → parts.Nodup → 0 < p.workers →
      State.Reaches (S3.craft p service u path) S3.Collection.desk
        (.initial parts p.workers desk world) past s →
      s.Orderly (S3.craft p service u path) S3.Collection.desk parts past) :=
  ⟨fun _ _ _ _ _ _ _ _ some distinct hworkers h => h.orderly some distinct hworkers,
    fun _ _ _ _ _ _ _ _ _ some distinct hworkers h => h.orderly some distinct hworkers⟩

/-- An object that is out of reach, and a service that answers nothing. -/
def unreachable : RangeSource Unit where
  inspect _ files := (.error (.transport .notDispatched), (), files)
  fetch _ _ files := (.error (.transport .notDispatched), (), files)

def silent : S3 Unit := ⟨fun _ _ => (.error .notDispatched, ())⟩

/-- Two workers for three parts, of a download and of an upload, after three rounds in which each of
them has failed. -/
theorem failed_transfers_keep_protocol :
    (let p : Download.Plan := ⟨4, 2, .disabled, fun _ => false, none⟩
    let parts := Download.Part.split 10 4
    let c := Download.craft p unreachable []
    let s := State.initial parts p.workers ⟨0, 0, .empty, none, none⟩ (.initial () .empty)
    parts ≠ [] ∧ parts.Nodup ∧ 0 < p.workers ∧ ∃ past,
      State.Reaches c Download.Assembly.desk s past (s.run c Download.Assembly.desk 3) ∧
        (s.run c Download.Assembly.desk 3).Orderly c Download.Assembly.desk parts past) ∧
    (let p : S3.Plan := ⟨4, 2, .disabled, .retain, none⟩
    let parts := (List.range 3).map (S3.FilePart.ofIndex 10 4)
    let c := S3.craft p silent default "file"
    let s := State.initial parts p.workers ⟨[], 0, none⟩ (.initial () .empty)
    parts ≠ [] ∧ parts.Nodup ∧ 0 < p.workers ∧ ∃ past,
      State.Reaches c S3.Collection.desk s past (s.run c S3.Collection.desk 3) ∧
        (s.run c S3.Collection.desk 3).Orderly c S3.Collection.desk parts past) := by
  constructor
  · obtain ⟨past, h⟩ := State.Reaches.run (c := Download.craft ⟨4, 2, .disabled, fun _ => false, none⟩
      unreachable []) (k := Download.Assembly.desk) (s := .initial (Download.Part.split 10 4) 2
      ⟨0, 0, .empty, none, none⟩ (.initial () .empty)) .start 3
    exact ⟨by decide, by decide, by decide, past, h,
      transfers_keep_protocol.1 _ _ _ _ _ _ _ _ (by decide) (by decide) (by decide) h⟩
  · obtain ⟨past, h⟩ := State.Reaches.run (c := S3.craft ⟨4, 2, .disabled, .retain, none⟩ silent
      default "file") (k := S3.Collection.desk) (s := .initial ((List.range 3).map
      (S3.FilePart.ofIndex 10 4)) 2 ⟨[], 0, none⟩ (.initial () .empty)) .start 3
    exact ⟨by decide, by decide, by decide, past, h,
      transfers_keep_protocol.2 _ _ _ _ _ _ _ _ _ (by decide) (by decide) (by decide) h⟩

end ObjectTransfer.Crew
