import ObjectTransfer.Proofs.Crew.Liveness
/-!
What a crew has in hand. What becomes of the parts does not depend on which worker has one or whether
a parcel lies in the channel yet. So a crew is viewed as the parts with how far each has got, and most
of its steps change one of these parts or nothing at all.
-/
namespace ObjectTransfer.Crew
variable {τ κ α ω β δ : Type}

/-- How far a part has got. -/
inductive Holding (α ω β : Type) where
  | queued (part : α)
  | working (part : α) (work : ω)
  /-- What came of it is on the way to the coordinator. -/
  | packed (parcel : Parcel α β)
  | received (part : α)

def Holding.part? : Holding α ω β → Option α
  | .queued part | .working part _ | .received part => some part
  | .packed parcel => parcel.part

def Worker.holdings : Worker κ α ω β → List (Holding α ω β)
  | .working _ part work => [.working part work]
  | .handing _ parcel => [.packed parcel]
  | _ => []

/-- What the coordinator expects. -/
inductive Outlook (δ : Type) where
  | collecting (desk : δ)
  | complete (desk : δ)
  | lost (e : Error)

def Phase.outlook : Phase δ → Outlook δ
  | .collecting desk => .collecting desk
  | .closing desk | .returned (.ok desk) => .complete desk
  | .failing e | .returned (.error e) => .lost e

/-- A crew as what is done with the parts. -/
structure View (τ α ω β δ : Type) where
  holdings : List (Holding α ω β)
  outlook : Outlook δ
  world : τ

inductive Change (c : Craft τ κ α ω β) (k : Desk τ β δ) (parts : List α) :
    View τ α ω β δ → View τ α ω β δ → Prop
  | rests (v : View τ α ω β δ) : Change c k parts v v
  | arrives {held : List (Holding α ω β)} {o : Outlook δ} {w w' : τ} {tool : κ}
      (prepare : c.prepare w = (.ok tool, w')) : Change c k parts ⟨held, o, w⟩ ⟨held, o, w'⟩
  | stumbles {held : List (Holding α ω β)} {o : Outlook δ} {w w' : τ} {e : Error}
      (prepare : c.prepare w = (.error e, w')) :
      Change c k parts ⟨held, o, w⟩ ⟨.packed ⟨none, .error e⟩ :: held, o, w'⟩
  | takes (tool : κ) (part : α) (held : List (Holding α ω β)) (o : Outlook δ) (w : τ) :
      Change c k parts ⟨.queued part :: held, o, w⟩ ⟨.working part (c.begin tool part) :: held, o, w⟩
  | proceeds {held : List (Holding α ω β)} {o : Outlook δ} {w w' : τ} {part : α} {work work' : ω}
      (proceed : c.proceed work w = (.inr work', w')) :
      Change c k parts ⟨.working part work :: held, o, w⟩ ⟨.working part work' :: held, o, w'⟩
  | finishes {held : List (Holding α ω β)} {o : Outlook δ} {w w' : τ} {part : α} {work : ω}
      {result : Except Error β} (proceed : c.proceed work w = (.inl result, w')) :
      Change c k parts ⟨.working part work :: held, o, w⟩
        ⟨.packed (State.parcel c part result) :: held, o, w'⟩
  | abandons (part : α) (work : ω) (held : List (Holding α ω β)) (e : Error) (w : τ) :
      Change c k parts ⟨.working part work :: held, .lost e, w⟩ ⟨held, .lost e, c.abandon work w⟩
  | drops (parcel : Parcel α β) (held : List (Holding α ω β)) (e : Error) (w : τ) :
      Change c k parts ⟨.packed parcel :: held, .lost e, w⟩ ⟨held, .lost e, parcel.drop c w⟩
  | accepts (part : Option α) (made : β) (held : List (Holding α ω β)) {desk : δ} {w : τ}
      (idle : k.file desk w = none) :
      Change c k parts ⟨.packed ⟨part, .ok made⟩ :: held, .collecting desk, w⟩
        ⟨part.toList.map .received ++ held, .collecting (k.accept made desk w).1,
          (k.accept made desk w).2⟩
  | hears (part : Option α) (e : Error) (held : List (Holding α ω β)) {desk : δ} {w : τ}
      (idle : k.file desk w = none) :
      Change c k parts ⟨.packed ⟨part, .error e⟩ :: held, .collecting desk, w⟩
        ⟨part.toList.map .received ++ held, .lost e, k.drop desk w⟩
  | files (held : List (Holding α ω β)) {desk desk' : δ} {w w' : τ}
      (file : k.file desk w = some (.ok desk', w')) :
      Change c k parts ⟨held, .collecting desk, w⟩ ⟨held, .collecting desk', w'⟩
  | misfiles (held : List (Holding α ω β)) {desk : δ} {w w' : τ} {e : Error}
      (file : k.file desk w = some (.error e, w')) :
      Change c k parts ⟨held, .collecting desk, w⟩ ⟨held, .lost e, k.drop desk w'⟩
  /-- Every part was received; nothing is left but news of workers that could not begin. -/
  | closes {held : List (Holding α ω β)} {desk : δ} {w : τ} (idle : k.file desk w = none)
      (rest : ∀ h ∈ held, ∃ result, h = .packed ⟨none, result⟩) :
      Change c k parts ⟨parts.map .received ++ held, .collecting desk, w⟩
        ⟨parts.map .received ++ held, .complete desk, w⟩

namespace State

def holdings (s : State τ κ α ω β δ) : List (Holding α ω β) :=
  s.queue.map .queued ++ s.workers.flatMap Worker.holdings ++ s.channel.map .packed ++
    s.received.map .received

def view (s : State τ κ α ω β δ) : View τ α ω β δ := ⟨s.holdings, s.phase.outlook, s.world⟩

variable {c : Craft τ κ α ω β} {k : Desk τ β δ} {s t : State τ κ α ω β δ} {m : Move} {n : Nat}
  {parts : List α}

theorem parts_holdings (s : State τ κ α ω β δ) : s.holdings.filterMap Holding.part? = s.parts := by
  have inHand : (s.workers.flatMap Worker.holdings).filterMap Holding.part? = s.inHand := by
    rw [List.filterMap_flatMap, State.inHand]
    congr 1
    funext w
    cases w with
    | handing tool parcel =>
      cases part : parcel.part with
      | none => simp [Worker.holdings, Worker.parts, Holding.part?, part]
      | some a => simp [Worker.holdings, Worker.parts, Holding.part?, part]
    | arriving => rfl
    | waiting tool => rfl
    | working tool part work => rfl
    | gone => rfl
  have underWay : (s.channel.map (.packed : Parcel α β → Holding α ω β)).filterMap Holding.part? =
      s.underWay := by
    rw [List.filterMap_map, State.underWay, List.filterMap_eq_flatMap_toList]
    rfl
  have queued : (s.queue.map (.queued : α → Holding α ω β)).filterMap Holding.part? = s.queue := by
    rw [List.filterMap_map]
    exact List.filterMap_some
  have received : (s.received.map (.received : α → Holding α ω β)).filterMap Holding.part? =
      s.received := by
    rw [List.filterMap_map]
    exact List.filterMap_some
  rw [holdings, List.filterMap_append, List.filterMap_append, List.filterMap_append, inHand, underWay,
    queued, received, State.parts]

theorem exists_others {i : Nat} {w : Worker κ α ω β} (worker : s.workers[i]? = some w) :
    ∃ others, (w.holdings ++ others).Perm s.holdings ∧
      ∀ w', (w'.holdings ++ others).Perm (s.setWorker i w').holdings := by
  obtain ⟨before, behind, hl, hset⟩ := exists_around worker
  refine ⟨s.queue.map .queued ++ before.flatMap Worker.holdings ++ behind.flatMap Worker.holdings ++
    s.channel.map .packed ++ s.received.map .received, ?_, fun w' => ?_⟩
  · classical
    rw [List.perm_iff_count]
    intro h
    simp only [holdings, hl, List.flatMap_append, List.flatMap_cons, List.count_append]
    omega
  · classical
    rw [List.perm_iff_count]
    intro h
    simp only [holdings, setWorker, hset, List.flatMap_append, List.flatMap_cons, List.count_append]
    omega

theorem holdings_sent {i : Nat} {parcel : Parcel α β} {tool : Option κ} {w : Worker κ α ω β}
    (worker : s.workers[i]? = some (.handing tool parcel)) (empty : w.holdings = []) :
    s.holdings.Perm ({ s with channel := s.channel ++ [parcel] }.setWorker i w).holdings := by
  obtain ⟨before, behind, hl, hset⟩ := exists_around worker
  classical
  rw [List.perm_iff_count]
  intro h
  simp only [holdings, setWorker, hset]
  have packed : (.handing tool parcel : Worker κ α ω β).holdings = [.packed parcel] := rfl
  simp only [hl, List.flatMap_append, List.flatMap_cons, List.map_append, List.map_cons, List.map_nil,
    List.count_append, empty, packed, List.count_nil]
  omega

theorem holdings_taken {parcel : Parcel α β} {rest : List (Parcel α β)}
    (channel : s.channel = parcel :: rest) :
    (.packed parcel :: { s with channel := rest }.holdings).Perm s.holdings := by
  classical
  rw [List.perm_iff_count]
  intro h
  simp only [holdings, channel, List.map_cons, List.count_append, List.count_cons]
  omega

theorem holdings_received (s : State τ κ α ω β δ) (part : Option α) :
    (part.toList.map Holding.received ++ s.holdings).Perm
      { s with received := part.toList ++ s.received }.holdings := by
  classical
  rw [List.perm_iff_count]
  intro h
  simp only [holdings, List.map_append, List.count_append]
  omega

theorem Staffed.holdings_of_received (st : s.Staffed n parts) (wanted : s.cancelled = false)
    (received : s.received.length = s.total) :
    ∃ rest, (∀ h ∈ rest, ∃ result, h = .packed ⟨none, result⟩) ∧
      (parts.map .received ++ rest).Perm s.holdings := by
  obtain ⟨queue, inHand, underWay⟩ := st.elsewhere wanted received
  have perm := st.perm wanted
  rw [State.parts, queue, inHand, underWay] at perm
  have partless {parcel : Parcel α β} (none : parcel.part.toList = []) :
      ∃ result, Holding.packed parcel = (.packed ⟨.none, result⟩ : Holding α ω β) := by
    obtain ⟨part, result⟩ := parcel
    cases part with
    | none => exact ⟨result, rfl⟩
    | some part => cases none
  refine ⟨s.workers.flatMap Worker.holdings ++ s.channel.map .packed, fun h hh => ?_, ?_⟩
  · rcases List.mem_append.1 hh with hh | hh
    · obtain ⟨w, hw, hh⟩ := List.mem_flatMap.1 hh
      have hparts := List.flatMap_eq_nil_iff.1 inHand w hw
      cases w with
      | working tool part work => cases hparts
      | handing tool parcel =>
        obtain rfl := List.mem_singleton.1 hh
        exact partless hparts
      | arriving => cases hh
      | waiting tool => cases hh
      | gone => cases hh
    · obtain ⟨parcel, hparcel, rfl⟩ := List.mem_map.1 hh
      exact partless (List.flatMap_eq_nil_iff.1 underWay parcel hparcel)
  · rw [State.holdings, queue]
    exact (List.perm_append_comm.trans (((perm.symm.map _).append_left _)))

theorem Agrees.lost_of_cancelled (a : s.Agrees) (cancelled : s.cancelled = true) :
    ∃ e, s.phase.outlook = .lost e := by
  rw [a.cancelled] at cancelled
  cases phase : s.phase with
  | collecting desk => rw [phase] at cancelled; cases cancelled
  | closing desk => rw [phase] at cancelled; cases cancelled
  | failing e => exact ⟨e, rfl⟩
  | returned result =>
    cases result with
    | ok desk => rw [phase] at cancelled; cases cancelled
    | error e => exact ⟨e, rfl⟩

theorem Steps.change (st : s.Staffed n parts) (hn : 0 < n) (h : Steps c k s m t) :
    ∃ held held', held.Perm s.holdings ∧ held'.Perm t.holdings ∧
      Change c k parts ⟨held, s.phase.outlook, s.world⟩ ⟨held', t.phase.outlook, t.world⟩ := by
  have same {held : List (Holding α ω β)} (perm : held.Perm s.holdings)
      (perm' : held.Perm t.holdings) (o : t.phase.outlook = s.phase.outlook) (w : t.world = s.world) :
      ∃ held held', held.Perm s.holdings ∧ held'.Perm t.holdings ∧
        Change c k parts ⟨held, s.phase.outlook, s.world⟩ ⟨held', t.phase.outlook, t.world⟩ := by
    refine ⟨held, held, perm, perm', ?_⟩
    rw [o, w]
    exact .rests _
  have lost (shut : s.isOpen = false) : s.cancelled = true := by simpa [shut] using st.agrees.opened
  cases h with
  | files phase file =>
    refine ⟨_, _, .refl _, .refl _, ?_⟩
    rw [phase]
    exact .files _ file
  | misfiles phase file =>
    refine ⟨_, _, .refl _, .refl _, ?_⟩
    rw [phase]
    exact .misfiles _ file
  | closes phase idle complete =>
    have wanted : s.cancelled = false := by rw [st.agrees.cancelled, phase]; rfl
    obtain ⟨rest, hrest, perm⟩ := st.holdings_of_received wanted complete
    refine ⟨_, _, perm, perm, ?_⟩
    rw [phase]
    exact .closes idle hrest
  | accepts phase idle incomplete channel =>
    rename_i desk part made rest
    have perm := holdings_received { s with channel := rest } part
    refine ⟨_, _, holdings_taken channel, perm, ?_⟩
    rw [phase]
    exact .accepts _ _ _ idle
  | hears phase idle incomplete channel =>
    rename_i desk part e rest
    have perm := holdings_received { s with channel := rest } part
    refine ⟨_, _, holdings_taken channel, perm, ?_⟩
    rw [phase]
    exact .hears _ _ _ idle
  | deserted phase idle incomplete channel gone =>
    -- whoever has gone has no part, so all of them would have been received
    have wanted : s.cancelled = false := by rw [st.agrees.cancelled, phase]; rfl
    exact absurd (gone.symm.trans (st.not_deserted hn wanted incomplete channel)) (by simp)
  | drains phase drains channel =>
    refine ⟨_, _, holdings_taken channel, .refl _, ?_⟩
    rw [phase]
    exact .drops _ _ _ _
  | givesUp phase drained gone => exact same (.refl _) (.refl _) (by rw [phase]; rfl) rfl
  | returns phase gone => exact same (.refl _) (.refl _) (by rw [phase]; rfl) rfl
  | arrives worker prepare =>
    obtain ⟨others, perm, perm'⟩ := exists_others worker
    exact ⟨_, _, perm, perm' _, .arrives prepare⟩
  | stumbles worker prepare =>
    obtain ⟨others, perm, perm'⟩ := exists_others worker
    exact ⟨_, _, perm, perm' _, .stumbles prepare⟩
  | leaves worker queue =>
    obtain ⟨others, perm, perm'⟩ := exists_others worker
    exact same perm (perm' .gone) rfl rfl
  | takes worker queue =>
    rename_i i tool part rest
    obtain ⟨others, perm, perm'⟩ := exists_others (s := { s with queue := rest }) worker
    have taken : s.holdings = .queued part :: { s with queue := rest }.holdings := by
      simp [holdings, queue]
    refine ⟨_, _, ?_, perm' _, .takes tool part others _ _⟩
    rw [taken]
    exact perm.cons _
  | proceeds worker proceed =>
    obtain ⟨others, perm, perm'⟩ := exists_others worker
    exact ⟨_, _, perm, perm' _, .proceeds proceed⟩
  | finishes worker proceed =>
    obtain ⟨others, perm, perm'⟩ := exists_others worker
    exact ⟨_, _, perm, perm' _, .finishes proceed⟩
  | breaks worker proceed =>
    obtain ⟨others, perm, perm'⟩ := exists_others worker
    exact ⟨_, _, perm, perm' _, .finishes proceed⟩
  | drops worker shut =>
    obtain ⟨others, perm, perm'⟩ := exists_others worker
    obtain ⟨e, outlook⟩ := st.agrees.lost_of_cancelled (lost shut)
    refine ⟨_, _, perm, perm' .gone, ?_⟩
    change Change c k parts ⟨_, s.phase.outlook, _⟩ ⟨_, s.phase.outlook, _⟩
    rw [outlook]
    exact .drops _ _ _ _
  | handsOver worker isOpen room => exact same (.refl _) (holdings_sent worker rfl) rfl rfl
  | reports worker isOpen room => exact same (.refl _) (holdings_sent worker rfl) rfl rfl
  | stops cancelled worker =>
    obtain ⟨others, perm, perm'⟩ := exists_others worker
    exact same perm (perm' .gone) rfl rfl
  | abandons cancelled worker =>
    obtain ⟨others, perm, perm'⟩ := exists_others worker
    obtain ⟨e, outlook⟩ := st.agrees.lost_of_cancelled cancelled
    refine ⟨_, _, perm, perm' .gone, ?_⟩
    change Change c k parts ⟨_, s.phase.outlook, _⟩ ⟨_, s.phase.outlook, _⟩
    rw [outlook]
    exact .abandons _ _ _ _ _

theorem holdings_initial (parts : List α) (workers : Nat) (desk : δ) (world : τ) :
    (initial parts workers desk world : State τ κ α ω β δ).holdings = parts.map .queued := by
  have noWorker : (List.replicate (min workers parts.length)
      (.arriving : Worker κ α ω β)).flatMap Worker.holdings = [] :=
    List.flatMap_eq_nil_iff.2 fun w hw => by rw [(List.mem_replicate.1 hw).2]; rfl
  simp [holdings, initial, noWorker]

theorem Reaches.holds {workers : Nat} {desk : δ} {world : τ} {past : List (Event α)}
    {J : View τ α ω β δ → Prop} (hn : 0 < min workers parts.length)
    (listed : ∀ {held held' o w}, held.Perm held' → J ⟨held, o, w⟩ → J ⟨held', o, w⟩)
    (start : J ⟨parts.map .queued, .collecting desk, world⟩)
    (kept : ∀ {v v'}, Change c k parts v v' → J v → J v')
    (h : Reaches c k (initial parts workers desk world) past s) : J s.view := by
  induction h with
  | start =>
    rw [view, holdings_initial]
    exact start
  | step before step ih =>
    obtain ⟨held, held', perm, perm', change⟩ := (steps_of_step step).change before.staffed hn
    exact listed perm' (kept change (listed perm.symm ih))

end State

end ObjectTransfer.Crew
