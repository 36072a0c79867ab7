import ObjectTransfer.Proofs.Crew.Places
/-!
Crews are never stuck. As long as the coordinator has not returned, it can move or one of the workers
can: the channel has room for everyone who is still there, also when nobody receives any more.
-/
namespace ObjectTransfer.Crew.State
variable {τ κ α ω β δ : Type} {c : Craft τ κ α ω β} {k : Desk τ β δ} {s t : State τ κ α ω β δ}
  {m : Move} {n : Nat} {parts : List α}

/-- Every part was received when the coordinator stopped receiving. -/
def Complete (s : State τ κ α ω β δ) : Prop :=
  ∀ desk, s.phase = .closing desk ∨ s.phase = .returned (.ok desk) → s.received.length = s.total

theorem Steps.complete (h : Steps c k s m t) (complete : s.Complete) : t.Complete := by
  cases h with
  | closes phase idle received => exact fun _ _ => received
  | returns phase gone => exact fun _ _ => complete _ (.inl phase)
  | files phase file => rintro desk (h | h) <;> cases h
  | misfiles phase file => rintro desk (h | h) <;> cases h
  | accepts phase idle incomplete channel => rintro desk (h | h) <;> cases h
  | hears phase idle incomplete channel => rintro desk (h | h) <;> cases h
  | deserted phase idle incomplete channel gone => rintro desk (h | h) <;> cases h
  | givesUp phase drained gone => rintro desk (h | h) <;> cases h
  | drains phase drains channel => exact complete
  | _ => exact complete

/-- A crew of `n` workers on its way with these parts. -/
structure Staffed (n : Nat) (parts : List α) (s : State τ κ α ω β δ) : Prop where
  agrees : s.Agrees
  workers : s.workers.length = n
  room : s.room = n
  total : s.total = parts.length
  places : ∃ dropped, (s.parts ++ dropped).Perm parts ∧ (dropped ≠ [] → s.cancelled = true)
  fits : ∀ w ∈ s.workers, w.Fits
  explained : s.Explained
  excuses : s.excuses + s.present ≤ n
  complete : s.Complete

theorem Staffed.steps (st : s.Staffed n parts) (h : Steps c k s m t) : t.Staffed n parts where
  agrees := st.agrees.steps h
  workers := h.constants.1.trans st.workers
  room := h.constants.2.1.trans st.room
  total := h.constants.2.2.trans st.total
  places := by
    obtain ⟨dropped, perm, lost⟩ := st.places
    obtain ⟨more, perm', lost'⟩ := h.parts st.agrees
    refine ⟨more ++ dropped, ?_, fun some => ?_⟩
    · rw [← List.append_assoc]
      exact (perm'.append_right dropped).trans perm
    · by_cases new : more = []
      · subst new
        exact h.cancelled (lost some)
      · exact lost' new
  fits := h.fits st.fits
  explained := h.explained st.agrees st.fits st.explained
  excuses := Nat.le_trans (h.excuses st.fits) st.excuses
  complete := h.complete st.complete

theorem staffed_initial (parts : List α) (workers : Nat) (desk : δ) (world : τ) :
    (initial parts workers desk world : State τ κ α ω β δ).Staffed (min workers parts.length)
      parts where
  agrees := ⟨rfl, rfl⟩
  workers := List.length_replicate
  room := rfl
  total := rfl
  places := by
    have inHand : (initial parts workers desk world : State τ κ α ω β δ).inHand = [] := by
      refine List.flatMap_eq_nil_iff.2 fun w hw => ?_
      obtain rfl := (List.mem_replicate.1 hw).2
      rfl
    refine ⟨[], ?_, fun h => absurd rfl h⟩
    rw [State.parts, inHand]
    simp [underWay, initial]
  fits := by
    intro w hw
    obtain rfl := (List.mem_replicate.1 hw).2
    trivial
  explained := by
    intro _ gone
    cases (List.mem_replicate.1 gone).2
  excuses := by
    have h : (initial parts workers desk world : State τ κ α ω β δ).present ≤
        (List.replicate (min workers parts.length) Worker.arriving).length := List.countP_le_length
    simpa [State.excuses, initial] using h
  complete := by rintro desk (h | h) <;> cases h

theorem Reaches.staffed {workers : Nat} {desk : δ} {world : τ} {past : List (Event α)}
    (h : Reaches c k (initial parts workers desk world) past s) :
    s.Staffed (min workers parts.length) parts :=
  h.invariant (staffed_initial parts workers desk world) Staffed.steps

theorem Staffed.perm (st : s.Staffed n parts) (wanted : s.cancelled = false) :
    s.parts.Perm parts := by
  obtain ⟨dropped, perm, lost⟩ := st.places
  have hnone : dropped = [] := by
    by_contra some
    exact absurd (wanted.symm.trans (lost some)) (by simp)
  rwa [hnone, List.append_nil] at perm

theorem Staffed.elsewhere (st : s.Staffed n parts) (wanted : s.cancelled = false)
    (received : s.received.length = s.total) :
    s.queue = [] ∧ s.inHand = [] ∧ s.underWay = [] := by
  have h := (st.perm wanted).length_eq
  simp only [State.parts, List.length_append] at h
  rw [received, st.total] at h
  exact ⟨List.length_eq_zero_iff.1 (by omega), List.length_eq_zero_iff.1 (by omega),
    List.length_eq_zero_iff.1 (by omega)⟩

/-- Workers do not leave before every part is taken, unless one of them has news of a failure. -/
theorem Staffed.not_deserted (st : s.Staffed n parts) (hn : 0 < n) (wanted : s.cancelled = false)
    (incomplete : s.received.length ≠ s.total) (channel : s.channel = []) : s.deserted = false := by
  by_contra gone
  have gone : s.deserted = true := by simpa using gone
  have allGone : ∀ w ∈ s.workers, w.isGone := List.all_eq_true.1 gone
  have positive : 0 < s.workers.length := by rw [st.workers]; exact hn
  have someone : .gone ∈ s.workers := by
    have hmem := List.getElem_mem positive
    have hgone := allGone _ hmem
    cases hw : s.workers[0] with
    | gone => exact hw ▸ hmem
    | _ => rw [hw] at hgone; cases hgone
  have queue : s.queue = [] := by
    rcases st.explained wanted someone with queue | ⟨parcel, hparcel, -⟩
    · exact queue
    · rw [channel] at hparcel
      cases hparcel
  have inHand : s.inHand = [] := by
    refine List.flatMap_eq_nil_iff.2 fun w hw => ?_
    have hgone := allGone w hw
    cases w with
    | gone => rfl
    | _ => cases hgone
  have perm := st.perm wanted
  rw [State.parts, queue, inHand, underWay, channel] at perm
  exact incomplete (perm.length_eq.trans st.total.symm)

theorem exists_of_not_deserted (here : s.deserted = false) :
    ∃ (i : Nat) (w : Worker κ α ω β), s.workers[i]? = some w ∧ w.isGone = false := by
  obtain ⟨w, hw, hgone⟩ := List.all_eq_false.1 here
  obtain ⟨i, hi, rfl⟩ := List.getElem_of_mem hw
  exact ⟨i, _, List.getElem?_eq_getElem hi, by simpa using hgone⟩

theorem exists_steps_worker {i : Nat} {w : Worker κ α ω β} (worker : s.workers[i]? = some w)
    (here : w.isGone = false) (room : s.isOpen = false ∨ s.channel.length < s.room) :
    ∃ t, Steps c k s (.worker i) t := by
  cases w with
  | gone => cases here
  | arriving =>
    rcases prepare : c.prepare s.world with ⟨result, world⟩
    cases result with
    | ok tool => exact ⟨_, .arrives worker prepare⟩
    | error e => exact ⟨_, .stumbles worker prepare⟩
  | waiting tool =>
    cases queue : s.queue with
    | nil => exact ⟨_, .leaves worker queue⟩
    | cons part rest => exact ⟨_, .takes worker queue⟩
  | working tool part work =>
    rcases proceed : c.proceed work s.world with ⟨result, world⟩
    rcases result with (e | made) | work'
    · exact ⟨_, .breaks worker proceed⟩
    · exact ⟨_, .finishes worker proceed⟩
    · exact ⟨_, .proceeds worker proceed⟩
  | handing tool parcel =>
    cases isOpen : s.isOpen with
    | false => exact ⟨_, .drops worker isOpen⟩
    | true =>
      have room : s.channel.length < s.room := room.resolve_left (by simp [isOpen])
      cases tool with
      | none => exact ⟨_, .reports worker isOpen room⟩
      | some tool => exact ⟨_, .handsOver worker isOpen room⟩

theorem Staffed.room_of_closing (st : s.Staffed n parts) {desk : δ} (phase : s.phase = .closing desk)
    {i : Nat} {w : Worker κ α ω β} (worker : s.workers[i]? = some w) (here : w.isGone = false) :
    s.channel.length < s.room := by
  have wanted : s.cancelled = false := by rw [st.agrees.cancelled, phase]; rfl
  obtain ⟨-, -, underWay⟩ := st.elsewhere wanted (st.complete desk (.inl phase))
  -- parcels that are still in the channel are news of workers that could not begin, and have left
  have excused : s.excuses = s.channel.length := by
    refine List.countP_eq_length.2 fun parcel hparcel => ?_
    have hpart := List.flatMap_eq_nil_iff.1 underWay parcel hparcel
    cases hp : parcel.part with
    | none => rfl
    | some part => rw [hp] at hpart; cases hpart
  have present : 0 < s.present :=
    List.countP_pos_iff.2 ⟨w, List.mem_of_getElem? worker, by simp [here]⟩
  have total := st.excuses
  rw [excused] at total
  rw [st.room]
  omega

theorem Staffed.exists_steps (st : s.Staffed n parts) (hn : 0 < n)
    (running : ∀ result, s.phase ≠ .returned result) : ∃ m t, Steps c k s m t := by
  cases phase : s.phase with
  | collecting desk =>
    have wanted : s.cancelled = false := by rw [st.agrees.cancelled, phase]; rfl
    cases file : k.file desk s.world with
    | some filed =>
      obtain ⟨result, world⟩ := filed
      cases result with
      | ok desk' => exact ⟨_, _, .files phase file⟩
      | error e => exact ⟨_, _, .misfiles phase file⟩
    | none =>
      by_cases complete : s.received.length = s.total
      · exact ⟨_, _, .closes phase file complete⟩
      · cases channel : s.channel with
        | cons parcel rest =>
          obtain ⟨part, result⟩ := parcel
          cases result with
          | ok made => exact ⟨_, _, .accepts phase file complete channel⟩
          | error e => exact ⟨_, _, .hears phase file complete channel⟩
        | nil =>
          obtain ⟨i, w, worker, here⟩ :=
            exists_of_not_deserted (st.not_deserted hn wanted complete channel)
          have room : s.channel.length < s.room := by rw [channel, st.room]; exact hn
          exact ⟨_, exists_steps_worker worker here (.inr room)⟩
  | failing e =>
    have shut : s.isOpen = false := by rw [st.agrees.opened, st.agrees.cancelled, phase]; rfl
    by_cases draining : k.drains = true ∧ s.channel ≠ []
    · obtain ⟨drains, some⟩ := draining
      obtain ⟨parcel, rest, channel⟩ := List.exists_cons_of_ne_nil some
      exact ⟨_, _, .drains phase drains channel⟩
    · cases gone : s.deserted with
      | true =>
        exact ⟨_, _, .givesUp phase (fun drains => by_contra fun some => draining ⟨drains, some⟩) gone⟩
      | false =>
        obtain ⟨i, w, worker, here⟩ := exists_of_not_deserted gone
        exact ⟨_, exists_steps_worker worker here (.inl shut)⟩
  | closing desk =>
    cases gone : s.deserted with
    | true => exact ⟨_, _, .returns phase gone⟩
    | false =>
      obtain ⟨i, w, worker, here⟩ := exists_of_not_deserted gone
      exact ⟨_, exists_steps_worker worker here (.inr (st.room_of_closing phase worker here))⟩
  | returned result => exact absurd phase (running result)

/-- Nobody is there any more when the coordinator has returned, and nothing is left in a channel that
is drained after a failure. -/
structure Over (k : Desk τ β δ) (s : State τ κ α ω β δ) : Prop where
  gone : ∀ result, s.phase = .returned result → s.deserted = true
  drained : ∀ e, s.phase = .returned (.error e) → k.drains = true → s.channel = []

theorem isGone_of_deserted (gone : s.deserted = true) {i : Nat} {w : Worker κ α ω β}
    (worker : s.workers[i]? = some w) : w.isGone = true :=
  List.all_eq_true.1 gone w (List.mem_of_getElem? worker)

theorem Over.stands (ended : s.Over k) {result : Except Error δ} (phase : s.phase = .returned result) :
    ¬ Steps c k s m t := by
  have gone := ended.gone result phase
  have other {phase' : Phase δ} (h : s.phase = phase') : phase' = .returned result := h.symm.trans phase
  intro h
  cases h with
  | files phase' file => cases other phase'
  | misfiles phase' file => cases other phase'
  | closes phase' idle complete => cases other phase'
  | accepts phase' idle incomplete channel => cases other phase'
  | hears phase' idle incomplete channel => cases other phase'
  | deserted phase' idle incomplete channel gone => cases other phase'
  | drains phase' drains channel => cases other phase'
  | givesUp phase' drained gone => cases other phase'
  | returns phase' gone => cases other phase'
  | arrives worker prepare => cases isGone_of_deserted gone worker
  | stumbles worker prepare => cases isGone_of_deserted gone worker
  | leaves worker queue => cases isGone_of_deserted gone worker
  | takes worker queue => cases isGone_of_deserted gone worker
  | proceeds worker proceed => cases isGone_of_deserted gone worker
  | finishes worker proceed => cases isGone_of_deserted gone worker
  | breaks worker proceed => cases isGone_of_deserted gone worker
  | drops worker shut => cases isGone_of_deserted gone worker
  | handsOver worker isOpen room => cases isGone_of_deserted gone worker
  | reports worker isOpen room => cases isGone_of_deserted gone worker
  | stops cancelled worker => cases isGone_of_deserted gone worker
  | abandons cancelled worker => cases isGone_of_deserted gone worker

theorem Over.of_running (running : ∀ result, s.phase ≠ .returned result) : s.Over k :=
  ⟨fun _ phase => absurd phase (running _), fun _ phase => absurd phase (running _)⟩

theorem Over.steps (ended : s.Over k) (h : Steps c k s m t) : t.Over k := by
  have running (result : Except Error δ) : s.phase ≠ .returned result :=
    fun phase => ended.stands phase h
  cases h with
  | givesUp phase drained gone => exact ⟨fun _ _ => gone, fun _ _ => drained⟩
  | returns phase gone => exact ⟨fun _ _ => gone, fun e h => (by cases h)⟩
  | files phase file => exact .of_running fun _ h => (by cases h)
  | misfiles phase file => exact .of_running fun _ h => (by cases h)
  | closes phase idle complete => exact .of_running fun _ h => (by cases h)
  | accepts phase idle incomplete channel => exact .of_running fun _ h => (by cases h)
  | hears phase idle incomplete channel => exact .of_running fun _ h => (by cases h)
  | deserted phase idle incomplete channel gone => exact .of_running fun _ h => (by cases h)
  | _ => exact .of_running running

theorem Reaches.ended {workers : Nat} {desk : δ} {world : τ} {past : List (Event α)}
    (h : Reaches c k (initial parts workers desk world) past s) : s.Over k :=
  h.invariant (.of_running fun _ h => (by cases h)) Over.steps

end ObjectTransfer.Crew.State
