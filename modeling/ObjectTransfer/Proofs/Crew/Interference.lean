import ObjectTransfer.Proofs.Crew.Holdings
/-!
Crews that are not alone. Between two moves of a crew others may change the world; `R` says how. Who
has which part does not depend on the world, so the crew stays as orderly as it is alone, and what is
shown of the parts holds when it also stands what others do. What the coordinator hears is noted:
parts that are done, and at last the failure that it returns.
-/
namespace ObjectTransfer.Crew
variable {τ κ α ω β δ : Type}

/-- The worker has a tool as `T` says, and works on its part as `W` says. -/
def Worker.Equipped (T : κ → Prop) (W : α → ω → Prop) : Worker κ α ω β → Prop
  | .waiting tool | .handing (some tool) _ => T tool
  | .working tool part work => T tool ∧ W part work
  | .arriving | .handing none _ | .gone => True

/-- The coordinator has heard of parts that are done only, as long as it has not heard of the failure
that it returns. -/
def Phase.Tells (heard : List (Parcel α β)) : Phase δ → Prop
  | .failing e | .returned (.error e) => ∃ earlier part, heard = earlier ++ [⟨part, .error e⟩] ∧
      ∀ parcel ∈ earlier, ∃ made, parcel.result = .ok made
  | .collecting _ | .closing _ | .returned (.ok _) =>
    ∀ parcel ∈ heard, ∃ made, parcel.result = .ok made

namespace State

def heard (k : Desk τ β δ) (s : State τ κ α ω β δ) : Move → List (Parcel α β)
  | .coordinator =>
    match s.phase with
    | .collecting desk =>
      if (k.file desk s.world).isNone ∧ s.received.length ≠ s.total then s.channel.head?.toList
      else []
    | _ => []
  | _ => []

/-- The states that a crew among others gets to from `s`, with what the coordinator heard on the way,
oldest first. -/
inductive Works (c : Craft τ κ α ω β) (k : Desk τ β δ) (R : τ → τ → Prop) (s : State τ κ α ω β δ) :
    List (Parcel α β) → State τ κ α ω β δ → Prop
  | start : Works c k R s [] s
  | moves {heard : List (Parcel α β)} {t u : State τ κ α ω β δ} {m : Move}
      (before : Works c k R s heard t) (step : t.step c k m = some u) :
      Works c k R s (heard ++ t.heard k m) u
  | disturbed {heard : List (Parcel α β)} {t : State τ κ α ω β δ} {world : τ}
      (before : Works c k R s heard t) (others : R t.world world) :
      Works c k R s heard { t with world }

variable {c : Craft τ κ α ω β} {k : Desk τ β δ} {R : τ → τ → Prop} {s t u : State τ κ α ω β δ}
  {m : Move} {n : Nat} {parts : List α} {heard : List (Parcel α β)}

theorem Reaches.works {past : List (Event α)} (h : Reaches c k s past t) :
    ∃ heard, Works c k R s heard t := by
  induction h with
  | start => exact ⟨[], .start⟩
  | step before step ih =>
    obtain ⟨heard, works⟩ := ih
    exact ⟨_, works.moves step⟩

theorem Works.invariant {I : State τ κ α ω β δ → Prop} (h : Works c k R s heard t) (start : I s)
    (kept : ∀ {t u m}, I t → Steps c k t m u → I u)
    (others : ∀ {t : State τ κ α ω β δ} {world}, I t → I { t with world }) : I t := by
  induction h with
  | start => exact start
  | moves before step ih => exact kept ih (steps_of_step step)
  | disturbed before other ih => exact others ih

theorem Staffed.disturbed (st : s.Staffed n parts) (world : τ) :
    ({ s with world } : State τ κ α ω β δ).Staffed n parts :=
  ⟨⟨st.agrees.opened, st.agrees.cancelled⟩, st.workers, st.room, st.total, st.places, st.fits,
    st.explained, st.excuses, st.complete⟩

section
variable {workers : Nat} {desk : δ} {world : τ}

theorem Works.staffed (h : Works c k R (initial parts workers desk world) heard s) :
    s.Staffed (min workers parts.length) parts :=
  h.invariant (staffed_initial parts workers desk world) Staffed.steps fun st => st.disturbed _

/-- When the coordinator has returned, everyone has gone and nobody moves any more. -/
theorem Works.over (h : Works c k R (initial parts workers desk world) heard s) : s.Over k :=
  h.invariant (.of_running fun _ h => (by cases h)) Over.steps fun ended => ⟨ended.gone, ended.drained⟩

theorem Works.no_step (h : Works c k R (initial parts workers desk world) heard s)
    {result : Except Error δ} (returned : s.phase = .returned result) (m : Move) :
    s.step c k m = none := by
  cases step : s.step c k m with
  | none => rfl
  | some t => exact absurd (steps_of_step step) (h.over.stands returned)

end

/-- What a step makes the coordinator hear is the first failure, or no failure. -/
theorem Steps.tells (st : s.Staffed n parts) (hn : 0 < n) (silent : ∀ desk w, k.file desk w = none)
    (h : Steps c k s m t) (tells : s.phase.Tells heard) : t.phase.Tells (heard ++ s.heard k m) := by
  have quiet {m : Move} (unheard : s.heard k m = []) {phase : Phase δ} (tells : phase.Tells heard) :
      phase.Tells (heard ++ s.heard k m) := by
    rw [unheard, List.append_nil]
    exact tells
  have receives {desk : δ} {parcel : Parcel α β} {rest : List (Parcel α β)}
      (phase : s.phase = .collecting desk) (incomplete : s.received.length ≠ s.total)
      (channel : s.channel = parcel :: rest) : s.heard k .coordinator = [parcel] := by
    simp [State.heard, phase, silent, incomplete, channel]
  cases h with
  | files phase file => rw [silent] at file; cases file
  | misfiles phase file => rw [silent] at file; cases file
  | deserted phase idle incomplete channel gone =>
    have wanted : s.cancelled = false := by rw [st.agrees.cancelled, phase]; rfl
    exact absurd (gone.symm.trans (st.not_deserted hn wanted incomplete channel)) (by simp)
  | closes phase idle complete =>
    rw [phase] at tells
    exact quiet (by simp [State.heard, phase, complete]) tells
  | accepts phase idle incomplete channel =>
    rw [phase] at tells
    rw [receives phase incomplete channel]
    intro parcel hparcel
    rcases List.mem_append.1 hparcel with hparcel | hparcel
    · exact tells parcel hparcel
    · obtain rfl := List.mem_singleton.1 hparcel
      exact ⟨_, rfl⟩
  | hears phase idle incomplete channel =>
    rw [phase] at tells
    rw [receives phase incomplete channel]
    exact ⟨heard, _, rfl, tells⟩
  | drains phase drains channel =>
    exact quiet (by simp [State.heard, phase]) tells
  | givesUp phase drained gone =>
    rw [phase] at tells
    exact quiet (by simp [State.heard, phase]) tells
  | returns phase gone =>
    rw [phase] at tells
    exact quiet (by simp [State.heard, phase]) tells
  | _ => exact quiet rfl tells

/-- The failure that a crew returns is the first one its coordinator heard of. -/
theorem Works.tells {workers : Nat} {desk : δ} {world : τ} (hn : 0 < min workers parts.length)
    (silent : ∀ desk w, k.file desk w = none)
    (h : Works c k R (initial parts workers desk world) heard s) : s.phase.Tells heard := by
  induction h with
  | start => exact fun _ h => (by cases h)
  | moves before step ih => exact (steps_of_step step).tells before.staffed hn silent ih
  | disturbed before others ih => exact ih

theorem Works.packed {P : Parcel α β → Prop} (h : Works c k R s heard t)
    (packed : ∀ {heard t}, Works c k R s heard t → ∀ parcel, .packed parcel ∈ t.holdings → P parcel) :
    ∀ parcel ∈ heard, P parcel := by
  induction h with
  | start => exact fun _ h => (by cases h)
  | disturbed before others ih => exact ih
  | moves before step ih =>
    rename_i heard t u m
    intro parcel hparcel
    rcases List.mem_append.1 hparcel with hparcel | hparcel
    · exact ih parcel hparcel
    · refine packed before parcel ?_
      have first : t.channel.head? = some parcel := by
        unfold State.heard at hparcel
        split at hparcel
        · split at hparcel
          · split at hparcel
            · exact Option.mem_toList.1 hparcel
            · cases hparcel
          · cases hparcel
        · cases hparcel
      have inChannel := List.mem_map_of_mem (f := (.packed : Parcel α β → Holding α ω β))
        (List.mem_of_head? first)
      exact List.mem_append_left _ (List.mem_append_right _ inChannel)

end State

/-- What is kept of a crew with these parts, whoever moves and whatever others do: `J` of the parts,
`T` of the tools and `W` of the parts that are being worked on. -/
structure Upkeep (c : Craft τ κ α ω β) (k : Desk τ β δ) (R : τ → τ → Prop) (parts : List α)
    (J : View τ α ω β δ → Prop) (T : κ → Prop) (W : α → ω → Prop) : Prop where
  listed : ∀ {held held' o w}, held.Perm held' → J ⟨held, o, w⟩ → J ⟨held', o, w⟩
  changed : ∀ {v v'}, Change c k parts v v' →
    (∀ {part work}, .working part work ∈ v.holdings → W part work) → J v → J v'
  disturbed : ∀ {held o w w'}, R w w' → J ⟨held, o, w⟩ → J ⟨held, o, w'⟩
  prepares : ∀ {v tool w}, J v → c.prepare v.world = (.ok tool, w) → T tool
  begins : ∀ {tool} part, T tool → W part (c.begin tool part)
  proceeds : ∀ {v part work work' w}, J v → .working part work ∈ v.holdings → W part work →
    c.proceed work v.world = (.inr work', w) → W part work'

namespace State
variable {c : Craft τ κ α ω β} {k : Desk τ β δ} {R : τ → τ → Prop} {s t : State τ κ α ω β δ}
  {m : Move} {parts : List α} {heard : List (Parcel α β)} {J : View τ α ω β δ → Prop} {T : κ → Prop}
  {W : α → ω → Prop}

theorem working_mem_holdings {part : α} {work : ω} :
    .working part work ∈ s.holdings ↔ ∃ tool, .working tool part work ∈ s.workers := by
  have withWorker : .working part work ∈ s.holdings ↔
      .working part work ∈ s.workers.flatMap Worker.holdings := by simp [holdings]
  rw [withWorker, List.mem_flatMap]
  constructor
  · rintro ⟨w, hw, hwork⟩
    cases w with
    | working tool part' work' =>
      cases List.mem_singleton.1 hwork
      exact ⟨tool, hw⟩
    | handing tool parcel => cases List.mem_singleton.1 hwork
    | arriving => cases hwork
    | waiting tool => cases hwork
    | gone => cases hwork
  · rintro ⟨tool, hw⟩
    exact ⟨_, hw, List.mem_singleton_self _⟩

theorem Steps.equipped (up : Upkeep c k R parts J T W) (view : J s.view) (h : Steps c k s m t)
    (equipped : ∀ w ∈ s.workers, w.Equipped T W) : ∀ w ∈ t.workers, w.Equipped T W := by
  have replaced {u : State τ κ α ω β δ} {i : Nat} {w' : Worker κ α ω β}
      (same : u.workers = s.workers) (fits : w'.Equipped T W) :
      ∀ w ∈ (u.setWorker i w').workers, w.Equipped T W := by
    intro w hw
    rcases mem_setWorker hw with hw | rfl
    · exact equipped w (same ▸ hw)
    · exact fits
  cases h with
  | arrives worker prepare => exact replaced rfl (up.prepares view prepare)
  | stumbles worker prepare => exact replaced rfl trivial
  | leaves worker queue => exact replaced rfl trivial
  | takes worker queue =>
    have tool : T _ := equipped _ (List.mem_of_getElem? worker)
    exact replaced rfl ⟨tool, up.begins _ tool⟩
  | proceeds worker proceed =>
    have here := List.mem_of_getElem? worker
    obtain ⟨tool, work⟩ := equipped _ here
    exact replaced rfl
      ⟨tool, up.proceeds view (working_mem_holdings.2 ⟨_, here⟩) work proceed⟩
  | finishes worker proceed =>
    obtain ⟨tool, work⟩ := equipped _ (List.mem_of_getElem? worker)
    exact replaced rfl tool
  | breaks worker proceed => exact replaced rfl trivial
  | drops worker shut => exact replaced rfl trivial
  | handsOver worker isOpen room =>
    have tool : T _ := equipped _ (List.mem_of_getElem? worker)
    exact replaced rfl tool
  | reports worker isOpen room => exact replaced rfl trivial
  | stops cancelled worker => exact replaced rfl trivial
  | abandons cancelled worker => exact replaced rfl trivial
  | _ => exact equipped

theorem Works.holds {workers : Nat} {desk : δ} {world : τ} (up : Upkeep c k R parts J T W)
    (hn : 0 < min workers parts.length) (start : J ⟨parts.map .queued, .collecting desk, world⟩)
    (h : Works c k R (initial parts workers desk world) heard s) :
    J s.view ∧ ∀ w ∈ s.workers, w.Equipped T W := by
  induction h with
  | start =>
    refine ⟨?_, fun w hw => ?_⟩
    · rw [view, holdings_initial]
      exact start
    · rw [(List.mem_replicate.1 hw).2]
      trivial
  | disturbed before others ih => exact ⟨up.disturbed others ih.1, ih.2⟩
  | moves before step ih =>
    obtain ⟨view, equipped⟩ := ih
    obtain ⟨held, held', perm, perm', change⟩ := (steps_of_step step).change before.staffed hn
    refine ⟨up.listed perm' (up.changed change (fun hwork => ?_) (up.listed perm.symm view)),
      (steps_of_step step).equipped up view equipped⟩
    obtain ⟨tool, worker⟩ := working_mem_holdings.1 (perm.subset hwork)
    exact (equipped _ worker).2

end State

end ObjectTransfer.Crew
