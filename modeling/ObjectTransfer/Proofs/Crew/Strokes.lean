import ObjectTransfer.Proofs.Crew.Interference
/-!
The strokes of a crew. The work on a part is done stroke by stroke, and between two strokes at a part
anything may happen: other workers do theirs, and others change the world. The strokes at one part,
picked out of all that were done, go on from each other as if nobody else were at work, and the first
of them finds the part as it is taken up.
-/
namespace ObjectTransfer.Crew
variable {τ κ α ω β δ ν : Type}

/-- One step of the work on a part. -/
structure Stroke (τ α : Type) where
  part : α
  before : τ
  after : τ

/-- How far these strokes bring the work on a part, each in the world that it finds. -/
inductive Stint (proceed : ω → τ → (Except Error β ⊕ ω) × τ) (part : α) (work : ω) :
    List (Stroke τ α) → Except Error β ⊕ ω → Prop
  | begun : Stint proceed part work [] (.inr work)
  | goes {strokes : List (Stroke τ α)} {now : ω} (before : Stint proceed part work strokes (.inr now))
      (world : τ) : Stint proceed part work
        (strokes ++ [⟨part, world, (proceed now world).2⟩]) (proceed now world).1

/-- The work on a part for up to `n` strokes, each in the next one of these worlds. -/
def along (proceed : ω → τ → (Except Error β ⊕ ω) × τ) (part : α) (worlds : Nat → τ) (work : ω) :
    (n : Nat) → List (Stroke τ α) × (Except Error β ⊕ ω)
  | 0 => ([], .inr work)
  | n + 1 =>
    match along proceed part worlds work n with
    | (strokes, .inr now) =>
      (strokes ++ [⟨part, worlds n, (proceed now (worlds n)).2⟩], (proceed now (worlds n)).1)
    | (strokes, .inl result) => (strokes, .inl result)

section
variable {proceed : ω → τ → (Except Error β ⊕ ω) × τ} {part : α} {work : ω}

theorem stint_along (worlds : Nat → τ) (n : Nat) :
    Stint proceed part work (along proceed part worlds work n).1
      (along proceed part worlds work n).2 := by
  induction n with
  | zero => exact .begun
  | succ n ih =>
    rcases before : along proceed part worlds work n with ⟨strokes, result | now⟩
    · rw [before] at ih
      simp only [along, before]
      exact ih
    · rw [before] at ih
      simp only [along, before]
      exact ih.goes (worlds n)

theorem length_along {worlds : Nat → τ} {n : Nat} {now : ω}
    (unfinished : (along proceed part worlds work n).2 = .inr now) :
    (along proceed part worlds work n).1.length = n := by
  induction n generalizing now with
  | zero => rfl
  | succ n ih =>
    rcases before : along proceed part worlds work n with ⟨strokes, result | earlier⟩
    · simp only [along, before] at unfinished
      cases unfinished
    · rw [before] at ih
      simp only [along, before, List.length_append, List.length_singleton]
      rw [ih rfl]

/-- Work of which `K` holds, and cannot hold after `n` strokes unless it is finished, is finished by
then, whatever worlds it meets. -/
theorem along_ends {K : List (Stroke τ α) → Except Error β ⊕ ω → Prop} {n : Nat}
    (law : ∀ strokes x, Stint proceed part work strokes x → K strokes x)
    (brief : ∀ strokes now, K strokes (.inr now) → strokes.length < n) (worlds : Nat → τ) :
    ∃ strokes result, along proceed part worlds work n = (strokes, .inl result) ∧
      K strokes (.inl result) := by
  have holds := law _ _ (stint_along worlds n)
  rcases ended : along proceed part worlds work n with ⟨strokes, result | now⟩
  · rw [ended] at holds
    exact ⟨strokes, result, rfl, holds⟩
  · have length := length_along (congrArg Prod.snd ended)
    rw [ended] at holds length
    exact absurd length (Nat.ne_of_lt (brief strokes now holds))

end

def Stroke.adds (f : τ → List ν) (x : Stroke τ α) : List ν := (f x.after).drop (f x.before).length

def added (f : τ → List ν) (strokes : List (Stroke τ α)) : List ν := strokes.flatMap (·.adds f)

@[simp] theorem added_nil (f : τ → List ν) : added f ([] : List (Stroke τ α)) = [] := rfl

theorem added_snoc {f : τ → List ν} (strokes : List (Stroke τ α)) (part : α) {w w' : τ} {new : List ν}
    (h : f w' = f w ++ new) : added f (strokes ++ [⟨part, w, w'⟩]) = added f strokes ++ new := by
  simp [added, Stroke.adds, h]

section
variable [DecidableEq α]

def strokesAt (part : α) (strokes : List (Stroke τ α)) : List (Stroke τ α) :=
  strokes.filter (·.part = part)

variable {part other : α} {strokes : List (Stroke τ α)}

theorem strokesAt_snoc (part : α) (strokes : List (Stroke τ α)) (w w' : τ) :
    strokesAt part (strokes ++ [⟨part, w, w'⟩]) = strokesAt part strokes ++ [⟨part, w, w'⟩] := by
  simp [strokesAt]

theorem strokesAt_snoc_of_ne (ne : other ≠ part) (strokes : List (Stroke τ α)) (w w' : τ) :
    strokesAt part (strokes ++ [⟨other, w, w'⟩]) = strokesAt part strokes := by
  simp [strokesAt, ne]

/-- When the strokes at each of the parts add no more than `n` entries, all strokes add no more than
that many for each part. -/
theorem length_added_le (f : τ → List ν) {n : Nat} (parts : List α)
    (known : ∀ x ∈ strokes, x.part ∈ parts)
    (few : ∀ part ∈ parts, (added f (strokesAt part strokes)).length ≤ n) :
    (added f strokes).length ≤ parts.length * n := by
  induction parts generalizing strokes with
  | nil =>
    cases strokes with
    | nil => simp
    | cons x strokes => cases known x List.mem_cons_self
  | cons first parts ih =>
    -- the strokes at the first part, and those at the others
    let others := strokes.filter fun x => !decide (x.part = first)
    have split : (strokesAt first strokes ++ others).Perm strokes := List.filter_append_perm _ _
    have length : (added f strokes).length =
        (added f (strokesAt first strokes)).length + (added f others).length := by
      rw [← List.length_append, added, added, added, ← List.flatMap_append]
      exact ((split.flatMap_right _).length_eq).symm
    have known' (x : Stroke τ α) (hx : x ∈ others) : x.part ∈ parts := by
      obtain ⟨hx, ne⟩ := List.mem_filter.1 hx
      exact (List.mem_cons.1 (known x hx)).resolve_left (by simpa using ne)
    have few' (part : α) (hpart : part ∈ parts) : (added f (strokesAt part others)).length ≤ n := by
      rw [strokesAt, List.filter_filter]
      by_cases same : part = first
      · have none : strokes.filter (fun x => decide (x.part = part) && !decide (x.part = first)) = [] :=
          List.filter_eq_nil_iff.2 fun x _ => by simp [same]
        rw [none]
        exact Nat.zero_le n
      · have all : strokes.filter (fun x => decide (x.part = part) && !decide (x.part = first)) =
            strokesAt part strokes := by
          refine List.filter_congr fun x _ => ?_
          by_cases here : x.part = part
          · simp [here, same]
          · simp [here]
        rw [all]
        exact few part (.tail _ hpart)
    calc (added f strokes).length
        = (added f (strokesAt first strokes)).length + (added f others).length := length
      _ ≤ n + parts.length * n := Nat.add_le_add (few first List.mem_cons_self) (ih known' few')
      _ = (first :: parts).length * n := by rw [List.length_cons, Nat.add_mul, Nat.one_mul, Nat.add_comm]

/-- How far a part has got is how far the strokes at it bring it from where it is taken up. -/
inductive Told (c : Craft τ κ α ω β) (strokes : List (Stroke τ α)) : Holding α ω β → Prop
  | queued {part : α} (untouched : strokesAt part strokes = []) : Told c strokes (.queued part)
  | working {part : α} {tool : κ} {work : ω}
      (stint : Stint c.proceed part (c.begin tool part) (strokesAt part strokes) (.inr work)) :
      Told c strokes (.working part work)
  | packed {part : α} {tool : κ} {result : Except Error β}
      (stint : Stint c.proceed part (c.begin tool part) (strokesAt part strokes) (.inl result)) :
      Told c strokes (.packed (State.parcel c part result))
  | excuse (e : Error) : Told c strokes (.packed ⟨none, .error e⟩)
  | received {part : α} {tool : κ} {result : Except Error β}
      (stint : Stint c.proceed part (c.begin tool part) (strokesAt part strokes) (.inl result)) :
      Told c strokes (.received part)

/-- The strokes at a part have brought it as far as it has got, which is as `K` says of them. -/
def Holding.Kept (c : Craft τ κ α ω β) (K : α → List (Stroke τ α) → Except Error β ⊕ ω → Prop)
    (strokes : List (Stroke τ α)) : Holding α ω β → Prop
  | .queued part => strokesAt part strokes = []
  | .working part work => K part (strokesAt part strokes) (.inr work)
  | .packed ⟨some part, result⟩ => ∃ made, K part (strokesAt part strokes) (.inl made) ∧
      result = (State.parcel c part made).result
  | .packed ⟨none, _⟩ => True
  | .received part => ∃ made, K part (strokesAt part strokes) (.inl made)

theorem Told.kept {c : Craft τ κ α ω β} {h : Holding α ω β}
    {K : α → List (Stroke τ α) → Except Error β ⊕ ω → Prop} (told : Told c strokes h)
    (law : ∀ part, h.part? = some part → ∀ tool strokes x,
      Stint c.proceed part (c.begin tool part) strokes x → K part strokes x) : h.Kept c K strokes := by
  cases told with
  | queued untouched => exact untouched
  | working stint => exact law _ rfl _ _ _ stint
  | packed stint => exact ⟨_, law _ rfl _ _ _ stint, rfl⟩
  | excuse e => trivial
  | received stint => exact ⟨_, law _ rfl _ _ _ stint⟩

theorem Told.later {c : Craft τ κ α ω β} {h : Holding α ω β} (told : Told c strokes h)
    (others : h.part? ≠ some other) (w w' : τ) : Told c (strokes ++ [⟨other, w, w'⟩]) h := by
  have same {part : α} (here : h.part? = some part) :
      strokesAt part (strokes ++ [⟨other, w, w'⟩]) = strokesAt part strokes :=
    strokesAt_snoc_of_ne (fun same => others (here.trans (congrArg some same.symm))) strokes w w'
  cases told with
  | queued untouched => exact .queued ((same rfl).trans untouched)
  | working stint => exact .working (by rwa [same rfl])
  | packed stint => exact .packed (by rwa [same rfl])
  | excuse e => exact .excuse e
  | received stint => exact .received (by rwa [same rfl])

end

namespace State

def strokes (c : Craft τ κ α ω β) (s : State τ κ α ω β δ) : Move → List (Stroke τ α)
  | .worker i =>
    match s.workers[i]? with
    | some (.working _ part work) => [⟨part, s.world, (c.proceed work s.world).2⟩]
    | _ => []
  | _ => []

/-- The states that a crew among others gets to from `s`, with the strokes that were done on the way,
oldest first. -/
inductive Toils (c : Craft τ κ α ω β) (k : Desk τ β δ) (R : τ → τ → Prop) (s : State τ κ α ω β δ) :
    List (Stroke τ α) → State τ κ α ω β δ → Prop
  | start : Toils c k R s [] s
  | moves {strokes : List (Stroke τ α)} {t u : State τ κ α ω β δ} {m : Move}
      (before : Toils c k R s strokes t) (step : t.step c k m = some u) :
      Toils c k R s (strokes ++ t.strokes c m) u
  | disturbed {strokes : List (Stroke τ α)} {t : State τ κ α ω β δ} {world : τ}
      (before : Toils c k R s strokes t) (others : R t.world world) :
      Toils c k R s strokes { t with world }

variable {c : Craft τ κ α ω β} {k : Desk τ β δ} {R : τ → τ → Prop} {s t u : State τ κ α ω β δ}
  {m : Move} {parts : List α} {strokes : List (Stroke τ α)}

theorem Toils.works (h : Toils c k R s strokes t) : ∃ heard, Works c k R s heard t := by
  induction h with
  | start => exact ⟨[], .start⟩
  | moves before step ih =>
    obtain ⟨heard, works⟩ := ih
    exact ⟨_, works.moves step⟩
  | disturbed before others ih =>
    obtain ⟨heard, works⟩ := ih
    exact ⟨_, works.disturbed others⟩

theorem Reaches.toils {past : List (Event α)} (R : τ → τ → Prop) (h : Reaches c k s past t) :
    ∃ strokes, Toils c k R s strokes t := by
  induction h with
  | start => exact ⟨[], .start⟩
  | step before step ih =>
    obtain ⟨strokes, toils⟩ := ih
    exact ⟨_, toils.moves step⟩

theorem strokes_of_working {i : Nat} {tool : κ} {part : α} {work : ω}
    (worker : s.workers[i]? = some (.working tool part work)) :
    s.strokes c (.worker i) = [⟨part, s.world, (c.proceed work s.world).2⟩] := by
  simp only [State.strokes, worker]

theorem strokes_of_idle {i : Nat} {w : Worker κ α ω β} (worker : s.workers[i]? = some w)
    (idle : ∀ tool part work, w ≠ .working tool part work) : s.strokes c (.worker i) = [] := by
  cases w with
  | working tool part work => exact absurd rfl (idle tool part work)
  | _ => simp only [State.strokes, worker]

/-- What is in hand after a worker has changed, besides what this one has, is with the others. -/
theorem mem_holdings_setWorker {i : Nat} {w w' : Worker κ α ω β} {h : Holding α ω β}
    (worker : s.workers[i]? = some w) (hh : h ∈ (s.setWorker i w').holdings) :
    h ∈ w'.holdings ∨ h ∈ s.holdings ∧
      (s.parts.Nodup → ∀ h' ∈ w.holdings, ∀ part, h'.part? = some part → h.part? ≠ some part) := by
  obtain ⟨others, perm, perm'⟩ := exists_others worker
  refine (List.mem_append.1 ((perm' w').mem_iff.2 hh)).imp_right fun hother => ?_
  refine ⟨perm.mem_iff.1 (List.mem_append_right _ hother), fun distinct h' hh' part hpart same => ?_⟩
  have listed := (perm.filterMap Holding.part?).nodup_iff.2 (s.parts_holdings ▸ distinct)
  rw [List.filterMap_append] at listed
  exact (List.nodup_append.1 listed).2.2 part (List.mem_filterMap.2 ⟨h', hh', hpart⟩) part
    (List.mem_filterMap.2 ⟨h, hother, same⟩) rfl

/-- Every stroke belongs to the work on one of the parts, which goes on from where it was taken up. -/
structure Audited [DecidableEq α] (c : Craft τ κ α ω β) (parts : List α)
    (strokes : List (Stroke τ α)) (s : State τ κ α ω β δ) : Prop where
  known : ∀ x ∈ strokes, x.part ∈ parts
  told : ∀ h ∈ s.holdings, Told c strokes h
  each : ∀ part, strokesAt part strokes = [] ∨
    ∃ tool x, Stint c.proceed part (c.begin tool part) (strokesAt part strokes) x

variable [DecidableEq α]

theorem Audited.unworked (a : s.Audited c parts strokes) (idle : s.strokes c m = [])
    (told : ∀ h ∈ t.holdings, Told c strokes h) : t.Audited c parts (strokes ++ s.strokes c m) := by
  rw [idle, List.append_nil]
  exact ⟨a.known, told, a.each⟩

theorem Audited.worked {i : Nat} {tool : κ} {part : α} {work : ω} {w' : Worker κ α ω β} {world : τ}
    (a : s.Audited c parts strokes) (distinct : s.parts.Nodup) (known : part ∈ parts)
    (worker : s.workers[i]? = some (.working tool part work))
    (now : ∀ strokes', (∃ tool, Stint c.proceed part (c.begin tool part) (strokesAt part strokes')
      (c.proceed work s.world).1) → ∀ h ∈ w'.holdings, Told c strokes' h) :
    ({ s with world }.setWorker i w').Audited c parts (strokes ++ s.strokes c (.worker i)) := by
  have here : .working part work ∈ s.holdings :=
    working_mem_holdings.2 ⟨tool, List.mem_of_getElem? worker⟩
  rw [strokes_of_working worker]
  have stint : ∃ tool, Stint c.proceed part (c.begin tool part)
      (strokesAt part (strokes ++ [⟨part, s.world, (c.proceed work s.world).2⟩]))
      (c.proceed work s.world).1 := by
    cases a.told _ here with
    | working stint =>
      rw [strokesAt_snoc]
      exact ⟨_, stint.goes s.world⟩
  refine ⟨fun x hx => ?_, fun h hh => ?_, fun other => ?_⟩
  · rcases List.mem_append.1 hx with hx | hx
    · exact a.known x hx
    · obtain rfl := List.mem_singleton.1 hx
      exact known
  · rcases mem_holdings_setWorker (s := { s with world }) worker hh with hh | ⟨hh, others⟩
    · exact now _ stint h hh
    · exact (a.told h hh).later (others distinct _ (List.mem_singleton_self _) part rfl) _ _
  · by_cases same : part = other
    · subst same
      obtain ⟨tool, stint⟩ := stint
      exact .inr ⟨tool, _, stint⟩
    · rw [strokesAt_snoc_of_ne same]
      exact a.each other

theorem Audited.steps (a : s.Audited c parts strokes) (distinct : s.parts.Nodup)
    (subset : ∀ part ∈ s.parts, part ∈ parts) (h : Steps c k s m t) :
    t.Audited c parts (strokes ++ s.strokes c m) := by
  have idle {i : Nat} {w w' : Worker κ α ω β} {r : State τ κ α ω β δ}
      (worker : s.workers[i]? = some w) (idle : ∀ tool part work, w ≠ .working tool part work)
      (same : ∀ h ∈ r.holdings, h ∈ s.holdings) (workers : r.workers = s.workers)
      (told : ∀ h ∈ w'.holdings, Told c strokes h) :
      (r.setWorker i w').Audited c parts (strokes ++ s.strokes c (.worker i)) := by
    refine a.unworked (strokes_of_idle worker idle) fun h hh => ?_
    rcases mem_holdings_setWorker (s := r) (workers ▸ worker) hh with hh | ⟨hh, -⟩
    · exact told h hh
    · exact a.told h (same h hh)
  have gets {part : Option α} {result : Except Error β} {rest : List (Parcel α β)}
      (channel : s.channel = ⟨part, result⟩ :: rest) :
      ∀ h ∈ { s with channel := rest, received := part.toList ++ s.received }.holdings,
        Told c strokes h := by
    intro h hh
    have taken := holdings_taken channel
    rcases List.mem_append.1 ((holdings_received { s with channel := rest } part).mem_iff.2 hh) with
      hh | hh
    · obtain ⟨a', ha', rfl⟩ := List.mem_map.1 hh
      cases a.told _ (taken.mem_iff.1 List.mem_cons_self) with
      | packed stint =>
        obtain rfl := List.mem_singleton.1 ha'
        exact .received stint
      | excuse e => cases ha'
    · exact a.told h (taken.mem_iff.1 (.tail _ hh))
  have sends {i : Nat} {tool : Option κ} {parcel : Parcel α β} {w : Worker κ α ω β}
      (worker : s.workers[i]? = some (.handing tool parcel)) (empty : w.holdings = []) :
      ({ s with channel := s.channel ++ [parcel] }.setWorker i w).Audited c parts
        (strokes ++ s.strokes c (.worker i)) :=
    a.unworked (strokes_of_idle worker (by simp)) fun h hh =>
      a.told h ((holdings_sent worker empty).mem_iff.2 hh)
  have works {i : Nat} {tool : κ} {part : α} {work : ω}
      (worker : s.workers[i]? = some (.working tool part work)) : part ∈ parts := by
    refine subset part (s.parts_holdings ▸ List.mem_filterMap.2 ⟨.working part work, ?_, rfl⟩)
    exact working_mem_holdings.2 ⟨tool, List.mem_of_getElem? worker⟩
  cases h with
  | files phase file => exact a.unworked rfl a.told
  | misfiles phase file => exact a.unworked rfl a.told
  | closes phase idle complete => exact a.unworked rfl a.told
  | accepts phase idle incomplete channel => exact a.unworked rfl (gets channel)
  | hears phase idle incomplete channel => exact a.unworked rfl (gets channel)
  | deserted phase idle incomplete channel gone => exact a.unworked rfl a.told
  | drains phase drains channel =>
    exact a.unworked rfl fun h hh => a.told h ((holdings_taken channel).mem_iff.1 (.tail _ hh))
  | givesUp phase drained gone => exact a.unworked rfl a.told
  | returns phase gone => exact a.unworked rfl a.told
  | arrives worker prepare =>
    exact idle worker (by simp) (fun _ hh => hh) rfl fun _ hh => (by cases hh)
  | stumbles worker prepare =>
    refine idle worker (by simp) (fun _ hh => hh) rfl fun h hh => ?_
    obtain rfl := List.mem_singleton.1 hh
    exact .excuse _
  | leaves worker queue =>
    exact idle worker (by simp) (fun _ hh => hh) rfl fun _ hh => (by cases hh)
  | takes worker queue =>
    rename_i i tool part rest
    have taken : s.holdings = .queued part :: { s with queue := rest }.holdings := by
      simp [holdings, queue]
    refine idle (r := { s with queue := rest }) worker (by simp) (fun h hh => ?_) rfl fun h hh => ?_
    · rw [taken]
      exact .tail _ hh
    · obtain rfl := List.mem_singleton.1 hh
      cases a.told (.queued part) (taken ▸ List.mem_cons_self) with
      | queued untouched =>
        have stint : Stint c.proceed part (c.begin tool part) (strokesAt part strokes)
            (.inr (c.begin tool part)) := by
          rw [untouched]
          exact .begun
        exact .working stint
  | proceeds worker proceed =>
    refine a.worked distinct (works worker) worker fun strokes' now h hh => ?_
    obtain ⟨tool, stint⟩ := now
    obtain rfl := List.mem_singleton.1 hh
    rw [proceed] at stint
    exact .working stint
  | finishes worker proceed =>
    refine a.worked distinct (works worker) worker fun strokes' now h hh => ?_
    obtain ⟨tool, stint⟩ := now
    obtain rfl := List.mem_singleton.1 hh
    rw [proceed] at stint
    exact .packed stint
  | breaks worker proceed =>
    refine a.worked distinct (works worker) worker fun strokes' now h hh => ?_
    obtain ⟨tool, stint⟩ := now
    obtain rfl := List.mem_singleton.1 hh
    rw [proceed] at stint
    exact .packed stint
  | drops worker shut => exact idle worker (by simp) (fun _ hh => hh) rfl fun _ hh => (by cases hh)
  | handsOver worker isOpen room => exact sends worker rfl
  | reports worker isOpen room => exact sends worker rfl
  | stops cancelled worker =>
    refine a.unworked rfl fun h hh => ?_
    rcases mem_holdings_setWorker worker hh with hh | ⟨hh, -⟩
    · cases hh
    · exact a.told h hh
  | abandons cancelled worker =>
    refine a.unworked rfl fun h hh => ?_
    rcases mem_holdings_setWorker (s := { s with world := _ }) worker hh with hh | ⟨hh, -⟩
    · cases hh
    · exact a.told h hh

/-- Whoever moves and whatever others do meanwhile, the strokes at each part go on from each other. -/
theorem Toils.audited {workers : Nat} {desk : δ} {world : τ} (distinct : parts.Nodup)
    (h : Toils c k R (initial parts workers desk world) strokes s) : s.Audited c parts strokes := by
  induction h with
  | start =>
    refine ⟨fun _ hx => (by cases hx), fun h hh => ?_, fun _ => .inl rfl⟩
    rw [holdings_initial] at hh
    obtain ⟨part, -, rfl⟩ := List.mem_map.1 hh
    exact .queued rfl
  | moves before step ih =>
    obtain ⟨heard, works⟩ := before.works
    obtain ⟨dropped, perm, -⟩ := works.staffed.places
    exact ih.steps (List.nodup_append.1 (perm.nodup_iff.2 distinct)).1
      (fun part hpart => perm.mem_iff.1 (List.mem_append_left _ hpart)) (steps_of_step step)
  | disturbed before others ih => exact ⟨ih.known, ih.told, ih.each⟩

/-- What has become of every part is as `K` says of the strokes at it. -/
structure Budgeted (c : Craft τ κ α ω β) (K : α → List (Stroke τ α) → Except Error β ⊕ ω → Prop)
    (parts : List α) (strokes : List (Stroke τ α)) (s : State τ κ α ω β δ) : Prop where
  known : ∀ x ∈ strokes, x.part ∈ parts
  each : ∀ part ∈ parts, strokesAt part strokes = [] ∨ ∃ x, K part (strokesAt part strokes) x
  held : ∀ h ∈ s.holdings, h.Kept c K strokes

theorem Toils.budgeted {workers : Nat} {desk : δ} {world : τ}
    {K : α → List (Stroke τ α) → Except Error β ⊕ ω → Prop} (distinct : parts.Nodup)
    (law : ∀ part ∈ parts, ∀ tool strokes x,
      Stint c.proceed part (c.begin tool part) strokes x → K part strokes x)
    (h : Toils c k R (initial parts workers desk world) strokes s) :
    s.Budgeted c K parts strokes := by
  have audited := h.audited distinct
  obtain ⟨heard, works⟩ := h.works
  obtain ⟨dropped, perm, -⟩ := works.staffed.places
  refine ⟨audited.known, fun part hpart => ?_, fun x hx => ?_⟩
  · rcases audited.each part with none | ⟨tool, x, stint⟩
    · exact .inl none
    · exact .inr ⟨x, law part hpart tool _ _ stint⟩
  · refine (audited.told x hx).kept fun part here => law part (perm.mem_iff.1 ?_)
    exact List.mem_append_left _ (s.parts_holdings ▸ List.mem_filterMap.2 ⟨x, hx, here⟩)

/-- Nobody but a worker at its part adds to the entries of this list, and it only adds to them. -/
structure Quiet (c : Craft τ κ α ω β) (k : Desk τ β δ) (f : τ → List ν) : Prop where
  prepare : ∀ w, f (c.prepare w).2 = f w
  proceed : ∀ work w, f w <+: f (c.proceed work w).2
  abandon : ∀ work w, f (c.abandon work w) = f w
  discard : ∀ made w, f (c.discard made w) = f w
  accept : ∀ made desk w, f (k.accept made desk w).2 = f w
  file : ∀ {desk w result w'}, k.file desk w = some (result, w') → f w' = f w
  drop : ∀ desk w, f (k.drop desk w) = f w

omit [DecidableEq α] in
theorem Quiet.steps {f : τ → List ν} (q : Quiet c k f) (h : Steps c k s m t) :
    f t.world = f s.world ++ added f (s.strokes c m) := by
  have idle {w : τ} (unworked : s.strokes c m = []) (same : f w = f s.world) :
      f w = f s.world ++ added f (s.strokes c m) := by
    rw [unworked, added_nil, List.append_nil]
    exact same
  have dropped (parcel : Parcel α β) : f (parcel.drop c s.world) = f s.world := by
    obtain ⟨part, result⟩ := parcel
    cases result with
    | ok made => exact q.discard made s.world
    | error e => rfl
  have stroke {i : Nat} {tool : κ} {part : α} {work : ω} {result : Except Error β ⊕ ω} {world : τ}
      (worker : s.workers[i]? = some (.working tool part work))
      (proceed : c.proceed work s.world = (result, world)) :
      f world = f s.world ++ added f (s.strokes c (.worker i)) := by
    obtain ⟨new, grown⟩ := q.proceed work s.world
    have added := added_snoc [] part grown.symm
    rw [strokes_of_working worker, ← List.nil_append [_], added, added_nil, List.nil_append, grown,
      proceed]
  cases h with
  | files phase file => exact idle rfl (q.file file)
  | misfiles phase file => exact idle rfl ((q.drop _ _).trans (q.file file))
  | closes phase empty complete => exact idle rfl rfl
  | accepts phase empty incomplete channel => exact idle rfl (q.accept _ _ _)
  | hears phase empty incomplete channel => exact idle rfl (q.drop _ _)
  | deserted phase empty incomplete channel gone => exact idle rfl (q.drop _ _)
  | drains phase drains channel => exact idle rfl (dropped _)
  | givesUp phase drained gone => exact idle rfl rfl
  | returns phase gone => exact idle rfl rfl
  | arrives worker prepare =>
    have same := q.prepare s.world
    rw [prepare] at same
    exact idle (strokes_of_idle worker (by simp)) same
  | stumbles worker prepare =>
    have same := q.prepare s.world
    rw [prepare] at same
    exact idle (strokes_of_idle worker (by simp)) same
  | leaves worker queue => exact idle (strokes_of_idle worker (by simp)) rfl
  | takes worker queue => exact idle (strokes_of_idle worker (by simp)) rfl
  | proceeds worker proceed => exact stroke worker proceed
  | finishes worker proceed => exact stroke worker proceed
  | breaks worker proceed => exact stroke worker proceed
  | drops worker shut => exact idle (strokes_of_idle worker (by simp)) (dropped _)
  | handsOver worker isOpen room => exact idle (strokes_of_idle worker (by simp)) rfl
  | reports worker isOpen room => exact idle (strokes_of_idle worker (by simp)) rfl
  | stops cancelled worker => exact idle rfl rfl
  | abandons cancelled worker => exact idle rfl (q.abandon _ _)

omit [DecidableEq α] in
theorem Toils.added {f : τ → List ν} (q : Quiet c k f) (others : ∀ w w', R w w' → f w' = f w)
    (h : Toils c k R s strokes t) : f t.world = f s.world ++ added f strokes := by
  induction h with
  | start => exact (List.append_nil _).symm
  | moves before step ih =>
    rw [q.steps (steps_of_step step), ih, Crew.added, Crew.added, Crew.added, List.flatMap_append,
      List.append_assoc]
  | disturbed before other ih => exact (others _ _ other).trans ih

end State

end ObjectTransfer.Crew
