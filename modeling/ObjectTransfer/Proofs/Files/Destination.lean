import ObjectTransfer.Proofs.Files.Staging
/-!
A destination: a file that is made or emptied, written while other files come and go beside it, and
perhaps removed again. No other name leads to anything else afterwards.
-/
namespace ObjectTransfer.Files.Store

/-- Names lead to contents that were made and take what is written to them. -/
def Sound (s : Store) : Prop :=
  ∀ q id, s.entries.lookup q = some (.file id) → id < s.fresh ∧ s.refusal? id = none

/-- Every name but the one at the path leads to what it led to. -/
def KeepsOthers (path : String) (s t : Store) : Prop :=
  ∀ spot, s.locate path = .ok spot → ∀ q, q ≠ spot.place → t.entries.lookup q = s.entries.lookup q

variable {s t u : Store} {path name : String} {directory : Path} {id : Nat} {content : ByteArray}

theorem sound_empty : Store.empty.Sound := fun q id h => (by cases h)

/-- Whether a file takes what is written does not change when something is written. -/
theorem refusal?_append (s : Store) (id : Nat) (b : ByteArray) (j : Nat) :
    (s.append id b).refusal? j = s.refusal? j := by
  unfold refusal? Store.content Store.append
  by_cases same : j = id
  · subst same
    rw [Keyed.lookup_change]
    cases s.contents.lookup j with
    | none => rfl
    | some c => exact c.refusal?_append b
  · rw [Keyed.lookup_change_of_ne same]

theorem refusal?_setContent_eq_none {c : Content} (takes : c.refusal? = none) {j : Nat}
    (taken : s.refusal? j = none) (id : Nat) : (s.setContent id c).refusal? j = none := by
  by_cases same : j = id
  · subst same
    exact (s.refusal?_setContent j c).trans takes
  · unfold refusal? Store.content setContent
    rwa [Keyed.lookup_put_of_ne same]

theorem create_cases (created : s.create path = .ok (id, t)) :
    namesDirectory path = false ∧ ∃ directory name, s.locate path = .ok ⟨directory, some name⟩ ∧
      name.utf8ByteSize ≤ maxName ∧
      (s.entries.lookup (directory ++ [name]) = none ∧ (id, t) = s.add (directory ++ [name]) ∨
        s.entries.lookup (directory ++ [name]) = some (.file id) ∧
          t = s.setContent id (s.content id).cleared) := by
  unfold Store.create openWrite at created
  cases located : s.locate path with
  | error f =>
    rw [located] at created
    cases created
  | ok spot =>
    obtain ⟨directory, name⟩ := spot
    rw [located] at created
    dsimp only at created
    by_cases slash : namesDirectory path
    · rw [if_pos slash] at created
      cases created
    · rw [if_neg slash] at created
      refine ⟨by simpa using slash, directory, ?_⟩
      cases name with
      | none => cases created
      | some name =>
        by_cases long : maxName < name.utf8ByteSize
        · simp [lookup, entry?, long] at created
        · simp only [lookup, entry?, long, if_false, Spot.place, Option.toList_some] at created
          refine ⟨name, rfl, Nat.not_lt.1 long, ?_⟩
          cases there : s.entries.lookup (directory ++ [name]) with
          | none =>
            rw [there] at created
            exact .inl ⟨rfl, (Except.ok.inj created).symm⟩
          | some e =>
            rw [there] at created
            cases e with
            | directory => cases created
            | file old =>
              cases created
              exact .inr ⟨rfl, rfl⟩

/-- Every file takes what is written to it. -/
def Roomy (s : Store) : Prop := ∀ id, s.refusal? id = none

theorem roomy_empty : Store.empty.Roomy := fun _ => rfl

theorem Roomy.setContent (roomy : s.Roomy) (id : Nat) {c : Content} (takes : c.refusal? = none) :
    (s.setContent id c).Roomy :=
  fun j => refusal?_setContent_eq_none takes (roomy j) id

theorem Roomy.create (roomy : s.Roomy) (created : s.create path = .ok (id, t)) : t.Roomy := by
  obtain ⟨-, directory, name, -, -, ⟨-, made⟩ | ⟨-, rfl⟩⟩ := create_cases created
  · cases made
    intro j
    unfold refusal? Store.content
    rw [List.lookup_cons]
    split
    · rfl
    · exact roomy j
  · exact roomy.setContent id ((Content.refusal?_resize _ 0).trans (roomy id))

theorem Roomy.write (roomy : s.Roomy) {b : ByteArray} (written : s.write path b = .ok t) :
    t.Roomy := by
  cases created : s.create path with
  | error f =>
    rw [Store.write, created] at written
    cases written
  | ok made =>
    obtain ⟨id, u⟩ := made
    have room := roomy.create created
    rw [write_eq created (room id)] at written
    cases written
    exact room.setContent id rfl

theorem Sound.withContents (sound : s.Sound) {contents : List (Nat × Content)}
    (takes : ∀ id, s.refusal? id = none → ({ s with contents } : Store).refusal? id = none) :
    ({ s with contents } : Store).Sound :=
  fun q id h => ⟨(sound q id h).1, takes id (sound q id h).2⟩

theorem Sound.append (sound : s.Sound) (id : Nat) (b : ByteArray) : (s.append id b).Sound :=
  sound.withContents fun j taken => (refusal?_append s id b j).trans taken

theorem Sound.setContent (sound : s.Sound) (id : Nat) {c : Content} (takes : c.refusal? = none) :
    (s.setContent id c).Sound :=
  sound.withContents fun _ taken => refusal?_setContent_eq_none takes taken id

theorem Sound.add (sound : s.Sound) (p : Path) : (s.add p).2.Sound := by
  intro q id h
  simp only [Store.add, List.lookup_append] at h
  cases hq : s.entries.lookup q with
  | some e =>
    rw [hq] at h
    cases h
    obtain ⟨made, takes⟩ := sound q id hq
    have same : (s.add p).2.refusal? id = s.refusal? id := by
      rw [refusal?, refusal?, Store.content, Store.content, s.contents_add_of_lt p made]
    exact ⟨Nat.lt_succ_of_lt made, same.trans takes⟩
  | none =>
    rw [hq, Option.none_or, List.lookup_cons] at h
    split at h
    · cases h
      exact ⟨Nat.lt_succ_self _, congrArg Content.refusal? (s.content_add p)⟩
    · cases h

theorem Sound.openWrite (sound : s.Sound) {keep : Bool} (h : s.openWrite path keep = .ok (id, t)) :
    t.Sound ∧ t.refusal? id = none := by
  unfold Store.openWrite at h
  split at h
  · cases h
  · split at h
    · cases h
    · split at h
      · cases h
      · cases h
        exact ⟨sound.add _, congrArg Content.refusal? (s.content_add _)⟩
      · cases h
      · rename_i spot located slash old there
        have takes : s.refusal? old = none := by
          unfold lookup entry? at there
          split at there
          · cases there
          · split at there
            · cases there
            · exact (sound _ _ (Except.ok.inj there)).2
        have takes' : (s.content old).cleared.refusal? = none :=
          (Content.refusal?_resize _ 0).trans takes
        cases keep with
        | true =>
          cases h
          exact ⟨sound, takes⟩
        | false =>
          cases h
          exact ⟨sound.setContent _ takes', (s.refusal?_setContent _ _).trans takes'⟩

theorem Sound.orKept (sound : s.Sound) {r : Except Fault Store} (h : ∀ t, r = .ok t → t.Sound) :
    (s.orKept r).2.Sound := by
  cases r with
  | ok t => exact h t rfl
  | error f => exact sound

/-- Whatever others do, names lead to contents that were made and take what is written. -/
theorem Sound.apply (sound : s.Sound) (e : Edit) : (e.apply s).2.Sound := by
  cases e with
  | write path data =>
    refine sound.orKept fun t h => ?_
    unfold Store.write Store.create at h
    cases opened : s.openWrite path false with
    | error f => rw [opened] at h; cases h
    | ok made =>
      obtain ⟨kept, takes⟩ := sound.openWrite opened
      rw [opened] at h
      dsimp only at h
      rw [unlessRefused_eq takes] at h
      cases h
      exact kept.setContent _ rfl
  | append path data =>
    unfold Edit.apply
    dsimp only
    cases opened : s.openWrite path true with
    | error f => exact sound
    | ok made =>
      obtain ⟨kept, takes⟩ := sound.openWrite opened
      dsimp only
      rw [unlessRefused_eq takes]
      exact kept.append _ _
  | resize path length =>
    change (s.setLength path length).2.Sound
    unfold Store.setLength
    cases opened : s.openWrite path true with
    | error f => exact sound
    | ok made =>
      obtain ⟨kept, takes⟩ := sound.openWrite opened
      dsimp only
      split
      · exact kept
      · split
        · exact kept
        · exact kept.setContent _ ((Content.refusal?_resize _ _).trans takes)
  | remove path =>
    refine sound.orKept fun t h => ?_
    unfold Store.remove at h
    split at h
    · cases h
    · cases h
    · rename_i place id found
      cases h
      intro q id h
      by_cases hq : q = place
      · rw [hq] at h
        exact absurd ((lookup_filter_self place s.entries).symm.trans h) (by simp)
      · exact sound q id ((lookup_filter_of_ne hq s.entries).symm.trans h)
  | makeDirectory path =>
    refine sound.orKept fun t h => ?_
    unfold Store.makeDirectory at h
    split at h
    · cases h
    · split at h
      · cases h
      · cases h
      · rename_i spot located found
        cases h
        intro q id h
        simp only [List.lookup_append] at h
        cases hq : s.entries.lookup q with
        | some e =>
          rw [hq] at h
          cases h
          exact sound q id hq
        | none =>
          rw [hq, Option.none_or, List.lookup_cons] at h
          split at h
          · cases h
          · cases h

theorem Sound.edit (sound : s.Sound) (edits : List Edit) : (s.edit edits).Sound := by
  induction edits generalizing s with
  | nil => exact sound
  | cons e edits ih => exact ih (sound.apply e)

/-- The file at the path was made or emptied, and is open under this number. -/
structure Opened (s : Store) (path : String) (directory : Path) (name : String) (id : Nat)
    (t : Store) : Prop where
  plain : namesDirectory path = false
  was : s.locate path = .ok ⟨directory, some name⟩
  located : t.locate path = .ok ⟨directory, some name⟩
  short : name.utf8ByteSize ≤ maxName
  there : t.entries.lookup (directory ++ [name]) = some (.file id)
  others : ∀ q, q ≠ directory ++ [name] → t.entries.lookup q = s.entries.lookup q
  id_lt : id < t.fresh
  empty : t.contents.lookup id = some .empty

theorem opened_of_create (sound : s.Sound) (created : s.create path = .ok (id, t)) :
    ∃ directory name, s.Opened path directory name id t := by
  obtain ⟨plain, directory, name, located, short, ⟨free, made⟩ | ⟨there, rfl⟩⟩ := create_cases created
  · obtain ⟨rfl, rfl⟩ : id = s.fresh ∧ t = (s.add (directory ++ [name])).2 := by
      cases made
      exact ⟨rfl, rfl⟩
    exact ⟨directory, name,
      { plain := plain
        was := located
        located := locate_kept (fun p hp => s.lookup_add_of_some free hp) located
        short := short
        there := lookup_add_self s free
        others := fun q => lookup_add_of_ne s
        id_lt := Nat.lt_succ_self _
        empty := List.lookup_cons_self }⟩
  · obtain ⟨made, takes⟩ := sound _ _ there
    have kept : KeepsDirectories s (s.setContent id (s.content id).cleared) := fun p hp => hp
    exact ⟨directory, name,
      { plain := plain
        was := located
        located := locate_kept kept located
        short := short
        there := there
        others := fun q _ => rfl
        id_lt := made
        empty := Content.cleared_eq takes ▸ Keyed.lookup_put_self _ _ s.contents }⟩

namespace Opened

theorem holds (o : s.Opened path directory name id t) {staged : List (Path × ByteArray)}
    (st : Staging t id content staged u) : u.Holds path (some content) :=
  st.holds o.plain o.located o.short o.there

theorem keepsOthers (o : s.Opened path directory name id t) (st : Staging t id content [] u) :
    s.KeepsOthers path u := by
  intro spot hspot q hq
  rw [o.was] at hspot
  cases hspot
  exact (st.lookup_eq q).trans (o.others q hq)

/-- The file can be removed when the others are gone, and then nothing is left. -/
theorem removed (o : s.Opened path directory name id t) (st : Staging t id content [] u) :
    ∃ v, u.remove path = .ok v ∧ v.Holds path none ∧ s.KeepsOthers path v := by
  obtain ⟨v, remove, gone⟩ := (o.holds st).remove
  refine ⟨v, remove, gone, fun spot hspot q hq => ?_⟩
  have same : u.locate path = .ok ⟨directory, some name⟩ :=
    locate_kept (fun _ h => st.kept h) o.located
  have there := st.kept o.there
  have removed : v = { u with entries := u.entries.filter fun e => e.1 != directory ++ [name] } := by
    simp only [Store.remove, find, same, lookup, entry?, Nat.not_lt.2 o.short, there, o.plain,
      Bool.false_eq_true, if_false, Spot.place] at remove
    cases remove
    rfl
  have others := o.keepsOthers st spot hspot q hq
  rw [o.was] at hspot
  cases hspot
  rw [removed]
  exact (lookup_filter_of_ne hq _).trans others

end Opened

end ObjectTransfer.Files.Store
