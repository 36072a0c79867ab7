import ObjectTransfer.Proofs.Files.Beside
/-!
Trees in which every file has one name and a content. Where a path ends can be read from its names
alone, so two paths that end at different places lead to different files whatever the tree holds: what
is written through one of them is not seen through the other.
-/
namespace ObjectTransfer.Files

/-- Where names lead from a place, if they lead anywhere. -/
def resolve (here : Path) : List String → Path
  | [] => here
  | name :: rest =>
    resolve (if name = "." then here else if name = ".." then here.above else here ++ [name]) rest

/-- Where a written path ends, if it leads anywhere. -/
def placeOf (path : String) : Path := resolve (start path) (namesOf path)

theorem resolve_append (here : Path) (names more : List String) :
    resolve here (names ++ more) = resolve (resolve here names) more := by
  induction names generalizing here with
  | nil => rfl
  | cons name names ih => exact ih _

namespace Store
variable {s t : Store} {path other name : String} {place : Path} {id length : Nat}

theorem enter_place {here there : Path} (entered : s.enter here name = .ok there) :
    there = if name = "." then here else if name = ".." then here.above else here ++ [name] := by
  unfold enter at entered
  by_cases dot : name = "."
  · rw [if_pos dot] at entered ⊢
    cases entered
    rfl
  · by_cases dots : name = ".."
    · rw [if_neg dot, if_pos dots] at entered ⊢
      cases entered
      rfl
    · rw [if_neg dot, if_neg dots] at entered ⊢
      split at entered
      · cases entered
      · cases entered
      · cases entered
      · cases entered
        rfl

theorem descend_place {here there : Path} {names : List String}
    (descended : s.descend here names = .ok there) : there = resolve here names := by
  induction names generalizing here with
  | nil =>
    cases descended
    rfl
  | cons name names ih =>
    unfold descend at descended
    cases entered : s.enter here name with
    | error f =>
      rw [entered] at descended
      cases descended
    | ok next =>
      rw [entered] at descended
      rw [ih descended, enter_place entered]
      rfl

theorem locate_place {spot : Spot} (located : s.locate path = .ok spot) :
    spot.place = placeOf path := by
  have ends {here : Path} {names : List String} {f : Path → Spot}
      (mapped : (s.descend here names).map f = .ok spot) : spot = f (resolve here names) := by
    cases descended : s.descend here names with
    | error f =>
      rw [descended] at mapped
      cases mapped
    | ok there =>
      rw [descended] at mapped
      cases mapped
      rw [descend_place descended]
  unfold locate at located
  split at located
  · cases located
  · split at located
    · cases located
    · split at located
      · cases located
      · dsimp only at located
        unfold placeOf
        split at located
        · rename_i last
          cases located
          rw [List.getLast?_eq_none_iff.1 last]
          exact List.append_nil _
        · rename_i last named
          have split := List.dropLast_append_getLast? last named
          split at located
          · rw [ends located]
            exact List.append_nil _
          · rename_i dots
            rw [ends located, ← split, resolve_append, List.dropLast_concat]
            simp only [isDots, Bool.or_eq_true, beq_iff_eq, not_or] at dots
            simp only [resolve, dots.1, dots.2, if_false]
            rfl

theorem enter_eq (same : t.entries = s.entries) (here : Path) (name : String) :
    t.enter here name = s.enter here name := by
  unfold enter entry?
  rw [same]

theorem descend_eq (same : t.entries = s.entries) (here : Path) (names : List String) :
    t.descend here names = s.descend here names := by
  induction names generalizing here with
  | nil => rfl
  | cons name names ih =>
    unfold descend
    rw [enter_eq same]
    split
    · rfl
    · exact ih _

theorem find_eq (same : t.entries = s.entries) (path : String) : t.find path = s.find path := by
  have located : t.locate path = s.locate path := by
    unfold locate
    simp only [descend_eq same]
  unfold find lookup entry?
  rw [located, same]

theorem find_file (found : s.find path = .ok (place, .file id)) :
    namesDirectory path = false ∧ ∃ directory name, s.locate path = .ok ⟨directory, some name⟩ ∧
      name.utf8ByteSize ≤ maxName ∧ place = directory ++ [name] ∧
      s.entries.lookup place = some (.file id) := by
  unfold find at found
  cases located : s.locate path with
  | error f =>
    rw [located] at found
    cases found
  | ok spot =>
    rw [located] at found
    obtain ⟨directory, name⟩ := spot
    cases name with
    | none => cases found
    | some name =>
      dsimp only [lookup, entry?] at found
      by_cases long : maxName < name.utf8ByteSize
      · rw [if_pos long] at found
        cases found
      · rw [if_neg long] at found
        split at found
        · cases found
        · cases found
        · cases found
        · rename_i id' there
          split at found
          · cases found
          · rename_i plain
            cases found
            exact ⟨by simpa using plain, directory, name, rfl, Nat.not_lt.1 long, rfl,
              Except.ok.inj there⟩

theorem find_of_openAppend (opened : s.openAppend path = .ok id) :
    ∃ place, s.find path = .ok (place, .file id) := by
  unfold openAppend at opened
  split at opened
  · cases opened
  · cases opened
  · rename_i place id' found
    cases opened
    exact ⟨place, found⟩

theorem size_of_find (found : s.find path = .ok (place, .file id)) :
    s.size path = .ok (s.content id).size := by
  rw [size, found]
  rfl

def Takes (s : Store) (path : String) : Prop :=
  ∀ place id, s.find path = .ok (place, .file id) → s.refusal? id = none

theorem takes_iff_of_find (found : s.find path = .ok (place, .file id)) :
    s.Takes path ↔ s.refusal? id = none := by
  refine ⟨fun takes => takes place id found, fun taken place' id' found' => ?_⟩
  cases found.symm.trans found'
  exact taken

theorem Takes.append (takes : s.Takes path) (id : Nat) (chunk : ByteArray) :
    (s.append id chunk).Takes path := by
  intro place' id' found
  have same : (s.append id chunk).find path = s.find path :=
    find_eq (s := s) (t := s.append id chunk) rfl path
  exact (refusal?_append s id chunk id').trans (takes place' id' (same.symm.trans found))

theorem Leads.named {data : ByteArray} (l : s.Leads path place (some (id, data))) :
    s.entries.lookup place = some (.file id) := by
  cases l.stands with
  | file named made content => exact named

structure Tidy (s : Store) : Prop where
  made : ∀ {p id}, s.entries.lookup p = some (.file id) →
    id < s.fresh ∧ (s.contents.lookup id).isSome
  single : ∀ {p q id}, s.entries.lookup p = some (.file id) →
    s.entries.lookup q = some (.file id) → p = q

theorem tidy_empty : Store.empty.Tidy where
  made h := (by cases h)
  single h _ := (by cases h)

theorem tidy_besideFullDevice : Store.besideFullDevice.Tidy := by
  have only {p : Path} {id : Nat}
      (there : Store.besideFullDevice.entries.lookup p = some (.file id)) :
      p = root ++ ["dev", "full"] ∧ id = 0 := by
    unfold Store.besideFullDevice at there
    simp only [List.lookup_cons, List.lookup_nil] at there
    split at there
    · cases there
    · split at there
      · cases there
        rename_i same
        exact ⟨by simpa using same, rfl⟩
      · cases there
  constructor
  · intro p id there
    obtain ⟨-, rfl⟩ := only there
    exact ⟨Nat.zero_lt_one, rfl⟩
  · intro p q id hp hq
    exact (only hp).1.trans (only hq).1.symm

namespace Tidy

theorem withContents (tidy : s.Tidy) {contents : List (Nat × Content)}
    (kept : ∀ id, (s.contents.lookup id).isSome → (contents.lookup id).isSome) :
    ({ s with contents } : Store).Tidy where
  made h := ⟨(tidy.made h).1, kept _ (tidy.made h).2⟩
  single := tidy.single

theorem append (tidy : s.Tidy) (id : Nat) (chunk : ByteArray) : (s.append id chunk).Tidy := by
  refine tidy.withContents fun j there => ?_
  by_cases same : j = id
  · subst same
    obtain ⟨c, content⟩ := Option.isSome_iff_exists.1 there
    rw [Keyed.lookup_change_self (·.append chunk) content]
    rfl
  · rwa [Keyed.lookup_change_of_ne same]

theorem setContent (tidy : s.Tidy) (id : Nat) (c : Content) : (s.setContent id c).Tidy := by
  refine tidy.withContents fun j there => ?_
  by_cases same : j = id
  · subst same
    rw [Keyed.lookup_put_self]
    rfl
  · rwa [Keyed.lookup_put_of_ne same]

theorem add (tidy : s.Tidy) (free : s.entries.lookup place = none) : (s.add place).2.Tidy := by
  -- a file is one of those that were there or the new one, which has a number of its own
  have cases {p : Path} {id : Nat} (h : (s.add place).2.entries.lookup p = some (.file id)) :
      p = place ∧ id = s.fresh ∨ s.entries.lookup p = some (.file id) ∧ id < s.fresh := by
    by_cases same : p = place
    · subst same
      rw [lookup_add_self s free] at h
      cases h
      exact .inl ⟨rfl, rfl⟩
    · rw [lookup_add_of_ne s same] at h
      exact .inr ⟨h, (tidy.made h).1⟩
  constructor
  · intro p id h
    rcases cases h with ⟨-, rfl⟩ | ⟨old, lt⟩
    · refine ⟨Nat.lt_succ_self _, ?_⟩
      rw [Store.add, List.lookup_cons_self]
      rfl
    · rw [contents_add_of_lt s place lt]
      exact ⟨Nat.lt_succ_of_lt lt, (tidy.made old).2⟩
  · intro p q id hp hq
    rcases cases hp with ⟨rfl, rfl⟩ | ⟨oldp, ltp⟩
    · rcases cases hq with ⟨rfl, -⟩ | ⟨oldq, ltq⟩
      · rfl
      · exact absurd ltq (Nat.lt_irrefl _)
    · rcases cases hq with ⟨rfl, rfl⟩ | ⟨oldq, ltq⟩
      · exact absurd ltp (Nat.lt_irrefl _)
      · exact tidy.single oldp oldq

theorem leads_of_find (tidy : s.Tidy) (found : s.find path = .ok (place, .file id)) :
    ∃ c, s.Leads path place (some (id, c.bytes)) ∧ s.contents.lookup id = some c ∧
      place = placeOf path := by
  obtain ⟨plain, directory, name, located, short, same, named⟩ := find_file found
  obtain ⟨made, there⟩ := tidy.made named
  obtain ⟨c, content⟩ := Option.isSome_iff_exists.1 there
  exact ⟨c, ⟨plain, ⟨directory, name, located, short, same⟩, .file named made content⟩, content,
    same.trans (locate_place located)⟩

theorem leads_of_create (tidy : s.Tidy) (created : s.create path = .ok (id, t)) :
    ∃ x, s.Leads path (placeOf path) x := by
  obtain ⟨plain, directory, name, located, short, there⟩ := create_cases created
  have place : placeOf path = directory ++ [name] := (locate_place located).symm
  have leads {x : Option (Nat × ByteArray)} (stands : s.Stands (placeOf path) x) :
      s.Leads path (placeOf path) x :=
    ⟨plain, ⟨directory, name, located, short, place⟩, stands⟩
  rw [← place] at there
  obtain ⟨free, -⟩ | ⟨there, -⟩ := there
  · exact ⟨none, leads (.missing free)⟩
  · obtain ⟨made, content⟩ := tidy.made there
    obtain ⟨c, content⟩ := Option.isSome_iff_exists.1 content
    exact ⟨some (id, c.bytes), leads (.file there made content)⟩

theorem create (tidy : s.Tidy) (created : s.create path = .ok (id, t)) : t.Tidy := by
  obtain ⟨-, directory, name, -, -, ⟨free, made⟩ | ⟨-, rfl⟩⟩ := create_cases created
  · cases made
    exact tidy.add free
  · exact tidy.setContent _ _

theorem find_create (tidy : s.Tidy) (created : s.create path = .ok (id, t)) :
    t.find path = .ok (placeOf path, .file id) ∧ t.size path = .ok 0 := by
  obtain ⟨x, leads⟩ := tidy.leads_of_create created
  obtain ⟨id', t', created', empty, -, -, -⟩ := leads.create
  cases created.symm.trans created'
  refine ⟨empty.find, ?_⟩
  rw [size_of_find empty.find, ← Content.size_bytes, empty.content_bytes]
  rfl

/-- A file that is made takes what is written, and one that is emptied does as before. -/
theorem takes_create (tidy : s.Tidy) (created : s.create path = .ok (id, t)) :
    t.Takes path ↔ s.Takes path := by
  obtain ⟨x, leads⟩ := tidy.leads_of_create created
  obtain ⟨id', t', created', -, -, -, refusal⟩ := leads.create
  cases created.symm.trans created'
  rw [takes_iff_of_find (tidy.find_create created).1, refusal]
  cases x with
  | none =>
    have missing := leads.find_none
    exact iff_of_true rfl fun place id found => by cases missing.symm.trans found
  | some file =>
    obtain ⟨old, data⟩ := file
    exact (takes_iff_of_find leads.find).symm

theorem size_append (tidy : s.Tidy) (opened : s.openAppend path = .ok id)
    (takes : s.refusal? id = none) (size : s.size path = .ok length) (chunk : ByteArray) :
    (s.append id chunk).size path = .ok (length + chunk.size) ∧
      (s.append id chunk).openAppend path = .ok id := by
  obtain ⟨place, found⟩ := find_of_openAppend opened
  have same : (s.append id chunk).find path = s.find path :=
    find_eq (s := s) (t := s.append id chunk) rfl path
  have still := same.trans found
  obtain ⟨c, -, content, -⟩ := tidy.leads_of_find found
  have takes : c.refusal? = none := by
    rw [refusal?, Store.content, content] at takes
    exact takes
  rw [size_of_find found, Store.content, content] at size
  cases size
  constructor
  · have grown := Keyed.lookup_change_self (·.append chunk) content
    rw [size_of_find still, Store.content, Store.append, grown]
    exact congrArg Except.ok (Content.size_append takes chunk)
  · rw [openAppend, still]

end Tidy

/-- The file at a path is found where it was, with what it held, and the tree stays tidy. -/
structure Spares (path : String) (s t : Store) : Prop where
  tidy : s.Tidy → t.Tidy
  find : t.find path = s.find path
  content : ∀ {place id}, s.find path = .ok (place, .file id) → t.content id = s.content id

namespace Spares

theorem refl (path : String) (s : Store) : Spares path s s := ⟨id, rfl, fun _ => rfl⟩

theorem size (h : Spares path s t) : t.size path = s.size path := by
  cases found : s.find path with
  | error f => rw [Store.size, Store.size, h.find, found]; rfl
  | ok there =>
    obtain ⟨place, entry⟩ := there
    cases entry with
    | directory => rw [Store.size, Store.size, h.find, found]; rfl
    | file id => rw [size_of_find found, size_of_find (h.find.trans found), h.content found]

theorem openAppend (h : Spares path s t) : t.openAppend path = s.openAppend path := by
  rw [Store.openAppend, Store.openAppend, h.find]

theorem takes_iff (h : Spares path s t) : t.Takes path ↔ s.Takes path := by
  have same {place : Path} {id : Nat} (found : s.find path = .ok (place, .file id)) :
      t.refusal? id = s.refusal? id := congrArg Content.refusal? (h.content found)
  constructor
  · intro takes place id found
    exact (same found).symm.trans (takes place id (h.find.trans found))
  · intro takes place id found
    have found := h.find.symm.trans found
    exact (same found).trans (takes place id found)

theorem trans {u : Store} (h : Spares path s t) (h' : Spares path t u) : Spares path s u where
  tidy tidy := h'.tidy (h.tidy tidy)
  find := h'.find.trans h.find
  content found := (h'.content (h.find.trans found)).trans (h.content found)

theorem setContent (found : s.find path = .ok (place, .file id)) {other : Nat} (ne : id ≠ other)
    (c : Content) : Spares path s (s.setContent other c) where
  tidy tidy := tidy.setContent other c
  find := find_eq (s := s) (t := s.setContent other c) rfl path
  content found' := by
    cases found.symm.trans found'
    have same : (s.setContent other c).contents.lookup id = s.contents.lookup id :=
      Keyed.lookup_put_of_ne ne _ _
    rw [Store.content, Store.content, same]

theorem create (tidy : s.Tidy) (apart : placeOf path ≠ placeOf other)
    (found : s.find path = .ok (place, .file id)) {number : Nat}
    (created : s.create other = .ok (number, t)) : Spares path s t ∧ id ≠ number := by
  obtain ⟨c, here, content, rfl⟩ := tidy.leads_of_find found
  obtain ⟨x, there⟩ := tidy.leads_of_create created
  obtain ⟨number', t', created', -, touches, old, -⟩ := there.create
  cases created.symm.trans created'
  -- the other file has its old number or a new one, and neither is that of the file
  have ne : id ≠ number := by
    rintro rfl
    rcases old with old | new
    · cases there.stands with
      | missing free => cases old
      | file named made content =>
        cases old
        exact apart (tidy.single here.named named)
    · exact Nat.not_le_of_lt (here.made id rfl) new
  have kept := here.kept touches apart fun old same => by cases same; exact ne
  refine ⟨⟨fun _ => tidy.create created, kept.find.trans found.symm, fun found' => ?_⟩, ne⟩
  cases found.symm.trans found'
  rw [Store.content, Store.content, touches.contents id ne]

theorem write (tidy : s.Tidy) (apart : placeOf path ≠ placeOf other)
    (found : s.find path = .ok (place, .file id)) {bytes : ByteArray}
    (written : s.write other bytes = .ok t) : Spares path s t := by
  unfold Store.write at written
  cases created : s.create other with
  | error f =>
    rw [created] at written
    cases written
  | ok made =>
    obtain ⟨number, made⟩ := made
    obtain ⟨spares, ne⟩ := create tidy apart found created
    rw [created] at written
    dsimp only [unlessRefused] at written
    split at written
    · split at written
      · cases written
        exact spares
      · cases written
    · cases written
      exact spares.trans (setContent (spares.find.trans found) ne _)

end Spares

end Store

end ObjectTransfer.Files
