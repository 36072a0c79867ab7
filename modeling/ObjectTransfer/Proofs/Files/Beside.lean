import ObjectTransfer.Proofs.Files.Destination
import ObjectTransfer.Proofs.TrackerFile
import ObjectTransfer.Source.Input
/-!
Two different files, each of which may also be missing. What is done to one of them through its path
shows there and leaves the other one as it is.
-/
namespace ObjectTransfer.Files.Store

/-- What stands at a place: nothing, or a file with a number and bytes. -/
inductive Stands (s : Store) (place : Path) : Option (Nat × ByteArray) → Prop
  | missing (free : s.entries.lookup place = none) : Stands s place none
  | file {id : Nat} {c : Content} (named : s.entries.lookup place = some (.file id))
      (made : id < s.fresh) (content : s.contents.lookup id = some c) :
      Stands s place (some (id, c.bytes))

/-- The path leads to the place, where a file stands or could be made. -/
structure Leads (s : Store) (path : String) (place : Path) (x : Option (Nat × ByteArray)) : Prop where
  plain : namesDirectory path = false
  located : ∃ directory name, s.locate path = .ok ⟨directory, some name⟩ ∧
    name.utf8ByteSize ≤ maxName ∧ place = directory ++ [name]
  stands : s.Stands place x

/-- Nothing changes but what the place leads to, and the content with this number. -/
structure Touches (s t : Store) (place : Path) (id : Nat) : Prop where
  directories : KeepsDirectories s t
  entries : ∀ q, q ≠ place → t.entries.lookup q = s.entries.lookup q
  contents : ∀ j, j ≠ id → t.contents.lookup j = s.contents.lookup j
  fresh : s.fresh ≤ t.fresh

variable {s t : Store} {path other : String} {place place' : Path} {id : Nat}
  {x y : Option (Nat × ByteArray)} {data : ByteArray}

theorem Touches.refusal?_eq (touches : s.Touches t place id) {j : Nat} (ne : j ≠ id) :
    t.refusal? j = s.refusal? j := by
  rw [refusal?, refusal?, Store.content, Store.content, touches.contents j ne]

namespace Leads

theorem kept (l : s.Leads path place x) (touches : s.Touches t place' id) (ne : place ≠ place')
    (apart : ∀ old, x.map (·.1) = some old → old ≠ id) : t.Leads path place x where
  plain := l.plain
  located := by
    obtain ⟨directory, name, located, rest⟩ := l.located
    exact ⟨directory, name, locate_kept touches.directories located, rest⟩
  stands := by
    cases l.stands with
    | missing free => exact .missing ((touches.entries _ ne).trans free)
    | @file old c named made content =>
      exact .file ((touches.entries _ ne).trans named) (Nat.lt_of_lt_of_le made touches.fresh)
        ((touches.contents _ (apart old rfl)).trans content)

theorem restands (l : s.Leads path place x) (touches : s.Touches t place id)
    (stands : t.Stands place y) : t.Leads path place y where
  plain := l.plain
  located := by
    obtain ⟨directory, name, located, rest⟩ := l.located
    exact ⟨directory, name, locate_kept touches.directories located, rest⟩
  stands := stands

theorem find (l : s.Leads path place (some (id, data))) :
    s.find path = .ok (place, .file id) := by
  obtain ⟨directory, name, located, short, rfl⟩ := l.located
  cases l.stands with
  | file named made content =>
    simp [Store.find, located, lookup, entry?, Nat.not_lt.2 short, named, l.plain, Spot.place]

theorem find_none (l : s.Leads path place none) : s.find path = .error .notFound := by
  obtain ⟨directory, name, located, short, rfl⟩ := l.located
  cases l.stands with
  | missing free => simp [Store.find, located, lookup, entry?, Nat.not_lt.2 short, free]

theorem openAppend (l : s.Leads path place (some (id, data))) : s.openAppend path = .ok id := by
  rw [Store.openAppend, l.find]

theorem content_bytes (l : s.Leads path place (some (id, data))) :
    (s.content id).bytes = data := by
  cases l.stands with
  | file named made content =>
    rw [Store.content, content]
    rfl

theorem filled (l : s.Leads path place (some (id, data))) {c : Content}
    {contents : List (Nat × Content)} (self : contents.lookup id = some c)
    (others : ∀ j, j ≠ id → contents.lookup j = s.contents.lookup j) :
    ({ s with contents } : Store).Leads path place (some (id, c.bytes)) ∧
      s.Touches { s with contents } place id := by
  have touches : s.Touches { s with contents } place id :=
    ⟨fun p h => h, fun q _ => rfl, others, Nat.le_refl _⟩
  refine ⟨l.restands touches ?_, touches⟩
  cases l.stands with
  | file named made content => exact .file named made self

theorem append (l : s.Leads path place (some (id, data))) (takes : s.refusal? id = none)
    (chunk : ByteArray) :
    (s.append id chunk).Leads path place (some (id, data ++ chunk)) ∧
      s.Touches (s.append id chunk) place id := by
  cases l.stands with
  | @file _ c named made content =>
    have takes : c.refusal? = none := by
      rw [refusal?, Store.content, content] at takes
      exact takes
    rw [← Content.bytes_append takes]
    exact l.filled (Keyed.lookup_change_self (·.append chunk) content)
      fun j h => Keyed.lookup_change_of_ne h _ _

theorem setContent (l : s.Leads path place (some (id, data))) (c : Content) :
    (s.setContent id c).Leads path place (some (id, c.bytes)) ∧
      s.Touches (s.setContent id c) place id :=
  l.filled (Keyed.lookup_put_self id c _) fun _ h => Keyed.lookup_put_of_ne h c _

/-- The file is made or emptied. It has its old number, or one that no file had; only a file that is
there can refuse what is written. -/
theorem create (l : s.Leads path place x) :
    ∃ id t, s.create path = .ok (id, t) ∧ t.Leads path place (some (id, .empty)) ∧
      s.Touches t place id ∧ (x.map (·.1) = some id ∨ s.fresh ≤ id) ∧
      t.refusal? id = x.bind fun file => s.refusal? file.1 := by
  obtain ⟨directory, name, located, short, same⟩ := l.located
  cases l.stands with
  | missing free =>
    have touches : s.Touches (s.add place).2 place s.fresh :=
      { directories := fun p h => s.lookup_add_of_some free h
        entries := fun q h => lookup_add_of_ne s h
        contents := fun j h => by
          have hj : (j == s.fresh) = false := by simpa using h
          rw [add, List.lookup_cons, hj]
        fresh := Nat.le_succ _ }
    refine ⟨s.fresh, (s.add place).2, ?_, ?_, touches, .inr (Nat.le_refl _),
      congrArg Content.refusal? (s.content_add place)⟩
    · rw [same] at free ⊢
      simp [Store.create, openWrite, located, l.plain, lookup, entry?, Nat.not_lt.2 short, free,
        Spot.place, add]
    · exact l.restands touches
        (.file (lookup_add_self s free) (Nat.lt_succ_self _) List.lookup_cons_self)
  | @file id c named made content =>
    obtain ⟨leads, touches⟩ := l.setContent (s.content id).cleared
    have empty : (s.content id).cleared.bytes = .empty :=
      ByteArray.size_eq_zero_iff.1 ((Content.size_bytes _).trans (Content.size_cleared _))
    rw [empty] at leads
    refine ⟨id, s.setContent id (s.content id).cleared, ?_, leads, touches, .inl rfl,
      (s.refusal?_setContent id _).trans (Content.refusal?_resize _ 0)⟩
    rw [same] at named
    simp [Store.create, openWrite, located, l.plain, lookup, entry?, Nat.not_lt.2 short, named]

theorem remove (l : s.Leads path place (some (id, data))) :
    ∃ t, s.remove path = .ok t ∧ t.Leads path place none ∧ s.Touches t place id := by
  obtain ⟨directory, name, located, short, same⟩ := l.located
  cases l.stands with
  | file named made content =>
    have touches : s.Touches { s with entries := s.entries.filter fun e => e.1 != place } place id :=
      { directories := fun p h => by
          have ne : p ≠ place := by
            rintro rfl
            rw [named] at h
            cases h
          exact (lookup_filter_of_ne ne _).trans h
        entries := fun q h => lookup_filter_of_ne h _
        contents := fun _ _ => rfl
        fresh := Nat.le_refl _ }
    refine ⟨_, ?_, l.restands touches (.missing (lookup_filter_self _ _)), touches⟩
    rw [Store.remove, l.find]

theorem made (l : s.Leads path place x) : ∀ old, x.map (·.1) = some old → old < s.fresh := by
  cases l.stands with
  | missing free => exact fun old h => by cases h
  | file named made content =>
    rintro old ⟨⟩
    exact made

end Leads

/-- The path leads to a file that takes what is written to it, or to a place where one could be made. -/
structure Usable (s : Store) (path : String) (place : Path) (x : Option (Nat × ByteArray)) : Prop
    extends s.Leads path place x where
  takes : ∀ id, x.map (·.1) = some id → s.refusal? id = none

namespace Usable

theorem kept (u : s.Usable path place x) (touches : s.Touches t place' id) (ne : place ≠ place')
    (apart : ∀ old, x.map (·.1) = some old → old ≠ id) : t.Usable path place x where
  toLeads := u.toLeads.kept touches ne apart
  takes old there := (touches.refusal?_eq (apart old there)).trans (u.takes old there)

theorem holds (u : s.Usable path place x) : s.Holds path (x.map (·.2)) := by
  obtain ⟨directory, name, located, short, rfl⟩ := u.located
  refine ⟨u.plain, directory, name, located, short, ?_⟩
  have stands := u.stands
  have takes := u.takes
  cases stands with
  | missing free => exact free
  | @file id c named made content =>
    refine ⟨id, named, takes id rfl, ?_⟩
    rw [Store.content, content]
    rfl

theorem append (u : s.Usable path place (some (id, data))) (chunk : ByteArray) :
    (s.append id chunk).Usable path place (some (id, data ++ chunk)) ∧
      s.Touches (s.append id chunk) place id := by
  have taken := u.takes id rfl
  obtain ⟨leads, touches⟩ := u.toLeads.append taken chunk
  refine ⟨⟨leads, ?_⟩, touches⟩
  rintro old ⟨⟩
  exact (refusal?_append s id chunk id).trans taken

theorem replace (u : s.Usable path place (some (id, data))) (bytes : ByteArray) :
    (s.setContent id (.ofBytes bytes)).Usable path place (some (id, bytes)) ∧
      s.Touches (s.setContent id (.ofBytes bytes)) place id := by
  obtain ⟨leads, touches⟩ := u.toLeads.setContent (.ofBytes bytes)
  refine ⟨⟨leads, ?_⟩, touches⟩
  rintro old ⟨⟩
  exact s.refusal?_setContent id _

theorem create (u : s.Usable path place x) :
    ∃ id t, s.create path = .ok (id, t) ∧ t.Usable path place (some (id, .empty)) ∧
      s.Touches t place id ∧ (x.map (·.1) = some id ∨ s.fresh ≤ id) := by
  obtain ⟨id, t, created, leads, touches, number, refusal⟩ := u.toLeads.create
  refine ⟨id, t, created, ⟨leads, ?_⟩, touches, number⟩
  rintro old ⟨⟩
  rw [refusal]
  cases x with
  | none => rfl
  | some file => exact u.takes file.1 rfl

theorem remove (u : s.Usable path place (some (id, data))) :
    ∃ t, s.remove path = .ok t ∧ t.Usable path place none ∧ s.Touches t place id := by
  obtain ⟨t, removed, leads, touches⟩ := u.toLeads.remove
  exact ⟨t, removed, ⟨leads, fun old h => by cases h⟩, touches⟩

end Usable

/-- The two paths lead to different files, which hold these bytes or are missing and take what is
written to them. -/
def Beside (s : Store) (path other : String) (a b : Option ByteArray) : Prop :=
  ∃ place place' x y, s.Usable path place x ∧ s.Usable other place' y ∧ place ≠ place' ∧
    (∀ id, x.map (·.1) = some id → y.map (·.1) ≠ some id) ∧ x.map (·.2) = a ∧ y.map (·.2) = b

namespace Beside
variable {a b : Option ByteArray}

theorem swap (h : s.Beside path other a b) : s.Beside other path b a := by
  obtain ⟨place, place', x, y, left, right, ne, apart, rfl, rfl⟩ := h
  exact ⟨place', place, y, x, right, left, ne.symm, fun id hy hx => apart id hx hy, rfl, rfl⟩

theorem holds (h : s.Beside path other a b) : s.Holds path a := by
  obtain ⟨place, place', x, y, left, right, ne, apart, rfl, rfl⟩ := h
  exact left.holds

/-- A file that is there is given other bytes, or its name is taken away. -/
theorem changed {place place' : Path} {y z : Option (Nat × ByteArray)}
    (right : s.Usable other place' y) (ne : place ≠ place') (apart : y.map (·.1) ≠ some id)
    (left : t.Usable path place z) (same : ∀ j, z.map (·.1) = some j → j = id)
    (touches : s.Touches t place id) : t.Beside path other (z.map (·.2)) (y.map (·.2)) :=
  ⟨place, place', z, y, left,
    right.kept touches ne.symm fun _ hold h => apart (h ▸ hold), ne,
    fun j hj => same j hj ▸ apart, rfl, rfl⟩

theorem create (h : s.Beside path other a b) :
    ∃ id t, s.create path = .ok (id, t) ∧ t.Beside path other (some .empty) b ∧
      t.openAppend path = .ok id := by
  obtain ⟨place, place', x, y, left, right, ne, apart, rfl, rfl⟩ := h
  obtain ⟨id, t, created, made, touches, number⟩ := left.create
  have apart' : y.map (·.1) ≠ some id := by
    intro same
    rcases number with old | new
    · exact apart id old same
    · exact Nat.not_le_of_lt (right.made id same) new
  refine ⟨id, t, created, ⟨place, place', _, y, made, ?_, ne, ?_, rfl, rfl⟩, made.openAppend⟩
  · exact right.kept touches ne.symm fun old hold h => apart' (h ▸ hold)
  · rintro j ⟨⟩
    exact apart'

theorem write (h : s.Beside path other a b) (bytes : ByteArray) :
    ∃ t, s.write path bytes = .ok t ∧ t.Beside path other (some bytes) b := by
  obtain ⟨id, t, created, ⟨place, place', x, y, left, right, ne, apart, some, rfl⟩, opened⟩ :=
    h.create
  cases x with
  | none => cases some
  | some file =>
    obtain ⟨id', _⟩ := file
    obtain rfl : id' = id := Except.ok.inj (left.openAppend.symm.trans opened)
    obtain ⟨replaced, touches⟩ := left.replace bytes
    exact ⟨_, write_eq created (left.takes _ rfl) bytes,
      changed right ne (apart _ rfl) replaced (by rintro j ⟨⟩; rfl) touches⟩

theorem opens (h : s.Beside path other (some data) b) :
    ∃ id, s.openAppend path = .ok id ∧ (s.content id).bytes = data := by
  obtain ⟨place, place', x, y, left, right, ne, apart, some, rfl⟩ := h
  cases x with
  | none => cases some
  | some file =>
    cases some
    exact ⟨file.1, left.openAppend, left.content_bytes⟩

theorem takes (h : s.Beside path other (some data) b) (opened : s.openAppend path = .ok id) :
    s.refusal? id = none := by
  obtain ⟨place, place', x, y, left, right, ne, apart, some, rfl⟩ := h
  cases x with
  | none => cases some
  | some file =>
    obtain rfl : file.1 = id := Except.ok.inj (left.openAppend.symm.trans opened)
    exact left.takes _ rfl

theorem append (h : s.Beside path other (some data) b) (opened : s.openAppend path = .ok id)
    (chunk : ByteArray) : (s.append id chunk).Beside path other (some (data ++ chunk)) b ∧
      (s.append id chunk).openAppend path = .ok id := by
  obtain ⟨place, place', x, y, left, right, ne, apart, some, rfl⟩ := h
  cases x with
  | none => cases some
  | some file =>
    obtain ⟨id', _⟩ := file
    cases some
    obtain rfl : id' = id := Except.ok.inj (left.openAppend.symm.trans opened)
    obtain ⟨grown, touches⟩ := left.append chunk
    exact ⟨changed right ne (apart _ rfl) grown (by rintro j ⟨⟩; rfl) touches,
      grown.openAppend⟩

theorem remove (h : s.Beside path other (some data) b) :
    ∃ t, s.remove path = .ok t ∧ t.Beside path other none b := by
  obtain ⟨place, place', x, y, left, right, ne, apart, some, rfl⟩ := h
  cases x with
  | none => cases some
  | some file =>
    obtain ⟨t, removed, gone, touches⟩ := left.remove
    exact ⟨t, removed, changed right ne (apart _ rfl) gone (by rintro j ⟨⟩) touches⟩

theorem size (h : s.Beside path other (some data) b) : s.size path = .ok data.size := by
  obtain ⟨place, id, found, bytes⟩ := h.holds.find_some
  rw [Store.size, found, ← bytes, Content.size_bytes]
  rfl

theorem size_none (h : s.Beside path other none b) : s.size path = .error .notFound := by
  rw [Store.size, h.holds.find_none]
  rfl

theorem md5 (h : s.Beside path other (some data) b) :
    (InputSource.file path).md5 s = .ok (Digest.md5Hex data) := by
  rw [InputSource.md5, InputSource.bytesNow, h.holds.readAll_some]
  rfl

end Beside

end ObjectTransfer.Files.Store

namespace ObjectTransfer.TrackerFile
open Files
variable {t : TrackerFile} {files : Store} {path token : String} {a b : Option ByteArray}

/-- The token that is loaded from a tracker file with these bytes, or a missing one. -/
def tokenIn (b : Option ByteArray) : Option String := (b.bind String.fromUTF8?).bind token?

theorem tokenIn_line (token : String) : tokenIn (some (line token)) = token? (token ++ "\n") := by
  rw [tokenIn, Option.bind_some, fromUTF8?_line, Option.bind_some]

theorem load_beside (h : files.Beside path t.path a b) : t.load files = tokenIn b :=
  Holds.load_eq (t := t) h.swap.holds

theorem save_beside (h : files.Beside path t.path a b) (token : String) :
    ∃ after, t.save token files = .ok after ∧
      after.Beside path t.path a (some (line token)) := by
  obtain ⟨after, written, beside⟩ := h.swap.write (line token)
  refine ⟨after, ?_, beside.swap⟩
  rw [line] at written
  rw [save, written]

theorem remove_beside (h : files.Beside path t.path a b) :
    (t.remove files).Beside path t.path a none := by
  cases b with
  | none =>
    have missing : files.remove t.path = .error .notFound := by
      rw [Store.remove, h.swap.holds.find_none]
    rwa [remove, missing]
  | some data =>
    obtain ⟨after, removed, beside⟩ := h.swap.remove
    rw [remove, removed]
    exact beside.swap

end ObjectTransfer.TrackerFile
