import Mathlib.Data.List.Basic
import ObjectTransfer.Files.Store
/-!
A file at a path. Writing it makes it hold the bytes that were written, and removing it makes it be
missing, whatever stands in the rest of the tree.
-/
namespace ObjectTransfer.Files.Store

/-- Every directory is still one. -/
def KeepsDirectories (s t : Store) : Prop :=
  ∀ p, s.entries.lookup p = some .directory → t.entries.lookup p = some .directory

theorem enter_kept {s t : Store} (h : KeepsDirectories s t) {here there : Path} {name : String}
    (hs : s.enter here name = .ok there) : t.enter here name = .ok there := by
  unfold enter at hs ⊢
  by_cases hdot : name = "."
  · simpa [hdot] using hs
  by_cases hdots : name = ".."
  · simpa [hdots] using hs
  simp only [hdot, hdots, if_false, entry?] at hs ⊢
  by_cases hlong : maxName < name.utf8ByteSize
  · simp [hlong] at hs
  simp only [hlong, if_false] at hs ⊢
  cases hl : s.entries.lookup (here ++ [name]) with
  | none => simp [hl] at hs
  | some e =>
    cases e with
    | file id => simp [hl] at hs
    | directory =>
      rw [h _ hl]
      simpa [hl] using hs

theorem descend_kept {s t : Store} (h : KeepsDirectories s t) {names : List String}
    {here there : Path} (hs : s.descend here names = .ok there) :
    t.descend here names = .ok there := by
  induction names generalizing here with
  | nil => exact hs
  | cons n names ih =>
    simp only [descend] at hs ⊢
    cases he : s.enter here n with
    | error f => simp [he] at hs
    | ok next =>
      simp only [he] at hs
      simp only [enter_kept h he]
      exact ih hs

theorem locate_kept {s t : Store} (h : KeepsDirectories s t) {path : String} {spot : Spot}
    (hs : s.locate path = .ok spot) : t.locate path = .ok spot := by
  have map_kept {here : Path} {names : List String} {f : Path → Spot}
      (hm : (s.descend here names).map f = .ok spot) : (t.descend here names).map f = .ok spot := by
    cases hd : s.descend here names with
    | error e => simp [hd, Except.map] at hm
    | ok d =>
      rw [descend_kept h hd]
      rwa [hd] at hm
  unfold locate at hs ⊢
  split at hs
  · cases hs
  · rename_i hzero
    rw [if_neg hzero]
    split at hs
    · cases hs
    · rename_i hempty
      rw [if_neg hempty]
      split at hs
      · cases hs
      · rename_i hlong
        rw [if_neg hlong]
        dsimp only at hs ⊢
        split at hs
        · exact hs
        · split at hs
          · rename_i hdots
            rw [if_pos hdots]
            exact map_kept hs
          · rename_i hdots
            rw [if_neg hdots]
            exact map_kept hs

/-- The path names a file that holds these bytes and takes others, or one that is missing but could be
made. -/
def Holds (s : Store) (path : String) (content : Option ByteArray) : Prop :=
  namesDirectory path = false ∧ ∃ directory name, s.locate path = .ok ⟨directory, some name⟩ ∧
    name.utf8ByteSize ≤ maxName ∧
    match content with
    | none => s.entries.lookup (directory ++ [name]) = none
    | some data => ∃ id, s.entries.lookup (directory ++ [name]) = some (.file id) ∧
        s.refusal? id = none ∧ (s.content id).bytes = data

theorem Holds.find_none {s : Store} {path : String} (h : s.Holds path none) :
    s.find path = .error .notFound := by
  obtain ⟨-, d, n, hloc, hn, hl⟩ := h
  simp [find, hloc, lookup, entry?, Nat.not_lt.2 hn, hl]

theorem Holds.find_some {s : Store} {path : String} {data : ByteArray}
    (h : s.Holds path (some data)) :
    ∃ place id, s.find path = .ok (place, .file id) ∧ (s.content id).bytes = data := by
  obtain ⟨hdir, d, n, hloc, hn, id, hl, -, hb⟩ := h
  refine ⟨d ++ [n], id, ?_, hb⟩
  simp [find, hloc, lookup, entry?, Nat.not_lt.2 hn, hl, hdir, Spot.place]

theorem Holds.readAll_none {s : Store} {path : String} (h : s.Holds path none) :
    s.readAll path = .error .notFound := by
  simp [readAll, openRead, h.find_none, Except.map]

theorem Holds.readAll_some {s : Store} {path : String} {data : ByteArray}
    (h : s.Holds path (some data)) : s.readAll path = .ok data := by
  obtain ⟨place, id, hfind, hb⟩ := h.find_some
  simp [readAll, openRead, hfind, Except.map, hb]

theorem content_setContent (s : Store) (id : Nat) (c : Content) :
    (s.setContent id c).content id = c := by
  simp [content, setContent, Keyed.lookup_put_self]

theorem refusal?_setContent (s : Store) (id : Nat) (c : Content) :
    (s.setContent id c).refusal? id = c.refusal? := by
  rw [refusal?, content_setContent]

theorem content_add (s : Store) (p : Path) : (s.add p).2.content s.fresh = .empty := by
  simp [content, add]

theorem unlessRefused_eq {s t : Store} {id : Nat} (takes : s.refusal? id = none) (b : ByteArray) :
    s.unlessRefused id b t = .ok t := by
  rw [unlessRefused, takes]

theorem write_eq {s t : Store} {path : String} {id : Nat} (created : s.create path = .ok (id, t))
    (takes : t.refusal? id = none) (b : ByteArray) :
    s.write path b = .ok (t.setContent id (.ofBytes b)) := by
  rw [write, created]
  exact unlessRefused_eq takes b

theorem Holds.write {s : Store} {path : String} {content : Option ByteArray}
    (h : s.Holds path content) (b : ByteArray) :
    ∃ t, s.write path b = .ok t ∧ t.Holds path (some b) := by
  obtain ⟨hdir, d, n, hloc, hn, hl⟩ := h
  cases content with
  | none =>
    have hkept : KeepsDirectories s
        ((s.add (d ++ [n])).2.setContent s.fresh (.ofBytes b)) := by
      intro p hp
      simp [setContent, add, List.lookup_append, hp]
    have created : s.create path = .ok (s.add (d ++ [n])) := by
      simp [create, openWrite, hloc, hdir, lookup, entry?, Nat.not_lt.2 hn, hl, Spot.place]
    have takes : (s.add (d ++ [n])).2.refusal? s.fresh = none := by
      rw [refusal?, content_add]
      rfl
    refine ⟨_, write_eq created takes b, hdir, d, n, locate_kept hkept hloc, hn, s.fresh, ?_, ?_, ?_⟩
    · simp [setContent, List.lookup_append, hl]
    · exact refusal?_setContent _ _ _
    · exact congrArg Content.bytes (content_setContent _ _ _)
  | some data =>
    obtain ⟨id, hl, takes, -⟩ := hl
    have created : s.create path = .ok (id, s.setContent id (s.content id).cleared) := by
      simp [create, openWrite, hloc, hdir, lookup, entry?, Nat.not_lt.2 hn, hl]
    have takes' : (s.setContent id (s.content id).cleared).refusal? id = none := by
      rw [refusal?_setContent]
      exact (Content.refusal?_resize _ 0).trans takes
    have hkept : KeepsDirectories s
        ((s.setContent id (s.content id).cleared).setContent id (.ofBytes b)) := fun p hp => hp
    exact ⟨_, write_eq created takes' b, hdir, d, n, locate_kept hkept hloc, hn, id, hl,
      refusal?_setContent _ _ _, congrArg Content.bytes (content_setContent _ _ _)⟩

theorem lookup_filter_self {β : Type} (p : Path) (l : List (Path × β)) :
    (l.filter fun e => e.1 != p).lookup p = none := by
  rw [List.lookup_eq_none_iff]
  intro e he
  simpa [bne_comm] using (List.mem_filter.1 he).2

theorem lookup_filter_of_ne {α β : Type} [BEq α] [LawfulBEq α] {p q : α} (hq : q ≠ p)
    (l : List (α × β)) :
    (l.filter fun e => e.1 != p).lookup q = l.lookup q := by
  induction l with
  | nil => rfl
  | cons e l ih =>
    obtain ⟨k, v⟩ := e
    by_cases hk : k = p
    · subst hk
      have hqk : (q == k) = false := by simpa using hq
      simp [List.lookup_cons, hqk, ih]
    · simp only [List.filter_cons, bne_iff_ne, ne_eq, hk, not_false_eq_true, if_true,
        List.lookup_cons, ih]

theorem Holds.remove {s : Store} {path : String} {data : ByteArray}
    (h : s.Holds path (some data)) :
    ∃ t, s.remove path = .ok t ∧ t.Holds path none := by
  obtain ⟨hdir, d, n, hloc, hn, id, hl, -, hb⟩ := h
  have hkept : KeepsDirectories s
      { s with entries := s.entries.filter fun e => e.1 != d ++ [n] } := by
    intro p hp
    have hne : p ≠ d ++ [n] := by
      rintro rfl
      rw [hl] at hp
      cases hp
    rwa [lookup_filter_of_ne hne]
  refine ⟨_, ?_, hdir, d, n, locate_kept hkept hloc, hn, lookup_filter_self _ _⟩
  simp [Store.remove, find, hloc, lookup, entry?, Nat.not_lt.2 hn, hl, hdir, Spot.place]

end ObjectTransfer.Files.Store
