import Mathlib.Algebra.GroupWithZero.Nat
import ObjectTransfer.Proofs.Download.Sequencer
import ObjectTransfer.Proofs.Download.Tries
/-!
Putting the parts together. The destination holds the parts before some index and perhaps the
beginning of the part with that index; parts that came too early are held back in the order of their
indices. When all parts have come and none is left to append, the destination holds the object.
-/
namespace ObjectTransfer.Download
open Files

namespace Assembly

/-- The parts in the hands of the coordinator: the one being appended and those held back. -/
def held (a : Assembly) : List Staged :=
  (a.appending.map (·.1)).toList ++ a.waiting.held.map (·.2)

def files (content : ByteArray) (partSize : Nat) (a : Assembly) : List (Path × ByteArray) :=
  a.held.map (Staged.file content partSize)

/-- Where the coordinator is with appending, with what the destination holds: the parts before
`next`, but of the last of them only what is copied when it is still being appended. -/
inductive Appends (content : ByteArray) (partSize : Nat) (files : Store) :
    (next : Nat) → Option (Staged × Nat × Nat) → (written : Nat) → ByteArray → Prop
  | idle (next : Nat) : Appends content partSize files next none
      (Part.boundary content.size partSize next)
      (content.extract 0 (Part.boundary content.size partSize next))
  | busy {s : Staged} {id copied : Nat} (valid : s.index < Part.count content.size partSize)
      (size : s.size = (Part.ofIndex content.size partSize s.index).size) (copied_le : copied ≤ s.size)
      (opened : files.entries.lookup s.path = some (.file id)) :
      Appends content partSize files (s.index + 1) (some (s, id, copied))
        (Part.boundary content.size partSize s.index)
        (content.extract 0 (Part.boundary content.size partSize s.index + copied))

/-- What the coordinator has, when it has received the parts with these indices. -/
structure Fits (content : ByteArray) (partSize target : Nat) (files : Store) (indices : List Nat)
    (a : Assembly) (shown : ByteArray) : Prop where
  destination : a.destination = target
  sorted : a.waiting.held.Pairwise (·.1 < ·.1)
  ahead : ∀ x ∈ a.waiting.held, a.waiting.next ≤ x.1
  staged : ∀ x ∈ a.waiting.held, x.2.index = x.1 ∧
    x.2.size = (Part.ofIndex content.size partSize x.1).size
  accounted : indices.Perm (List.range a.waiting.next ++ a.waiting.held.map (·.1))
  valid : ∀ i ∈ indices, i < Part.count content.size partSize
  appends : Appends content partSize files a.waiting.next a.appending a.written shown

/-- How many moves the copying of this many bytes takes, except for the last one. -/
def pieces (n : Nat) : Nat := (n + (pieceSize - 1)) / pieceSize

/-- How many moves it takes to put away what the coordinator has. -/
def toDo (a : Assembly) : Nat :=
  (a.appending.map fun x => pieces (x.1.size - x.2.2) + 1).getD 0 +
    (a.waiting.held.map fun x => pieces x.2.size + 2).sum

theorem pieces_sub_lt {n m : Nat} (h : 0 < n) (hm : m = min pieceSize n) :
    pieces (n - m) < pieces n := by
  subst hm
  unfold pieces pieceSize
  omega

variable {σ : Type} {content shown : ByteArray} {partSize target : Nat} {base : Store}
  {indices : List Nat} {a a' : Assembly} {others : List (Path × ByteArray)} {w w' : World σ}

theorem completed_eq (a : Assembly) (part : Staged) (w : World σ) :
    ∃ progress reports, a.completed part w =
      ({ a with written := a.written + part.size, appending := none, progress },
        { w with files := w.files.forget part.path, reports }) := by
  unfold completed
  cases a.progress with
  | none => exact ⟨none, w.reports, rfl⟩
  | some t => exact ⟨_, _, rfl⟩

/-- A step of the coordinator that puts something away. -/
structure Filed (content : ByteArray) (partSize target : Nat) (base : Store) (indices : List Nat)
    (others : List (Path × ByteArray)) (a a' : Assembly) (w w' : World σ) : Prop where
  peer : w'.peer = w.peer
  names : ∀ {q id}, q ∈ others.map (·.1) → w.files.entries.lookup q = some (.file id) →
    w'.files.entries.lookup q = some (.file id)
  fits : ∃ shown, a'.Fits content partSize target w'.files indices shown ∧
    Store.Staging base target shown (a'.files content partSize ++ others) w'.files
  lighter : a'.toDo < a.toDo

theorem file_busy (hp : 0 < partSize) {s : Staged} {id copied : Nat}
    (busy : a.appending = some (s, id, copied))
    (fits : a.Fits content partSize target w.files indices shown)
    (st : Store.Staging base target shown (a.files content partSize ++ others) w.files) :
    ∃ a' w', a.file w = some (.ok a', w') ∧
      Filed content partSize target base indices others a a' w w' := by
  obtain ⟨destination, written, ⟨next, held⟩, appending, progress⟩ := a
  obtain rfl : appending = some (s, id, copied) := busy
  obtain ⟨rfl, sorted, ahead, staged, accounted, hvalid, appends⟩ := fits
  dsimp only at sorted ahead staged accounted appends
  cases appends with
  | busy valid size copied_le opened =>
    set part := Part.ofIndex content.size partSize s.index with hpart
    have bytes : w.files.content id = .ofBytes (part.bytes content) :=
      st.content_eq (List.mem_append_left _ List.mem_cons_self) opened
    have piece : (w.files.content id).read copied pieceSize =
        (part.bytes content).extract copied (copied + pieceSize) := by
      rw [bytes, Content.read_eq]
      rfl
    have hsize : (part.bytes content).size = s.size := by rw [size, Part.size_bytes content hp valid]
    have pieceSize_eq : ((part.bytes content).extract copied (copied + pieceSize)).size =
        min pieceSize (s.size - copied) := by
      rw [ByteArray.size_extract, hsize]
      omega
    have whole := Part.size_eq hp valid
    rw [← hpart, ← size] at whole
    unfold Assembly.file
    simp only [piece]
    by_cases empty : ((part.bytes content).extract copied (copied + pieceSize)).size = 0
    · -- nothing is left of the part, so the next one follows
      rw [if_pos empty]
      obtain rfl : copied = s.size := by
        rw [pieceSize_eq, pieceSize] at empty
        omega
      obtain ⟨progress', reports, through⟩ := completed_eq ⟨destination,
        Part.boundary content.size partSize s.index, ⟨s.index + 1, held⟩, some (s, id, s.size),
        progress⟩ s w
      rw [through]
      refine ⟨_, _, rfl, rfl, fun {q} _ hq h => ?_, ⟨_, ⟨rfl, sorted, ahead, staged, accounted, hvalid,
        ?_⟩, st.forget.1⟩, ?_⟩
      · obtain ⟨x, hx, rfl⟩ := List.mem_map.1 hq
        exact (st.forget_names (List.mem_map.2 ⟨x, List.mem_append_right _ hx, rfl⟩)).trans h
      · dsimp only
        rw [whole]
        exact .idle _
      · simp [toDo]
    · -- the piece belongs right behind what the destination shows
      rw [if_neg empty]
      have size_shown :
          (content.extract 0 (Part.boundary content.size partSize s.index + copied)).size =
          Part.boundary content.size partSize s.index + copied := by
        have hle : Part.boundary content.size partSize (s.index + 1) ≤ content.size :=
          Part.boundary_le
        rw [ByteArray.size_extract]
        omega
      have st' := st.writeAt ((part.bytes content).extract copied (copied + pieceSize))
      rw [size_shown, hpart, Part.extract_append_bytes content hp valid (size ▸ copied_le),
        ← hpart] at st'
      rw [st.takes]
      refine ⟨_, _, rfl, rfl, fun _ h => h, ⟨_, ⟨rfl, sorted, ahead, staged, accounted, hvalid, ?_⟩, st'⟩,
        ?_⟩
      · refine .busy valid size ?_ opened
        rw [pieceSize_eq]
        omega
      · have less := pieces_sub_lt (n := s.size - copied) (by rw [pieceSize_eq] at empty; omega)
          pieceSize_eq
        rw [Nat.sub_sub] at less
        simp only [toDo, Option.map_some, Option.getD_some]
        omega

theorem Fits.seen (fits : a.Fits content partSize target w.files indices shown) :
    Sequencer.Seen indices a.waiting := ⟨fits.sorted, fits.ahead, fits.accounted⟩

theorem file_idle (idle : a.appending = none)
    (fits : a.Fits content partSize target w.files indices shown)
    (st : Store.Staging base target shown (a.files content partSize ++ others) w.files) :
    (a.file w = none ∧ ∀ x ∈ a.waiting.held, a.waiting.next < x.1) ∨
      ∃ a', a.file w = some (.ok a', w) ∧
        Filed content partSize target base indices others a a' w w := by
  have turn := fits.seen.pop_cases
  obtain ⟨destination, written, ⟨next, held⟩, appending, progress⟩ := a
  obtain rfl : appending = none := idle
  obtain ⟨rfl, sorted, ahead, staged, accounted, hvalid, appends⟩ := fits
  dsimp only at turn staged appends
  cases appends with
  | idle =>
    unfold Assembly.file
    dsimp only
    rcases turn with ⟨later, -, none⟩ | ⟨s, rest, rfl, popped, seen⟩
    · rw [none]
      exact .inl ⟨rfl, later⟩
    · obtain ⟨index, size⟩ := staged _ List.mem_cons_self
      dsimp only at index size
      have valid : next < Part.count content.size partSize :=
        hvalid next (accounted.mem_iff.2 (List.mem_append_right _ List.mem_cons_self))
      obtain ⟨id, opened⟩ := st.lookup (x := s.file content partSize)
        (List.mem_append_left _ List.mem_cons_self)
      have opened : w.files.entries.lookup s.path = some (.file id) := opened
      right
      simp only [popped, opened]
      refine ⟨_, rfl, rfl, fun _ h => h, ⟨_, ⟨rfl, seen.sorted, seen.ahead,
        fun x hx => staged x (.tail _ hx), seen.accounted, hvalid, ?_⟩, st⟩, ?_⟩
      · have busy : Appends content partSize w.files (s.index + 1) (some (s, id, 0)) _ _ :=
          .busy (by rwa [index]) (by rw [size, index]) (Nat.zero_le _) opened
        rw [index] at busy
        exact busy
      · simp [toDo]

theorem file_cases (hp : 0 < partSize) (fits : a.Fits content partSize target w.files indices shown)
    (st : Store.Staging base target shown (a.files content partSize ++ others) w.files) :
    (a.file w = none ∧ a.appending = none ∧ ∀ x ∈ a.waiting.held, a.waiting.next < x.1) ∨
      ∃ a' w', a.file w = some (.ok a', w') ∧
        Filed content partSize target base indices others a a' w w' := by
  cases appending : a.appending with
  | none =>
    rcases file_idle appending fits st with ⟨none, waits⟩ | ⟨a', file, filed⟩
    · exact .inl ⟨none, rfl, waits⟩
    · exact .inr ⟨a', w, file, filed⟩
  | some x => exact .inr (file_busy hp appending fits st)

theorem Fits.accept (fits : a.Fits content partSize target w.files indices shown) {s : Staged}
    (new : s.index ∉ indices) (valid : s.index < Part.count content.size partSize)
    (size : s.size = (Part.ofIndex content.size partSize s.index).size) :
    (desk.accept s a w).1.Fits content partSize target w.files (s.index :: indices) shown := by
  have perm := Sequencer.insert_perm s.index s a.waiting.held
  obtain ⟨sorted, ahead, accounted⟩ := fits.seen.push new s
  exact
    { destination := fits.destination
      sorted
      ahead
      staged := by
        intro x hx
        rcases List.mem_cons.1 (perm.mem_iff.1 hx) with rfl | hx
        · exact ⟨rfl, size⟩
        · exact fits.staged x hx
      accounted
      valid := by
        intro i hi
        rcases List.mem_cons.1 hi with rfl | hi
        · exact valid
        · exact fits.valid i hi
      appends := fits.appends }

theorem files_accept (content : ByteArray) (partSize : Nat) (a : Assembly) (s : Staged)
    (w : World σ) :
    ((desk.accept s a w).1.files content partSize).Perm
      (s.file content partSize :: a.files content partSize) := by
  have perm := (Sequencer.insert_perm s.index s a.waiting.held).map (·.2)
  have held := perm.append_left (a.appending.map (·.1)).toList
  exact (held.trans List.perm_middle).map _

theorem toDo_accept (a : Assembly) (s : Staged) (w : World σ) :
    (desk.accept s a w).1.toDo = a.toDo + (pieces s.size + 2) := by
  have perm := ((Sequencer.insert_perm s.index s a.waiting.held).map
    fun x : Nat × Staged => pieces x.2.size + 2).sum_nat
  simp only [toDo, desk, Sequencer.push, List.map_cons, List.sum_cons] at perm ⊢
  omega

theorem drop_staged (a : Assembly)
    (st : Store.Staging base target shown (a.files content partSize ++ others) w.files) :
    Store.Staging base target shown others (a.drop w).files ∧
      ∀ {q}, q ∈ others.map (·.1) → (a.drop w).files.entries.lookup q = w.files.entries.lookup q := by
  have each (held : List Staged) (files : Store)
      (st : Store.Staging base target shown (held.map (Staged.file content partSize) ++ others) files) :
      Store.Staging base target shown others
          (held.foldl (fun files part => files.forget part.path) files) ∧
        ∀ {q}, q ∈ others.map (·.1) →
          (held.foldl (fun files part => files.forget part.path) files).entries.lookup q =
            files.entries.lookup q := by
    induction held generalizing files with
    | nil => exact ⟨st, fun _ => rfl⟩
    | cons s held ih =>
      obtain ⟨st', names⟩ := ih _ st.forget.1
      refine ⟨st', fun {q} hq => (names hq).trans ?_⟩
      obtain ⟨x, hx, rfl⟩ := List.mem_map.1 hq
      exact st.forget_names (List.mem_map.2 ⟨x, List.mem_append_right _ hx, rfl⟩)
  exact each a.held w.files st

theorem Fits.complete (hp : 0 < partSize)
    (fits : a.Fits content partSize target w.files indices shown)
    (all : indices.Perm (List.range (Part.count content.size partSize)))
    (idle : a.appending = none) (waits : ∀ x ∈ a.waiting.held, a.waiting.next < x.1) :
    a.held = [] ∧ a.waiting.next = Part.count content.size partSize ∧ shown = content := by
  have gathered := all.symm.trans fits.accounted
  have none : a.waiting.held = [] := by
    cases held : a.waiting.held with
    | nil => rfl
    | cons x rest =>
      have hx : x ∈ a.waiting.held := held ▸ List.mem_cons_self
      have valid : x.1 < Part.count content.size partSize :=
        fits.valid x.1 (fits.accounted.mem_iff.2
          (List.mem_append_right _ (List.mem_map.2 ⟨x, hx, rfl⟩)))
      have later := waits x hx
      -- The part whose turn it is has come, but it is not held back.
      have come := gathered.mem_iff.1 (List.mem_range.2 (Nat.lt_trans later valid))
      rcases List.mem_append.1 come with come | come
      · exact absurd (List.mem_range.1 come) (Nat.lt_irrefl _)
      · obtain ⟨y, hy, same⟩ := List.mem_map.1 come
        exact absurd (waits y hy) (by omega)
  have next : a.waiting.next = Part.count content.size partSize := by
    have length := gathered.length_eq
    simpa [none] using length.symm
  refine ⟨by rw [held, idle, none]; rfl, next, ?_⟩
  have appends := fits.appends
  rw [idle] at appends
  generalize a.written = written at appends
  generalize a.waiting.next = n at appends next
  cases appends with
  | idle => rw [next, Part.boundary_count hp, ByteArray.extract_zero_size]

end Assembly

end ObjectTransfer.Download
