import Mathlib.Data.List.Nodup
import Mathlib.Data.List.Perm.Subperm
import ObjectTransfer.Proofs.Files.Content
import ObjectTransfer.Proofs.Files.Store
import ObjectTransfer.Proofs.Text
/-!
Staging. While a file is written, others are made under new names, filled, read and deleted again. The
rest of the tree does not notice, and when all of them are deleted every name leads to what it led to
before.
-/
namespace ObjectTransfer.Keyed
variable {α β : Type} [BEq α] [LawfulBEq α]

theorem lookup_change (k : α) (f : β → β) (l : List (α × β)) :
    (change k f l).lookup k = (l.lookup k).map f := by
  induction l with
  | nil => rfl
  | cons p rest ih =>
    obtain ⟨j, u⟩ := p
    by_cases hj : j = k
    · subst hj
      simp [change]
    · have hk : (k == j) = false := by simpa using Ne.symm hj
      simpa [change, hj, List.lookup_cons, hk] using ih

theorem lookup_change_self {k : α} {v : β} (f : β → β) {l : List (α × β)} (h : l.lookup k = some v) :
    (change k f l).lookup k = some (f v) := by
  rw [lookup_change, h]
  rfl

theorem lookup_change_of_ne {j k : α} (h : j ≠ k) (f : β → β) (l : List (α × β)) :
    (change k f l).lookup j = l.lookup j := by
  induction l with
  | nil => rfl
  | cons p rest ih =>
    obtain ⟨i, u⟩ := p
    by_cases hi : i = k
    · subst hi
      have hj : (j == i) = false := by simpa using h
      simp [change, List.lookup_cons, hj]
    · simp [change, hi, List.lookup_cons, ih]

end ObjectTransfer.Keyed

namespace ObjectTransfer.Files

theorem Content.append_ofBytes (b piece : ByteArray) :
    (Content.ofBytes b).append piece = .ofBytes (b ++ piece) := by
  by_cases empty : piece.isEmpty
  · have hp : piece = ByteArray.empty := by
      have hsize : piece.size = 0 := by simpa [ByteArray.isEmpty] using empty
      exact ByteArray.size_eq_zero_iff.1 hsize
    rw [hp, ByteArray.append_empty]
    rfl
  · simp [append, empty, ofBytes, bytes, pushZeros, refusal?]

theorem Content.writeAt_end (b piece : ByteArray) :
    (Content.ofBytes b).writeAt b.size piece = .ofBytes (b ++ piece) := by
  rw [← append_ofBytes]
  by_cases empty : piece.isEmpty
  · simp [writeAt, append, empty]
  · simp [writeAt, empty, ofBytes, size, refusal?]

namespace Store

/-- The name that was chosen is free, or all that were tried are not. -/
theorem unusedName_or (s : Store) (directory : Path) (stem : String) (fuel n : Nat) :
    s.entries.lookup (s.unusedName directory stem fuel n) = none ∨
      ∀ j, j ≤ fuel → (s.entries.lookup (directory ++ [stem ++ toString (n + j)])).isSome := by
  induction fuel generalizing n with
  | zero =>
    cases free : s.entries.lookup (directory ++ [stem ++ toString n]) with
    | none => exact .inl free
    | some e =>
      refine .inr fun j hj => ?_
      obtain rfl : j = 0 := by omega
      rw [Nat.add_zero, free]
      rfl
  | succ fuel ih =>
    unfold unusedName
    cases free : s.entries.lookup (directory ++ [stem ++ toString n]) with
    | none =>
      left
      rw [if_pos (by rw [free]; rfl)]
      exact free
    | some e =>
      rw [if_neg (by rw [free]; simp)]
      refine (ih (n + 1)).imp_right fun taken j hj => ?_
      cases j with
      | zero =>
        rw [Nat.add_zero, free]
        rfl
      | succ j =>
        have h := taken j (by omega)
        rwa [Nat.add_assoc, Nat.add_comm 1 j] at h

theorem mem_of_lookup {p : Path} {l : List (Path × Entry)} (h : (l.lookup p).isSome) :
    p ∈ l.map (·.1) := by
  induction l with
  | nil => cases h
  | cons e l ih =>
    by_cases hp : p = e.1
    · exact hp ▸ List.mem_cons_self
    · have hbeq : (p == e.1) = false := by simpa using hp
      rw [List.lookup_cons, hbeq] at h
      exact List.mem_cons_of_mem _ (ih h)

theorem numbered_injective {directory : Path} {stem : String} {i j : Nat}
    (h : directory ++ [stem ++ toString i] = directory ++ [stem ++ toString j]) : i = j := by
  have texts := congrArg String.toList (List.singleton_inj.1 (List.append_cancel_left h))
  rw [String.toList_append, String.toList_append] at texts
  have digits := congrArg (Nat.ofDigitChars 10 · 0) (List.append_cancel_left texts)
  rwa [Text.ofDigitChars_toString, Text.ofDigitChars_toString] at digits

theorem lookup_unusedName (s : Store) (directory : Path) (stem : String) (n : Nat) :
    s.entries.lookup (s.unusedName directory stem s.entries.length n) = none := by
  rcases s.unusedName_or directory stem s.entries.length n with free | taken
  · exact free
  · have inj (i j : Nat) (h : directory ++ [stem ++ toString (n + i)] =
        directory ++ [stem ++ toString (n + j)]) : i = j :=
      Nat.add_left_cancel (numbered_injective h)
    have distinct : ((List.range (s.entries.length + 1)).map fun j =>
        directory ++ [stem ++ toString (n + j)]).Nodup :=
      (List.nodup_range).map inj
    have sub : ((List.range (s.entries.length + 1)).map fun j =>
        directory ++ [stem ++ toString (n + j)]) ⊆ s.entries.map (·.1) := by
      intro p hp
      obtain ⟨j, hj, rfl⟩ := List.mem_map.1 hp
      exact mem_of_lookup (taken j (Nat.le_of_lt_succ (List.mem_range.1 hj)))
    have short := (List.subperm_of_subset distinct sub).length_le
    simp only [List.length_map, List.length_range] at short
    omega

theorem unusedName_eq (s : Store) (directory : Path) (stem : String) (fuel n : Nat) :
    ∃ k, k ≤ n + fuel ∧ s.unusedName directory stem fuel n = directory ++ [stem ++ toString k] := by
  induction fuel generalizing n with
  | zero => exact ⟨n, Nat.le_refl n, rfl⟩
  | succ fuel ih =>
    unfold unusedName
    cases free : (s.entries.lookup (directory ++ [stem ++ toString n])).isNone with
    | true => exact ⟨n, Nat.le_add_right n _, if_pos free⟩
    | false =>
      obtain ⟨k, le, same⟩ := ih (n + 1)
      exact ⟨k, by omega, (if_neg (by rw [free]; decide)).trans same⟩

/-- A stem that leaves room for a word makes names that are not too long. -/
theorem addTemporary_short (s : Store) (directory : Path) {stem : String}
    (room : stem.utf8ByteSize + 20 ≤ maxName)
    (few : s.fresh + s.entries.length < Text.Unsigned.limit) :
    ∃ name, (s.addTemporary directory stem).1 = directory ++ [name] ∧ name.utf8ByteSize ≤ maxName := by
  obtain ⟨k, le, same⟩ := s.unusedName_eq directory stem s.entries.length s.fresh
  have word := Text.size_toString_le (Nat.lt_of_le_of_lt le few)
  refine ⟨stem ++ toString k, same, ?_⟩
  rw [String.utf8ByteSize_append]
  omega

theorem lookup_add_self (s : Store) {p : Path} (free : s.entries.lookup p = none) :
    (s.add p).2.entries.lookup p = some (.file s.fresh) := by
  simp [add, List.lookup_append, free]

theorem lookup_add_of_ne (s : Store) {p q : Path} (h : q ≠ p) :
    (s.add p).2.entries.lookup q = s.entries.lookup q := by
  have hqp : (q == p) = false := by simpa using h
  simp [add, List.lookup_append, List.lookup_cons, hqp]

theorem lookup_add_of_some (s : Store) {p q : Path} {e : Entry} (free : s.entries.lookup p = none)
    (h : s.entries.lookup q = some e) : (s.add p).2.entries.lookup q = some e := by
  have hne : q ≠ p := by
    rintro rfl
    rw [free] at h
    cases h
  exact (s.lookup_add_of_ne hne).trans h

theorem contents_add_of_lt (s : Store) (p : Path) {id : Nat} (h : id < s.fresh) :
    (s.add p).2.contents.lookup id = s.contents.lookup id := by
  have hne : (id == s.fresh) = false := by simpa using Nat.ne_of_lt h
  simp [Store.add, List.lookup_cons, hne]

/-- The tree after one of its files was written and others were added, which are listed with what is
in them. -/
structure Staging (base : Store) (target : Nat) (content : ByteArray)
    (staged : List (Path × ByteArray)) (s : Store) : Prop where
  kept : ∀ {q e}, base.entries.lookup q = some e → s.entries.lookup q = some e
  only : ∀ {q}, base.entries.lookup q = none → q ∉ staged.map (·.1) → s.entries.lookup q = none
  distinct : (staged.map (·.1)).Nodup
  files : ∀ x ∈ staged, base.entries.lookup x.1 = none ∧ ∃ id,
    s.entries.lookup x.1 = some (.file id) ∧ base.fresh ≤ id ∧ id < s.fresh ∧
      s.contents.lookup id = some (.ofBytes x.2)
  apart : ∀ {p q id}, base.entries.lookup p = none → base.entries.lookup q = none →
    s.entries.lookup p = some (.file id) → s.entries.lookup q = some (.file id) → p = q
  target_lt : target < base.fresh
  grown : base.fresh ≤ s.fresh
  content : s.contents.lookup target = some (.ofBytes content)

namespace Staging
variable {base s : Store} {target : Nat} {content b : ByteArray} {staged : List (Path × ByteArray)}
  {p : Path} {id : Nat}

theorem start (target_lt : target < base.fresh)
    (content : base.contents.lookup target = some (.ofBytes b)) :
    Staging base target b [] base where
  kept h := h
  only h _ := h
  distinct := List.nodup_nil
  files x h := (by cases h)
  apart hp _ h _ := by
    rw [hp] at h
    cases h
  target_lt := target_lt
  grown := Nat.le_refl _
  content := content

theorem perm {staged' : List (Path × ByteArray)} (st : Staging base target content staged s)
    (h : staged.Perm staged') : Staging base target content staged' s :=
  { st with
    only := fun free there => st.only free fun h' => there ((h.map _).mem_iff.1 h')
    distinct := (h.map _).nodup_iff.1 st.distinct
    files := fun x hx => st.files x (h.mem_iff.2 hx) }

theorem lookup (st : Staging base target content staged s) {x : Path × ByteArray}
    (hx : x ∈ staged) : ∃ id, s.entries.lookup x.1 = some (.file id) := by
  obtain ⟨-, id, hid, -⟩ := st.files x hx
  exact ⟨id, hid⟩

theorem below (st : Staging base target content staged s) (free : base.entries.lookup p = none)
    (h : s.entries.lookup p = some (.file id)) : id < s.fresh := by
  have listed : p ∈ staged.map (·.1) := by
    by_contra unlisted
    rw [st.only free unlisted] at h
    cases h
  obtain ⟨x, hx, rfl⟩ := List.mem_map.1 listed
  obtain ⟨-, id', hid', -, high, -⟩ := st.files x hx
  rw [h] at hid'
  cases hid'
  exact high

theorem content_eq (st : Staging base target content staged s) (hx : (p, b) ∈ staged)
    (hid : s.entries.lookup p = some (.file id)) : s.content id = .ofBytes b := by
  obtain ⟨-, id', hid', -, -, hb⟩ := st.files _ hx
  rw [hid] at hid'
  cases hid'
  rw [Store.content, hb]
  rfl

theorem add (st : Staging base target content staged s) (free : s.entries.lookup p = none) :
    Staging base target content ((p, .empty) :: staged) (s.add p).2 := by
  have new : base.entries.lookup p = none := by
    cases hb : base.entries.lookup p with
    | none => rfl
    | some e => rw [st.kept hb] at free; cases free
  have later {q : Path} {e : Entry} (h : s.entries.lookup q = some e) :
      (s.add p).2.entries.lookup q = some e := s.lookup_add_of_some free h
  have unlisted : p ∉ staged.map (·.1) := by
    intro h
    obtain ⟨x, hx, hxp⟩ := List.mem_map.1 h
    obtain ⟨id, hid⟩ := st.lookup hx
    rw [hxp, free] at hid
    cases hid
  exact
    { kept := fun h => later (st.kept h)
      only := fun {q} hb h => by
        rw [List.map_cons, List.mem_cons, not_or] at h
        rw [s.lookup_add_of_ne h.1]
        exact st.only hb h.2
      distinct := List.nodup_cons.2 ⟨unlisted, st.distinct⟩
      files := by
        intro x hx
        rcases List.mem_cons.1 hx with rfl | hx
        · exact ⟨new, s.fresh, s.lookup_add_self free, st.grown, Nat.lt_succ_self _,
            List.lookup_cons_self⟩
        · obtain ⟨hb, id, hid, low, high, hdata⟩ := st.files x hx
          exact ⟨hb, id, later hid, low, Nat.lt_succ_of_lt high,
            (s.contents_add_of_lt p high).trans hdata⟩
      apart := by
        -- the new number is above those of all other new files
        intro q r id hq hr hqid hrid
        by_cases hqp : q = p
        · by_cases hrp : r = p
          · rw [hqp, hrp]
          · rw [hqp, s.lookup_add_self free] at hqid
            cases hqid
            rw [s.lookup_add_of_ne hrp] at hrid
            exact absurd (st.below hr hrid) (Nat.lt_irrefl _)
        · by_cases hrp : r = p
          · rw [hrp, s.lookup_add_self free] at hrid
            cases hrid
            rw [s.lookup_add_of_ne hqp] at hqid
            exact absurd (st.below hq hqid) (Nat.lt_irrefl _)
          · rw [s.lookup_add_of_ne hqp] at hqid
            rw [s.lookup_add_of_ne hrp] at hrid
            exact st.apart hq hr hqid hrid
      target_lt := st.target_lt
      grown := Nat.le_succ_of_le st.grown
      content :=
        (s.contents_add_of_lt p (Nat.lt_of_lt_of_le st.target_lt st.grown)).trans st.content }

/-- Nothing but the new file is added, under a name that nothing had. -/
theorem addTemporary (st : Staging base target content staged s) (directory : Path) (stem : String) :
    Staging base target content (((s.addTemporary directory stem).1, .empty) :: staged)
        (s.addTemporary directory stem).2.2 ∧
      (s.addTemporary directory stem).2.2.entries.lookup (s.addTemporary directory stem).1 =
        some (.file (s.addTemporary directory stem).2.1) ∧
      ∀ {q e}, s.entries.lookup q = some e →
        (s.addTemporary directory stem).2.2.entries.lookup q = some e := by
  have free := s.lookup_unusedName directory stem s.fresh
  exact ⟨st.add free, s.lookup_add_self free, s.lookup_add_of_some free⟩

theorem append (st : Staging base target content ((p, b) :: staged) s)
    (hid : s.entries.lookup p = some (.file id)) (data : ByteArray) :
    Staging base target content ((p, b ++ data) :: staged) (s.append id data) := by
  obtain ⟨free, id', hid', low, high, hdata⟩ := st.files _ List.mem_cons_self
  rw [hid] at hid'
  cases hid'
  have other {x : Path × ByteArray} (hx : x ∈ staged) {j : Nat}
      (hj : s.entries.lookup x.1 = some (.file j)) : j ≠ id := by
    rintro rfl
    have same := st.apart free (st.files x (List.mem_cons_of_mem _ hx)).1 hid hj
    exact (List.nodup_cons.1 st.distinct).1 (List.mem_map.2 ⟨x, hx, same.symm⟩)
  exact
    { kept := st.kept
      only := st.only
      distinct := st.distinct
      files := by
        intro x hx
        rcases List.mem_cons.1 hx with rfl | hx
        · exact ⟨free, id, hid, low, high,
            (Keyed.lookup_change_self _ hdata).trans (congrArg some (Content.append_ofBytes b data))⟩
        · obtain ⟨hb, j, hj, low, high, hdata⟩ := st.files x (List.mem_cons_of_mem _ hx)
          exact ⟨hb, j, hj, low, high, (Keyed.lookup_change_of_ne (other hx hj) _ _).trans hdata⟩
      apart := st.apart
      target_lt := st.target_lt
      grown := st.grown
      content := by
        have hne : target ≠ id := by have := st.target_lt; omega
        exact (Keyed.lookup_change_of_ne hne _ _).trans st.content }

theorem writeAt (st : Staging base target content staged s) (piece : ByteArray) :
    Staging base target (content ++ piece) staged (s.writeAt target content.size piece) where
  kept := st.kept
  only := st.only
  distinct := st.distinct
  files := by
    intro x hx
    obtain ⟨hb, id, hid, low, high, hdata⟩ := st.files x hx
    have hne : id ≠ target := by have := st.target_lt; omega
    exact ⟨hb, id, hid, low, high, (Keyed.lookup_change_of_ne hne _ _).trans hdata⟩
  apart := st.apart
  target_lt := st.target_lt
  grown := st.grown
  content := (Keyed.lookup_change_self _ st.content).trans
    (congrArg some (Content.writeAt_end content piece))

theorem forget (st : Staging base target content ((p, b) :: staged) s) :
    Staging base target content staged (s.forget p) ∧
      ∀ {q}, q ≠ p → (s.forget p).entries.lookup q = s.entries.lookup q := by
  obtain ⟨free, id, hid, low, high, hdata⟩ := st.files _ List.mem_cons_self
  have hs : s.forget p = ⟨s.entries.filter fun e => e.1 != p,
      s.contents.filter fun c => c.1 != id, s.fresh⟩ := by
    rw [Store.forget, hid]
  rw [hs]
  have elsewhere {q : Path} (hq : q ≠ p) :
      (s.entries.filter fun e => e.1 != p).lookup q = s.entries.lookup q := lookup_filter_of_ne hq _
  have unlisted := (List.nodup_cons.1 st.distinct).1
  refine ⟨?_, elsewhere⟩
  exact
    { kept := by
        intro q e hq
        have hne : q ≠ p := by
          rintro rfl
          rw [free] at hq
          cases hq
        rw [elsewhere hne]
        exact st.kept hq
      only := by
        intro q hq hnot
        by_cases hne : q = p
        · rw [hne]
          exact lookup_filter_self _ _
        · rw [elsewhere hne]
          exact st.only hq fun h => (List.mem_cons.1 h).elim hne hnot
      distinct := (List.nodup_cons.1 st.distinct).2
      files := by
        intro x hx
        have hne : x.1 ≠ p := fun h => unlisted (List.mem_map.2 ⟨x, hx, h⟩)
        obtain ⟨hb, j, hj, low, high, hdata⟩ := st.files x (List.mem_cons_of_mem _ hx)
        have hji : j ≠ id := by
          rintro rfl
          exact hne (st.apart hb free hj hid)
        exact ⟨hb, j, (elsewhere hne).trans hj, low, high, (lookup_filter_of_ne hji _).trans hdata⟩
      apart := by
        intro q r j hq hr hqj hrj
        have hqp : q ≠ p := by
          rintro rfl
          rw [lookup_filter_self] at hqj
          cases hqj
        have hrp : r ≠ p := by
          rintro rfl
          rw [lookup_filter_self] at hrj
          cases hrj
        rw [elsewhere hqp] at hqj
        rw [elsewhere hrp] at hrj
        exact st.apart hq hr hqj hrj
      target_lt := st.target_lt
      grown := st.grown
      content := by
        have hne : target ≠ id := by have := st.target_lt; omega
        exact (lookup_filter_of_ne hne _).trans st.content }

theorem forget_names (st : Staging base target content ((p, b) :: staged) s) {q : Path}
    (hq : q ∈ staged.map (·.1)) : (s.forget p).entries.lookup q = s.entries.lookup q := by
  have apart : q ≠ p := by
    rintro rfl
    exact (List.nodup_cons.1 st.distinct).1 hq
  exact st.forget.2 apart

/-- When no staging file is left, every name leads to what it led to before. -/
theorem lookup_eq (st : Staging base target content [] s) (q : Path) :
    s.entries.lookup q = base.entries.lookup q := by
  cases h : base.entries.lookup q with
  | none => exact st.only h (by simp)
  | some e => exact st.kept h

theorem content_target (st : Staging base target content staged s) :
    s.content target = .ofBytes content := by
  rw [Store.content, st.content]
  rfl

theorem takes (st : Staging base target content staged s) : s.refusal? target = none := by
  rw [refusal?, st.content_target]
  rfl

theorem holds (st : Staging base target content staged s) {path name : String} {directory : Path}
    (plain : namesDirectory path = false) (located : base.locate path = .ok ⟨directory, some name⟩)
    (short : name.utf8ByteSize ≤ maxName)
    (there : base.entries.lookup (directory ++ [name]) = some (.file target)) :
    s.Holds path (some content) :=
  ⟨plain, directory, name, locate_kept (fun _ h => st.kept h) located, short, target, st.kept there,
    st.takes, congrArg Content.bytes st.content_target⟩

end Staging

end Store

end ObjectTransfer.Files
