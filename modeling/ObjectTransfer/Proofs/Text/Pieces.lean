import Mathlib.Data.List.TakeWhile
import ObjectTransfer.Text.Pieces
/-!
The pieces of a text. A text that is split at every separator gives the stretches without a separator
that reach from one end or separator to the next; the pairs of a query are such pieces, and the name of a
pair is what stands before its first equals sign. What is stripped of a text stands around what is left.
-/
namespace ObjectTransfer.Text
variable {c : Char} {piece cs rest : List Char}

/-- A stretch of the text without the separator, from one separator or end of the text to the next. -/
def Piece (c : Char) (piece cs : List Char) : Prop :=
  c ∉ piece ∧ ∃ before after, cs = before ++ piece ++ after ∧
    (before = [] ∨ ∃ front, before = front ++ [c]) ∧ (after = [] ∨ ∃ back, after = c :: back)

theorem Piece.behind (h : Piece c piece rest) (first : List Char) :
    Piece c piece (first ++ c :: rest) := by
  obtain ⟨none, before, after, rfl, front, back⟩ := h
  refine ⟨none, first ++ c :: before, after, by simp, .inr ?_, back⟩
  rcases front with rfl | ⟨front, rfl⟩
  · exact ⟨first, rfl⟩
  · exact ⟨first ++ c :: front, by simp⟩

theorem piece_of_mem_splitOn (h : piece ∈ cs.splitOn c) : Piece c piece cs := by
  induction size : cs.length using Nat.strongRecOn generalizing cs with
  | _ n ih =>
    by_cases mem : c ∈ cs
    · obtain ⟨first, rest, rfl, none⟩ := List.eq_append_cons_of_mem mem
      rw [List.splitOn_append_cons_self_of_not_mem none, List.mem_cons] at h
      rcases h with rfl | h
      · exact ⟨none, [], c :: rest, by simp, .inl rfl, .inr ⟨rest, rfl⟩⟩
      · have shorter : rest.length < n := by
          rw [← size, List.length_append, List.length_cons]
          omega
        exact (ih _ shorter h rfl).behind first
    · rw [List.splitOn_eq_singleton mem, List.mem_singleton] at h
      subst h
      exact ⟨mem, [], [], by simp, .inl rfl, .inl rfl⟩

theorem Piece.mem_splitOn (h : Piece c piece cs) : piece ∈ cs.splitOn c := by
  obtain ⟨none, before, after, rfl, front, back⟩ := h
  have alone : piece.splitOn c = [piece] := List.splitOn_eq_singleton none
  -- nothing stands between the piece and what comes before it but the separator
  have last : piece ∈ (before ++ piece).splitOn c := by
    rcases front with rfl | ⟨front, rfl⟩
    · rw [List.nil_append, alone]
      exact List.mem_singleton_self _
    · rw [List.append_assoc, List.singleton_append, List.splitOn_append_cons_self, alone]
      exact List.mem_append_right _ (List.mem_singleton_self _)
  rcases back with rfl | ⟨back, rfl⟩
  · rwa [List.append_nil]
  · rw [List.splitOn_append_cons_self]
    exact List.mem_append_left _ last

theorem mem_splitOn_iff : piece ∈ cs.splitOn c ↔ Piece c piece cs :=
  ⟨piece_of_mem_splitOn, Piece.mem_splitOn⟩

/-- A pair has a name when it is the name, alone or with an equals sign and a value behind it. -/
def Named (name pair : List Char) : Prop := pair = name ∨ ∃ value, pair = name ++ '=' :: value

theorem takeWhile_eq_iff {name pair : List Char} (none : '=' ∉ name) :
    pair.takeWhile (· != '=') = name ↔ Named name pair := by
  have kept : ∀ d ∈ name, (d != '=') = true := by
    intro d mem
    rw [bne_iff_ne]
    rintro rfl
    exact none mem
  constructor
  · rintro rfl
    have whole := List.takeWhile_append_dropWhile (p := (· != '=')) (l := pair)
    have stop := List.head?_dropWhile_not (· != '=') pair
    cases rest : pair.dropWhile (· != '=') with
    | nil =>
      rw [rest, List.append_nil] at whole
      exact .inl whole.symm
    | cons d value =>
      rw [rest] at whole stop
      obtain rfl : d = '=' := by simpa using stop
      exact .inr ⟨value, whole.symm⟩
  · rintro (rfl | ⟨value, rfl⟩)
    · exact List.takeWhile_eq_self_iff.2 kept
    · rw [List.takeWhile_append_of_pos kept]
      simp

/-- What is dropped in front and at the end has the property, whatever is left. -/
theorem stripBy_spec (p : Char → Bool) (cs : List Char) :
    ∃ before after, (∀ d ∈ before, p d) ∧ (∀ d ∈ after, p d) ∧ cs = before ++ stripBy p cs ++ after := by
  have front := List.takeWhile_append_dropWhile (p := p) (l := cs)
  have back := congrArg List.reverse
    (List.takeWhile_append_dropWhile (p := p) (l := (cs.dropWhile p).reverse))
  rw [List.reverse_append, List.reverse_reverse] at back
  refine ⟨cs.takeWhile p, ((cs.dropWhile p).reverse.takeWhile p).reverse,
    fun d mem => List.mem_takeWhile_imp mem,
    fun d mem => List.mem_takeWhile_imp (List.mem_reverse.1 mem), ?_⟩
  rw [List.append_assoc, stripBy, back, front]

theorem stripBy_eq {p : Char → Bool} {before core after : List Char} (hbefore : ∀ d ∈ before, p d)
    (hafter : ∀ d ∈ after, p d) (hcore : ∀ d ∈ core, p d = false) :
    stripBy p (before ++ core ++ after) = core := by
  have stops {ds : List Char} (none : ∀ d ∈ ds, p d = false) (some : ds ≠ []) (es : List Char) :
      (ds ++ es).dropWhile p = ds ++ es := by
    cases ds with
    | nil => contradiction
    | cons d ds => rw [List.cons_append, List.dropWhile_cons, if_neg (by simp [none d (by simp)])]
  rw [stripBy, List.append_assoc, List.dropWhile_append_of_pos hbefore]
  by_cases empty : core = []
  · rw [empty, List.nil_append, List.dropWhile_eq_nil_iff.2 hafter]
    rfl
  · have hreverse : ∀ d ∈ core.reverse, p d = false := fun d mem => hcore d (List.mem_reverse.1 mem)
    have kept := stops hreverse (by simpa using empty) []
    rw [List.append_nil] at kept
    rw [stops hcore empty, List.reverse_append,
      List.dropWhile_append_of_pos fun d mem => hafter d (List.mem_reverse.1 mem), kept,
      List.reverse_reverse]

end ObjectTransfer.Text
