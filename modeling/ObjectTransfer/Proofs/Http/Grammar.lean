import ObjectTransfer.Proofs.Http.Range
import ObjectTransfer.Proofs.Text.Numeral
/-!
What the range headers look like. A text is read as a range exactly when it consists of the unit, a dash
and what the range says on either side of it, with blanks around the whole and around each side; any other
text has one of a few flaws. What was read is written to a text from which it is read again.
-/
namespace ObjectTransfer.Http
open Text Text.Unsigned

theorem parseOffset_eq_ok_iff {header : OffsetHeader} {cs : List Char} {n : Nat} :
    parseOffset header cs = .ok n ↔ Numeral (strip cs) n ∧ n < limit := by
  rw [← parse_eq_ok_iff, parseOffset]
  cases parse (strip cs) with
  | ok m => simp
  | error fault => simp

namespace ByteRange
variable {s : String} {left right cs : List Char} {x y : Option Nat} {a b n : Nat} {r : ByteRange}

/-- The offsets that stand before and behind the dash. -/
def sides : ByteRange → Option Nat × Option Nat
  | .inclusive start stop => (some start, some stop)
  | .allFrom start => (some start, none)
  | .last count => (none, some count)

/-- The last offset is not below the first. -/
def Ordered : ByteRange → Prop
  | .inclusive start stop => start ≤ stop
  | .allFrom _ | .last _ => True

/-- The offsets are below the limit and in order. -/
structure Sound (r : ByteRange) : Prop where
  left : ∀ n, r.sides.1 = some n → n < limit
  right : ∀ n, r.sides.2 = some n → n < limit
  ordered : r.Ordered

theorem sound_inclusive {start stop : Nat} (ordered : start ≤ stop) (small : stop < limit) :
    (inclusive start stop).Sound where
  left n same := by
    cases same
    omega
  right n same := by
    cases same
    exact small
  ordered := ordered

theorem sound_allFrom {start : Nat} (small : start < limit) : (allFrom start).Sound where
  left n same := by
    cases same
    exact small
  right n same := by cases same
  ordered := trivial

theorem sound_last {count : Nat} (small : count < limit) : (last count).Sound where
  left n same := by cases same
  right n same := by
    cases same
    exact small
  ordered := trivial

def written (offset : Option Nat) : List Char := (offset.map fun n => (toString n).toList).getD []

/-- The header of a range, with blanks around it and around its offsets. -/
def Spaced (r : ByteRange) (s : String) : Prop :=
  ∃ left right, Padded (written r.sides.1) left ∧ Padded (written r.sides.2) right ∧
    Padded ("bytes=".toList ++ (left ++ '-' :: right)) s.toList

theorem toList_header (r : ByteRange) :
    r.header.toList = "bytes=".toList ++ (written r.sides.1 ++ '-' :: written r.sides.2) := by
  cases r <;> simp [header, text, sides, written]

theorem spaced_header (r : ByteRange) : r.Spaced r.header :=
  ⟨_, _, .refl _, .refl _, r.toList_header ▸ .refl _⟩

/-- What stands on one side of the dash: blanks and nothing else, or between blanks a numeral below the
limit. -/
inductive Side (cs : List Char) : Option Nat → Prop
  | blank (blank : Blanks cs) : Side cs none
  | offset {n : Nat} (numeral : Numeral (strip cs) n) (small : n < limit) : Side cs (some n)

/-- What the range says stands in the text, with blanks around it and around its sides. -/
def Stands (r : ByteRange) (s : String) : Prop :=
  ∃ left right, strip s.toList = "bytes=".toList ++ (left ++ '-' :: right) ∧
    Side left r.sides.1 ∧ Side right r.sides.2

theorem Side.not_mem (side : Side cs x) {c : Char} (solid : isBlank c = false) (sign : c ≠ '+')
    (digit : c.isDigit = false) : c ∉ cs := by
  intro mem
  cases side with
  | blank blank =>
    rw [blank c mem] at solid
    cases solid
  | offset numeral small =>
    rcases (padded_strip cs).mem mem with blank | mem
    · rw [blank] at solid
      cases solid
    · rcases numeral.mem.2 c mem with plus | isDigit
      · exact sign plus
      · rw [isDigit] at digit
        cases digit

theorem Side.padded (padded : Padded (written x) cs) (small : ∀ n, x = some n → n < limit) :
    Side cs x := by
  have same := padded.strip_eq
  cases x with
  | none => exact .blank (strip_eq_nil_iff.1 same)
  | some n =>
    have same : strip cs = strip (toString n).toList := same
    rw [strip_toString] at same
    exact .offset (same ▸ numeral_toString n) (small n rfl)

theorem Side.trimRight (side : Side cs x) : Side (trimRight cs) x := by
  cases side with
  | blank blank => exact .blank (strip_eq_nil_iff.1 ((strip_trimRight cs).trans (strip_eq_nil_iff.2 blank)))
  | offset numeral small => exact .offset (by rwa [strip_trimRight]) small

/-- How the two sides of the dash are read. -/
def between (s : String) : List Char → List Char → Except Error ByteRange
  | [], [] => .error (.invalid (.malformedRange s))
  | [], count => (parseOffset .range count).map .last
  | start, [] => (parseOffset .range start).map .allFrom
  | start, stop => do
    let first ← parseOffset .range start
    let last ← parseOffset .range stop
    if last < first then .error (.invalid (.invertedRange s)) else .ok (.inclusive first last)

theorem parse_eq_between (text : strip s.toList = "bytes=".toList ++ (left ++ '-' :: right))
    (hleft : Side left x) (hright : Side right y) :
    parse s = between s (strip left) (strip right) := by
  have dash : '-' ∉ left := hleft.not_mem (by decide) (by decide) (by decide)
  have comma : (left ++ '-' :: right).contains ',' = false := by
    rw [List.contains_eq_mem, decide_eq_false_iff_not]
    simp only [List.mem_append, List.mem_cons, not_or]
    exact ⟨hleft.not_mem (by decide) (by decide) (by decide), by decide,
      hright.not_mem (by decide) (by decide) (by decide)⟩
  rw [parse, text, after?_append]
  simp only [comma, Bool.false_eq_true, if_false, splitOnce_append dash]
  rfl

theorem Side.parseOffset (side : Side cs (some n)) :
    strip cs ≠ [] ∧ parseOffset .range (strip cs) = .ok n := by
  cases side with
  | offset numeral small =>
    exact ⟨numeral.mem.1, parseOffset_eq_ok_iff.2 ⟨by rwa [strip_strip], small⟩⟩

theorem Stands.parse_inclusive (stands : (inclusive a b).Stands s) :
    parse s =
      if b < a then .error (.invalid (.invertedRange s)) else .ok (.inclusive a b) := by
  obtain ⟨left, right, text, hleft, hright⟩ := stands
  obtain ⟨someLeft, first⟩ := Side.parseOffset hleft
  obtain ⟨someRight, last⟩ := Side.parseOffset hright
  rw [parse_eq_between text hleft hright]
  obtain ⟨c, left', same⟩ := List.exists_cons_of_ne_nil someLeft
  obtain ⟨d, right', same'⟩ := List.exists_cons_of_ne_nil someRight
  rw [same] at first ⊢
  rw [same'] at last ⊢
  simp only [between, first, last, bind, Except.bind]

theorem Stands.parse_eq (stands : r.Stands s) (ordered : r.Ordered) : parse s = .ok r := by
  cases r with
  | inclusive start stop => rw [stands.parse_inclusive, if_neg (Nat.not_lt.2 ordered)]
  | allFrom start =>
    obtain ⟨left, right, text, hleft, hright⟩ := stands
    obtain ⟨some, first⟩ := Side.parseOffset hleft
    obtain ⟨c, left', same⟩ := List.exists_cons_of_ne_nil some
    cases hright with
    | blank blank =>
      rw [parse_eq_between text hleft (.blank blank), strip_nil_of_blanks blank]
      rw [same] at first ⊢
      simp only [between, first, Except.map]
  | last count =>
    obtain ⟨left, right, text, hleft, hright⟩ := stands
    obtain ⟨some, last⟩ := Side.parseOffset hright
    obtain ⟨c, right', same⟩ := List.exists_cons_of_ne_nil some
    cases hleft with
    | blank blank =>
      rw [parse_eq_between text (.blank blank) hright, strip_nil_of_blanks blank]
      rw [same] at last ⊢
      simp only [between, last, Except.map]

theorem side_of_parseOffset (read : parseOffset .range (strip cs) = .ok n) : Side cs (some n) := by
  obtain ⟨numeral, small⟩ := parseOffset_eq_ok_iff.1 read
  rw [strip_strip] at numeral
  exact .offset numeral small

theorem of_map_eq_ok {ε α β : Type} {e : Except ε α} {f : α → β} {y : β} (h : e.map f = .ok y) :
    ∃ x, e = .ok x ∧ y = f x := by
  cases e with
  | error fault => cases h
  | ok x => exact ⟨x, rfl, (Except.ok.inj h).symm⟩

theorem stands_of_parse (read : parse s = .ok r) : r.Stands s ∧ r.Ordered := by
  unfold parse at read
  split at read
  · cases read
  rename_i spec unit
  have text := after?_eq_some_iff.1 unit
  split at read
  · cases read
  split at read
  · cases read
  rename_i left right dashed
  obtain ⟨rfl, -⟩ := splitOnce_eq_some dashed
  split at read
  · cases read
  · rename_i blank some
    obtain ⟨count, last, rfl⟩ := of_map_eq_ok read
    exact ⟨⟨left, right, text, .blank (strip_eq_nil_iff.1 blank), side_of_parseOffset last⟩, trivial⟩
  · rename_i blank some
    obtain ⟨start, first, rfl⟩ := of_map_eq_ok read
    exact ⟨⟨left, right, text, side_of_parseOffset first, .blank (strip_eq_nil_iff.1 blank)⟩, trivial⟩
  · cases first : parseOffset .range (strip left) with
    | error fault => simp [first, bind, Except.bind] at read
    | ok start =>
      cases last : parseOffset .range (strip right) with
      | error fault => simp [first, last, bind, Except.bind] at read
      | ok stop =>
        simp only [first, last, bind, Except.bind] at read
        split at read
        · cases read
        · rename_i ordered
          cases read
          exact ⟨⟨left, right, text, side_of_parseOffset first, side_of_parseOffset last⟩,
            Nat.not_lt.1 ordered⟩

/-- A text is read as a range exactly when the range stands in it with its offsets in order. -/
theorem parse_eq_ok_iff : parse s = .ok r ↔ r.Stands s ∧ r.Ordered :=
  ⟨stands_of_parse, fun h => h.1.parse_eq h.2⟩

theorem Side.small (side : Side cs x) : ∀ n, x = some n → n < limit := by
  rintro n rfl
  cases side with
  | offset numeral small => exact small

theorem Stands.sound (stands : r.Stands s) (ordered : r.Ordered) : r.Sound := by
  obtain ⟨left, right, -, hleft, hright⟩ := stands
  exact ⟨hleft.small, hright.small, ordered⟩

theorem sound_of_parse (read : parse s = .ok r) : r.Sound :=
  (stands_of_parse read).1.sound (stands_of_parse read).2

/-- However many blanks stand around a written range and its offsets, what it says is found. -/
theorem Spaced.stands (spaced : r.Spaced s) (hleft : ∀ n, r.sides.1 = some n → n < limit)
    (hright : ∀ n, r.sides.2 = some n → n < limit) : r.Stands s := by
  obtain ⟨left, right, padLeft, padRight, padded⟩ := spaced
  refine ⟨left, Text.trimRight right, ?_, .padded padLeft hleft, (Side.padded padRight hright).trimRight⟩
  rw [padded.strip_eq]
  exact strip_cons_append_cons (by decide : isBlank 'b' = false) (by decide : isBlank '-' = false)
    ("ytes=".toList ++ left) right

/-- The text less the blanks around it is the unit and the two sides of its first dash. -/
structure Dashed (s : String) (left right : List Char) : Prop where
  text : strip s.toList = "bytes=".toList ++ (left ++ '-' :: right)
  first : '-' ∉ left

theorem Dashed.unique {left' right' : List Char} (h : Dashed s left right)
    (h' : Dashed s left' right') : left = left' ∧ right = right' := by
  have same := List.append_cancel_left (h.text.symm.trans h'.text)
  have split := splitOnce_append (b := right) h.first
  rw [same, splitOnce_append h'.first] at split
  cases split
  exact ⟨rfl, rfl⟩

/-- What can be wrong with a text that is no range. -/
inductive Flawed (s : String) : Prop
  | comma (several : ',' ∈ s.toList)
  | unit (other : ¬ "bytes=".toList <+: strip s.toList)
  | undashed (none : '-' ∉ s.toList)
  | blank {left right : List Char} (dashed : Dashed s left right) (blankLeft : Blanks left)
      (blankRight : Blanks right)
  | numberless {left right side : List Char} (dashed : Dashed s left right)
      (mem : side ∈ [left, right]) (some : ¬ Blanks side) (other : ∀ n, ¬ Numeral (strip side) n)
  | large {left right side : List Char} {n : Nat} (dashed : Dashed s left right)
      (mem : side ∈ [left, right]) (numeral : Numeral (strip side) n) (large : limit ≤ n)
  | inverted {left right : List Char} {start stop : Nat} (dashed : Dashed s left right)
      (first : Numeral (strip left) start) (last : Numeral (strip right) stop) (lt : stop < start)

theorem Stands.dashed (stands : r.Stands s) :
    ∃ left right, Dashed s left right ∧ Side left r.sides.1 ∧ Side right r.sides.2 := by
  obtain ⟨left, right, text, hleft, hright⟩ := stands
  exact ⟨left, right, ⟨text, hleft.not_mem (by decide) (by decide) (by decide)⟩, hleft, hright⟩

theorem Stands.not_comma (stands : r.Stands s) : ',' ∉ s.toList := by
  obtain ⟨left, right, text, hleft, hright⟩ := stands
  intro mem
  rcases (padded_strip s.toList).mem mem with blank | mem
  · exact absurd blank (by decide)
  · rw [text] at mem
    simp only [List.mem_append, List.mem_cons] at mem
    rcases mem with mem | mem | mem | mem
    · exact absurd mem (by simp)
    · exact hleft.not_mem (by decide) (by decide) (by decide) mem
    · exact absurd mem (by decide)
    · exact hright.not_mem (by decide) (by decide) (by decide) mem

theorem Side.blank_iff (side : Side cs x) : Blanks cs ↔ x = none := by
  cases side with
  | blank blank => exact ⟨fun _ => rfl, fun _ => blank⟩
  | offset numeral small =>
    exact ⟨fun blank => absurd (strip_nil_of_blanks blank) numeral.mem.1, fun h => by cases h⟩

theorem Side.numeral_iff (side : Side cs x) : Numeral (strip cs) n ↔ x = some n := by
  cases side with
  | blank blank =>
    exact ⟨fun numeral => absurd (strip_nil_of_blanks blank) numeral.mem.1, fun h => by cases h⟩
  | offset numeral small =>
    exact ⟨fun other => congrArg some (numeral.unique other), fun h => by cases h; exact numeral⟩

theorem exists_side_or (cs : List Char) :
    (∃ x, Side cs x) ∨ (¬ Blanks cs ∧ ∀ n, ¬ Numeral (strip cs) n) ∨
      ∃ n, Numeral (strip cs) n ∧ limit ≤ n := by
  by_cases blank : Blanks cs
  · exact .inl ⟨none, .blank blank⟩
  by_cases other : ∀ n, ¬ Numeral (strip cs) n
  · exact .inr (.inl ⟨blank, other⟩)
  obtain ⟨n, numeral⟩ := not_forall_not.1 other
  by_cases small : n < limit
  · exact .inl ⟨some n, .offset numeral small⟩
  · exact .inr (.inr ⟨n, numeral, Nat.not_lt.1 small⟩)

theorem eq_of_parse_header {r' : ByteRange} (read : parse r.header = .ok r') : r' = r := by
  obtain ⟨left, right, dashed, hleft, hright⟩ := (stands_of_parse read).1.dashed
  have solid (x : Option Nat) : ∀ c ∈ written x, isBlank c = false ∧ c ≠ '-' := by
    intro c mem
    cases x with
    | none => cases mem
    | some n =>
      have digit := isDigit_of_mem_toString mem
      refine ⟨isBlank_of_isDigit digit, fun dash => ?_⟩
      rw [dash] at digit
      cases digit
  have own : Dashed r.header (written r.sides.1) (written r.sides.2) := by
    refine ⟨?_, fun mem => (solid _ _ mem).2 rfl⟩
    rw [toList_header]
    refine strip_eq_self_of_all fun c mem => ?_
    simp only [List.mem_append, List.mem_cons] at mem
    rcases mem with unit | first | rfl | last
    · have all : "bytes=".toList.all (!isBlank ·) = true := by decide
      simpa using List.all_eq_true.1 all c unit
    · exact (solid _ c first).1
    · decide
    · exact (solid _ c last).1
  obtain ⟨rfl, rfl⟩ := dashed.unique own
  have same {x y : Option Nat} (side : Side (written x) y) : y = x := by
    cases x with
    | none => exact side.blank_iff.1 fun c mem => by cases mem
    | some n =>
      refine side.numeral_iff.1 ?_
      have bare : strip (written (some n)) = (toString n).toList := strip_toString n
      exact bare ▸ numeral_toString n
  have first := same hleft
  have last := same hright
  cases r <;> cases r' <;> simp_all [sides]

theorem Flawed.not_stands (flawed : Flawed s) (stands : r.Stands s) : ¬ r.Ordered := by
  intro ordered
  obtain ⟨left, right, dashed, hleft, hright⟩ := stands.dashed
  -- either side of the dash of a flawed text is one of the two that are read
  have read {left' right' side : List Char} (dashed' : Dashed s left' right')
      (mem : side ∈ [left', right']) : ∃ x, Side side x := by
    obtain ⟨rfl, rfl⟩ := dashed.unique dashed'
    simp only [List.mem_cons, List.not_mem_nil, or_false] at mem
    rcases mem with rfl | rfl
    · exact ⟨_, hleft⟩
    · exact ⟨_, hright⟩
  cases flawed with
  | comma several => exact stands.not_comma several
  | unit other => exact other ⟨_, dashed.text.symm⟩
  | undashed none =>
    apply none
    obtain ⟨before, after, -, -, same⟩ := padded_strip s.toList
    rw [same, dashed.text]
    simp
  | blank dashed' blankLeft blankRight =>
    obtain ⟨rfl, rfl⟩ := dashed.unique dashed'
    have noStart := hleft.blank_iff.1 blankLeft
    have noStop := hright.blank_iff.1 blankRight
    cases r with
    | inclusive => cases noStart
    | allFrom => cases noStart
    | last => cases noStop
  | numberless dashed' mem some other =>
    obtain ⟨x, side⟩ := read dashed' mem
    cases x with
    | none => exact some (side.blank_iff.2 rfl)
    | some n => exact other n (side.numeral_iff.2 rfl)
  | large dashed' mem numeral large =>
    obtain ⟨x, side⟩ := read dashed' mem
    exact absurd (side.small _ (side.numeral_iff.1 numeral)) (Nat.not_lt.2 large)
  | inverted dashed' first last lt =>
    obtain ⟨rfl, rfl⟩ := dashed.unique dashed'
    have start := hleft.numeral_iff.1 first
    have stop := hright.numeral_iff.1 last
    cases r with
    | inclusive => cases start; cases stop; exact absurd ordered (Nat.not_le.2 lt)
    | allFrom => cases stop
    | last => cases start

/-- A text without a comma that begins with the unit and has two sides which can be read is a range, or
one of two flaws is left. -/
theorem Dashed.reads_or_flawed (dashed : Dashed s left right) (hleft : Side left x)
    (hright : Side right y) : (∃ r, parse s = .ok r) ∨ Flawed s := by
  cases x with
  | none =>
    cases y with
    | none => exact .inr (.blank dashed (hleft.blank_iff.2 rfl) (hright.blank_iff.2 rfl))
    | some count =>
      have stands : (last count).Stands s := ⟨left, right, dashed.text, hleft, hright⟩
      exact .inl ⟨_, stands.parse_eq trivial⟩
  | some start =>
    cases y with
    | none =>
      have stands : (allFrom start).Stands s := ⟨left, right, dashed.text, hleft, hright⟩
      exact .inl ⟨_, stands.parse_eq trivial⟩
    | some stop =>
      have stands : (inclusive start stop).Stands s := ⟨left, right, dashed.text, hleft, hright⟩
      rcases Nat.lt_or_ge stop start with lt | ordered
      · exact .inr (.inverted dashed (hleft.numeral_iff.2 rfl) (hright.numeral_iff.2 rfl) lt)
      · exact .inl ⟨_, stands.parse_eq ordered⟩

theorem reads_or_flawed (s : String) : (∃ r, parse s = .ok r) ∨ Flawed s := by
  by_cases unit : "bytes=".toList <+: strip s.toList
  · obtain ⟨spec, text⟩ := unit
    by_cases dash : '-' ∈ spec
    · obtain ⟨left, right, rfl, first⟩ := List.eq_append_cons_of_mem dash
      have dashed : Dashed s left right := ⟨text.symm, first⟩
      -- a side that cannot be read is a flaw of its own
      have readable (side : List Char) (mem : side ∈ [left, right]) : (∃ x, Side side x) ∨ Flawed s := by
        rcases exists_side_or side with read | ⟨some, other⟩ | ⟨n, numeral, large⟩
        · exact .inl read
        · exact .inr (.numberless dashed mem some other)
        · exact .inr (.large dashed mem numeral large)
      rcases readable left (by simp) with ⟨x, hleft⟩ | flawed
      · rcases readable right (by simp) with ⟨y, hright⟩ | flawed
        · exact dashed.reads_or_flawed hleft hright
        · exact .inr flawed
      · exact .inr flawed
    · refine .inr (.undashed fun mem => ?_)
      rcases (padded_strip s.toList).mem mem with blank | mem
      · exact absurd blank (by decide)
      · rw [← text, List.mem_append] at mem
        rcases mem with mem | mem
        · exact absurd mem (by simp)
        · exact dash mem
  · exact .inr (.unit unit)

theorem parse_eq_error_iff : (∃ e, parse s = .error e) ↔ Flawed s := by
  constructor
  · rintro ⟨e, refused⟩
    rcases reads_or_flawed s with ⟨r, read⟩ | flawed
    · rw [refused] at read
      cases read
    · exact flawed
  · intro flawed
    cases read : parse s with
    | error e => exact ⟨e, rfl⟩
    | ok r =>
      obtain ⟨stands, ordered⟩ := stands_of_parse read
      exact absurd ordered (flawed.not_stands stands)

end ByteRange

namespace ContentRange
variable {s : String} {r : ContentRange}

/-- The offsets and the size are below the limit. -/
def Sound : ContentRange → Prop
  | .bytes start stop total => start < limit ∧ stop < limit ∧ total < limit
  | .unsatisfied total => total < limit

theorem Sound.parse_text (sound : r.Sound) : parse r.text = .ok r := by
  cases r with
  | bytes start stop total => exact parse_text_bytes sound.1 sound.2.1 sound.2.2
  | unsatisfied total => exact parse_text_unsatisfied sound

theorem sound_of_parse (read : parse s = .ok r) : r.Sound := by
  have small {cs : List Char} {n : Nat} (read : parseOffset .contentRange cs = .ok n) : n < limit :=
    (parseOffset_eq_ok_iff.1 read).2
  unfold parse at read
  split at read
  · cases read
  split at read
  · cases read
  rename_i range size _
  cases last : parseOffset .contentRange size with
  | error fault => simp [last, bind, Except.bind] at read
  | ok total =>
    simp only [last, bind, Except.bind] at read
    split at read
    · cases read
      exact small last
    · split at read
      · cases read
      rename_i left right _
      cases first : parseOffset .contentRange left with
      | error fault => simp [first] at read
      | ok start =>
        cases second : parseOffset .contentRange right with
        | error fault => simp [first, second] at read
        | ok stop =>
          simp only [first, second] at read
          cases read
          exact ⟨small first, small second, small last⟩

end ContentRange

/-- A range is read back from its header, whatever blanks stand around it and around its offsets, unless
its offsets are inverted; whatever is read is such a range, and is written to a text from which it is read
again; and the texts that are refused are exactly those with a flaw. A content range of any offsets is read
back from its text, and what is read is written to a text from which it is read again. -/
theorem range_headers_are_read_back :
    (∀ r : ByteRange, r.Sound → ByteRange.parse r.header = .ok r ∧
      ∀ s, r.Spaced s → ByteRange.parse s = .ok r) ∧
    (∀ start stop, stop < start → start < limit →
      (ByteRange.inclusive start stop).Spaced (ByteRange.inclusive start stop).header ∧
      ∀ s, (ByteRange.inclusive start stop).Spaced s →
        ByteRange.parse s = .error (.invalid (.invertedRange s))) ∧
    (∀ s r, ByteRange.parse s = .ok r → r.Sound ∧ ByteRange.parse r.header = .ok r) ∧
    (∀ s, (∃ e, ByteRange.parse s = .error e) ↔ ByteRange.Flawed s) ∧
    (∀ r : ContentRange, r.Sound → ContentRange.parse r.text = .ok r) ∧
    (∀ s r, ContentRange.parse s = .ok r → r.Sound ∧ ContentRange.parse r.text = .ok r) := by
  have spaced (r : ByteRange) (sound : r.Sound) (s : String) (h : r.Spaced s) :
      ByteRange.parse s = .ok r := (h.stands sound.left sound.right).parse_eq sound.ordered
  have back (r : ByteRange) (sound : r.Sound) : ByteRange.parse r.header = .ok r :=
    spaced r sound r.header r.spaced_header
  refine ⟨fun r sound => ⟨back r sound, spaced r sound⟩, ?_, ?_, fun s => ByteRange.parse_eq_error_iff,
    fun r sound => sound.parse_text, ?_⟩
  · intro start stop lt small
    refine ⟨ByteRange.spaced_header _, fun s h => ?_⟩
    have stands := h.stands (by rintro n ⟨⟩; exact small) (by rintro n ⟨⟩; exact Nat.lt_trans lt small)
    rw [stands.parse_inclusive, if_pos lt]
  · intro s r read
    obtain ⟨stands, ordered⟩ := ByteRange.stands_of_parse read
    exact ⟨stands.sound ordered, back r (stands.sound ordered)⟩
  · intro s r read
    have sound := ContentRange.sound_of_parse read
    exact ⟨sound, sound.parse_text⟩

/-- Blanks of several kinds, and the greatest offset there is. -/
theorem spaced_range_is_read_back :
    (ByteRange.inclusive 5 18446744073709551615).Sound ∧
    (ByteRange.inclusive 5 18446744073709551615).Spaced "\tbytes= 5 -\u300018446744073709551615\n" ∧
    ByteRange.parse "\tbytes= 5 -\u300018446744073709551615\n" =
      .ok (.inclusive 5 18446744073709551615) ∧
    ByteRange.parse "bytes=9-5" = .error (.invalid (.invertedRange "bytes=9-5")) ∧
    ContentRange.parse "bytes 9-5/7" = .ok (.bytes 9 5 7) := by
  have sound : (ByteRange.inclusive 5 18446744073709551615).Sound :=
    ⟨by rintro n ⟨⟩; decide, by rintro n ⟨⟩; decide, Nat.le_of_ble_eq_true rfl⟩
  have spaced : (ByteRange.inclusive 5 18446744073709551615).Spaced
      "\tbytes= 5 -\u300018446744073709551615\n" :=
    ⟨" 5 ".toList, "\u300018446744073709551615".toList, ⟨[' '], [' '], by decide, by decide, by decide⟩,
      ⟨['\u3000'], [], by decide, by decide, by decide⟩,
      ⟨['\t'], ['\n'], by decide, by decide, by decide⟩⟩
  obtain ⟨forward, inverted, -, -, content, -⟩ := range_headers_are_read_back
  refine ⟨sound, spaced, (forward _ sound).2 _ spaced, ?_, ?_⟩
  · obtain ⟨written, refused⟩ := inverted 9 5 (by decide) (by decide)
    exact refused _ written
  · exact content (.bytes 9 5 7) ⟨by decide, by decide, by decide⟩

end ObjectTransfer.Http
