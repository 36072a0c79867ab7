import Mathlib.Algebra.BigOperators.Group.List.Basic
import Mathlib.Algebra.GroupWithZero.Nat
import ObjectTransfer.Proofs.Source
/-!
The stream that a body gives. Whatever the reader gives at a time, the chunks are the next bytes of the
source; they are all that were declared when the source holds exactly as many, and otherwise the last of
them is missing and a failure stands in its place. The counts and the progress reports follow the chunks.
-/
namespace ObjectTransfer.SourceBody
variable {τ : Type} {read : Nat → τ → Except Files.Fault ByteArray × τ} {rest : τ → ByteArray}
  {b : SourceBody} {s : τ}

/-- A reader that does not fail. A read takes bytes from what is left, at most as many as are wanted, and
it takes none only if none are wanted or left. -/
structure Reads (read : Nat → τ → Except Files.Fault ByteArray × τ) (rest : τ → ByteArray) : Prop where
  takes : ∀ n s, ∃ data s', read n s = (.ok data, s') ∧ rest s = data ++ rest s' ∧ data.size ≤ n ∧
    (data.size = 0 → n = 0 ∨ (rest s).size = 0)

inductive Polled (rest : τ → ByteArray) (b : SourceBody) (s : τ) : Poll τ → Prop
  | drained (spent : b.remaining = 0) : Polled rest b s ⟨none, b.start.1.close false, s, b.start.2⟩
  | chunk {data : ByteArray} {s' : τ} (filled : 0 < data.size) (few : data.size ≤ b.want)
      (taken : rest s = data ++ rest s') (last : data.size = b.remaining → (rest s').size = 0) :
      Polled rest b s ⟨some (.ok data), (b.start.1.advance data.size).1, s',
        b.start.2 ++ (b.start.1.advance data.size).2⟩
  | early {s' : τ} (left : b.remaining ≠ 0) (empty : (rest s).size = 0) :
      Polled rest b s ⟨some (.error (mismatch .sourceEndedEarly)), b.start.1.close true, s', b.start.2⟩
  | late {s' : τ} (left : b.remaining ≠ 0) (more : b.remaining < (rest s).size) :
      Polled rest b s ⟨some (.error (mismatch .sourceGrew)), b.start.1.close true, s', b.start.2⟩

theorem polled (reads : Reads read rest) (unended : b.ended = false) (s : τ) :
    Polled rest b s (b.next read s) := by
  obtain ⟨-, sameRemaining, sameBuffer, -, -⟩ := b.start_same
  have sameWant : b.start.1.want = b.want := by rw [want, sameRemaining, sameBuffer, want]
  unfold next
  rw [if_neg (by simp [unended])]
  dsimp only
  rw [sameRemaining, sameWant]
  by_cases left : b.remaining = 0
  · rw [if_pos left]
    exact .drained left
  rw [if_neg left]
  obtain ⟨data, s', got, taken, few, stops⟩ := reads.takes b.want s
  have wanted : b.want ≠ 0 := by
    unfold want
    omega
  have size := congrArg ByteArray.size taken
  rw [ByteArray.size_append] at size
  rw [got]
  dsimp only
  by_cases empty : data.size = 0
  · rw [if_pos empty]
    exact .early left ((stops empty).resolve_left wanted)
  rw [if_neg empty]
  by_cases short : data.size < b.remaining
  · rw [if_pos short]
    exact .chunk (Nat.pos_of_ne_zero empty) few taken fun whole => absurd whole (Nat.ne_of_lt short)
  rw [if_neg short]
  obtain ⟨extra, s'', got', taken', -, stops'⟩ := reads.takes 1 s'
  rw [got']
  dsimp only
  by_cases past : extra.size = 0
  · -- the further read has found nothing, and so it has taken nothing
    have nothing : extra = .empty := ByteArray.size_eq_zero_iff.1 past
    have same : rest s' = rest s'' := by rw [taken', nothing, ByteArray.empty_append]
    have none : (rest s').size = 0 := (stops' past).resolve_left Nat.one_ne_zero
    rw [if_pos past]
    exact .chunk (Nat.pos_of_ne_zero empty) few (same ▸ taken) fun _ => same ▸ none
  · rw [if_neg past]
    have size' := congrArg ByteArray.size taken'
    rw [ByteArray.size_append] at size'
    exact .late left (by omega)

theorem next_of_ended (ended : b.ended = true) (s : τ) : b.next read s = ⟨none, b, s, []⟩ := by
  unfold next
  rw [if_pos ended]

structure Drawn (τ : Type) where
  items : List (Option (Except Cause ByteArray))
  reports : List Progress.Report
  body : SourceBody
  reader : τ

def Drawn.next (read : Nat → τ → Except Files.Fault ByteArray × τ) (d : Drawn τ) : Drawn τ :=
  let p := d.body.next read d.reader
  ⟨d.items ++ [p.item], d.reports ++ p.reports, p.body, p.reader⟩

theorem Drawn.next_of_ended {d : Drawn τ} (ended : d.body.ended = true) :
    d.next read = { d with items := d.items ++ [none] } := by
  rw [Drawn.next, SourceBody.next_of_ended ended]
  simp

def draw (read : Nat → τ → Except Files.Fault ByteArray × τ) (b : SourceBody) (s : τ) : Nat → Drawn τ
  | 0 => ⟨[], [], b, s⟩
  | polls + 1 => (draw read b s polls).next read

def joined (chunks : List ByteArray) : ByteArray := chunks.foldl (· ++ ·) .empty

theorem joined_append (chunks : List ByteArray) (chunk : ByteArray) :
    joined (chunks ++ [chunk]) = joined chunks ++ chunk := by
  rw [joined, List.foldl_append]
  rfl

/-- These chunks were given, and with them the body has come from `offset` so far through `len` bytes. -/
structure Gave (data : ByteArray) (offset len buffer : Nat) (chunks : List ByteArray)
    (b : SourceBody) : Prop where
  solid : ∀ c ∈ chunks, 0 < c.size ∧ c.size ≤ max buffer 1
  sum : b.given = (chunks.map ByteArray.size).sum
  bytes : joined chunks = data.extract 0 b.given
  reached : b.offset = offset + b.given
  left : b.given + b.remaining = len
  buffer : b.buffer = buffer

def flow (chunks : List ByteArray) : List (Option (Except Cause ByteArray)) :=
  chunks.map fun c => some (.ok c)

/-- Why a source of `size` bytes is not one of `len` bytes. -/
def difference (size len : Nat) : Cause :=
  mismatch (if size < len then .sourceEndedEarly else .sourceGrew)

/-- How far a body has come: it gives chunks, has given all of them, or has failed before the last one. -/
inductive Course (rest : τ → ByteArray) (data : ByteArray) (len : Nat) (chunks : List ByteArray)
    (d : Drawn τ) : Prop
  | flowing (items : d.items = flow chunks) (unended : d.body.ended = false)
      (same : d.body.changed = false) (ahead : data = joined chunks ++ rest d.reader)
      (whole : d.body.remaining = 0 → len = 0 ∨ data.size = len)
  | finished {m : Nat} (items : d.items = flow chunks ++ List.replicate (m + 1) none)
      (ended : d.body.ended = true) (same : d.body.changed = false) (all : d.body.remaining = 0)
      (whole : len = 0 ∨ data.size = len)
  | broken {m : Nat}
      (items : d.items =
        flow chunks ++ some (.error (difference data.size len)) :: List.replicate m none)
      (ended : d.body.ended = true) (noticed : d.body.changed = true) (missing : d.body.remaining ≠ 0)
      (differs : data.size ≠ len)

variable {data : ByteArray} {offset len buffer : Nat} {chunks : List ByteArray} {d : Drawn τ}

theorem given_start (b : SourceBody) : b.start.1.given = b.given := by
  unfold start
  split
  · rfl
  · split <;> rfl

theorem given_advance (b : SourceBody) (n : Nat) :
    (b.advance n).1.given = b.given + n ∧ (b.advance n).1.buffer = b.buffer := by
  unfold advance
  dsimp only
  split <;> exact ⟨rfl, rfl⟩

theorem joined_size (chunks : List ByteArray) :
    (joined chunks).size = (chunks.map ByteArray.size).sum := by
  have behind (front : ByteArray) :
      (chunks.foldl (· ++ ·) front).size = front.size + (chunks.map ByteArray.size).sum := by
    induction chunks generalizing front with
    | nil => rfl
    | cons chunk chunks ih =>
      rw [List.foldl_cons, ih, ByteArray.size_append, List.map_cons, List.sum_cons, Nat.add_assoc]
  exact (behind .empty).trans (Nat.zero_add _)

theorem Gave.started (gave : Gave data offset len buffer chunks b) :
    Gave data offset len buffer chunks b.start.1 := by
  obtain ⟨sameOffset, sameRemaining, sameBuffer, -, -⟩ := b.start_same
  have sameGiven := b.given_start
  exact ⟨gave.solid, by rw [sameGiven, gave.sum], by rw [sameGiven, gave.bytes],
    by rw [sameOffset, sameGiven, gave.reached], by rw [sameGiven, sameRemaining, gave.left],
    by rw [sameBuffer, gave.buffer]⟩

theorem Gave.closed (gave : Gave data offset len buffer chunks b) (changed : Bool) :
    Gave data offset len buffer chunks (b.close changed) :=
  ⟨gave.solid, gave.sum, gave.bytes, gave.reached, gave.left, gave.buffer⟩

theorem Gave.advanced (gave : Gave data offset len buffer chunks b) {chunk left : ByteArray}
    (ahead : data = joined chunks ++ (chunk ++ left)) (filled : 0 < chunk.size)
    (few : chunk.size ≤ b.want) :
    Gave data offset len buffer (chunks ++ [chunk]) (b.advance chunk.size).1 := by
  obtain ⟨sameOffset, sameRemaining, -, -⟩ := b.advance_same chunk.size
  obtain ⟨moreGiven, sameBuffer⟩ := b.given_advance chunk.size
  have sum := gave.sum
  rw [← joined_size] at sum
  unfold want at few
  refine ⟨?_, ?_, ?_, ?_, ?_, ?_⟩
  · intro c mem
    rcases List.mem_append.1 mem with mem | mem
    · exact gave.solid c mem
    · rw [List.mem_singleton.1 mem, ← gave.buffer]
      exact ⟨filled, by omega⟩
  · rw [moreGiven, ← joined_size, joined_append, ByteArray.size_append, sum]
  · rw [moreGiven, joined_append, ahead, ← ByteArray.append_assoc, sum, ← ByteArray.size_append]
    exact (ByteArray.extract_append_eq_left rfl).symm
  · rw [sameOffset, moreGiven, gave.reached, Nat.add_assoc]
  · rw [moreGiven, sameRemaining, ← gave.left]
    omega
  · rw [sameBuffer, gave.buffer]

theorem flow_append (chunks : List ByteArray) (chunk : ByteArray) :
    flow (chunks ++ [chunk]) = flow chunks ++ [some (.ok chunk)] := by
  rw [flow, List.map_append]
  rfl

theorem Course.next (course : Course rest data len chunks d) (reads : Reads read rest)
    (gave : Gave data offset len buffer chunks d.body) :
    ∃ chunks', Gave data offset len buffer chunks' (d.next read).body ∧
      Course rest data len chunks' (d.next read) := by
  cases course with
  | flowing items unended same ahead whole =>
    obtain ⟨-, sameRemaining, -, sameEnded, sameChanged⟩ := d.body.start_same
    -- what was given and what is left make up the size of the source
    have size := congrArg ByteArray.size ahead
    rw [ByteArray.size_append, joined_size, ← gave.sum] at size
    have left := gave.left
    have polled := polled reads unended d.reader
    unfold Drawn.next
    generalize d.body.next read d.reader = poll at polled ⊢
    cases polled with
    | drained spent =>
      refine ⟨chunks, gave.started.closed false, .finished (m := 0) (by rw [items]; rfl) rfl rfl ?_ (whole spent)⟩
      exact sameRemaining.trans spent
    | @chunk chunk s' filled few taken last =>
      obtain ⟨-, remaining, ended, changed⟩ := d.body.start.1.advance_same chunk.size
      rw [taken] at ahead
      have few' : chunk.size ≤ d.body.start.1.want := by
        unfold want at few ⊢
        rwa [sameRemaining, d.body.start_same.2.2.1]
      refine ⟨chunks ++ [chunk], gave.started.advanced ahead filled few', .flowing ?_ ?_ ?_ ?_ ?_⟩
      · rw [items, flow_append]
      · rw [ended, sameEnded, unended]
      · rw [changed, sameChanged, same]
      · rw [joined_append, ahead, ByteArray.append_assoc]
      · intro none
        rw [remaining, sameRemaining] at none
        unfold want at few
        have nothing := last (by omega)
        rw [taken, ByteArray.size_append, nothing] at size
        exact .inr (by omega)
    | early missing empty =>
      have few : data.size < len := by omega
      refine ⟨chunks, gave.started.closed true, .broken (m := 0) ?_ rfl rfl ?_ (Nat.ne_of_lt few)⟩
      · rw [items, difference, if_pos few]
        rfl
      · exact fun none => missing (sameRemaining.symm.trans none)
    | late missing more =>
      have many : len < data.size := by omega
      refine ⟨chunks, gave.started.closed true, .broken (m := 0) ?_ rfl rfl ?_ (Nat.ne_of_gt many)⟩
      · rw [items, difference, if_neg (Nat.lt_asymm many)]
        rfl
      · exact fun none => missing (sameRemaining.symm.trans none)
  | @finished m items ended same all whole =>
    rw [Drawn.next_of_ended ended]
    refine ⟨chunks, gave, .finished (m := m + 1) ?_ ended same all whole⟩
    rw [items, List.append_assoc, ← List.replicate_succ']
  | @broken m items ended noticed missing differs =>
    rw [Drawn.next_of_ended ended]
    refine ⟨chunks, gave, .broken (m := m + 1) ?_ ended noticed missing differs⟩
    rw [items, List.append_assoc, List.cons_append, ← List.replicate_succ']

/-- The reports made so far: the first is of the offset where the body began, none of them is behind an
earlier one, and they end with the whole once it was given. -/
structure Reported (total offset : Nat) (b : SourceBody) (reports : List Progress.Report) : Prop where
  tracked : ∃ t, b.progress = some t ∧ t.total = total
  unstarted : b.started = false → reports = [] ∧ b.offset = offset
  first : b.started = true → reports.head? = some (offset, total)
  ordered : reports.Pairwise fun r r' => r.1 ≤ r'.1
  reached : ∀ r ∈ reports, r.1 ≤ b.offset ∧ r.2 = total
  last : b.started = true → b.remaining = 0 → reports.getLast? = some (b.offset, total)

variable {total : Nat} {reports : List Progress.Report}

theorem Reported.started (reported : Reported total offset b reports) :
    Reported total offset b.start.1 (reports ++ b.start.2) ∧ b.start.1.started = true := by
  obtain ⟨t, progress, rfl⟩ := reported.tracked
  cases started : b.started with
  | true =>
    have same : b.start = (b, []) := by rw [start, if_pos started]
    rw [same, List.append_nil]
    exact ⟨reported, started⟩
  | false =>
    obtain ⟨rfl, rfl⟩ := reported.unstarted started
    have begun : b.start = ({ b with started := true, progress := some (t.start b.offset).1 },
        (b.offset, t.total) :: if b.remaining = 0 then [(b.offset, t.total)] else []) := by
      rw [start, if_neg (by simp [started]), progress]
      rfl
    rw [begun, List.nil_append]
    refine ⟨⟨⟨_, rfl, rfl⟩, fun h => (by cases h), fun _ => rfl, ?_, ?_, ?_⟩, rfl⟩
    · split <;> simp
    · intro r mem
      split at mem <;> simp_all
    · intro _ spent
      rw [if_pos spent]
      rfl

theorem reports_advance {t : Progress.Tracker} (progress : b.progress = some t) (n : Nat) :
    (∃ t', (b.advance n).1.progress = some t' ∧ t'.total = t.total) ∧
    (b.advance n).1.started = b.started ∧ (∀ r ∈ (b.advance n).2, r = (b.offset + n, t.total)) ∧
    ((b.advance n).1.remaining = 0 → (b.advance n).2.getLast? = some (b.offset + n, t.total)) := by
  unfold advance
  dsimp only
  rw [progress]
  dsimp only
  unfold Progress.Tracker.onBuffer Progress.Tracker.finish
  split
  · refine ⟨⟨_, rfl, rfl⟩, rfl, ?_, ?_⟩
    · intro r mem
      split at mem <;> simp_all
    · intro spent
      rw [if_pos spent]
      rfl
  · refine ⟨⟨_, rfl, rfl⟩, rfl, ?_, ?_⟩
    · intro r mem
      split at mem <;> simp_all
    · intro spent
      rw [if_pos spent]
      rfl

theorem Reported.advanced (reported : Reported total offset b reports) (started : b.started = true)
    (n : Nat) : Reported total offset (b.advance n).1 (reports ++ (b.advance n).2) := by
  obtain ⟨t, progress, rfl⟩ := reported.tracked
  obtain ⟨tracked, still, news, last⟩ := reports_advance progress n
  have sameOffset := (b.advance_same n).1
  refine ⟨tracked, fun unstarted => ?_, fun _ => ?_, ?_, ?_, fun _ spent => ?_⟩
  · rw [still, started] at unstarted
    cases unstarted
  · rw [List.head?_append, reported.first started]
    rfl
  · refine List.pairwise_append.2 ⟨reported.ordered, ?_, fun r mem r' mem' => ?_⟩
    · exact List.pairwise_of_forall_mem_list fun r mem r' mem' =>
        Nat.le_of_eq (by rw [news r mem, news r' mem'])
    · rw [news r' mem']
      exact Nat.le_trans (reported.reached r mem).1 (Nat.le_add_right _ _)
  · intro r mem
    rw [sameOffset]
    rcases List.mem_append.1 mem with mem | mem
    · obtain ⟨le, same⟩ := reported.reached r mem
      exact ⟨Nat.le_trans le (Nat.le_add_right _ _), same⟩
    · rw [news r mem]
      exact ⟨Nat.le_refl _, rfl⟩
  · rw [List.getLast?_append, last spent, sameOffset]
    rfl

theorem Reported.closed (reported : Reported total offset b reports) (changed : Bool) :
    Reported total offset (b.close changed) reports :=
  ⟨reported.tracked, reported.unstarted, reported.first, reported.ordered, reported.reached, reported.last⟩

theorem Reported.next (reported : Reported total offset d.body d.reports) (reads : Reads read rest)
    (begun : d.body.ended = true → d.body.started = true) :
    Reported total offset (d.next read).body (d.next read).reports ∧
      (d.next read).body.started = true := by
  cases ended : d.body.ended with
  | true =>
    rw [Drawn.next_of_ended ended]
    exact ⟨reported, begun ended⟩
  | false =>
    obtain ⟨starts, started⟩ := reported.started
    have polled := polled reads ended d.reader
    unfold Drawn.next
    generalize d.body.next read d.reader = poll at polled ⊢
    cases polled with
    | drained spent => exact ⟨starts.closed false, started⟩
    | @chunk chunk s' filled few taken last =>
      obtain ⟨t, progress, -⟩ := starts.tracked
      have still := (reports_advance progress chunk.size).2.1
      have advanced := starts.advanced started chunk.size
      rw [List.append_assoc] at advanced
      exact ⟨advanced, still.trans started⟩
    | early missing empty => exact ⟨starts.closed true, started⟩
    | late missing more => exact ⟨starts.closed true, started⟩

theorem draw_course (reads : Reads read rest) (s : τ) (offset len buffer : Nat)
    (progress : Option Progress.Tracker) (polls : Nat) :
    (draw read (ofRange offset len buffer progress) s polls).items.length = polls ∧
    ∃ chunks, Gave (rest s) offset len buffer chunks
        (draw read (ofRange offset len buffer progress) s polls).body ∧
      Course rest (rest s) len chunks (draw read (ofRange offset len buffer progress) s polls) := by
  induction polls with
  | zero =>
    refine ⟨rfl, [], ⟨by simp, rfl, ?_, rfl, Nat.zero_add _, rfl⟩, .flowing rfl rfl rfl ?_ .inl⟩
    · exact ByteArray.extract_same.symm
    · exact ByteArray.empty_append.symm
  | succ polls ih =>
    obtain ⟨length, chunks, gave, course⟩ := ih
    refine ⟨?_, course.next reads gave⟩
    rw [draw, Drawn.next, List.length_append, length]
    rfl

theorem draw_reported (reads : Reads read rest) (s : τ) (offset len buffer : Nat)
    (t : Progress.Tracker) (polls : Nat) :
    Reported t.total offset (draw read (ofRange offset len buffer (some t)) s polls).body
      (draw read (ofRange offset len buffer (some t)) s polls).reports ∧
    ((draw read (ofRange offset len buffer (some t)) s polls).body.started = true ↔ polls ≠ 0) := by
  induction polls with
  | zero =>
    refine ⟨⟨⟨t, rfl, rfl⟩, fun _ => ⟨rfl, rfl⟩, fun h => (by cases h), .nil, ?_, fun h => (by cases h)⟩,
      ?_⟩
    · exact fun r mem => absurd mem List.not_mem_nil
    · simp [draw, ofRange]
  | succ polls ih =>
    obtain ⟨reported, started⟩ := ih
    have begun (ended : (draw read (ofRange offset len buffer (some t)) s polls).body.ended = true) :
        (draw read (ofRange offset len buffer (some t)) s polls).body.started = true := by
      apply started.2
      rintro rfl
      cases ended
    obtain ⟨reported', started'⟩ := reported.next reads begun
    exact ⟨reported', fun _ => Nat.succ_ne_zero _, fun _ => started'⟩

/-- A chunk is at least one byte, so that as many polls as there are bytes are enough for all of them. -/
theorem Gave.length_le (gave : Gave data offset len buffer chunks b) : chunks.length ≤ len := by
  have few := List.length_le_sum_of_one_le (chunks.map ByteArray.size) (by
    intro size mem
    obtain ⟨chunk, mem', rfl⟩ := List.mem_map.1 mem
    exact (gave.solid chunk mem').1)
  rw [List.length_map, ← gave.sum] at few
  have left := gave.left
  omega

/-- The reports end with the whole exactly when all of it was given, which takes a poll. -/
theorem Reported.getLast?_eq_iff (reported : Reported total offset b reports)
    (gave : Gave data offset len buffer chunks b) :
    reports.getLast? = some (offset + len, total) ↔ b.started = true ∧ b.given = len := by
  have left := gave.left
  have reached := gave.reached
  constructor
  · intro last
    cases started : b.started with
    | false =>
      rw [(reported.unstarted started).1] at last
      cases last
    | true =>
      have most := (reported.reached _ (List.mem_of_getLast? last)).1
      dsimp only at most
      exact ⟨rfl, by omega⟩
  · rintro ⟨started, all⟩
    rw [reported.last started (by omega), reached, all]

/-- How the stream of `len` declared bytes of a source of `size` bytes goes on behind its chunks: not at
all yet, or with its end, or with a failure and then its end. -/
inductive Tail (size len : Nat) (b : SourceBody) : List (Option (Except Cause ByteArray)) → Prop
  | ahead (same : b.changed = false) : Tail size len b []
  | ended {m : Nat} (whole : len = 0 ∨ size = len) (same : b.changed = false) (all : b.given = len) :
      Tail size len b (List.replicate (m + 1) none)
  | failed {m : Nat} (declared : len ≠ 0) (differs : size ≠ len) (noticed : b.changed = true) :
      Tail size len b (some (.error (difference size len)) :: List.replicate m none)

theorem Course.tail (course : Course rest data len chunks d)
    (gave : Gave data offset len buffer chunks d.body) :
    ∃ tail, d.items = flow chunks ++ tail ∧ Tail data.size len d.body tail ∧
      (tail = [] → d.items.length ≤ len) ∧
      (len ≠ 0 → data.size ≠ len → d.body.given < len) := by
  have left := gave.left
  cases course with
  | flowing items unended same ahead whole =>
    refine ⟨[], by rw [items, List.append_nil], .ahead same, fun _ => ?_, fun declared differs => ?_⟩
    · rw [items, flow, List.length_map]
      exact gave.length_le
    · by_contra all
      rcases whole (by omega) with none | whole
      · exact declared none
      · exact differs whole
  | finished items ended same all whole =>
    refine ⟨_, items, .ended whole same (by omega), fun empty => (by cases empty), ?_⟩
    exact fun declared differs => absurd whole (by simp [declared, differs])
  | broken items ended noticed missing differs =>
    refine ⟨_, items, .failed (by omega) differs noticed, fun empty => (by cases empty), ?_⟩
    exact fun _ _ => by omega

/-- However a reader cuts what it has, the body gives non-empty chunks of at most a buffer, which are the
first of the declared bytes and are counted as they are given. A source of exactly the declared length, or
any when none was declared, is given whole, and then the body ends; from any other source some declared
bytes are missing when the body fails, once, and ends. The reports begin with the offset of the body, are
in order, and end with the whole exactly when all of it was given. -/
theorem body_accounts_for_source (reads : Reads read rest) (s : τ) (offset len buffer : Nat)
    (progress : Option Progress.Tracker) (polls : Nat)
    (drawn : draw read (ofRange offset len buffer progress) s polls = d) :
    ∃ chunks tail, d.items = flow chunks ++ tail ∧ d.items.length = polls ∧
      (∀ c ∈ chunks, 0 < c.size ∧ c.size ≤ max buffer 1) ∧
      d.body.given = (chunks.map ByteArray.size).sum ∧
      joined chunks = (rest s).extract 0 d.body.given ∧ d.body.given ≤ len ∧
      (len ≠ 0 → (rest s).size ≠ len → d.body.given < len) ∧
      Tail (rest s).size len d.body tail ∧ (len < polls → tail ≠ []) ∧
      ∀ t, progress = some t →
        d.reports.Pairwise (fun r r' => r.1 ≤ r'.1) ∧ (∀ r ∈ d.reports, r.2 = t.total) ∧
        (polls ≠ 0 → d.reports.head? = some (offset, t.total)) ∧
        (d.reports.getLast? = some (offset + len, t.total) ↔ polls ≠ 0 ∧ d.body.given = len) := by
  obtain ⟨length, chunks, gave, course⟩ := draw_course reads s offset len buffer progress polls
  rw [drawn] at length gave course
  obtain ⟨tail, items, behind, soon, short⟩ := course.tail gave
  refine ⟨chunks, tail, items, length, gave.solid, gave.sum, gave.bytes, ?_, short, behind, ?_, ?_⟩
  · exact gave.left ▸ Nat.le_add_right _ _
  · intro enough none
    exact absurd (soon none) (by omega)
  · rintro t rfl
    obtain ⟨reported, started⟩ := draw_reported reads s offset len buffer t polls
    rw [drawn] at reported started
    refine ⟨reported.ordered, fun r mem => (reported.reached r mem).2, ?_, ?_⟩
    · exact fun polled => reported.first (started.2 polled)
    · rw [reported.getLast?_eq_iff gave, started]

/-- A reader of bytes in memory that gives at most two at a time. -/
def sip (n : Nat) (bytes : ByteArray) : Except Files.Fault ByteArray × ByteArray :=
  let few := min (min n 2) bytes.size
  (.ok (bytes.extract 0 few), bytes.extract few bytes.size)

theorem sips : Reads sip id where
  takes n bytes := by
    have few : min (min n 2) bytes.size ≤ bytes.size := Nat.min_le_right _ _
    refine ⟨_, _, rfl, ?_, ?_, fun nothing => ?_⟩
    · rw [id, id, ByteArray.extract_append_extract, Nat.zero_min, Nat.max_eq_right few,
        ByteArray.extract_zero_size]
    · rw [ByteArray.size_extract]
      omega
    · rw [ByteArray.size_extract] at nothing
      rw [id]
      omega

/-- Three bytes are declared of five: what comes are the first of them, not all three, then a failure. -/
theorem sips_miss_growth :
    ∃ chunks m, (draw sip (ofRange 7 3 2 (some ⟨10, .everyBuffer, 0⟩)) ⟨#[1, 2, 3, 4, 5]⟩ 6).items =
        flow chunks ++ some (.error (difference 5 3)) :: List.replicate m none ∧
      (draw sip (ofRange 7 3 2 (some ⟨10, .everyBuffer, 0⟩)) ⟨#[1, 2, 3, 4, 5]⟩ 6).body.given < 3 ∧
      (draw sip (ofRange 7 3 2 (some ⟨10, .everyBuffer, 0⟩)) ⟨#[1, 2, 3, 4, 5]⟩ 6).reports.head? =
        some (7, 10) := by
  obtain ⟨chunks, tail, items, -, -, -, -, -, short, behind, soon, reports⟩ :=
    body_accounts_for_source sips ⟨#[1, 2, 3, 4, 5]⟩ 7 3 2 (some ⟨10, .everyBuffer, 0⟩) 6 rfl
  have first := (reports _ rfl).2.2.1 (by decide)
  cases behind with
  | ahead same => exact absurd rfl (soon (by decide))
  | ended whole same all => exact absurd whole (by decide)
  | failed declared differs noticed => exact ⟨chunks, _, items, short (by decide) (by decide), first⟩

end ObjectTransfer.SourceBody
