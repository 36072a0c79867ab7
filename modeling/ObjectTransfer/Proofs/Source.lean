import Mathlib.Tactic.Common
import ObjectTransfer.Connection
import ObjectTransfer.Proofs.Files.Content
/-!
Sources that stay as they are, and what comes of a body that is read from one: whatever the chunks
and however far the other side reads, it is the next bytes of the source, and the body never finds
that the source has changed.
-/
namespace ObjectTransfer

/-- The reader stands at an offset of `data`, as long as the files are as `I` says. -/
def Reader.Follows (I : Files.Store → Prop) (data : ByteArray) : Reader → Nat → Prop
  | .bytes d position, offset => d = data ∧ position = offset
  | .file entry position, offset =>
    position = offset ∧ ∀ f, I f → ∃ id, entry = .file id ∧ (f.content id).bytes = data

/-- The source can be read and is `data` whenever the files are as `I` says. -/
structure InputSource.Steady (source : InputSource) (data : ByteArray) (I : Files.Store → Prop) :
    Prop where
  whole : ∀ f, I f → source.bytesNow f = .ok data
  size : ∀ f, I f → source.size f = .ok data.size
  opened : ∀ f offset, I f → offset ≤ data.size →
    ∃ reader, source.readerAt f offset = .ok reader ∧ reader.Follows I data offset

theorem InputSource.steady_bytes (data : ByteArray) (I : Files.Store → Prop) :
    (InputSource.bytes data).Steady data I where
  whole _ _ := rfl
  size _ _ := rfl
  opened _ _ _ h := ⟨_, rfl, rfl, Nat.min_eq_left h⟩

theorem disposition_of_mapError {α : Type} {r : Except Files.Fault α} {e : Error}
    (h : r.mapError Error.io = .error e) : e.disposition = some .waitBeforeRetry := by
  cases r with
  | ok a => cases h
  | error fault =>
    cases h
    rfl

theorem InputSource.disposition_of_size (source : InputSource) {f : Files.Store} {e : Error}
    (h : source.size f = .error e) : e.disposition = some .waitBeforeRetry := by
  cases source with
  | file path => exact disposition_of_mapError h
  | bytes data => cases h

theorem InputSource.disposition_of_md5 (source : InputSource) {f : Files.Store} {e : Error}
    (h : source.md5 f = .error e) : e.disposition = some .waitBeforeRetry := by
  cases source with
  | file path =>
    cases hb : (InputSource.file path).bytesNow f with
    | ok data =>
      rw [md5, hb] at h
      cases h
    | error e' =>
      rw [md5, hb] at h
      cases h
      exact disposition_of_mapError hb
  | bytes data => cases h

theorem extract_eq_of_min_eq {data : ByteArray} {i j k : Nat}
    (h : min j data.size = min k data.size) : data.extract i j = data.extract i k := by
  apply ByteArray.ext_getElem
  · simp only [ByteArray.size_extract, h]
  · intro n _ _
    simp only [ByteArray.getElem_extract]

theorem Reader.Follows.read {I : Files.Store → Prop} {data : ByteArray} {reader : Reader}
    {offset : Nat} (h : reader.Follows I data offset) {f : Files.Store} (hf : I f) (count : Nat) :
    ∃ n next, reader.read f count = (.ok (data.extract offset (offset + n)), next) ∧
      next.Follows I data (offset + n) ∧ n ≤ count ∧ n ≤ data.size - offset ∧
      (0 < count → offset < data.size → 0 < n) := by
  -- A file gives at most `maxRead` bytes; below, only that this is not zero matters.
  have cut (limit : Nat) : data.extract offset (offset + limit) =
      data.extract offset (offset + min limit (data.size - offset)) ∧
      (data.extract offset (offset + min limit (data.size - offset))).size =
        min limit (data.size - offset) := by
    refine ⟨extract_eq_of_min_eq (by omega), ?_⟩
    rw [ByteArray.size_extract]
    omega
  cases reader with
  | bytes d position =>
    obtain ⟨rfl, rfl⟩ := h
    obtain ⟨he, hs⟩ := cut count
    refine ⟨min count (d.size - position), .bytes d (position + min count (d.size - position)), ?_,
      ⟨rfl, rfl⟩, by omega, by omega, by omega⟩
    simp only [Reader.read, he, hs]
  | file entry position =>
    obtain ⟨rfl, hc⟩ := h
    obtain ⟨id, rfl, hd⟩ := hc f hf
    have hpos : 0 < maxRead := by decide
    simp only [Reader.read, Files.Store.readAt, Files.Content.read_eq, hd]
    generalize maxRead = most at hpos ⊢
    obtain ⟨he, hs⟩ := cut (min count most)
    refine ⟨min (min count most) (data.size - position),
      .file (.file id) (position + min (min count most) (data.size - position)), ?_,
      ⟨rfl, hc⟩, by omega, by omega, by omega⟩
    simp only [he, hs]

/-- The body stands where the reader stands, with the rest of `data` ahead of it. -/
structure SourceBody.Ahead (b : SourceBody) (data : ByteArray) : Prop where
  rest : b.offset + b.remaining = data.size
  open_ : b.ended = false
  same : b.changed = false

theorem SourceBody.start_same (b : SourceBody) :
    b.start.1.offset = b.offset ∧ b.start.1.remaining = b.remaining ∧ b.start.1.buffer = b.buffer ∧
      b.start.1.ended = b.ended ∧ b.start.1.changed = b.changed := by
  unfold start
  split
  · exact ⟨rfl, rfl, rfl, rfl, rfl⟩
  · split <;> exact ⟨rfl, rfl, rfl, rfl, rfl⟩

theorem SourceBody.advance_same (b : SourceBody) (n : Nat) :
    (b.advance n).1.offset = b.offset + n ∧ (b.advance n).1.remaining = b.remaining - n ∧
      (b.advance n).1.ended = b.ended ∧ (b.advance n).1.changed = b.changed := by
  unfold advance
  dsimp only
  split <;> exact ⟨rfl, rfl, rfl, rfl⟩

/-- What is said of the files is kept when time passes before a source is read. -/
def Connection.Waits {σ : Type} (c : Connection σ) (P : σ → Files.Store → Prop) : Prop :=
  ∀ p f, P p f → P (c.elapse p f).1 (c.elapse p f).2

section
variable {σ : Type} {c : Connection σ} {P : σ → Files.Store → Prop} {I : Files.Store → Prop}
  {data : ByteArray}

theorem Connection.readSource_steady (hw : c.Waits P) (hI : ∀ p f, P p f → I f) {reader : Reader}
    {w : World σ} {offset : Nat} (hp : P w.peer w.files) (hr : reader.Follows I data offset)
    (count : Nat) :
    ∃ n next v, c.readSource count (reader, w) = (.ok (data.extract offset (offset + n)), next, v) ∧
      P v.peer v.files ∧ next.Follows I data (offset + n) ∧ n ≤ count ∧ n ≤ data.size - offset ∧
      (0 < count → offset < data.size → 0 < n) := by
  have hp' : P (c.wait w).peer (c.wait w).files := hw _ _ hp
  obtain ⟨n, next, hread, hnext, hle, hrest, hpos⟩ := hr.read (hI _ _ hp') count
  refine ⟨n, next, c.wait w, ?_, hp', hnext, hle, hrest, hpos⟩
  simp only [readSource, hread]

/-- Asking a body for more when something is left gives the next bytes of the source. -/
theorem SourceBody.next_steady (hw : c.Waits P) (hI : ∀ p f, P p f → I f) {b : SourceBody}
    {reader : Reader} {w : World σ} (hb : b.Ahead data) (hp : P w.peer w.files)
    (hr : reader.Follows I data b.offset) (hrem : b.remaining ≠ 0) :
    ∃ n, 0 < n ∧ n ≤ b.remaining ∧
      (b.next c.readSource (reader, w)).item =
        some (.ok (data.extract b.offset (b.offset + n))) ∧
      (b.next c.readSource (reader, w)).body.offset = b.offset + n ∧
      (b.next c.readSource (reader, w)).body.remaining = b.remaining - n ∧
      (b.next c.readSource (reader, w)).body.Ahead data ∧
      P (b.next c.readSource (reader, w)).reader.2.peer
        (b.next c.readSource (reader, w)).reader.2.files ∧
      (b.next c.readSource (reader, w)).reader.1.Follows I data (b.offset + n) := by
  obtain ⟨hso, hsr, hsb, hse, hsc⟩ := b.start_same
  have hwant : 0 < b.start.1.want ∧ b.start.1.want ≤ b.remaining := by
    unfold want
    omega
  have hb1 := hb.rest
  obtain ⟨n, reader', v, hread, hv, hr', hle, -, hpos⟩ :=
    Connection.readSource_steady hw hI hp hr b.start.1.want
  have hn : 0 < n := hpos hwant.1 (by omega)
  have hsize : (data.extract b.offset (b.offset + n)).size = n := by
    rw [ByteArray.size_extract]
    omega
  obtain ⟨hao, har, hae, hac⟩ := b.start.1.advance_same n
  have hahead : (b.start.1.advance n).1.Ahead data :=
    ⟨by omega, by rw [hae, hse, hb.open_], by rw [hac, hsc, hb.same]⟩
  refine ⟨n, hn, by omega, ?_⟩
  unfold next
  simp only [hb.open_, Bool.false_eq_true, if_false, hsr, hrem, hread, hsize, Nat.ne_of_gt hn]
  by_cases hlt : n < b.remaining
  · simp only [hlt, if_true]
    exact ⟨trivial, by rw [hao, hso], by rw [har, hsr], hahead, hv, hr'⟩
  · -- The last chunk is given once a further read has found nothing behind it.
    obtain ⟨m, reader'', v', hread', hv', hr'', -, hm, -⟩ :=
      Connection.readSource_steady hw hI hv hr' 1
    have hm0 : m = 0 := by omega
    subst hm0
    have hempty : (data.extract (b.offset + n) (b.offset + n + 0)).size = 0 := by
      rw [ByteArray.size_extract]
      omega
    simp only [hlt, if_false, hread', hempty, if_true]
    exact ⟨trivial, by rw [hao, hso], by rw [har, hsr], hahead, hv', hr''⟩

theorem SourceBody.next_end {τ : Type} (read : Nat → τ → Except Files.Fault ByteArray × τ)
    {b : SourceBody} (s : τ) (hb : b.Ahead data) (hrem : b.remaining = 0) :
    (b.next read s).item = none ∧ (b.next read s).body.changed = false ∧
      (b.next read s).reader = s := by
  obtain ⟨-, hsr, -, -, -⟩ := b.start_same
  unfold next
  simp [hb.open_, hsr, hrem, close]

end

/-- What came of a body is exactly these bytes. -/
structure Received.Is (r : Received) (data : ByteArray) : Prop where
  bytes : r.bytes = data
  size : r.size = data.size
  newest : r.newest = [] ↔ data.size = 0
  failure : r.failure = none

theorem Received.nothing_is : Received.nothing.Is .empty := ⟨rfl, rfl, by simp [nothing], rfl⟩

theorem Received.bytes_push (r : Received) (chunk : ByteArray) :
    (r.push chunk).bytes = r.bytes ++ chunk := by
  simp [bytes, chunks, push]

theorem Received.Is.push {r : Received} {data chunk : ByteArray} (h : r.Is data)
    (hc : 0 < chunk.size) : (r.push chunk).Is (data ++ chunk) where
  bytes := by rw [bytes_push, h.bytes]
  size := by simp [Received.push, h.size, ByteArray.size_append]
  newest := by
    simp only [Received.push, reduceCtorEq, ByteArray.size_append, false_iff]
    omega
  failure := h.failure

/-- A body is drained until its end or until no more of it is wanted. -/
theorem Connection.drain_steady {σ : Type} {c : Connection σ} {P : σ → Files.Store → Prop}
    {I : Files.Store → Prop} {data : ByteArray} (hw : c.Waits P) (hI : ∀ p f, P p f → I f)
    (request : Http.Request) {fuel : Nat} {received : Received} {got : ByteArray}
    {body : SourceBody} {reader : Reader} {w : World σ} (hg : received.Is got)
    (hb : body.Ahead data) (hp : P w.peer w.files) (hr : reader.Follows I data body.offset)
    (hf : body.remaining < fuel) :
    ∃ n received' body' reader' w',
      c.drain request fuel received body (reader, w) = (received', body', reader', w') ∧
      n ≤ body.remaining ∧ received'.Is (got ++ data.extract body.offset (body.offset + n)) ∧
      body'.changed = false ∧ P w'.peer w'.files ∧
      (n = body.remaining ∨ c.wants request received' w'.peer = false) := by
  induction fuel generalizing received got body reader w with
  | zero => omega
  | succ fuel ih =>
    unfold drain
    by_cases hwants : c.wants request received w.peer
    · simp only [hwants, if_true]
      by_cases hrem : body.remaining = 0
      · obtain ⟨hitem, hsame, hreader⟩ := SourceBody.next_end c.readSource (reader, w) hb hrem
        simp only [hitem]
        refine ⟨0, _, _, _, _, rfl, Nat.zero_le _, ?_, hsame, ?_, .inl hrem.symm⟩
        · simpa using hg
        · rw [hreader]
          exact hp
      · obtain ⟨n, hn, hle, hitem, hoff, hrest, hahead, hp', hr'⟩ :=
          SourceBody.next_steady hw hI hb hp hr hrem
        have hb1 := hb.rest
        have hsize : 0 < (data.extract body.offset (body.offset + n)).size := by
          rw [ByteArray.size_extract]
          omega
        simp only [hitem]
        obtain ⟨m, received', body', reader', w', hd, hm, hg', hsame, hp'', hend⟩ :=
          ih (w := (body.next c.readSource (reader, w)).reader.2.report
              (body.next c.readSource (reader, w)).reports)
            (hg.push hsize) hahead hp' (by rw [hoff]; exact hr') (by omega)
        refine ⟨n + m, received', body', reader', w', hd, by omega, ?_, hsame, hp'', ?_⟩
        · rw [hoff, ByteArray.append_assoc] at hg'
          rw [ByteArray.extract_eq_extract_append_extract (body.offset + n) (by omega) (by omega),
            ← Nat.add_assoc]
          exact hg'
        · rcases hend with he | he
          · exact .inl (by omega)
          · exact .inr he
    · have hfalse : c.wants request received w.peer = false := by simpa using hwants
      simp only [hfalse, Bool.false_eq_true, if_false]
      exact ⟨0, _, _, _, _, rfl, Nat.zero_le _, by simpa using hg, hb.same, hp, .inr hfalse⟩

theorem SourceBody.ofRange_ahead {data : ByteArray} {offset : Nat} (h : offset ≤ data.size)
    (buffer : Nat) (progress : Option Progress.Tracker) :
    (ofRange offset (data.size - offset) buffer progress).Ahead data :=
  ⟨by simp only [ofRange]; omega, rfl, rfl⟩

/-- A request with the rest of a steady source as its body: what the other side received of it are
the next bytes, all of them unless it wanted no more. -/
theorem Connection.send_steady {σ : Type} {c : Connection σ} {P : σ → Files.Store → Prop}
    {I : Files.Store → Prop} {data : ByteArray} (hw : c.Waits P) (hI : ∀ p f, P p f → I f)
    (request : Http.Request) {body : SourceBody} {reader : Reader} {w : World σ}
    (hb : body.Ahead data)
    (hp : P (c.arrive request w.peer w.files).1 (c.arrive request w.peer w.files).2)
    (hr : reader.Follows I data body.offset) :
    ∃ (n : Nat) (received : Received) (body' : SourceBody) (v : World σ), n ≤ body.remaining ∧
      received.Is (data.extract body.offset (body.offset + n)) ∧ body'.changed = false ∧
      P v.peer v.files ∧ (n = body.remaining ∨ c.wants request received v.peer = false) ∧
      c.send request body reader w =
        ((c.answer request received v.peer v.files).1, body',
          { v with
            peer := (c.answer request received v.peer v.files).2.1
            files := (c.answer request received v.peer v.files).2.2 }) := by
  obtain ⟨n, received, body', reader', v, hd, hn, hg, hsame, hp', hend⟩ :=
    drain_steady (w := { w with
        peer := (c.arrive request w.peer w.files).1
        files := (c.arrive request w.peer w.files).2 }) hw hI request Received.nothing_is hb hp hr
      (Nat.lt_succ_self _)
  refine ⟨n, received, body', v, hn, by simpa using hg, hsame, hp', hend, ?_⟩
  simp only [send, hd]

section
variable {σ : Type}

theorem Reader.size_read {files : Files.Store} {count : Nat} {reader next : Reader}
    {chunk : ByteArray} (h : reader.read files count = (.ok chunk, next)) : chunk.size ≤ count := by
  unfold read at h
  split at h
  · cases h
    rw [ByteArray.size_extract]
    omega
  · split at h
    · cases h
    · rename_i entry position data given
      cases h
      unfold Files.Store.readAt at given
      split at given
      · cases given
      · cases given
        rw [Files.Content.read_eq, ByteArray.size_extract]
        omega

theorem Connection.size_readSource {c : Connection σ} {count : Nat} {s t : Reader × World σ}
    {chunk : ByteArray} (h : c.readSource count s = (.ok chunk, t)) : chunk.size ≤ count := by
  rcases read : s.1.read (c.wait s.2).files count with ⟨answer, next⟩
  simp only [readSource, read] at h
  cases h
  exact Reader.size_read read

theorem SourceBody.size_next (c : Connection σ) {b : SourceBody} {s : Reader × World σ}
    {chunk : ByteArray} (h : (b.next c.readSource s).item = some (.ok chunk)) :
    chunk.size + (b.next c.readSource s).body.remaining = b.remaining := by
  obtain ⟨-, rest, -⟩ := b.start_same
  have given {data : ByteArray} {t : Reader × World σ}
      (read : c.readSource b.start.1.want s = (.ok data, t)) :
      data.size + (b.start.1.advance data.size).1.remaining = b.remaining := by
    have few := Connection.size_readSource read
    have left := (b.start.1.advance_same data.size).2.1
    unfold want at few
    omega
  generalize polled : b.next c.readSource s = poll at h ⊢
  unfold next at polled
  split at polled
  · subst polled
    cases h
  · dsimp only at polled
    split at polled
    · subst polled
      cases h
    · split at polled
      · subst polled
        cases h
      · rename_i data t read
        split at polled
        · subst polled
          cases h
        · split at polled
          · subst polled
            cases h
            exact given read
          · split at polled
            · subst polled
              cases h
            · split at polled
              · subst polled
                cases h
                exact given read
              · subst polled
                cases h

theorem Connection.size_drain (c : Connection σ) (request : Http.Request) (fuel : Nat)
    (received : Received) (body : SourceBody) (s : Reader × World σ) :
    (c.drain request fuel received body s).1.bytes.size ≤ received.bytes.size + body.remaining := by
  induction fuel generalizing received body s with
  | zero => exact Nat.le_add_right _ _
  | succ fuel ih =>
    unfold drain
    split
    · dsimp only
      split
      · exact Nat.le_add_right _ _
      · exact Nat.le_add_right _ _
      · rename_i chunk item
        have taken := body.size_next c item
        have rest := ih (received.push chunk) (body.next c.readSource s).body
          ((body.next c.readSource s).reader.1,
            (body.next c.readSource s).reader.2.report (body.next c.readSource s).reports)
        rw [Received.bytes_push, ByteArray.size_append] at rest
        omega
    · exact Nat.le_add_right _ _

end

end ObjectTransfer
