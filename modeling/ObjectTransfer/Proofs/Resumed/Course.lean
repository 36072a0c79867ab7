import ObjectTransfer.Proofs.Resumed.Attempts
/-!
The course of a resumed download. A call that is given the object either goes on with a destination that
the tracker file vouches for, or begins again; from then on the destination holds the first bytes of the
object and grows, until the call fails or the object is complete.
-/
namespace ObjectTransfer

namespace Version
open TrackerFile

/-- The length that can be kept of a destination `a` beside a tracker file `b`. -/
def kept (v : Version) (a b : Option ByteArray) : Option Nat :=
  match v.eTag, a with
  | some eTag, some data =>
    if tokenIn b = some eTag then
      if data.size ≤ v.content.size then some data.size else none
    else none
  | _, _ => none

/-- The length from which a download goes on. -/
def start (v : Version) (a b : Option ByteArray) : Nat := (v.kept a b).getD 0

/-- The tracker file while the version is fetched. -/
def noted (v : Version) (a b : Option ByteArray) : Option ByteArray :=
  match v.kept a b with
  | some _ => b
  | none => (v.eTag.map line).or b

def Trusts (v : Version) (a b : Option ByteArray) : Prop :=
  ∀ n, v.kept a b = some n → a = some (v.upTo n)

def Digested (v : Version) : Prop :=
  ∀ digest, v.eTag.bind Download.plainMd5 = some digest → Digest.md5Hex v.content = digest

variable {v : Version} {a b : Option ByteArray} {n : Nat}

theorem kept_upTo {eTag : String} (tag : v.eTag = some eTag) (loads : tokenIn b = some eTag)
    (le : n ≤ v.content.size) : v.kept (some (v.upTo n)) b = some n := by
  unfold kept
  rw [tag]
  dsimp only
  rw [if_pos loads, v.size_upTo le, if_pos le]

theorem kept_stale {eTag : String} (tag : v.eTag = some eTag) (stale : tokenIn b ≠ some eTag)
    (a : Option ByteArray) : v.kept a b = none := by
  unfold kept
  rw [tag]
  cases a with
  | none => rfl
  | some data => exact if_neg stale

theorem kept_untagged (tag : v.eTag = none) (a b : Option ByteArray) : v.kept a b = none := by
  unfold kept
  rw [tag]

theorem noted_untagged (tag : v.eTag = none) (a b : Option ByteArray) : v.noted a b = b := by
  rw [noted, kept_untagged tag, tag]
  rfl

theorem kept_missing (v : Version) (b : Option ByteArray) : v.kept none b = none := by
  unfold kept
  cases v.eTag with
  | none => rfl
  | some eTag => rfl

theorem start_upTo {eTag : String} (tag : v.eTag = some eTag) (loads : tokenIn b = some eTag)
    (le : n ≤ v.content.size) : v.start (some (v.upTo n)) b = n := by
  rw [start, kept_upTo tag loads le, Option.getD_some]

theorem start_stale {eTag : String} (tag : v.eTag = some eTag) (stale : tokenIn b ≠ some eTag)
    (a : Option ByteArray) : v.start a b = 0 := by
  rw [start, kept_stale tag stale, Option.getD_none]

theorem trusts_upTo {eTag : String} (tag : v.eTag = some eTag) (loads : tokenIn b = some eTag)
    (le : n ≤ v.content.size) : v.Trusts (some (v.upTo n)) b := by
  intro m kept
  rw [kept_upTo tag loads le] at kept
  cases kept
  rfl

theorem trusts_stale {eTag : String} (tag : v.eTag = some eTag) (stale : tokenIn b ≠ some eTag)
    (a : Option ByteArray) : v.Trusts a b := by
  intro m kept
  rw [kept_stale tag stale] at kept
  cases kept

theorem tokenIn_of_kept {eTag : String} (tag : v.eTag = some eTag) (h : v.kept a b = some n) :
    tokenIn b = some eTag := by
  by_contra stale
  rw [kept_stale tag stale] at h
  cases h

/-- While a version is fetched, its tag is what the tracker file holds. -/
theorem tokenIn_noted {eTag : String} (tag : v.eTag = some eTag)
    (faithful : token? (eTag ++ "\n") = some eTag) (a b : Option ByteArray) :
    tokenIn (v.noted a b) = some eTag := by
  unfold noted
  cases h : v.kept a b with
  | some n => exact tokenIn_of_kept tag h
  | none =>
    rw [tag, Option.map_some, Option.some_or, tokenIn_line]
    exact faithful

theorem kept_le (h : v.kept a b = some n) : n ≤ v.content.size := by
  unfold kept at h
  split at h
  · split at h
    · split at h
      · rename_i fits
        cases h
        exact fits
      · cases h
    · cases h
  · cases h

theorem start_le (v : Version) (a b : Option ByteArray) : v.start a b ≤ v.content.size := by
  unfold start
  cases h : v.kept a b with
  | none => exact Nat.zero_le _
  | some n => exact kept_le h

end Version

namespace Download
open Relation Files TrackerFile

variable {σ : Type} {destination : String} {t : TrackerFile} {files : Store}
  {a b : Option ByteArray} {v : Version}

theorem Handler.resumable?_eq {h : Handler} (tracked : h.tracker = some t)
    (beside : files.Beside destination t.path a b) :
    h.resumable? destination v.object files = v.kept a b := by
  unfold Handler.resumable? Version.kept Version.object
  rw [tracked]
  cases v.eTag with
  | none => rfl
  | some eTag =>
    dsimp only
    rw [load_beside beside]
    cases a with
    | none =>
      rw [beside.size_none]
      split <;> rfl
    | some data => rw [beside.size]

/-- A destination that is what its tag promises stands, and another one is deleted. -/
theorem Handler.verify_eq {w : World σ} (beside : w.files.Beside destination t.path (some v.content) b) :
    v.Digested ∧ verify destination v.eTag w = (.ok (), w) ∨
      ¬ v.Digested ∧ ∃ expected files, v.eTag.bind plainMd5 = some expected ∧
        Digest.md5Hex v.content ≠ expected ∧
        verify destination v.eTag w =
          (.error (.resumable .abort (.downloadCorrupted (Digest.md5Hex v.content) expected)),
            w.withFiles files) ∧
        files.Beside destination t.path none b := by
  unfold verify
  cases digest : v.eTag.bind plainMd5 with
  | none => exact .inl ⟨fun d h => (by rw [digest] at h; cases h), rfl⟩
  | some expected =>
    dsimp only
    rw [beside.md5]
    dsimp only
    by_cases same : Digest.md5Hex v.content = expected
    · rw [if_pos same]
      refine .inl ⟨fun d h => ?_, rfl⟩
      rw [digest] at h
      cases h
      exact same
    · rw [if_neg same]
      obtain ⟨files, removed, beside⟩ := beside.remove
      rw [removed]
      exact .inr ⟨fun h => same (h expected digest), expected, files, rfl, same, rfl, beside⟩

namespace Call
variable {c : Call σ} {P : σ → Prop} {F : Error → Prop} {m : Metrics} {k : Nat} {p q : Moment σ}

/-- The call has changed no file: the destination is `a` and the tracker file is `b`. -/
inductive Idle (c : Call σ) (t : TrackerFile) (P : σ → Prop) (a b : Option ByteArray) (m : Metrics) :
    Moment σ → Prop
  | begun {w : World σ} (peer : P w.peer) (files : w.files.Beside c.destination t.path a b)
      (metrics : w.metrics = m) : Idle c t P a b m (.begun w)
  | refused {e : Error} {w : World σ} (peer : P w.peer)
      (files : w.files.Beside c.destination t.path a b) : Idle c t P a b m (.ended (.error e) w)

/-- The destination holds the first `k` bytes of the version, and the tracker file vouches for it. -/
inductive Busy (c : Call σ) (t : TrackerFile) (P : σ → Prop) (F : Error → Prop) (v : Version)
    (a b : Option ByteArray) (m : Metrics) : (k : Nat) → Moment σ → Prop
  | emptied {w : World σ} (peer : P w.peer)
      (files : w.files.Beside c.destination t.path (some (v.upTo 0)) b)
      (metrics : w.metrics = m.initiate) (new : v.kept a b = none) :
      Busy c t P F v a b m 0 (.emptied v.object w)
  | fetching {k : Nat} {g : Try σ} {phase : Job.Phase σ} (object : g.object = v.object)
      (start : g.start = v.start a b)
      (stands : (c.job g.object.size).Stands P F v t (v.noted a b) m.initiate k phase) :
      Busy c t P F v a b m k (.fetching g phase)
  | failed {k : Nat} {e : Error} {w : World σ} {y : Option ByteArray} (peer : P w.peer)
      (le : k ≤ v.content.size) (files : w.files.Beside c.destination t.path (some (v.upTo k)) y)
      (tracker : y = v.noted a b ∨ y = none ∧ ∃ e, F e ∧ e.disposition = some .abort) :
      Busy c t P F v a b m k (.ended (.error e) w)
  | complete {out : DownloadOutput} {w : World σ} (peer : P w.peer)
      (files : w.files.Beside c.destination t.path (some v.content) none)
      (metrics : w.metrics = m.initiate.record (.ok out : Except Error DownloadOutput)
        (v.content.size - v.start a b)) :
      Busy c t P F v a b m v.content.size (.ended (.ok out) w)

/-- The object was complete but not what its tag promises, and nothing of it is left. -/
inductive Rejected (c : Call σ) (t : TrackerFile) (P : σ → Prop) (v : Version) : Moment σ → Prop
  | deleted {e : Error} {w : World σ} (peer : P w.peer) (differs : ¬ v.Digested)
      (files : w.files.Beside c.destination t.path none none) :
      Rejected c t P v (.ended (.error e) w)

theorem Idle.beside (idle : Idle c t P a b m p) :
    p.world.files.Beside c.destination t.path a b := by
  cases idle with
  | begun peer files metrics => exact files
  | refused peer files => exact files

theorem Busy.beside (busy : Busy c t P F v a b m k p) :
    k ≤ v.content.size ∧ ∃ y, p.world.files.Beside c.destination t.path (some (v.upTo k)) y := by
  cases busy with
  | emptied peer files metrics new => exact ⟨Nat.zero_le _, _, files⟩
  | fetching object start stands =>
    cases stands with
    | trying holding => exact ⟨holding.le, _, holding.files⟩
    | receiving holding opened follows => exact ⟨holding.le, _, holding.files⟩
    | tried holding complete aborts => exact ⟨holding.le, _, holding.files⟩
  | failed peer le files tracker => exact ⟨le, _, files⟩
  | complete peer files metrics => exact ⟨Nat.le_refl _, _, v.upTo_size.symm ▸ files⟩

theorem busy_first {w : World σ} (peer : P w.peer)
    (files : w.files.Beside c.destination t.path (some (v.upTo (v.start a b))) (v.noted a b))
    (metrics : w.metrics = m.initiate) :
    Busy c t P F v a b m (v.start a b) (first v.object (v.start a b) w) :=
  .fetching rfl rfl (.trying ⟨rfl, v.start_le a b, peer, files, metrics⟩)

theorem busy_begins {w : World σ} (tracked : c.handler.tracker = some t) (trusts : v.Trusts a b)
    (peer : P w.peer) (files : w.files.Beside c.destination t.path a b)
    (metrics : w.metrics = m.initiate) :
    Busy c t P F v a b m (v.start a b) (c.begins v.object w) ∧
      (c.begins v.object w).world.peer = w.peer ∧
      (v.kept a b = none → v.content.size ≠ 0 → ∃ w', c.begins v.object w = .emptied v.object w') := by
  obtain ⟨id, made, created, beside, -⟩ := files.create
  have emptied : (w.withFiles made).files.Beside c.destination t.path (some (v.upTo 0)) b := by
    rw [v.upTo_zero]
    exact beside
  unfold begins
  by_cases empty : v.object.size = 0
  · have zero : v.content.size = 0 := empty
    have start : v.start a b = v.content.size := by
      have bound := v.start_le a b
      omega
    have whole : v.upTo 0 = v.content := zero ▸ v.upTo_size
    rw [if_pos empty, created, tracked, start]
    rw [whole] at emptied
    refine ⟨.complete peer (remove_beside emptied) ?_, rfl,
      fun _ size => absurd zero size⟩
    rw [start, Nat.sub_self, ← metrics]
    rfl
  · rw [if_neg empty, Handler.resumable?_eq tracked files]
    cases kept : v.kept a b with
    | some n =>
      have start : v.start a b = n := by rw [Version.start, kept, Option.getD_some]
      have noted : v.noted a b = b := by rw [Version.noted, kept]
      have same : a = some (v.upTo (v.start a b)) := start ▸ trusts n kept
      dsimp only
      rw [← start]
      refine ⟨busy_first peer ?_ metrics, rfl, fun h => by cases h⟩
      rw [noted]
      exact same ▸ files
    | none =>
      have start : v.start a b = 0 := by rw [Version.start, kept, Option.getD_none]
      rw [created, start]
      exact ⟨.emptied peer emptied metrics kept, rfl, fun _ _ => ⟨_, rfl⟩⟩

theorem Idle.next (idle : Idle c t P a b m p) (tracked : c.handler.tracker = some t)
    (streams : c.source.Streams P F v) (trusts : v.Trusts a b) (next : c.Next p q) :
    (Idle c t P a b m q ∨ Busy c t P F v a b m (v.start a b) q ∧
      (v.kept a b = none → v.content.size ≠ 0 → ∃ w', q = .emptied v.object w')) ∧
      q.world.peer = (c.source.inspect p.world.peer p.world.files).2.1 := by
  cases idle with
  | refused peer files => cases next
  | begun peer files metrics =>
    rename_i w
    cases next
    obtain ⟨peer', same⟩ := streams.inspect w.peer w.files peer
    have world : c.source.objectMeta { w with metrics := w.metrics.initiate } =
        ((c.source.inspect w.peer w.files).1,
          { w with
            peer := (c.source.inspect w.peer w.files).2.1
            metrics := w.metrics.initiate }) := by
      unfold RangeSource.objectMeta
      dsimp only
      rw [same]
    unfold opened
    rw [world]
    cases gave : (c.source.inspect w.peer w.files).1 with
    | error e => exact ⟨.inl (.refused peer' files), rfl⟩
    | ok object =>
      obtain rfl := streams.object peer gave
      obtain ⟨busy, kept, empties⟩ := busy_begins (F := F) (m := m) tracked trusts
        (w := { w with
          peer := (c.source.inspect w.peer w.files).2.1
          metrics := w.metrics.initiate }) peer' files (congrArg Metrics.initiate metrics)
      exact ⟨.inr ⟨busy, empties⟩, kept⟩

theorem busy_noted {w : World σ} (tracked : c.handler.tracker = some t) (peer : P w.peer)
    (files : w.files.Beside c.destination t.path (some (v.upTo 0)) b)
    (metrics : w.metrics = m.initiate) (new : v.kept a b = none) :
    Busy c t P F v a b m 0 (c.noted v.object w) ∧ (c.noted v.object w).world.peer = w.peer := by
  have start : v.start a b = 0 := by rw [Version.start, new, Option.getD_none]
  have fresh : v.noted a b = (v.eTag.map line).or b := by rw [Version.noted, new]
  have begin (u : World σ) (peer : P u.peer)
      (files : u.files.Beside c.destination t.path (some (v.upTo 0)) (v.noted a b))
      (metrics : u.metrics = m.initiate) : Busy c t P F v a b m 0 (first v.object 0 u) := by
    have busy := busy_first (c := c) (F := F) (a := a) peer (start.symm ▸ files) metrics
    rwa [start] at busy
  have tag : v.object.eTag = v.eTag := rfl
  unfold noted
  rw [tracked, tag]
  cases eTag : v.eTag with
  | none =>
    rw [eTag, Option.map_none, Option.none_or] at fresh
    exact ⟨begin w peer (fresh.symm ▸ files) metrics, rfl⟩
  | some eTag' =>
    rw [eTag, Option.map_some, Option.some_or] at fresh
    obtain ⟨after, saved, beside⟩ := save_beside files eTag'
    dsimp only
    rw [saved]
    exact ⟨begin (w.withFiles after) peer (fresh.symm ▸ beside) metrics, rfl⟩

/-- The last attempt was made: the call fails and leaves what it has got, or the object is complete. -/
theorem busy_closed {s : State σ} {object : ObjectMeta} {result : Except Error Unit} {pauses : List Nat}
    {number : Nat} (tracked : c.handler.tracker = some t) (given : object = v.object)
    (stands : (c.job object.size).Stands P F v t (v.noted a b) m.initiate k (.tried result s)) :
    (Busy c t P F v a b m k (c.closed object (v.start a b) ⟨result, s, number, pauses⟩) ∨
      Rejected c t P v (c.closed object (v.start a b) ⟨result, s, number, pauses⟩)) ∧
    (c.closed object (v.start a b) ⟨result, s, number, pauses⟩).world.peer = s.world.peer := by
  cases stands with
  | tried holding complete aborts =>
    cases result with
    | error e =>
      exact ⟨.inl (.failed holding.peer holding.le holding.files (.inl rfl)), rfl⟩
    | ok u =>
      obtain rfl := complete rfl
      have whole := holding.files
      rw [v.upTo_size] at whole
      have files : (t.remove s.world.files).Beside c.destination t.path (some v.content) none :=
        remove_beside whole
      have tag : v.object.eTag = v.eTag := rfl
      unfold closed settled
      dsimp only
      rw [tracked, given, tag]
      rcases Handler.verify_eq (w := forget (some t) (s.world.pauseAll (pauses.map .backoff))) files with
        ⟨-, same⟩ | ⟨differs, expected, after, -, -, same, gone⟩
      · rw [same]
        refine ⟨.inl (.complete holding.peer files ?_), rfl⟩
        rw [← holding.metrics]
        rfl
      · rw [same]
        exact ⟨.inr (.deleted holding.peer differs gone), rfl⟩

theorem busy_turned {g : Try σ} {s : State σ} {result : Except Error Unit}
    (tracked : c.handler.tracker = some t) (object : g.object = v.object)
    (start : g.start = v.start a b)
    (stands : (c.job g.object.size).Stands P F v t (v.noted a b) m.initiate k (.tried result s)) :
    (Busy c t P F v a b m k (c.turned g result s) ∨ Rejected c t P v (c.turned g result s)) ∧
      (c.turned g result s).world.peer = s.world.peer := by
  unfold turned
  rw [start]
  cases turn : ((c.job g.object.size).resumable.always (result, s)).turn c.handler.retries (g.made + 1)
      g.idle g.before with
  | again idle s' =>
    obtain ⟨e, same, -, -, -⟩ := Resumable.turn_again turn
    cases same
    cases stands with
    | tried holding complete aborts =>
      exact ⟨.inl (.fetching object rfl (.trying holding)), rfl⟩
  | done result' s' =>
    cases Resumable.turn_done turn with
    | finished same =>
      cases same
      exact busy_closed tracked object stands
    | left same kept =>
      cases same
      exact busy_closed tracked object stands
    | exhausted same retryable =>
      cases same
      cases stands with
      | tried holding complete aborts =>
        exact ⟨.inl (.failed holding.peer holding.le holding.files (.inl rfl)), rfl⟩
    | abandoned same abort =>
      rename_i e s''
      cases same
      cases stands with
      | tried holding complete aborts =>
        have discarded : (c.job g.object.size).discard s =
            { s with world := s.world.withFiles (t.remove s.world.files) } := by
          have tracker : (c.job g.object.size).tracker = some t := tracked
          rw [Job.discard, tracker]
          rfl
        have gone : ((c.job g.object.size).resumable.always (.error e, s)).discard s =
            (c.job g.object.size).discard s := rfl
        rw [gone, discarded]
        exact ⟨.inl (.failed holding.peer holding.le (remove_beside holding.files)
          (.inr ⟨rfl, e, aborts e rfl abort, abort⟩)), rfl⟩

/-- Whatever a call does then, the destination does not get shorter until it is known to be wrong, and
what is asked for is the rest behind it. -/
theorem Busy.next (busy : Busy c t P F v a b m k p) (tracked : c.handler.tracker = some t)
    (streams : c.source.Streams P F v) (next : c.Next p q) :
    ((∃ k', k ≤ k' ∧ Busy c t P F v a b m k' q) ∨ Rejected c t P v q) ∧
      (c.job v.content.size).Asks k p.world q.world := by
  cases busy with
  | failed peer le files tracker => cases next
  | complete peer files metrics => cases next
  | emptied peer files metrics new =>
    cases next
    obtain ⟨busy, kept⟩ := busy_noted (F := F) tracked peer files metrics new
    exact ⟨.inl ⟨0, Nat.le_refl 0, busy⟩, .inl kept⟩
  | fetching object start stands =>
    cases next with
    | goes step =>
      have total := congrArg ObjectMeta.size object
      obtain ⟨k', le', stands', asks⟩ := stands.next streams total step
      exact ⟨.inl ⟨k', le', .fetching object start stands'⟩, asks⟩
    | turns g result s =>
      obtain ⟨settles, kept⟩ := busy_turned tracked object start stands
      exact ⟨settles.imp_left fun busy => ⟨k, Nat.le_refl k, busy⟩, .inl kept⟩

inductive Stands (c : Call σ) (t : TrackerFile) (P : σ → Prop) (F : Error → Prop) (v : Version)
    (a b : Option ByteArray) (m : Metrics) (p : Moment σ) : Prop
  | idle (idle : Idle c t P a b m p)
  | busy {k : Nat} (busy : Busy c t P F v a b m k p)
  | rejected (rejected : Rejected c t P v p)

theorem Stands.next (stands : Stands c t P F v a b m p) (tracked : c.handler.tracker = some t)
    (streams : c.source.Streams P F v) (trusts : v.Trusts a b) (next : c.Next p q) :
    Stands c t P F v a b m q := by
  cases stands with
  | idle idle =>
    rcases (idle.next tracked streams trusts next).1 with idle | ⟨busy, -⟩
    · exact .idle idle
    · exact .busy busy
  | busy busy =>
    rcases (busy.next tracked streams next).1 with ⟨k, -, busy⟩ | rejected
    · exact .busy busy
    · exact .rejected rejected
  | rejected rejected =>
    cases rejected
    cases next

theorem Stands.path (stands : Stands c t P F v a b m p) (tracked : c.handler.tracker = some t)
    (streams : c.source.Streams P F v) (trusts : v.Trusts a b) (path : ReflTransGen c.Next p q) :
    Stands c t P F v a b m q := by
  induction path with
  | refl => exact stands
  | tail _ next ih => exact ih.next tracked streams trusts next

end Call

end Download

end ObjectTransfer
