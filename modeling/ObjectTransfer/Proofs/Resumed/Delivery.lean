import ObjectTransfer.Proofs.Rehearsal.MemoryObject
import ObjectTransfer.Proofs.Resumed.Course
import ObjectTransfer.Proofs.Resumed.Unwatched
/-!
Resumed downloads as they end. Handlers are made one after the other, with the same destination and the
same tracker file, until one of them has the object: every byte of it is appended once.
-/
namespace ObjectTransfer

theorem RangeSource.Streams.observed {σ : Type} {r : RangeSource σ} {P : σ → Prop}
    {F : Error → Prop} {v : Version} (streams : r.Streams P F v) :
    r.observed.Streams (fun s => P s.peer) F v where
  inspect s files peer := streams.inspect s.peer files peer
  fetch range s files peer := streams.fetch range s.peer files peer
  object := streams.object
  failure := streams.failure
  body := streams.body

namespace Download
open Relation Files TrackerFile
variable {σ : Type}

/-- The call is made for this object with this destination and this tracker file. -/
structure Call.For (source : RangeSource σ) (destination : String) (t : TrackerFile) (c : Call σ) :
    Prop where
  source : c.source = source
  destination : c.destination = destination
  tracker : c.handler.tracker = some t

/-- A call that is under way, under observation. -/
structure Visit (σ : Type) where
  call : Call σ
  moment : Call.Moment (Fetches σ)

namespace Visit

/-- Calls are made one after the other, until one succeeds. -/
inductive Next (Q : Call σ → Prop) : Visit σ → Visit σ → Prop
  | goes {c : Call σ} {p q : Call.Moment (Fetches σ)} (step : c.observed.Next p q) :
      Next Q ⟨c, p⟩ ⟨c, q⟩
  | again {c c' : Call σ} {e : Error} {w : World (Fetches σ)} (allowed : Q c') :
      Next Q ⟨c, .ended (.error e) w⟩ ⟨c', .begun w⟩

def Comes (Q : Call σ → Prop) : Visit σ → Visit σ → Prop := ReflTransGen (Next Q)

def files (x : Visit σ) : Store := x.moment.world.files

def log (x : Visit σ) : List Fetched := x.moment.world.peer.log

/-- Nothing was done: the destination is `a` and the tracker file is `b`, no range was asked for and no
call succeeded. -/
structure Untouched (destination : String) (t : TrackerFile) (a b : Option ByteArray) (x : Visit σ) :
    Prop where
  files : x.files.Beside destination t.path a b
  log : x.log = []
  failed : ∀ out w, x.moment ≠ .ended (.ok out) w

/-- The destination holds the first bytes of the content. What comes next does not make it shorter, and
asks for nothing but the rest behind it. A call that fails leaves the tag in the tracker file, and one
that succeeds leaves the content and no tracker file. -/
structure Appends (Q : Call σ → Prop) (v : Version) (eTag destination : String)
    (t : TrackerFile) (x : Visit σ) : Prop where
  next : ∃ k, k ≤ v.content.size ∧ x.files.Holds destination (some (v.upTo k)) ∧
    ∀ y, Next Q x y → ∃ k', k ≤ k' ∧ k' ≤ v.content.size ∧
      y.files.Holds destination (some (v.upTo k')) ∧
      (y.log = x.log ∨ ∃ result, y.log = x.log ++ [⟨.allFrom k, result⟩])
  failed : ∀ e w, x.moment = .ended (.error e) w → t.load x.files = some eTag
  succeeded : ∀ out w, x.moment = .ended (.ok out) w →
    x.files.Holds destination (some v.content) ∧ x.files.Holds t.path none

end Visit

/-- The length that is kept of a destination: all of it when the tracker file holds the tag. -/
def keptLength (destination : String) (t : TrackerFile) (eTag : String) (files : Store) : Nat :=
  if t.load files = some eTag then (files.size destination).toOption.getD 0 else 0

variable {source : RangeSource σ} {P : σ → Prop} {F : Error → Prop} {v : Version}
  {eTag destination : String} {t : TrackerFile} {a b : Option ByteArray}

/-- A source of one version, which refuses nothing for good. The tag can be read from a tracker file as it
was, and when it is a digest it is that of the content. -/
structure Sourced (source : RangeSource σ) (P : σ → Prop) (F : Error → Prop) (v : Version)
    (eTag : String) : Prop where
  streams : source.Streams P F v
  spares : ∀ e, F e → e.disposition ≠ some .abort
  tag : v.eTag = some eTag
  plain : Plain eTag
  digested : v.Digested

theorem Sourced.observed (sourced : Sourced source P F v eTag) {c : Call σ}
    (made : c.For source destination t) :
    c.observed.source.Streams (fun s => P s.peer) F v := by
  have same : c.observed.source = source.observed := congrArg RangeSource.observed made.source
  rw [same]
  exact sourced.streams.observed

namespace Visit
variable {x y : Visit σ} {k : Nat}

structure Waits (source : RangeSource σ) (destination : String) (t : TrackerFile) (P : σ → Prop)
    (a b : Option ByteArray) (x : Visit σ) : Prop where
  made : x.call.For source destination t
  log : x.log = []
  idle : ∃ m, Call.Idle x.call.observed t (fun s => P s.peer) a b m x.moment

/-- The destination holds the first `k` bytes since a call emptied it. -/
inductive Grows (source : RangeSource σ) (destination : String) (t : TrackerFile) (P : σ → Prop)
    (F : Error → Prop) (v : Version) (eTag : String) (k : Nat) (x : Visit σ) : Prop
  | idle {b : Option ByteArray} {m : Metrics} (made : x.call.For source destination t)
      (le : k ≤ v.content.size) (loads : tokenIn b = some eTag)
      (idle : Call.Idle x.call.observed t (fun s => P s.peer) (some (v.upTo k)) b m x.moment) :
      Grows source destination t P F v eTag k x
  | busy {a b : Option ByteArray} {m : Metrics} (made : x.call.For source destination t)
      (busy : Call.Busy x.call.observed t (fun s => P s.peer) F v a b m k x.moment) :
      Grows source destination t P F v eTag k x

theorem log_of_asks {c : Call σ} {total : Nat} {w w' : World (Fetches σ)}
    (asks : (c.observed.job total).Asks k w w') :
    w'.peer.log = w.peer.log ∨ ∃ result, w'.peer.log = w.peer.log ++ [⟨.allFrom k, result⟩] := by
  rcases asks with same | asked
  · exact .inl (congrArg Fetches.log same)
  · exact .inr ⟨_, congrArg Fetches.log asked⟩

theorem Grows.holds (grows : Grows source destination t P F v eTag k x) :
    k ≤ v.content.size ∧ x.files.Holds destination (some (v.upTo k)) := by
  cases grows with
  | idle made le loads idle =>
    have holds := idle.beside.holds
    exact ⟨le, made.destination ▸ holds⟩
  | busy made busy =>
    obtain ⟨le, y, files⟩ := busy.beside
    have holds := files.holds
    exact ⟨le, made.destination ▸ holds⟩

theorem Waits.next (waits : Waits source destination t P a b x)
    (sourced : Sourced source P F v eTag) (nonempty : v.content.size ≠ 0)
    (stale : tokenIn b ≠ some eTag) (next : Next (Call.For source destination t) x y) :
    Waits source destination t P a b y ∨
      Grows source destination t P F v eTag 0 y ∧
        ∃ object w, y.moment = .emptied object w := by
  have start := Version.start_stale sourced.tag stale a
  have trusts := Version.trusts_stale sourced.tag stale a
  obtain ⟨made, log, m, idle⟩ := waits
  cases next with
  | again allowed =>
    cases idle with
    | refused peer files =>
      have destination := allowed.destination.trans made.destination.symm
      exact .inl ⟨allowed, log, _, .begun peer (destination ▸ files) rfl⟩
  | goes step =>
    obtain ⟨settles, peer⟩ := idle.next made.tracker (sourced.observed made) trusts step
    rcases settles with idle | ⟨busy, empties⟩
    · exact .inl ⟨made, (congrArg Fetches.log peer).trans log, m, idle⟩
    · obtain ⟨w, emptied⟩ := empties (Version.kept_stale sourced.tag stale a) nonempty
      exact .inr ⟨.busy made (start ▸ busy), _, w, emptied⟩

theorem Grows.next (grows : Grows source destination t P F v eTag k x)
    (sourced : Sourced source P F v eTag)
    (next : Next (Call.For source destination t) x y) :
    ∃ k', k ≤ k' ∧ Grows source destination t P F v eTag k' y ∧
      (y.log = x.log ∨ ∃ result, y.log = x.log ++ [⟨.allFrom k, result⟩]) := by
  cases grows with
  | idle made le loads idle =>
    cases next with
    | again allowed =>
      cases idle with
      | refused peer files =>
        have destination := allowed.destination.trans made.destination.symm
        exact ⟨k, Nat.le_refl k, .idle allowed le loads (.begun peer (destination ▸ files) rfl),
          .inl rfl⟩
    | goes step =>
      have start := Version.start_upTo sourced.tag loads le
      have trusts := Version.trusts_upTo sourced.tag loads le
      obtain ⟨settles, peer⟩ := idle.next made.tracker (sourced.observed made) trusts step
      refine ⟨k, Nat.le_refl k, ?_, .inl ((congrArg Fetches.log peer).trans rfl)⟩
      rcases settles with idle | ⟨busy, -⟩
      · exact .idle made le loads idle
      · rw [start] at busy
        exact .busy made busy
  | busy made busy =>
    cases next with
    | again allowed =>
      cases busy with
      | failed peer le files tracker =>
        have destination := allowed.destination.trans made.destination.symm
        rcases tracker with rfl | ⟨-, e, failure, abort⟩
        · exact ⟨k, Nat.le_refl k, .idle allowed le
            (Version.tokenIn_noted sourced.tag sourced.plain.token?_line _ _)
            (.begun peer (destination ▸ files) rfl), .inl rfl⟩
        · exact absurd abort (sourced.spares e failure)
    | goes step =>
      obtain ⟨settles, asks⟩ := busy.next made.tracker (sourced.observed made) step
      rcases settles with ⟨k', le, busy⟩ | rejected
      · exact ⟨k', le, .busy made busy, log_of_asks asks⟩
      · cases rejected with
        | deleted peer differs files =>
          exact absurd (fun digest h => sourced.digested digest h) differs

theorem Grows.appends (grows : Grows source destination t P F v eTag k x)
    (sourced : Sourced source P F v eTag) :
    Appends (Call.For source destination t) v eTag destination t x where
  next := by
    obtain ⟨le, holds⟩ := grows.holds
    refine ⟨k, le, holds, fun y next => ?_⟩
    obtain ⟨k', le', grows', log⟩ := grows.next sourced next
    obtain ⟨bound, holds'⟩ := grows'.holds
    exact ⟨k', le', bound, holds', log⟩
  failed e w ended := by
    obtain ⟨c, p⟩ := x
    obtain rfl : p = .ended (.error e) w := ended
    cases grows with
    | idle made le loads idle =>
      exact (load_beside idle.beside).trans loads
    | busy made busy =>
      cases busy with
      | failed peer le files tracker =>
        rcases tracker with rfl | ⟨-, e, failure, abort⟩
        · exact (load_beside files).trans
            (Version.tokenIn_noted sourced.tag sourced.plain.token?_line _ _)
        · exact absurd abort (sourced.spares e failure)
  succeeded out w ended := by
    obtain ⟨c, p⟩ := x
    obtain rfl : p = .ended (.ok out) w := ended
    cases grows with
    | idle made le loads idle => cases idle
    | busy made busy =>
      cases busy with
      | complete peer files metrics =>
        have files : w.files.Beside c.destination t.path (some v.content) none := files
        rw [made.destination] at files
        exact ⟨files.holds, files.swap.holds⟩

theorem Grows.comes (grows : Grows source destination t P F v eTag k x)
    (sourced : Sourced source P F v eTag)
    (comes : Comes (Call.For source destination t) x y) :
    ∃ k', Grows source destination t P F v eTag k' y := by
  induction comes with
  | refl => exact ⟨k, grows⟩
  | tail _ next ih =>
    obtain ⟨k', grows'⟩ := ih
    obtain ⟨k'', -, grows'', -⟩ := grows'.next sourced next
    exact ⟨k'', grows''⟩

/-- Nothing is done until a call empties the destination, and after that it grows. -/
theorem Waits.comes (waits : Waits source destination t P a b x)
    (sourced : Sourced source P F v eTag) (nonempty : v.content.size ≠ 0)
    (stale : tokenIn b ≠ some eTag) (comes : Comes (Call.For source destination t) x y) :
    Waits source destination t P a b y ∨
      ∃ c object w, Comes (Call.For source destination t) x ⟨c, .emptied object w⟩ ∧
        Comes (Call.For source destination t) ⟨c, .emptied object w⟩ y ∧
        Grows source destination t P F v eTag 0 ⟨c, .emptied object w⟩ := by
  induction comes with
  | refl => exact .inl waits
  | @tail y z before next ih =>
    rcases ih with waits | ⟨c, object, w, first, later, grows⟩
    · refine (waits.next sourced nonempty stale next).imp_right ?_
      rintro ⟨grows, object, w, emptied⟩
      obtain ⟨c, p⟩ := z
      obtain rfl : p = .emptied object w := emptied
      exact ⟨c, object, w, before.tail next, .refl, grows⟩
    · exact .inr ⟨c, object, w, first, later.tail next, grows⟩

/-- A call begins beside files that it can trust, and what it keeps is known. -/
structure Begins (source : RangeSource σ) (destination : String) (t : TrackerFile) (P : σ → Prop)
    (v : Version) (eTag : String) (a b : Option ByteArray) (c : Call σ)
    (w : World (Fetches σ)) : Prop where
  made : c.For source destination t
  idle : Call.Idle c.observed t (fun s => P s.peer) a b w.metrics (.begun w)
  trusts : v.Trusts a b
  kept : v.start a b = keptLength destination t eTag w.files

theorem Waits.begins {c : Call σ} {w : World (Fetches σ)}
    (waits : Waits source destination t P a b ⟨c, .begun w⟩)
    (sourced : Sourced source P F v eTag) (stale : tokenIn b ≠ some eTag) :
    Begins source destination t P v eTag a b c w := by
  obtain ⟨made, -, m, idle⟩ := waits
  have other : t.load w.files ≠ some eTag := (load_beside idle.beside).trans_ne stale
  cases idle with
  | begun peer files metrics =>
    refine ⟨made, .begun peer files rfl, Version.trusts_stale sourced.tag stale a, ?_⟩
    rw [Version.start_stale sourced.tag stale, keptLength, if_neg other]

theorem Grows.begins {c : Call σ} {w : World (Fetches σ)}
    (grows : Grows source destination t P F v eTag k ⟨c, .begun w⟩)
    (sourced : Sourced source P F v eTag) :
    ∃ a b, Begins source destination t P v eTag a b c w := by
  cases grows with
  | busy made busy => cases busy
  | @idle b m made le loads idle =>
    have known : t.load w.files = some eTag := (load_beside idle.beside).trans loads
    have length : w.files.size destination = .ok (v.upTo k).size :=
      made.destination ▸ idle.beside.size
    rw [Version.size_upTo le] at length
    cases idle with
    | begun peer files metrics =>
      refine ⟨_, b, made, .begun peer files rfl, Version.trusts_upTo sourced.tag loads le, ?_⟩
      rw [Version.start_upTo sourced.tag loads le, keptLength, if_pos known, length]
      rfl

/-- A call that has enough attempts ends. The bytes it counts are those that were missing. -/
theorem Begins.get {c : Call σ} {w : World (Fetches σ)}
    (begins : Begins source destination t P v eTag a b c w)
    (sourced : Sourced source P F v eTag) {limit : Nat}
    (enough : (v.content.size + 1) * (c.handler.retries + 1) ≤ limit) :
    ∃ result w', c.observed.get limit w = some (result, w') ∧
      c.get limit (unwatched w) = some (result, unwatched w') ∧
      ReflTransGen c.observed.Next (.begun w) (.ended result w') ∧
      ∀ out, result = .ok out → w'.metrics.bytes =
        w.metrics.bytes + (v.content.size - keptLength destination t eTag w.files) := by
  obtain ⟨made, idle, trusts, kept⟩ := begins
  have along {q : Call.Moment (Fetches σ)} (path : ReflTransGen c.observed.Next (.begun w) q) :=
    (Call.Stands.idle (F := F) idle).path made.tracker (sourced.observed made) trusts path
  have ends : (c.observed.get limit w).isSome := by
    refine Call.get_isSome fun object start w' path => ?_
    cases along path with
    | idle idle => cases idle
    | rejected rejected => cases rejected
    | @busy k busy =>
      cases busy with
      | fetching given start stands =>
        cases stands with
        | trying holding =>
          have fewer : v.content.size - k + 1 ≤ v.content.size + 1 := by omega
          exact holding.run_isSome (F := F) (sourced.observed made) (congrArg ObjectMeta.size given)
            (Nat.le_trans (Nat.mul_le_mul_right _ fewer) enough)
  obtain ⟨⟨result, w'⟩, run⟩ := Option.isSome_iff_exists.1 ends
  have path := Call.get_path run
  refine ⟨result, w', run, ?_, path, ?_⟩
  · rw [c.get_unwatched, run]
    rfl
  · rintro out rfl
    cases along path with
    | idle idle => cases idle
    | rejected rejected => cases rejected
    | busy busy =>
      cases busy with
      | complete peer files metrics =>
        rw [← kept, metrics]
        rfl

theorem comes_of_path {Q : Call σ → Prop} {c : Call σ} {p q : Call.Moment (Fetches σ)}
    (path : ReflTransGen c.observed.Next p q) : Comes Q ⟨c, p⟩ ⟨c, q⟩ := by
  have lifts : c.observed.Next ≤ Function.onFun (Next Q) (Visit.mk c) := fun _ _ => Next.goes
  exact ReflTransGen.lift (Visit.mk c) lifts _ _ path

end Visit

/-- Calls of any handlers with one tracker file download an object to one destination, until one of them
succeeds. The destination is left alone until a call is given the object and empties it. From then on it
holds the first bytes of the content and never gets shorter, nothing is asked for but the rest behind it,
and calls that fail leave the tag in the tracker file. The call that succeeds leaves the content and no
tracker file, and counts the bytes that were missing when it began. With enough attempts every call
ends. -/
theorem resumed_download_appends_once {w : World σ} {c : Call σ}
    (sourced : Sourced source P F v eTag) (nonempty : v.content.size ≠ 0) (peer : P w.peer)
    (files : w.files.Beside destination t.path a b) (stale : t.load w.files ≠ some eTag)
    (made : c.For source destination t) :
    (∀ x, Visit.Comes (Call.For source destination t) ⟨c, .begun (watched w)⟩ x →
      x.Untouched destination t a b ∨
      ∃ c' object w', Visit.Comes (Call.For source destination t) ⟨c, .begun (watched w)⟩
          ⟨c', .emptied object w'⟩ ∧
        Visit.Comes (Call.For source destination t) ⟨c', .emptied object w'⟩ x) ∧
    (∀ c' object w' x, Visit.Comes (Call.For source destination t) ⟨c, .begun (watched w)⟩
        ⟨c', .emptied object w'⟩ →
      Visit.Comes (Call.For source destination t) ⟨c', .emptied object w'⟩ x →
      x.Appends (Call.For source destination t) v eTag destination t) ∧
    (∀ c' w' limit, Visit.Comes (Call.For source destination t) ⟨c, .begun (watched w)⟩
        ⟨c', .begun w'⟩ → (v.content.size + 1) * (c'.handler.retries + 1) ≤ limit →
      ∃ result w'', c'.observed.get limit w' = some (result, w'') ∧
        c'.get limit (unwatched w') = some (result, unwatched w'') ∧
        Visit.Comes (Call.For source destination t) ⟨c, .begun (watched w)⟩ ⟨c', .ended result w''⟩ ∧
        ∀ out, result = .ok out → w''.metrics.bytes =
          w'.metrics.bytes + (v.content.size - keptLength destination t eTag w'.files)) := by
  have stale : tokenIn b ≠ some eTag := load_beside files ▸ stale
  have waits : Visit.Waits source destination t P a b ⟨c, .begun (watched w)⟩ :=
    ⟨made, rfl, _, .begun peer (made.destination.symm ▸ files) rfl⟩
  refine ⟨fun x comes => ?_, fun c' object w' x first later => ?_, fun c' w' limit comes enough => ?_⟩
  · rcases waits.comes sourced nonempty stale comes with waits' | ⟨c', object, w', first, later, -⟩
    · left
      obtain ⟨made', log, m, idle⟩ := waits'
      have same : x.call.observed.destination = destination := made'.destination
      refine ⟨same ▸ idle.beside, log, fun out w' ended => ?_⟩
      rw [ended] at idle
      cases idle
    · exact .inr ⟨c', object, w', first, later⟩
  · rcases waits.comes sourced nonempty stale first with waits' | ⟨_, _, _, -, before, grows⟩
    · obtain ⟨-, -, m, idle⟩ := waits'
      cases idle
    · obtain ⟨k, grows⟩ := grows.comes sourced (before.trans later)
      exact grows.appends sourced
  · have begins : ∃ a b, Visit.Begins source destination t P v eTag a b c' w' := by
      rcases waits.comes sourced nonempty stale comes with waits' | ⟨_, _, _, -, before, grows⟩
      · exact ⟨a, b, waits'.begins sourced stale⟩
      · obtain ⟨k, grows⟩ := grows.comes sourced before
        exact grows.begins sourced
    obtain ⟨a', b', begins⟩ := begins
    obtain ⟨result, w'', run, same, path, bytes⟩ := begins.get sourced enough
    exact ⟨result, w'', run, same, comes.trans (Visit.comes_of_path path), bytes⟩

def threeTagged : Version := ⟨⟨#[1, 2, 3]⟩, some "v"⟩

open Rehearsal in
/-- The answers are cut off after two bytes and after none. -/
def flaky : MemoryObject := ⟨threeTagged.content, threeTagged.eTag, [], [2, 0], #[]⟩

open Rehearsal in
/-- Downloads the object to `out`, without retries, and keeps its tag in `t`. -/
def once : Call MemoryObject := ⟨⟨some ⟨"t"⟩, 0⟩, MemoryObject.source, "out", 8192, none⟩

theorem sourced_flaky : Sourced Rehearsal.MemoryObject.source
    (fun o => o.data = threeTagged.content ∧ o.eTag = threeTagged.eTag)
    (fun e => e.disposition ≠ some .abort) threeTagged "v" where
  streams := Rehearsal.MemoryObject.streams threeTagged
  spares e h := h
  tag := rfl
  plain := ⟨by decide, by decide, by decide⟩
  digested digest h := by cases h

theorem beside_empty : Store.empty.Beside "out" "t" none none :=
  ⟨["out"], ["t"], none, none,
    ⟨⟨rfl, ⟨[], "out", rfl, by decide, rfl⟩, .missing rfl⟩, fun id h => (by cases h)⟩,
    ⟨⟨rfl, ⟨[], "t", rfl, by decide, rfl⟩, .missing rfl⟩, fun id h => (by cases h)⟩,
    by decide, fun id h => (by cases h), rfl, rfl⟩

/-- The first call gets two bytes, and the second one the last byte. -/
theorem interrupted_download_appends_once :
    ∃ (e : Error) (w₁ : World Rehearsal.MemoryObject) (out : DownloadOutput)
      (w₂ : World Rehearsal.MemoryObject),
      once.get 4 (.initial flaky .empty) = some (.error e, w₁) ∧
      TrackerFile.load ⟨"t"⟩ w₁.files = some "v" ∧
      once.get 4 w₁ = some (.ok out, w₂) ∧
      w₂.files.Holds "out" (some threeTagged.content) ∧ w₂.files.Holds "t" none ∧
      w₂.metrics.bytes = w₁.metrics.bytes + 1 := by
  have made : once.For Rehearsal.MemoryObject.source "out" ⟨"t"⟩ := ⟨rfl, rfl, rfl⟩
  obtain ⟨untouched, appends, gets⟩ := resumed_download_appends_once (c := once)
    (w := .initial flaky .empty) sourced_flaky (by decide) ⟨rfl, rfl⟩ beside_empty (by decide) made
  -- what the two calls come to
  have runs : (once.observed.get 4 (watched (.initial flaky .empty))).map (fun r =>
      (r.1.isOk, r.2.peer.log.length, keptLength "out" ⟨"t"⟩ "v" r.2.files,
        (once.observed.get 4 r.2).map (·.1.isOk))) = some (false, 2, 2, some true) := by
    decide +kernel
  obtain ⟨result, w₁, run, same, comes, -⟩ := gets once _ 4 .refl (by decide)
  rw [run] at runs
  obtain ⟨failed, asked, kept, again⟩ : result.isOk = false ∧ w₁.peer.log.length = 2 ∧
      keptLength "out" ⟨"t"⟩ "v" w₁.files = 2 ∧
      (once.observed.get 4 w₁).map (·.1.isOk) = some true := by
    simpa using runs
  cases result with
  | ok out => cases failed
  | error e =>
    obtain ⟨result', w₂, run', same', comes', bytes⟩ :=
      gets once w₁ 4 (comes.tail (.again made)) (by decide)
    rw [run'] at again
    cases result' with
    | error e' => cases again
    | ok out =>
      rcases untouched _ comes with none | ⟨c, object, w, first, later⟩
      · have length := congrArg List.length none.log
        exact absurd (asked.symm.trans length) (by decide)
      rcases untouched _ comes' with none | ⟨c', object', w', first', later'⟩
      · exact absurd rfl (none.failed out w₂)
      obtain ⟨holds, missing⟩ := (appends c' object' w' _ first' later').succeeded out w₂ rfl
      refine ⟨e, unwatched w₁, out, unwatched w₂, same, ?_, same', holds, missing, ?_⟩
      · exact (appends c object w _ first later).failed e w₁ rfl
      · have counted := bytes out rfl
        rw [kept] at counted
        exact counted

end Download

end ObjectTransfer
