import ObjectTransfer.Proofs.Resumed.Delivery
/-!
Resumed downloads of objects that change. Handlers with one tracker file and one destination are given
one version after the other. As long as no download of a version without a tag is interrupted while the
tracker file holds the tag of another one, no bytes of two versions come together.
-/
namespace ObjectTransfer

/-- An object of a larger whole is given as the object itself is. -/
theorem RangeSource.Streams.within {σ τ : Type} {r : RangeSource σ} {P : σ → Prop} {F : Error → Prop}
    {v : Version} (streams : r.Streams P F v) {part : τ → σ} {put : σ → τ → τ} {R : τ → Prop}
    (holds : ∀ x, R x → P (part x)) (puts : ∀ x s, R x → P s → R (put s x)) :
    (r.within part put).Streams R F v where
  inspect x files h :=
    ⟨puts x _ h (streams.inspect (part x) files (holds x h)).1,
      (streams.inspect (part x) files (holds x h)).2⟩
  fetch range x files h :=
    ⟨puts x _ h (streams.fetch range (part x) files (holds x h)).1,
      (streams.fetch range (part x) files (holds x h)).2⟩
  object h := streams.object (holds _ h)
  failure h := streams.failure (holds _ h)
  body h := streams.body (holds _ h)

namespace Download
open Files TrackerFile
variable {σ ι : Type} {source : ι → RangeSource σ} {version : ι → Version} {P : σ → Prop}
  {F : Error → Prop} {destination : String} {t : TrackerFile} {a b : Option ByteArray} {w : World σ}

/-- Objects of one peer, each of which is one version. Versions whose tags are the same, or become the
same in a tracker file, have the same content. -/
structure Served (source : ι → RangeSource σ) (version : ι → Version) (P : σ → Prop)
    (F : Error → Prop) : Prop where
  streams : ∀ i, (source i).Streams P F (version i)
  same : ∀ i j eTag eTag', (version i).eTag = some eTag → (version j).eTag = some eTag' →
    eTag = eTag' ∨ token? (eTag ++ "\n") = some eTag' → (version i).content = (version j).content

/-- Calls that were made one after the other, each for one of the objects; `A` says of an object, of the
world before the call, of the result and of the world after it which calls are meant. -/
inductive Gets (source : ι → RangeSource σ) (destination : String) (t : TrackerFile)
    (A : ι → World σ → Except Error DownloadOutput → World σ → Prop) (w : World σ) : World σ → Prop
  | start : Gets source destination t A w w
  | get {i : ι} {c : Call σ} {limit : Nat} {result : Except Error DownloadOutput} {w' w'' : World σ}
      (before : Gets source destination t A w w') (made : c.For (source i) destination t)
      (run : c.get limit w' = some (result, w'')) (meant : A i w' result w'') :
      Gets source destination t A w w''

/-- A tag in the tracker file vouches for the destination, and a call that succeeds leaves what it was
given. -/
structure KeptApart (source : ι → RangeSource σ) (version : ι → Version) (destination : String)
    (t : TrackerFile) (w : World σ) : Prop where
  vouches : ∀ i eTag, (version i).eTag = some eTag → t.load w.files = some eTag →
    w.files.Holds destination none ∨
      ∃ k, k ≤ (version i).content.size ∧ w.files.Holds destination (some ((version i).upTo k))
  delivers : ∀ i c limit out w', Call.For (source i) destination t c →
    c.get limit w = some (.ok out, w') → w'.files.Holds destination (some (version i).content)

/-- The destination `a` is what the tracker file `b` promises. -/
def Vouched (version : ι → Version) (a b : Option ByteArray) : Prop :=
  ∀ i eTag, (version i).eTag = some eTag → tokenIn b = some eTag →
    a = none ∨ ∃ k, k ≤ (version i).content.size ∧ a = some ((version i).upTo k)

/-- What is kept between two calls. -/
structure Between (version : ι → Version) (P : σ → Prop) (destination : String) (t : TrackerFile)
    (a b : Option ByteArray) (w : World σ) : Prop where
  peer : P w.peer
  files : w.files.Beside destination t.path a b
  vouched : Vouched version a b

theorem Vouched.trusts (vouched : Vouched version a b) (i : ι) : (version i).Trusts a b := by
  intro n kept
  cases tag : (version i).eTag with
  | none =>
    rw [Version.kept_untagged tag] at kept
    cases kept
  | some eTag =>
    have loads := Version.tokenIn_of_kept tag kept
    rcases vouched i eTag tag loads with rfl | ⟨k, le, rfl⟩
    · rw [Version.kept_missing] at kept
      cases kept
    · rw [Version.kept_upTo tag loads le] at kept
      cases kept
      rfl

theorem Served.vouched (served : Served source version P F) {i : ι} {eTag : String}
    (tag : (version i).eTag = some eTag) {k : Nat} (le : k ≤ (version i).content.size) :
    Vouched version (some ((version i).upTo k)) ((version i).noted a b) := by
  intro j eTag' tag' loads
  have near : eTag = eTag' ∨ token? (eTag ++ "\n") = some eTag' := by
    unfold Version.noted at loads
    cases kept : (version i).kept a b with
    | some n =>
      rw [kept] at loads
      have own := Version.tokenIn_of_kept tag kept
      rw [own] at loads
      cases loads
      exact .inl rfl
    | none =>
      rw [kept, tag, Option.map_some, Option.some_or, tokenIn_line] at loads
      exact .inr loads
  have content := served.same i j eTag eTag' tag tag' near
  refine .inr ⟨k, content ▸ le, ?_⟩
  rw [Version.upTo, Version.upTo, content]

theorem vouched_none (a : Option ByteArray) : Vouched version a none := fun i eTag tag loads => by
  cases loads

theorem Between.stands (between : Between version P destination t a b w)
    (served : Served source version P F) {i : ι} {c : Call σ} {limit : Nat}
    {result : Except Error DownloadOutput} {w' : World σ} (made : c.For (source i) destination t)
    (run : c.get limit w = some (result, w')) :
    Call.Stands c t P F (version i) a b w.metrics (.ended result w') := by
  have streams : c.source.Streams P F (version i) := made.source ▸ served.streams i
  have idle : Call.Idle c t P a b w.metrics (.begun w) :=
    .begun between.peer (made.destination.symm ▸ between.files) rfl
  exact (Call.Stands.idle idle).path made.tracker streams (between.vouched.trusts i)
    (Call.get_path run)

/-- What is known between two calls stays true, unless a call for a version without a tag fails after it
has changed a destination for which a tag vouches. -/
theorem Between.next (between : Between version P destination t a b w)
    (served : Served source version P F) {i : ι} {c : Call σ} {limit : Nat}
    {result : Except Error DownloadOutput} {w' : World σ} (made : c.For (source i) destination t)
    (run : c.get limit w = some (result, w'))
    (careful : (version i).eTag = none → ∀ e, result = .error e →
      ∀ j eTag, (version j).eTag = some eTag → t.load w.files = some eTag → w'.files = w.files) :
    ∃ a' b', Between version P destination t a' b' w' := by
  have stands := between.stands served made run
  have same := made.destination
  cases stands with
  | idle idle =>
    cases idle with
    | refused peer files => exact ⟨a, b, peer, same ▸ files, between.vouched⟩
  | rejected rejected =>
    cases rejected with
    | deleted peer differs files => exact ⟨none, none, peer, same ▸ files, vouched_none _⟩
  | busy busy =>
    cases busy with
    | complete peer files metrics => exact ⟨_, none, peer, same ▸ files, vouched_none _⟩
    | @failed k e w' y peer le files tracker =>
      rcases tracker with rfl | ⟨rfl, -⟩
      · cases tag : (version i).eTag with
        | some eTag => exact ⟨_, _, peer, same ▸ files, served.vouched tag le⟩
        | none =>
          by_cases noted : ∃ j eTag, (version j).eTag = some eTag ∧ t.load w.files = some eTag
          · obtain ⟨j, eTag, tag', loads⟩ := noted
            have unchanged := careful tag e rfl j eTag tag' loads
            exact ⟨a, b, peer, unchanged ▸ between.files, between.vouched⟩
          · rw [Version.noted_untagged tag, same] at files
            refine ⟨_, b, peer, files, fun j eTag tag' loads => ?_⟩
            exact absurd ⟨j, eTag, tag', (load_beside between.files).trans loads⟩ noted
      · exact ⟨_, none, peer, same ▸ files, vouched_none _⟩

theorem Between.keptApart (between : Between version P destination t a b w)
    (served : Served source version P F) : KeptApart source version destination t w where
  vouches i eTag tag loads := by
    have holds := between.files.holds
    rcases between.vouched i eTag tag ((load_beside between.files).symm.trans loads) with
      rfl | ⟨k, le, rfl⟩
    · exact .inl holds
    · exact .inr ⟨k, le, holds⟩
  delivers i c limit out w' made run := by
    cases between.stands served made run with
    | idle idle => cases idle
    | rejected rejected => cases rejected
    | busy busy =>
      cases busy with
      | complete peer files metrics => exact made.destination ▸ files.holds

/-- However often downloads are interrupted and the object changes, a tag in the tracker file vouches for
the destination and a download that succeeds leaves the version that it was given. This takes that a call
for a version without a tag does not fail after it has changed the destination while the tracker file
holds the tag of a version. -/
theorem resumed_downloads_keep_versions_apart {w w' : World σ}
    {A : ι → World σ → Except Error DownloadOutput → World σ → Prop}
    (served : Served source version P F) (peer : P w.peer)
    (files : w.files.Beside destination t.path a none)
    (careful : ∀ i w r w', A i w r w' → (version i).eTag = none → ∀ e, r = .error e →
      ∀ j eTag, (version j).eTag = some eTag → t.load w.files = some eTag → w'.files = w.files)
    (gets : Gets source destination t A w w') : KeptApart source version destination t w' := by
  have between : ∃ a b, Between version P destination t a b w' := by
    induction gets with
    | start => exact ⟨a, none, peer, files, vouched_none a⟩
    | @get i c limit result w' w'' before made run meant ih =>
      obtain ⟨a, b, between⟩ := ih
      exact between.next served made run (careful i w' result w'' meant)
  obtain ⟨a, b, between⟩ := between
  exact between.keptApart served

section
open Rehearsal

/-- An object with a tag and one without. -/
def versions : Bool → Version
  | true => ⟨⟨#[97, 97, 97, 97, 97, 97, 97, 97, 97, 97]⟩, some "\"v1\""⟩
  | false => ⟨⟨#[98, 98, 98, 98, 98, 98, 98, 98, 98, 98]⟩, none⟩

def objects : Bool → RangeSource (MemoryObject × MemoryObject)
  | true => MemoryObject.source.within Prod.fst fun o p => (o, p.2)
  | false => MemoryObject.source.within Prod.snd fun o p => (p.1, o)

/-- The objects are these two versions, whatever was arranged for their answers. -/
structure Unchanged (p : MemoryObject × MemoryObject) : Prop where
  tagged : p.1.data = (versions true).content ∧ p.1.eTag = (versions true).eTag
  untagged : p.2.data = (versions false).content ∧ p.2.eTag = (versions false).eTag

/-- The answers of the first object are cut off after three bytes and after none, those of the second one
after five bytes and after none. -/
def changing : MemoryObject × MemoryObject :=
  (⟨(versions true).content, (versions true).eTag, [], [3, 0], #[]⟩,
    ⟨(versions false).content, (versions false).eTag, [], [5, 0], #[]⟩)

/-- Downloads one of the objects to `out`, without retries, and keeps its tag in `t`. -/
def visit (tagged : Bool) : Call (MemoryObject × MemoryObject) :=
  ⟨⟨some ⟨"t"⟩, 0⟩, objects tagged, "out", 8192, none⟩

theorem visit_for (tagged : Bool) : (visit tagged).For (objects tagged) "out" ⟨"t"⟩ := ⟨rfl, rfl, rfl⟩

theorem served_objects : Served objects versions Unchanged (fun e => e.disposition ≠ some .abort) where
  streams i := by
    cases i with
    | true =>
      change (MemoryObject.source.within Prod.fst fun o p => (o, p.2)).Streams _ _ _
      exact (MemoryObject.streams (versions true)).within (fun _ h => h.tagged)
        fun _ _ h given => ⟨given, h.untagged⟩
    | false =>
      change (MemoryObject.source.within Prod.snd fun o p => (p.1, o)).Streams _ _ _
      exact (MemoryObject.streams (versions false)).within (fun _ h => h.untagged)
        fun _ _ h given => ⟨h.tagged, given⟩
  same i j eTag eTag' tag tag' _ := by
    cases i with
    | false => cases tag
    | true =>
      cases j with
      | false => cases tag'
      | true => rfl

/-- The first call gets three bytes, and the second one the rest. -/
theorem interrupted_version_is_completed :
    ∃ (e : Error) (w : World (MemoryObject × MemoryObject)) (out : DownloadOutput)
      (w' : World (MemoryObject × MemoryObject)),
      (visit true).get 11 (.initial changing .empty) = some (.error e, w) ∧
      (visit true).get 11 w = some (.ok out, w') ∧
      w'.files.Holds "out" (some (versions true).content) := by
  have runs : ((visit true).get 11 (.initial changing .empty)).map (fun r =>
      (r.1.isOk, ((visit true).get 11 r.2).map (·.1.isOk))) = some (false, some true) := by
    decide +kernel
  obtain ⟨⟨result, w⟩, run, same⟩ := Option.map_eq_some_iff.1 runs
  obtain ⟨failed, again⟩ := Prod.mk.inj same
  obtain ⟨⟨result', w'⟩, run', came⟩ := Option.map_eq_some_iff.1 again
  cases result with
  | ok out => cases failed
  | error e =>
    cases result' with
    | error e' => cases came
    | ok out =>
      have apart := resumed_downloads_keep_versions_apart (A := fun i _ _ _ => i = true)
        served_objects ⟨⟨rfl, rfl⟩, rfl, rfl⟩ beside_empty
        (fun i w r w' h none => by subst h; cases none) (.get .start (visit_for true) run rfl)
      exact ⟨e, w, out, w', run, run', apart.delivers true _ 11 out w' (visit_for true) run'⟩

/-- A version without a tag that is interrupted leaves the tracker file as it was. The object that has the
tag in it is then gone on with behind bytes of the other one, and the download succeeds. -/
theorem interrupted_untagged_version_is_mixed :
    Served objects versions Unchanged (fun e => e.disposition ≠ some .abort) ∧ Unchanged changing ∧
    Store.empty.Beside "out" "t" none none ∧
    ∃ w out w', Gets objects "out" ⟨"t"⟩ (fun _ _ _ _ => True) (.initial changing .empty) w ∧
      (visit true).get 11 w = some (.ok out, w') ∧
      w'.files.readAll "out" = .ok ⟨#[98, 98, 98, 98, 98, 97, 97, 97, 97, 97]⟩ ∧
      ¬ KeptApart objects versions "out" ⟨"t"⟩ w := by
  refine ⟨served_objects, ⟨⟨rfl, rfl⟩, rfl, rfl⟩, beside_empty, ?_⟩
  have runs : ((visit true).get 11 (.initial changing .empty)).bind (fun r =>
      ((visit false).get 11 r.2).bind fun r => ((visit true).get 11 r.2).map fun r =>
        (r.1.isOk, (r.2.files.readAll "out").toOption)) =
      some (true, some ⟨#[98, 98, 98, 98, 98, 97, 97, 97, 97, 97]⟩) := by
    decide +kernel
  obtain ⟨⟨r₁, w₁⟩, run₁, runs⟩ := Option.bind_eq_some_iff.1 runs
  obtain ⟨⟨r₂, w₂⟩, run₂, runs⟩ := Option.bind_eq_some_iff.1 runs
  obtain ⟨⟨r₃, w₃⟩, run₃, same⟩ := Option.map_eq_some_iff.1 runs
  obtain ⟨came, bytes⟩ := Prod.mk.inj same
  have read : w₃.files.readAll "out" = .ok ⟨#[98, 98, 98, 98, 98, 97, 97, 97, 97, 97]⟩ := by
    cases h : w₃.files.readAll "out" with
    | error f => rw [h] at bytes; cases bytes
    | ok data => rw [h] at bytes; cases bytes; rfl
  cases r₃ with
  | error e => cases came
  | ok out =>
    have gets : Gets objects "out" ⟨"t"⟩ (fun _ _ _ _ => True) (.initial changing .empty) w₂ :=
      .get (.get .start (visit_for true) run₁ trivial) (visit_for false) run₂ trivial
    refine ⟨w₂, out, w₃, gets, run₃, read, fun apart => ?_⟩
    have whole := (apart.delivers true _ 11 out w₃ (visit_for true) run₃).readAll_some
    rw [read] at whole
    exact absurd (Except.ok.inj whole) (by decide)

end

end Download

end ObjectTransfer
