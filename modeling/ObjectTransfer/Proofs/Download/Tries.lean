import ObjectTransfer.Proofs.Crew.Holdings
import ObjectTransfer.Proofs.Download.Fetches
import ObjectTransfer.Proofs.Files.Staging
/-!
The tries of a part. Each try makes a staging file and fills it with what it is given for the range.
When the try fails the file is deleted, and when it does not the file holds the bytes of the part; so
the staging files that are there belong to tries under way and to parts that were fetched.
-/
namespace ObjectTransfer.Download
open Crew Files

/-- The staging file of a try under way, to which nothing has been written yet. -/
def Fetch.file (f : Fetch) : List (Path × ByteArray) := f.answer.toList.map fun a => (a.1, .empty)

def Staged.file (content : ByteArray) (partSize : Nat) (s : Staged) : Path × ByteArray :=
  (s.path, (Part.ofIndex content.size partSize s.index).bytes content)

def filesOf (content : ByteArray) (partSize : Nat) :
    Holding Part Fetch Staged → List (Path × ByteArray)
  | .working _ f => f.file
  | .packed ⟨_, .ok s⟩ => [s.file content partSize]
  | _ => []

inductive Plan.Fits (p : Plan) (content : ByteArray) (log : List Fetched) (files : Store) :
    Holding Part Fetch Staged → Prop
  | queued {part : Part} (untried : part.outcomes log = []) : Fits p content log files (.queued part)
  | asking {part : Part} {policy : RetryPolicy} (accepts : policy.accepts = p.accepts)
      (tried : p.Tried (part.outcomes log) policy.left) :
      Fits p content log files (.working part ⟨part, policy, none⟩)
  | answered {part : Part} {policy : RetryPolicy} {path : Path} {id : Nat} {body : Http.Body}
      {items : List (Except Cause ByteArray)} {earlier : List (Except Error ByteArray)}
      (accepts : policy.accepts = p.accepts) (opened : files.entries.lookup path = some (.file id))
      (given : body.items = items) (right : part.GivenBy content body)
      (outcomes : part.outcomes log = earlier ++ [part.outcome (.ok body)])
      (tried : p.Tried earlier policy.left) :
      Fits p content log files (.working part ⟨part, policy, some (path, id, items)⟩)
  | got {part : Part} {s : Staged} (index : s.index = part.index) (size : s.size = part.size)
      (got : p.Got part log) : Fits p content log files (.packed ⟨some part, .ok s⟩)
  | gaveUp {part : Part} {e : Error} (gaveUp : p.GaveUp part log e) :
      Fits p content log files
        (.packed ⟨some part, .error (.around (.chunkFailed (.download part.index)) e)⟩)
  | received (part : Part) : Fits p content log files (.received part)

variable {σ : Type} {p : Plan} {source : RangeSource σ} {directory : Path} {P : σ → Prop}
  {content shown : ByteArray} {base : Store} {target : Nat} {part : Part}

def standing (p : Plan) (source : RangeSource σ) (directory : Path) (part : Part) :
    Except Error Staged ⊕ Fetch → Holding Part Fetch Staged
  | .inl result => .packed (Crew.State.parcel (craft p source.observed directory) part result)
  | .inr f => .working part f

/-- What the work on a part does to everything else: nothing. -/
structure Onward (P : σ → Prop) (part : Part) (others : List (Path × ByteArray))
    (w w' : World (Fetches σ)) : Prop where
  peer : P w'.peer.peer
  log : ∃ more, w'.peer.log = w.peer.log ++ more ∧ ∀ f ∈ more, f.range = part.range
  names : ∀ {q id}, q ∈ others.map (·.1) → w.files.entries.lookup q = some (.file id) →
    w'.files.entries.lookup q = some (.file id)

/-- A try that has failed is followed by another one, or the part is given up. -/
theorem Fetch.failed_fits {others : List (Path × ByteArray)} {w v : World (Fetches σ)}
    {earlier : List (Except Error ByteArray)} {policy : RetryPolicy} {e : Error}
    (source : RangeSource σ) (directory : Path)
    (answer : Option (Path × Nat × List (Except Cause ByteArray))) (onward : Onward P part others w v)
    (st : Store.Staging base target shown others v.files) (accepts : policy.accepts = p.accepts)
    (tried : p.Tried earlier policy.left)
    (outcomes : part.outcomes v.peer.log = earlier ++ [.error e]) :
    let r := Fetch.failed ⟨part, policy, answer⟩ e v
    let h := standing p source directory part r.1
    Onward P part others w r.2 ∧ p.Fits content r.2.peer.log r.2.files h ∧
      Store.Staging base target shown (filesOf content p.partSize h ++ others) r.2.files := by
  unfold Fetch.failed RetryPolicy.again?
  rw [accepts]
  by_cases again : (p.accepts e && policy.left != 0) = true
  · rw [if_pos again]
    simp only [Bool.and_eq_true, bne_iff_ne] at again
    refine ⟨⟨onward.peer, onward.log, onward.names⟩, .asking rfl ?_, st⟩
    obtain ⟨failures, count⟩ := tried
    change p.Tried (part.outcomes v.peer.log) (policy.left - 1)
    rw [outcomes]
    refine ⟨fun o ho => ?_, ?_⟩
    · rcases List.mem_append.1 ho with ho | ho
      · exact failures o ho
      · exact ⟨e, List.mem_singleton.1 ho, again.1⟩
    · simp only [List.length_append, List.length_singleton]
      omega
  · rw [if_neg again]
    have final : p.accepts e = false ∨ policy.left = 0 := by
      cases accepted : p.accepts e with
      | false => exact .inl rfl
      | true => simpa [accepted] using again
    exact ⟨onward, .gaveUp ⟨earlier, policy.left, outcomes, tried, final⟩, st⟩

/-- The staging file gets all chunks up to the first failure. -/
theorem Fetch.store_staged {path : Path} {id : Nat} {others : List (Path × ByteArray)}
    {b : ByteArray} {w : World (Fetches σ)}
    (st : Store.Staging base target shown ((path, b) :: others) w.files)
    (opened : w.files.entries.lookup path = some (.file id))
    (items : List (Except Cause ByteArray)) :
    let r := Fetch.store id items b.size w
    r.2.peer = w.peer ∧ r.2.files.entries = w.files.entries ∧
      (∀ data, Http.Body.join b items = .ok data → r.1 = .ok data.size ∧
        Store.Staging base target shown ((path, data) :: others) r.2.files) ∧
      ∀ cause, Http.Body.join b items = .error cause → r.1 = .error ⟨.transport, cause⟩ ∧
        ∃ b', Store.Staging base target shown ((path, b') :: others) r.2.files := by
  induction items generalizing b w with
  | nil =>
    refine ⟨rfl, rfl, fun data h => ?_, fun cause h => (by cases h)⟩
    cases h
    exact ⟨rfl, st⟩
  | cons item items ih =>
    cases item with
    | error cause =>
      refine ⟨rfl, rfl, fun data h => (by cases h), fun cause' h => ?_⟩
      cases h
      exact ⟨rfl, b, st⟩
    | ok chunk =>
      have later := ih (w := w.withFiles (w.files.append id chunk)) (st.append opened chunk) opened
      rw [ByteArray.size_append] at later
      exact later

theorem file_got (known : part ∈ Part.split content.size p.partSize)
    (size : Nat) (path : Path) :
    Staged.file content p.partSize ⟨part.index, size, path⟩ = (path, part.bytes content) := by
  obtain ⟨hpart, -⟩ := Part.mem_split known
  rw [Staged.file, ← hpart]

/-- The name of a staging file is not too long, whatever part the file is for. -/
theorem Part.staging_short {part : Part} (word : part.index < Text.Unsigned.limit) (s : Store)
    (directory : Path) (few : s.fresh + s.entries.length < Text.Unsigned.limit) :
    ∃ name, (s.addTemporary directory (".part-" ++ toString part.index ++ "-")).1 =
      directory ++ [name] ∧ name.utf8ByteSize ≤ maxName := by
  refine s.addTemporary_short directory ?_ few
  have digits := Text.size_toString_le word
  have before : ".part-".utf8ByteSize = 6 := by decide
  have after : "-".utf8ByteSize = 1 := by decide
  rw [String.utf8ByteSize_append, String.utf8ByteSize_append, before, after, maxName]
  omega

theorem Fetch.proceed_refused {source : RangeSource σ} {policy : RetryPolicy} {w w' : World σ}
    {path : Path} {id : Nat} {files : Store} {e : Error}
    (hadd : w.files.addTemporary directory (".part-" ++ toString part.index ++ "-") = (path, id, files))
    (hget : source.getRange part.range (w.withFiles files) = (.error e, w')) :
    Fetch.proceed source directory ⟨part, policy, none⟩ w =
      Fetch.failed ⟨part, policy, none⟩ e (w'.withFiles (w'.files.forget path)) := by
  rw [Part.range] at hget
  simp only [Fetch.proceed, hadd, hget]

theorem Fetch.proceed_given {source : RangeSource σ} {policy : RetryPolicy} {w w' : World σ}
    {path : Path} {id : Nat} {files : Store} {body : Http.Body}
    (hadd : w.files.addTemporary directory (".part-" ++ toString part.index ++ "-") = (path, id, files))
    (hget : source.getRange part.range (w.withFiles files) = (.ok body, w')) :
    Fetch.proceed source directory ⟨part, policy, none⟩ w =
      (.inr ⟨part, policy, some (path, id, body.items)⟩, w') := by
  rw [Part.range] at hget
  simp only [Fetch.proceed, hadd, hget]

theorem Fetch.ask_fits (serves : source.Serves P content) (directory : Path) {policy : RetryPolicy}
    {others : List (Path × ByteArray)} {w : World (Fetches σ)} (peer : P w.peer.peer)
    (accepts : policy.accepts = p.accepts)
    (tried : p.Tried (part.outcomes w.peer.log) policy.left)
    (st : Store.Staging base target shown others w.files) :
    let r := Fetch.proceed source.observed directory ⟨part, policy, none⟩ w
    let h := standing p source directory part r.1
    Onward P part others w r.2 ∧ p.Fits content r.2.peer.log r.2.files h ∧
      Store.Staging base target shown (filesOf content p.partSize h ++ others) r.2.files := by
  rcases hadd : w.files.addTemporary directory (".part-" ++ toString part.index ++ "-") with
    ⟨path, id, files⟩
  obtain ⟨added, opened, kept⟩ := st.addTemporary directory (".part-" ++ toString part.index ++ "-")
  rw [hadd] at added opened kept
  obtain ⟨result, peer', hpeer, hget, right⟩ :=
    serves.getRange_observed (w := w.withFiles files) peer part.range
  have names {q : Path} {id' : Nat} (hq : q ∈ others.map (·.1))
      (h : w.files.entries.lookup q = some (.file id')) :
      (files.forget path).entries.lookup q = some (.file id') :=
    (added.forget_names hq).trans (kept h)
  have noted (f : Fetched) (hf : f ∈ [⟨part.range, result⟩]) : f.range = part.range := by
    rw [List.mem_singleton.1 hf]
  cases result with
  | error e =>
    rw [Fetch.proceed_refused hadd hget]
    exact Fetch.failed_fits (w := w) source directory none ⟨hpeer, ⟨_, rfl, noted⟩, names⟩
      added.forget.1 accepts tried (part.outcomes_snoc _ _)
  | ok body =>
    rw [Fetch.proceed_given hadd hget]
    refine ⟨⟨hpeer, ⟨_, rfl, noted⟩, fun _ h => kept h⟩, ?_, added⟩
    exact .answered accepts opened rfl (fun data => right rfl rfl) (part.outcomes_snoc _ _) tried

theorem Fetch.receive_fits (source : RangeSource σ) (directory : Path)
    (known : part ∈ Part.split content.size p.partSize) {policy : RetryPolicy} {path : Path} {id : Nat}
    {body : Http.Body} {items : List (Except Cause ByteArray)}
    {earlier : List (Except Error ByteArray)} {others : List (Path × ByteArray)}
    {w : World (Fetches σ)} (peer : P w.peer.peer) (accepts : policy.accepts = p.accepts)
    (opened : w.files.entries.lookup path = some (.file id)) (given : body.items = items)
    (right : part.GivenBy content body)
    (outcomes : part.outcomes w.peer.log = earlier ++ [part.outcome (.ok body)])
    (tried : p.Tried earlier policy.left)
    (st : Store.Staging base target shown ((path, .empty) :: others) w.files) :
    let r := Fetch.proceed source.observed directory ⟨part, policy, some (path, id, items)⟩ w
    let h := standing p source directory part r.1
    Onward P part others w r.2 ∧ p.Fits content r.2.peer.log r.2.files h ∧
      Store.Staging base target shown (filesOf content p.partSize h ++ others) r.2.files := by
  subst given
  obtain ⟨samePeer, entries, whole, broken⟩ := Fetch.store_staged st opened body.items
  rw [ByteArray.size_empty] at samePeer entries whole broken
  rcases hstore : Fetch.store id body.items 0 w with ⟨result, v⟩
  rw [hstore] at samePeer entries whole broken
  dsimp only at samePeer entries whole broken
  have onward : Onward P part others w v :=
    ⟨samePeer ▸ peer, ⟨[], by simp [samePeer], fun f hf => (by cases hf)⟩,
      fun _ h => (by rw [entries]; exact h)⟩
  have given_up {b : ByteArray} (st' : Store.Staging base target shown ((path, b) :: others) v.files) :
      Onward P part others w (v.withFiles (v.files.forget path)) :=
    ⟨onward.peer, onward.log, fun hq h => (st'.forget_names hq).trans (onward.names hq h)⟩
  unfold Fetch.proceed
  simp only [hstore]
  cases joined : Http.Body.join .empty body.items with
  | error cause =>
    obtain ⟨rfl, b, st'⟩ := broken cause joined
    have failed : part.outcome (.ok body) = .error ⟨.transport, cause⟩ := by
      simp only [Part.outcome, joined]
    rw [failed, ← samePeer] at outcomes
    exact Fetch.failed_fits source directory _ (given_up st') st'.forget.1 accepts tried outcomes
  | ok data =>
    obtain ⟨rfl, st'⟩ := whole data joined
    dsimp only
    by_cases size : data.size = part.size
    · have got : part.outcome (.ok body) = .ok data := by
        simp only [Part.outcome, joined, size, if_true]
      rw [got, ← samePeer] at outcomes
      rw [if_pos size]
      refine ⟨onward, .got rfl size ⟨earlier, policy.left, data, outcomes, tried⟩, ?_⟩
      rw [right data joined size] at st'
      have file := file_got known data.size path
      change Store.Staging base target shown ([Staged.file content p.partSize _] ++ others) v.files
      rw [file]
      exact st'
    · have failed : part.outcome (.ok body) =
          .error (.transport (.wrongPartLength part.index data.size part.size)) := by
        simp only [Part.outcome, joined, size, if_false]
      rw [failed, ← samePeer] at outcomes
      rw [if_neg size]
      exact Fetch.failed_fits source directory _ (given_up st') st'.forget.1 accepts tried outcomes

theorem Fetch.proceed_fits (serves : source.Serves P content) (directory : Path)
    (known : part ∈ Part.split content.size p.partSize) {f : Fetch} {others : List (Path × ByteArray)}
    {w : World (Fetches σ)} (peer : P w.peer.peer)
    (fits : p.Fits content w.peer.log w.files (.working part f))
    (st : Store.Staging base target shown (f.file ++ others) w.files) :
    let r := Fetch.proceed source.observed directory f w
    let h := standing p source directory part r.1
    Onward P part others w r.2 ∧ p.Fits content r.2.peer.log r.2.files h ∧
      Store.Staging base target shown (filesOf content p.partSize h ++ others) r.2.files := by
  cases fits with
  | asking accepts tried => exact ask_fits serves directory peer accepts tried st
  | answered accepts opened given right outcomes tried =>
    exact receive_fits source directory known peer accepts opened given right outcomes tried st

end ObjectTransfer.Download
