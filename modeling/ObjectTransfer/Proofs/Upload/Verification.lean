import ObjectTransfer.Proofs.Resumed.Endings
import ObjectTransfer.Proofs.Upload.Deletions
import ObjectTransfer.Proofs.Upload.Repeats
/-!
Which entity tags an upload takes for the digest of its source. A tag that is read as a digest by
downloads may have capital letters in it; an upload compares letter by letter, and so takes only those
without any.
-/
namespace ObjectTransfer.Upload
open Http Rehearsal Handler Job

/-- No letter of the text is a capital one. -/
def Small (s : String) : Prop := ∀ c ∈ s.toList, c.isUpper = false

instance (s : String) : Decidable (Small s) := List.decidableBAll _ s.toList

theorem toLower_eq_iff (c : Char) : c.toLower = c ↔ c.isUpper = false := by
  unfold Char.toLower Char.isUpper
  split
  · rename_i capital
    simpa [Char.ext_iff] using capital
  · rename_i other
    simpa using other

theorem digestOf_eq_iff {eTag digest : String} (read : Download.plainMd5 eTag = some digest) :
    digestOf eTag = digest ↔ Small eTag := by
  obtain ⟨before, digits, after, same, front, back, -, hex, rfl⟩ := Download.plainMd5_eq_some_iff.1 read
  have unquoted : ∀ c ∈ digits, (c == '"' || c == '\'') = false := by
    intro c mem
    rw [Bool.or_eq_false_iff, beq_eq_false_iff_ne, beq_eq_false_iff_ne]
    refine ⟨?_, ?_⟩
    · rintro rfl
      exact absurd (hex _ mem) (by decide)
    · rintro rfl
      exact absurd (hex _ mem) (by decide)
  have stripped : digestOf eTag = String.ofList digits := by
    rw [digestOf, same, Text.stripBy_eq (fun c mem => by simp [front c mem])
      (fun c mem => by simp [back c mem]) unquoted]
  have quote : '"'.isUpper = false := by decide
  have lower : String.ofList digits = String.ofList (digits.map Char.toLower) ↔
      ∀ c ∈ digits, c.isUpper = false := by
    have same := List.map_inj_left (l := digits) (f := Char.toLower) (g := id)
    rw [List.map_id] at same
    rw [String.ofList_inj, eq_comm, same]
    exact forall₂_congr fun c _ => toLower_eq_iff c
  rw [stripped, lower, Small, same]
  simp only [List.mem_append, or_imp, forall_and]
  exact ⟨fun small => ⟨⟨fun c mem => front c mem ▸ quote, small⟩, fun c mem => back c mem ▸ quote⟩,
    fun small => small.1.2⟩

section
variable {σ : Type} {u : Job σ} {s t v : State σ} {eTag : String} {uri : SessionUri}

/-- The store answers an attempt with the tag of the object: it tells of a session that it has everything,
or it takes the rest of the source, which was found as it was declared. -/
inductive Job.Arrives (u : Job σ) (s : State σ) (eTag : String) : Prop
  | told {uri : SessionUri} (size : u.source.size (u.begun s).world.files = .ok u.total)
      (held : s.session.uri = some uri)
      (tagged : Answer.Tagged (u.connection.exchange (queryRequest uri u.total) (u.begun s).world).1 eTag) :
      Arrives u s eTag
  | sent {t : State σ} {uri : SessionUri} {reader : Reader} (streams : u.Streams s t uri reader)
      (same : (u.connection.send (u.restRequest t uri) (u.rest t) reader
        (u.connection.wait t.world)).2.1.changed = false)
      (tagged : Answer.Tagged (u.connection.send (u.restRequest t uri) (u.rest t) reader
        (u.connection.wait t.world)).1 eTag) : Arrives u s eTag

theorem attempt_of_complete (size : u.source.size (u.begun s).world.files = .ok u.total)
    (resumed : u.resumeOrStart (u.begun s) = (.ok (some eTag), t)) :
    u.attempt s = u.finish eTag (t.startAt u.total) := by
  have size : u.source.size (u.connection.wait s.world).files = .ok u.total := size
  have resumed : u.resumeOrStart ⟨s.session, u.connection.wait s.world⟩ = (.ok (some eTag), t) := resumed
  unfold attempt
  dsimp only
  rw [size]
  dsimp only
  rw [if_neg (fun h => h rfl), resumed]

/-- Then the attempt ends by comparing the tag with the source, and nothing has been deleted before. -/
theorem Job.Arrives.attempt (arrives : u.Arrives s eTag) :
    ∃ v, u.attempt s = u.finish eTag v ∧
      ∀ P : σ → Files.Store → Prop, u.Keeps P → In P s.world → In P v.world := by
  cases arrives with
  | @told uri size held tagged =>
    rcases asked : u.query uri (u.begun s).world with ⟨answer, w⟩
    have told := query_answer u uri (u.begun s).world
    rw [asked, Answer.tagged_iff.1 tagged] at told
    dsimp only at told
    subst told
    have resumed : u.resumeOrStart (u.begun s) =
        (.ok (some eTag), State.confirm ⟨s.session, w⟩ u.total) := by
      have held : (u.begun s).session.uri = some uri := held
      unfold resumeOrStart
      dsimp only
      rw [held]
      dsimp only
      rw [asked]
      rfl
    exact ⟨_, attempt_of_complete size resumed, fun P k hs => k.queried asked (k.wait _ hs)⟩
  | @sent t uri reader streams same tagged =>
    rcases put : u.connection.send (u.restRequest t uri) (u.rest t) reader (u.connection.wait t.world)
      with ⟨answer, body, w⟩
    rw [put] at same tagged
    rcases sent : u.sendRest uri (t.startAt t.session.confirmed) with ⟨result, v⟩
    have stored := Answer.stored_iff.1 tagged
    obtain ⟨tag, answered, rfl, -⟩ | ⟨e, failed, -⟩ := (sends sent).of_put streams.opened put same
    · cases answered.symm.trans stored
      have ended : u.attempt s = u.finish eTag v := by
        rw [attempt_of_rest streams.size streams.resumed streams.held, sent]
      refine ⟨v, ended, fun P k hs => ?_⟩
      have resumed : In P t.world := k.resumes (resumes streams.resumed) (k.wait _ hs)
      exact k.sends (sends sent) resumed
    · cases failed.symm.trans stored

end

section
variable {σ : Type} {c : Connection σ} {w v : World (Observed σ)} {u : Job (Observed σ)}
  {s t : State (Observed σ)} {o : Observed σ} {eTag : String} {output : Output} {e : Error}

/-- Nothing was deleted since `w`. -/
def Undeleted (w : World (Observed σ)) (o : Observed σ) : Prop :=
  ∃ log, o.seen = w.peer.seen ++ log ∧ ∀ x ∈ log, x.request.method ≠ .delete

def DeletedLast (w : World (Observed σ)) (request : Request) (o : Observed σ) : Prop :=
  ∃ log x, o.seen = w.peer.seen ++ log ++ [x] ∧ x.request = request ∧
    ∀ y ∈ log, y.request.method ≠ .delete

theorem Undeleted.next {x : Exchanged σ} {o' : Observed σ} (h : Undeleted w o)
    (seen : o'.seen = o.seen ++ [x]) (other : x.request.method ≠ .delete) : Undeleted w o' := by
  obtain ⟨log, since, none⟩ := h
  refine ⟨log ++ [x], by rw [seen, since, List.append_assoc], fun y mem => ?_⟩
  rcases List.mem_append.1 mem with mem | mem
  · exact none y mem
  · cases List.mem_singleton.1 mem
    exact other

/-- No request of an attempt deletes anything but the one after the digests were compared. -/
theorem Job.keeps_undeleted (hc : u.connection = c.observed) :
    u.Keeps fun o _ => Undeleted w o where
  wait v h := by
    rw [hc]
    exact h
  start v request made h := by
    obtain ⟨x, rfl, -, -, -, seen⟩ := exchange_seen hc request v
    refine Undeleted.next h seen fun deletes => ?_
    cases deletes.symm.trans (method_of_start made)
  query v uri h := by
    obtain ⟨x, request, -, -, -, seen⟩ := exchange_seen hc (queryRequest uri u.total) v
    refine Undeleted.next h seen fun deletes => ?_
    rw [request] at deletes
    cases deletes
  send v uri s reader _ h := by
    rw [hc]
    obtain ⟨x, request, -, -, -, seen⟩ := c.seen_send (dataRequest uri (u.offset s) u.total) (u.rest s)
      reader v
    refine Undeleted.next h seen fun deletes => ?_
    rw [request] at deletes
    cases deletes
  save _ _ _ _ _ _ _ h := h
  remove _ _ _ _ h := h

/-- An attempt that is followed by another one has not compared digests, and so it keeps what everything
but the deletion keeps. -/
theorem Job.Keeps.retried {P : Observed σ → Files.Store → Prop} (k : u.Keeps P)
    {result : Except Error Output} (h : u.Goes s result t) (failed : result = .error e)
    (retryable : e.isRetryable) (hs : In P s.world) : In P t.world := by
  have hb : In P (u.begun s).world := k.wait _ hs
  cases h with
  | unreadable size => exact hb
  | resized size differs => exact hb
  | unresumed size resumed => exact k.resumes resumed hb
  | complete size resumed finished =>
    exact absurd retryable (not_isRetryable_of_finishes finished failed)
  | unsent size resumed held sent =>
    have hr := k.resumes resumed hb
    exact k.sends sent hr
  | sent size resumed held sent finished =>
    exact absurd retryable (not_isRetryable_of_finishes finished failed)

theorem Handler.Begins.undeleted {h : Handler} {buffer : Nat} {task : Task}
    (begun : h.Begins c.observed buffer task w u s) :
    u.connection = c.observed ∧ u.key = task.key ∧ Undeleted w s.world.peer := by
  refine begun.invariant
    (I := fun u s => u.connection = c.observed ∧ u.key = task.key ∧ Undeleted w s.world.peer) ?_ ?_
  · rintro _ _ ⟨inspected⟩
    refine ⟨rfl, rfl, inspected.keeps (P := fun o _ => Undeleted w o) (fun v hv => ?_) ⟨[], by simp⟩⟩
    exact hv
  · rintro u s t e ⟨hc, hkey, hs⟩ attempted retryable
    have kept : In (fun o _ => Undeleted w o) t.world :=
      (Job.keeps_undeleted hc).retried (Job.goes attempted) rfl retryable hs
    exact ⟨hc, hkey, kept⟩

theorem Handler.Begins.aborts {h : Handler} {buffer : Nat} {task : Task}
    (begun : h.Begins c.observed buffer task w u s) (attempted : u.attempt s = (.error e, t))
    (abort : e.disposition = some .abort) :
    ∃ h' w', h.Returns c.observed buffer task w (.error e) h' w' ∧ w'.peer = t.world.peer := by
  obtain ⟨opened, reached⟩ := begun
  obtain ⟨pauses, run⟩ := reached.aborts attempted abort
  obtain ⟨w', returned, peer, -⟩ := opened.returns run
  exact ⟨_, w', returned, peer.trans (u.peer_discard t)⟩

/-- A tag with the digest of the source, as downloads read it, ends an upload that the store has answered
with it. Without a capital letter in it the call succeeds, and has deleted nothing. With one the call is
aborted, and with its last request it deletes the object. -/
theorem capital_letters_are_refused {h : Handler} {buffer : Nat} {task : Task}
    (begun : h.Begins c.observed buffer task w u s) (arrives : u.Arrives s eTag)
    (read : Download.plainMd5 eTag = some u.md5) :
    ∃ result h' w', h.Returns c.observed buffer task w result h' w' ∧
      (Small eTag → (∃ start, result = .ok ⟨eTag, start⟩) ∧ Undeleted w w'.peer) ∧
      (¬ Small eTag → result = .error (.resumable .abort .uploadCorrupted) ∧
        ∀ request, deleteRequest task.key = .ok request → DeletedLast w request w'.peer) := by
  obtain ⟨hc, hkey, hs⟩ := begun.undeleted
  obtain ⟨v, attempt, kept⟩ := arrives.attempt
  have hv : Undeleted w v.world.peer := kept _ (Job.keeps_undeleted hc) hs
  have cleared : (u.cleared v).world.peer = v.world.peer := peer_removeTracker _ _
  rcases finished : u.finish eTag v with ⟨result, t⟩
  rw [finished] at attempt
  cases Job.finishes finished with
  | verified same =>
    obtain ⟨w', returned, peer, -⟩ := begun.succeeds attempt
    refine ⟨_, _, w', returned, fun _ => ⟨⟨_, rfl⟩, ?_⟩, fun capital => ?_⟩
    · rwa [peer, cleared]
    · exact absurd ((digestOf_eq_iff read).1 same) capital
  | undeleted differs made =>
    obtain ⟨h', w', returned, peer⟩ := begun.aborts attempt rfl
    refine ⟨_, h', w', returned, fun small => ?_, fun _ => ⟨rfl, fun request makes => ?_⟩⟩
    · exact absurd ((digestOf_eq_iff read).2 small) differs
    · rw [hkey] at made
      cases makes.symm.trans made
  | @deleted request differs made =>
    obtain ⟨h', w', returned, peer⟩ := begun.aborts attempt rfl
    refine ⟨_, h', w', returned, fun small => ?_, fun _ => ⟨rfl, fun request' makes => ?_⟩⟩
    · exact absurd ((digestOf_eq_iff read).2 small) differs
    · rw [hkey] at made
      cases makes.symm.trans made
      obtain ⟨log, since, none⟩ := hv
      obtain ⟨x, asked, -, -, -, seen⟩ := exchange_seen hc request (u.cleared v).world
      rw [cleared, since] at seen
      exact ⟨log, x, by rw [peer]; exact seen, asked, none⟩

end

def hello : ByteArray := ⟨#[0x68, 0x65, 0x6c, 0x6c, 0x6f]⟩

/-- A store that says of every session that it has everything, and gives the object this tag. -/
def tagging (eTag : String) : Connection Unit where
  arrive _ s files := (s, files)
  wants _ _ _ := true
  answer _ _ s files := (.ok ⟨⟨200⟩, [("etag", .text eTag)], .empty⟩, s, files)

def helloJob (eTag : String) : Job (Observed Unit) :=
  (holding (sessionOne "/b/k")).job (tagging eTag).observed 8 (bytesTask hello) 5 (Digest.md5Hex hello)

def helloState : State (Observed Unit) :=
  ⟨(holding (sessionOne "/b/k")).loadTracker .empty,
    { World.initial ⟨(), []⟩ .empty with metrics := Metrics.zero.initiate }⟩

theorem begins_hello (eTag : String) : (holding (sessionOne "/b/k")).Begins (tagging eTag).observed 8
    (bytesTask hello) (.initial ⟨(), []⟩ .empty) (helloJob eTag) helloState :=
  .intro (.intro (inspects_bytes _ _ _ _ _ _)) .start

theorem hello_arrives (eTag : String) : (helloJob eTag).Arrives helloState eTag :=
  .told rfl rfl ⟨_, rfl, .inl rfl, rfl⟩

/-- The same digest in both ways of writing it. -/
theorem hello_is_small_or_refused :
    (∃ start h' w', (holding (sessionOne "/b/k")).Returns
      (tagging "5d41402abc4b2a76b9719d911017c592").observed 8 (bytesTask hello)
        (.initial ⟨(), []⟩ .empty) (.ok ⟨"5d41402abc4b2a76b9719d911017c592", start⟩) h' w' ∧
      Undeleted (.initial ⟨(), []⟩ .empty) w'.peer) ∧
    ∃ h' w' request, (holding (sessionOne "/b/k")).Returns
      (tagging "5D41402ABC4B2A76B9719D911017C592").observed 8 (bytesTask hello)
        (.initial ⟨(), []⟩ .empty) (.error (.resumable .abort .uploadCorrupted)) h' w' ∧
      request.uri.path = "/b/k" ∧ DeletedLast (.initial ⟨(), []⟩ .empty) request w'.peer := by
  constructor
  · obtain ⟨result, h', w', returned, accepted, -⟩ := capital_letters_are_refused
      (begins_hello _) (hello_arrives "5d41402abc4b2a76b9719d911017c592") (by decide +kernel)
    obtain ⟨⟨start, rfl⟩, undeleted⟩ := accepted (by decide +kernel)
    exact ⟨start, h', w', returned, undeleted⟩
  · obtain ⟨result, h', w', returned, -, refused⟩ := capital_letters_are_refused
      (begins_hello _) (hello_arrives "5D41402ABC4B2A76B9719D911017C592") (by decide +kernel)
    obtain ⟨rfl, deleted⟩ := refused (by decide +kernel)
    have made : (deleteRequest ⟨"http://h", "b", "k"⟩).map (·.uri.path) = .ok "/b/k" := by decide
    obtain ⟨request, makes, path⟩ : ∃ request, deleteRequest ⟨"http://h", "b", "k"⟩ = .ok request ∧
        request.uri.path = "/b/k" := by
      cases makes : deleteRequest ⟨"http://h", "b", "k"⟩ with
      | error e => rw [makes] at made; cases made
      | ok request =>
        rw [makes] at made
        exact ⟨request, rfl, Except.ok.inj made⟩
    exact ⟨h', w', request, returned, path, deleted request makes⟩

def capitalTag : String := "\"5D41402ABC4B2A76B9719D911017C592\""

def capitalizing : Server := { Server.empty with eTag := some capitalTag }

/-- Downloads read the digest of the five bytes in that tag. An upload of the five bytes stores them, and
then finds the tag wrong: it fails, and deletes the object. -/
theorem capital_tag_deletes_object :
    Download.plainMd5 capitalTag = some (Digest.md5Hex hello) ∧
    ∃ h' w' before x, unheld.Returns Server.connection.observed 8 (bytesTask hello)
        (.initial ⟨capitalizing, []⟩ .empty) (.error (.resumable .abort .uploadCorrupted)) h' w' ∧
      w'.peer.seen = before ++ [x] ∧ x.request.method = .delete ∧
      (latest id capitalizing before).objects.lookup "/b/k" = some hello ∧
      w'.peer.peer.objects.lookup "/b/k" = none := by
  refine ⟨by decide +kernel, ?_⟩
  have run : (unheld.send Server.connection.observed 8 1 (bytesTask hello)
      (.initial ⟨capitalizing, []⟩ .empty)).map (fun r => (r.1, r.2.2.peer.seen.map glance,
        (r.2.2.peer.peer.objects.lookup "/b/k").map (·.data))) =
      some (.error (.resumable .abort .uploadCorrupted),
        [⟨.post, "/b/k", .start, ["/b/k"], none⟩, ⟨.put, "/b/k", .chunk "1", ["/b/k"], some hello.data⟩] ++
          [⟨.delete, "/b/k", .other, ["/b/k"], none⟩], none) := by decide +kernel
  obtain ⟨⟨result, h', w'⟩, sent, same⟩ := Option.map_eq_some_iff.1 run
  simp only [Prod.mk.injEq] at same
  obtain ⟨rfl, glances, gone⟩ := same
  obtain ⟨before, x, seen, stored, last⟩ := seen_of_glances glances
  refine ⟨h', w', before, x, returns_of_send sent, seen, congrArg Glance.method last, ?_,
    Option.map_eq_none_iff.1 gone⟩
  obtain ⟨earlier, y, rfl, -, there⟩ := seen_of_glances (show _ = [_] ++ [_] from stored)
  obtain ⟨found, held, bytes⟩ := Option.map_eq_some_iff.1 (congrArg Glance.object there)
  rw [latest, List.getLast?_concat]
  exact held.trans (congrArg some (ByteArray.ext bytes))

end ObjectTransfer.Upload
