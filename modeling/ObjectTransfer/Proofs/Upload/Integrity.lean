import ObjectTransfer.Proofs.Observed
import ObjectTransfer.Proofs.Rehearsal.Honest
import ObjectTransfer.Proofs.Upload.Send
/-!
Uploads of the same bytes to the same key, to a store whose answers cannot be relied on: it is told to
answer with other statuses, to cut data off and to leave sessions out of its answers. Whatever it was
told and whatever the tracker files say, each of its sessions holds the first of those bytes, the
object is all of them once it is there, and an upload that succeeds has put it there.
-/
namespace ObjectTransfer.Upload
open Http Rehearsal

variable {key : ObjectKey} {b : ByteArray}

/-- The store is honest, was so after each of its answers, and was never asked to delete. -/
def Clean (key : ObjectKey) (b : ByteArray) (o : Observed Server) : Prop :=
  Honest key b o.peer ∧ ∀ x ∈ o.seen, Honest key b x.peer ∧ x.request.method ≠ .delete

namespace Clean

theorem answer {o : Observed Server} (h : Clean key b o) {request : Request} {received : Received}
    (hr : Asks key b request received) (files : Files.Store) :
    Clean key b (Server.connection.observed.answer request received o files).2.1 ∧
      Vouched key b (Server.connection.observed.answer request received o files).1
        (Server.connection.observed.answer request received o files).2.1.peer := by
  obtain ⟨hpeer, hvouched⟩ := h.1.answer hr files
  refine ⟨⟨hpeer, ?_⟩, hvouched⟩
  intro x hx
  rcases List.mem_append.1 hx with hx | hx
  · exact h.2 x hx
  · cases List.mem_singleton.1 hx
    exact ⟨hpeer, hr.kept⟩

theorem exchange {w : World (Observed Server)} (h : Clean key b w.peer) {request : Request}
    (hr : Asks key b request .nothing) :
    Clean key b (Server.connection.observed.exchange request w).2.peer ∧
      Vouched key b (Server.connection.observed.exchange request w).1
        (Server.connection.observed.exchange request w).2.peer.peer := h.answer hr w.files

theorem send {w : World (Observed Server)} (h : Clean key b w.peer) (uri : SessionUri)
    {offset : Nat} (ho : offset ≤ b.size) (buffer : Nat) (progress : Option Progress.Tracker) :
    let sent := Server.connection.observed.send (dataRequest uri offset b.size)
      (.ofRange offset (b.size - offset) buffer progress) (.bytes b offset) w
    Clean key b sent.2.2.peer ∧ Vouched key b sent.1 sent.2.2.peer.peer := by
  have hreader : Reader.Follows (fun _ => True) b (.bytes b offset) offset := ⟨rfl, rfl⟩
  obtain ⟨n, received, body, v, -, came, -, hv, -, hsend⟩ :=
    Connection.send_steady (c := Server.connection.observed) (P := fun o _ => Clean key b o)
      (w := w) (fun _ _ h => h) (fun _ _ _ => trivial) (dataRequest uri offset b.size)
      (SourceBody.ofRange_ahead ho buffer progress) h hreader
  have hanswer := hv.answer (.data uri ho came) v.files
  simp only [hsend]
  exact hanswer

end Clean

namespace Job

/-- The job is to upload `b` to the key at an observed store in memory. -/
structure Carries (u : Job (Observed Server)) (key : ObjectKey) (b : ByteArray) : Prop where
  connection : u.connection = Server.connection.observed
  key : u.key = key
  source : u.source = .bytes b
  total : u.total = b.size
  md5 : u.md5 = Digest.md5Hex b

variable {u : Job (Observed Server)}

theorem Carries.offset_le (hu : u.Carries key b) (s : State (Observed Server)) :
    u.offset s ≤ b.size := by
  rw [offset, hu.total]
  exact Nat.min_le_right _ _

theorem Carries.send (hu : u.Carries key b) (uri : SessionUri) {s : State (Observed Server)}
    {reader : Reader} {w : World (Observed Server)} (h : Clean key b w.peer)
    (opened : u.source.readerAt w.files (u.offset s) = .ok reader) :
    Clean key b
        (u.connection.send (dataRequest uri (u.offset s) u.total) (u.rest s) reader w).2.2.peer ∧
      Vouched key b
        (u.connection.send (dataRequest uri (u.offset s) u.total) (u.rest s) reader w).1
        (u.connection.send (dataRequest uri (u.offset s) u.total) (u.rest s) reader w).2.2.peer.peer :=
    by
  have ho := hu.offset_le s
  rw [hu.source, InputSource.readerAt, Nat.min_eq_left ho] at opened
  cases opened
  rw [hu.connection, hu.total, rest, hu.total]
  exact h.send uri ho _ _

theorem Carries.keeps (hu : u.Carries key b) : u.Keeps fun o _ => Clean key b o where
  wait w h := by
    rw [hu.connection]
    exact h
  start w request made h := by
    rw [hu.connection]
    rw [hu.key] at made
    exact (Clean.exchange h (.start made)).1
  query w uri h := by
    rw [hu.connection, hu.total]
    exact (Clean.exchange h (.query uri)).1
  send w uri s reader opened h := (hu.send uri h opened).1
  save _ _ _ _ _ _ _ h := h
  remove _ _ _ _ h := h

/-- A query that is answered with an entity tag is answered with the one of `b`, which is stored. -/
theorem Resumes.vouched (hu : u.Carries key b) {s t : State (Observed Server)} {eTag : String}
    (h : u.Resumes s (.ok (some eTag)) t) (hs : Clean key b s.world.peer) :
    eTag = Server.digestTag b ∧ Stored key b t.world.peer.peer := by
  generalize hr : Except.ok (some eTag) = result at h
  cases h with
  | began held started => cases ‹Except Error Unit› <;> cases hr
  | restarted held asked stale started => cases ‹Except Error Unit› <;> cases hr
  | incomplete held asked => cases hr
  | @complete uri eTag' w held asked =>
    cases hr
    have hanswer := query_answer u uri s.world
    have hworld := query_world u uri s.world
    rw [asked, hu.connection, hu.total] at hanswer hworld
    have hvouched := (Clean.exchange hs (.query uri)).2
    rw [← hworld] at hvouched
    exact hvouched eTag (Answer.tagged_iff.2 hanswer.symm)
  | untagged held asked => cases hr
  | refused held asked auth => cases hr
  | failed held asked disposition => cases hr

theorem Sends.vouched (hu : u.Carries key b) {uri : SessionUri} {s t : State (Observed Server)}
    {eTag : String} (h : u.Sends uri s (.ok eTag) t) (hs : Clean key b s.world.peer) :
    eTag = Server.digestTag b ∧ Stored key b t.world.peer.peer := by
  have hw : Clean key b (u.connection.wait s.world).peer := hu.keeps.wait s.world hs
  cases h with
  | stored opened put same answered =>
    have hvouched := (hu.send uri hw opened).2
    rw [put] at hvouched
    exact hvouched eTag (Answer.stored_iff.2 answered)

/-- An upload for which the entity tag is that of `b` succeeds. -/
theorem Finishes.honest (hu : u.Carries key b) {s t : State (Observed Server)}
    {result : Except Error Output} (h : u.Finishes (Server.digestTag b) s result t) :
    t = u.cleared s ∧ ∃ start, result = .ok ⟨Server.digestTag b, start⟩ := by
  have hsame : digestOf (Server.digestTag b) = u.md5 := by
    rw [Server.digestOf_digestTag, hu.md5]
  cases h with
  | verified same => exact ⟨rfl, _, rfl⟩
  | undeleted differs made => exact absurd hsame differs
  | deleted differs made => exact absurd hsame differs

/-- What an attempt comes to: nothing false is left at the store, and success means that `b` is
stored. -/
theorem Goes.clean (hu : u.Carries key b) {s t : State (Observed Server)}
    {result : Except Error Output} (h : u.Goes s result t) (hs : Clean key b s.world.peer) :
    Clean key b t.world.peer ∧ ∀ output, result = .ok output →
      output.eTag = Server.digestTag b ∧ Stored key b t.world.peer.peer := by
  have k := hu.keeps
  have hb : Clean key b (u.begun s).world.peer := k.wait s.world hs
  cases h with
  | unreadable size => exact ⟨hb, nofun⟩
  | resized size differs => exact ⟨hb, nofun⟩
  | unresumed size resumed => exact ⟨k.resumes resumed hb, nofun⟩
  | complete size resumed finished =>
    obtain ⟨rfl, hstored⟩ := resumed.vouched hu hb
    obtain ⟨rfl, start, rfl⟩ := finished.honest hu
    have ht : Clean key b _ := k.resumes resumed hb
    rw [cleared, peer_removeTracker]
    exact ⟨ht, by rintro output ⟨⟩; exact ⟨rfl, hstored⟩⟩
  | unsent size resumed held sent =>
    have hr := k.resumes resumed hb
    exact ⟨k.sends sent hr, nofun⟩
  | sent size resumed held sent finished =>
    have hr := k.resumes resumed hb
    obtain ⟨rfl, hstored⟩ := sent.vouched hu hr
    obtain ⟨rfl, start, rfl⟩ := finished.honest hu
    have ht : Clean key b _ := k.sends sent hr
    rw [cleared, peer_removeTracker]
    exact ⟨ht, by rintro output ⟨⟩; exact ⟨rfl, hstored⟩⟩

end Job

namespace Clean
variable {h h' : Handler} {buffer : Nat} {task : Handler.Task} {w w' : World (Observed Server)}

/-- Every attempt of a call has the job to upload `b`, and begins with nothing false at the store. -/
theorem begins (hw : Clean key b w.peer) (hkey : task.key = key) (source : task.source = .bytes b)
    {u : Job (Observed Server)} {s : State (Observed Server)}
    (begun : h.Begins Server.connection.observed buffer task w u s) :
    u.Carries key b ∧ Clean key b s.world.peer := by
  refine begun.invariant (I := fun u s => u.Carries key b ∧ Clean key b s.world.peer) ?_ ?_
  · rintro _ _ ⟨inspected⟩
    have steady : task.source.Steady b fun _ => True := source ▸ InputSource.steady_bytes b _
    obtain ⟨hr, hv⟩ := Handler.inspects_steady (c := Server.connection.observed)
      (P := fun o _ => Clean key b o) steady (fun _ h => h) (fun _ _ _ => trivial) inspected hw
    cases hr
    exact ⟨⟨rfl, hkey, source, rfl, rfl⟩, hv⟩
  · rintro u s t e ⟨hu, hs⟩ hattempt -
    exact ⟨hu, (Job.Goes.clean hu (Job.goes hattempt) hs).1⟩

theorem returns (hw : Clean key b w.peer) (hkey : task.key = key) (source : task.source = .bytes b)
    {result : Except Error Output}
    (returned : h.Returns Server.connection.observed buffer task w result h' w') :
    Clean key b w'.peer ∧ ∀ output, result = .ok output →
      output.eTag = Server.digestTag b ∧ Stored key b w'.peer.peer := by
  obtain ⟨-, hended⟩ := returned.ended
  generalize w'.peer = peer at hended ⊢
  generalize w'.files = files at hended
  generalize h'.session = session at hended
  cases hended with
  | uninspected inspected =>
    exact ⟨inspected.keeps (c := Server.connection.observed) (P := fun o _ => Clean key b o)
      (fun _ h => h) hw, nofun⟩
  | attempted begun ends =>
    obtain ⟨hu, hs⟩ := hw.begins hkey source begun
    cases ends with
    | finished attempt => exact Job.Goes.clean hu (Job.goes attempt) hs
    | left attempt kept => exact ⟨(Job.Goes.clean hu (Job.goes attempt) hs).1, nofun⟩
    | abandoned attempt abort =>
      have ht := (Job.Goes.clean hu (Job.goes attempt) hs).1
      exact ⟨hu.keeps.discard ht, nofun⟩
    | exhausted attempt retryable => exact ⟨(Job.Goes.clean hu (Job.goes attempt) hs).1, nofun⟩

end Clean

/-- What comes of a world by calls that each return, one after the other. Each is a call of any handler
in any state, with any buffer, headers and progress; all of them upload `b` to the key. -/
inductive Calls (key : ObjectKey) (b : ByteArray) (w : World (Observed Server)) :
    World (Observed Server) → Prop
  | none : Calls key b w w
  | more {v v' : World (Observed Server)} {h h' : Handler} {buffer : Nat} {task : Handler.Task}
      {result : Except Error Output} (before : Calls key b w v) (same : task.key = key)
      (source : task.source = .bytes b)
      (returned : h.Returns Server.connection.observed buffer task v result h' v') :
      Calls key b w v'

theorem Calls.clean {w v : World (Observed Server)} (hc : Calls key b w v)
    (hw : Clean key b w.peer) : Clean key b v.peer := by
  induction hc with
  | none => exact hw
  | more before same source returned ih => exact (ih.returns same source returned).1

/-- Sessions hold first bytes of `b`, and the object of the key is absent or `b`. -/
def Intact (key : ObjectKey) (b : ByteArray) (s : Server) : Prop :=
  (∀ entry ∈ s.sessions, ∃ n, entry.2.data = b.extract 0 n) ∧
  ∀ path, PathOf key path → s.objects.lookup path = none ∨ s.objects.lookup path = some b

theorem Honest.intact {s : Server} (h : Honest key b s) : Intact key b s := by
  refine ⟨fun entry hentry => (h.sessions entry hentry).data, fun path hpath => ?_⟩
  cases hl : s.objects.lookup path with
  | none => exact .inl rfl
  | some data => exact .inr (by rw [h.object path hpath data hl])

/-- However a store that was empty was told to answer, and whichever handlers upload the same bytes to
the same key one after the other: after every answer, also within a call that is still going on, the
store is intact, no request is one to delete, and a call that succeeds gives the entity tag of the
bytes and leaves them stored. -/
theorem uploads_stay_intact {server : Server} (empty : server.sessions = [] ∧ server.objects = [])
    (digests : server.eTag = none) {w v : World (Observed Server)} (begun : w.peer = ⟨server, []⟩)
    (calls : Calls key b w v) (h : Handler) (buffer : Nat) {task : Handler.Task}
    (same : task.key = key) (source : task.source = .bytes b) :
    (Intact key b v.peer.peer ∧
      ∀ x ∈ v.peer.seen, Intact key b x.peer ∧ x.request.method ≠ .delete) ∧
    (∀ u s, h.Begins Server.connection.observed buffer task v u s →
      ∀ x ∈ (u.attempt s).2.world.peer.seen, Intact key b x.peer ∧ x.request.method ≠ .delete) ∧
    ∀ output h' v', h.Returns Server.connection.observed buffer task v (.ok output) h' v' →
      output.eTag = Server.digestTag b ∧ Stored key b v'.peer.peer := by
  have hserver : Honest key b server :=
    ⟨digests, by simp [empty.1], by simp [empty.2]⟩
  have hw : Clean key b w.peer := by
    rw [begun]
    exact ⟨hserver, by simp⟩
  have hv := calls.clean hw
  refine ⟨⟨hv.1.intact, fun x hx => ⟨(hv.2 x hx).1.intact, (hv.2 x hx).2⟩⟩, ?_, ?_⟩
  · intro u s hbegins x hx
    obtain ⟨hu, hs⟩ := hv.begins same source hbegins
    rcases hattempt : u.attempt s with ⟨result, t⟩
    rw [hattempt] at hx
    have ht := (Job.Goes.clean hu (Job.goes hattempt) hs).1
    exact ⟨(ht.2 x hx).1.intact, (ht.2 x hx).2⟩
  · intro output h' v' returned
    exact (hv.returns same source returned).2 output rfl

/-- A store that cuts the first data off after two bytes, and will not say what it holds. -/
def tornServer : Server := { Server.empty with scripted := [(.query, ⟨503⟩)], breaks := [2] }

/-- A call to that store fails, and leaves two of three bytes in a session. -/
theorem torn_uploads_stay_intact : ∃ v, Calls ⟨"http://h", "b", "k"⟩ ⟨#[1, 2, 3]⟩
      (.initial ⟨tornServer, []⟩ .empty) v ∧
    v.peer.peer.sessions.map (fun entry => entry.2.data.data) = [#[1, 2]] ∧
    Intact ⟨"http://h", "b", "k"⟩ ⟨#[1, 2, 3]⟩ v.peer.peer ∧
    ∀ x ∈ v.peer.seen, Intact ⟨"http://h", "b", "k"⟩ ⟨#[1, 2, 3]⟩ x.peer ∧
      x.request.method ≠ .delete := by
  let task : Handler.Task := ⟨⟨"http://h", "b", "k"⟩, .bytes ⟨#[1, 2, 3]⟩, [], none⟩
  have hrun : ((Handler.mk (some ⟨"t"⟩) 0 .restart .none).send Server.connection.observed 8 1 task
      (.initial ⟨tornServer, []⟩ .empty)).map
        (fun r => r.2.2.peer.peer.sessions.map fun entry => entry.2.data.data) =
      some [#[1, 2]] := by decide +kernel
  obtain ⟨⟨result, h', v⟩, hsend, hdata⟩ := Option.map_eq_some_iff.1 hrun
  have same : task.key = ⟨"http://h", "b", "k"⟩ := rfl
  have source : task.source = .bytes ⟨#[1, 2, 3]⟩ := rfl
  have calls := Calls.more .none same source (Handler.returns_of_send hsend)
  exact ⟨v, calls, hdata, (uploads_stay_intact ⟨rfl, rfl⟩ rfl rfl calls h' 8 same source).1⟩

end ObjectTransfer.Upload
