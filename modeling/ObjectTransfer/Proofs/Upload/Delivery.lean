import ObjectTransfer.Proofs.Rehearsal.Delivery
import ObjectTransfer.Proofs.Upload.Integrity
import ObjectTransfer.Proofs.Upload.Tracking
/-!
An upload that is cut off again and again. New handlers with the same tracker file go on with the same
session where the store says it stops, also when only the last answer was lost; so no byte is sent
twice and none is skipped until the object is stored.
-/
namespace ObjectTransfer.Upload
open Http Rehearsal TrackerFile

/-- Requests for the object go to a web address with a host, in ASCII, and there is room to name an
upload behind it. -/
structure WellFormed (key : ObjectKey) (target : Uri) : Prop where
  read : objectTarget key = .ok target
  scheme : target.scheme = some "http" ∨ target.scheme = some "https"
  host : target.host.any (· != "") = true
  ascii : ∀ c ∈ target.path.toList, c.toNat < 128
  room : (Server.firstSession target).text.utf8ByteSize ≤ Uri.maxBytes

def granted (target : Uri) : SessionUri := ⟨Server.firstSession target⟩

theorem uploadId?_granted (target : Uri) : Server.uploadId? (granted target).uri = some "1" := rfl

namespace WellFormed
variable {key : ObjectKey} {target : Uri}

theorem web (h : WellFormed key target) : (granted target).uri.Web := by
  have hparse : Uri.parse key.uri = .ok target := by
    have ht := h.read
    unfold objectTarget at ht
    split at ht
    · rename_i hp
      cases ht
      exact hp
    · cases ht
  obtain ⟨web, -, -⟩ := Uri.web_of_parse hparse h.scheme
  refine ⟨web.scheme, web.authority, web.path, ?_⟩
  rintro q ⟨⟩
  exact List.all_eq_true.1 (by decide)

theorem ascii_text (h : WellFormed key target) :
    ∀ c ∈ (granted target).text.toList, 33 ≤ c.toNat ∧ c.toNat < 127 := by
  intro c hc
  obtain ⟨hvisible, hascii⟩ := h.web.visible c hc
  have hlt : c.toNat < 128 := by
    rcases hascii with hlt | hpath | ⟨q, ⟨⟩, hq⟩
    · exact hlt
    · exact h.ascii c hpath
    · have hquery : ∀ d ∈ "upload_id=1".toList, d.toNat < 128 := by simp
      exact hquery c hq
  have h1 := hvisible.1
  have h2 := hvisible.2
  omega

theorem written (h : WellFormed key target) : (granted target).Written := by
  have usable : SessionUri.isUsable (granted target).uri = true := by
    have hweb : SessionUri.isWeb (granted target).uri = true := by
      rw [SessionUri.isWeb, Bool.or_eq_true, decide_eq_true_eq, decide_eq_true_eq]
      exact h.scheme
    have hhost : (granted target).uri.host.any (· != "") = true := h.host
    have hquery : (some "upload_id=1").any SessionUri.namesUpload = true := by decide
    rw [SessionUri.isUsable, hweb, hhost]
    exact hquery
  refine SessionUri.written_of_web h.web usable h.room fun c hc => ?_
  have hc := h.ascii_text c hc
  omega

theorem started (h : WellFormed key target) :
    startedSession (Server.responseWith 200 "location" (Server.firstSession target).text) =
      .ok (granted target) := by
  have hreadable : HeaderValue.ofText (Server.firstSession target).text =
      .text (Server.firstSession target).text := by
    apply Server.ofText_eq
    intro c hc
    have hc := h.ascii_text c hc
    simp only [HeaderValue.isReadable, Bool.or_eq_true, Bool.and_eq_true, decide_eq_true_eq]
    omega
  have hread : SessionUri.parse (Server.firstSession target).text = .ok (granted target) :=
    h.written.read
  have hlocation : Headers.text? (Server.responseWith 200 "location"
      (Server.firstSession target).text).headers "location" =
        some (Server.firstSession target).text := by
    rw [Server.responseWith, hreadable]
    rfl
  rw [startedSession_named (.inl rfl) hlocation, hread]
  rfl

end WellFormed

theorem observed_answer_eq {request : Request} {received : Received} {o : Observed Server}
    {answer : Answer} {p : Server} {files : Files.Store}
    (h : o.peer.answer request received files = (answer, p, files)) :
    Server.connection.observed.answer request received o files =
      (answer, ⟨p, o.seen ++ [⟨request, received, answer, p, files⟩]⟩, files) := by
  have hanswer : Server.connection.answer request received o.peer files = (answer, p, files) := h
  have hnoted : Server.connection.noted request received o.peer files =
      ⟨request, received, answer, p, files⟩ := by
    rw [Connection.noted, hanswer]
  simp only [Connection.observed, hnoted]

theorem exchange_eq {request : Request} {w : World (Observed Server)} {answer : Answer}
    {p : Server} (h : w.peer.peer.answer request .nothing w.files = (answer, p, w.files)) :
    Server.connection.observed.exchange request w =
      (answer, { w with
        peer := ⟨p, w.peer.seen ++ [⟨request, .nothing, answer, p, w.files⟩]⟩ }) := by
  have harrive : Server.connection.observed.arrive request w.peer w.files = (w.peer, w.files) := rfl
  simp only [Connection.exchange, Connection.ask, harrive, observed_answer_eq h]

/-- After every answer, the data that the store had noted was the first bytes of `b`. -/
def Prefixes (b : ByteArray) (o : Observed Server) : Prop :=
  ∀ x ∈ o.seen, ∃ n, x.peer.sent = b.extract 0 n

namespace Job

/-- The job is to upload `b` to the key, with a tracker file. -/
structure Delivers (u : Job (Observed Server)) (t : TrackerFile) (key : ObjectKey)
    (b : ByteArray) : Prop extends u.Carries key b where
  tracker : u.tracker = some t
  headers : Headers.has u.headers "content-length" = false

end Job

variable {b : ByteArray}

theorem Prefixes.snoc {o : Observed Server} (h : Prefixes b o) {p : Server} {n : Nat}
    (hp : p.sent = b.extract 0 n) (request : Request) (received : Received) (answer : Answer)
    (files : Files.Store) :
    Prefixes b ⟨p, o.seen ++ [⟨request, received, answer, p, files⟩]⟩ := by
  intro x hx
  rcases List.mem_append.1 hx with hx | hx
  · exact h x hx
  · cases List.mem_singleton.1 hx
    exact ⟨n, hp⟩

/-- The store holds `n` bytes of the session that the handler and the tracker file have. -/
structure Ready (t : TrackerFile) (target : Uri) (b : ByteArray) (n : Nat)
    (s : State (Observed Server)) : Prop where
  uri : s.session.uri = some (granted target)
  confirmed : s.session.confirmed = n
  peer : Server.Open target.path b n s.world.peer.peer
  files : t.Holds s.world.files (some (line (granted target).text))
  prefixes : Prefixes b s.world.peer

/-- The store has everything. -/
structure Full (t : TrackerFile) (target : Uri) (b : ByteArray) (w : World (Observed Server)) :
    Prop where
  peer : Server.Complete target.path b w.peer.peer
  files : t.Holds w.files (some (line (granted target).text))
  prefixes : Prefixes b w.peer

/-- How far the delivery has come, and the session with which a handler goes on from there. -/
inductive Stage (t : TrackerFile) (target : Uri) (b : ByteArray) (w : World (Observed Server)) :
    Option SessionUri → Prop
  | unstarted (peer : w.peer.peer.Unstarted) (files : t.Holds w.files none)
      (prefixes : Prefixes b w.peer) : Stage t target b w none
  | partly {n : Nat} (peer : Server.Open target.path b n w.peer.peer)
      (files : t.Holds w.files (some (line (granted target).text)))
      (prefixes : Prefixes b w.peer) : Stage t target b w (some (granted target))
  | wholly (full : Full t target b w) : Stage t target b w (some (granted target))

variable {t : TrackerFile} {key : ObjectKey} {target : Uri} {u : Job (Observed Server)}
  {s s' : State (Observed Server)}

theorem Job.Starts.delivers (hu : u.Delivers t key b) (wf : WellFormed key target)
    {result : Except Error Unit} (h : u.Starts s result s') (peer : s.world.peer.peer.Unstarted)
    (files : t.Holds s.world.files none) (prefixes : Prefixes b s.world.peer) :
    result = .ok () ∧ Ready t target b 0 s' ∧
      s'.world.peer.peer.breaks = s.world.peer.peer.breaks := by
  obtain ⟨request, hmade⟩ : ∃ request, startRequest u.key u.headers = .ok request := by
    simp [startRequest, hu.headers, hu.key, wf.read]
  obtain ⟨hkind, htarget⟩ := Server.kindOf_start hmade
  rw [hu.key, wf.read] at htarget
  obtain ⟨a, ha, -⟩ := wf.web.authority
  obtain ⟨scheme, hscheme⟩ : ∃ scheme, target.scheme = some scheme :=
    wf.scheme.elim (fun h => ⟨_, h⟩) fun h => ⟨_, h⟩
  cases htarget
  obtain ⟨p, hanswer, hopen, hbreaks⟩ := peer.answer hkind hscheme ha b .nothing s.world.files
  have hask := exchange_eq hanswer
  rw [← hu.connection] at hask
  obtain ⟨g, hsave, hg⟩ := files.save (granted request.uri).text
  obtain ⟨rfl, rfl⟩ := h.of_named hmade hask wf.started hu.tracker hsave
  exact ⟨rfl, ⟨rfl, rfl, hopen, hg, prefixes.snoc hopen.noted _ _ _ _⟩, hbreaks⟩

theorem Job.Delivers.query_partly (hu : u.Delivers t key b) (hl : b.size < Text.Unsigned.limit)
    {w : World (Observed Server)} {n : Nat} (peer : Server.Open target.path b n w.peer.peer)
    (prefixes : Prefixes b w.peer) :
    ∃ v, u.query (granted target) w = (.ok (.incomplete n), v) ∧
      Server.Open target.path b n v.peer.peer ∧ v.files = w.files ∧ Prefixes b v.peer ∧
      v.peer.peer.breaks = w.peer.peer.breaks := by
  obtain ⟨r, p, hanswer, hstate, hopen, hbreaks⟩ :=
    peer.query (uploadId?_granted target) hl .nothing w.files
  have hask := exchange_eq hanswer
  rw [← hu.connection, ← hu.total] at hask
  refine ⟨_, Prod.ext ?_ ((query_world _ _ _).trans (congrArg Prod.snd hask)), hopen, rfl,
    prefixes.snoc hopen.noted _ _ _ _, hbreaks⟩
  rw [query_answer, hask]
  exact hstate

theorem Job.Delivers.query_wholly (hu : u.Delivers t key b) {w : World (Observed Server)}
    (full : Full t target b w) :
    ∃ v, u.query (granted target) w = (.ok (.complete (some (Server.digestTag b))), v) ∧
      Full t target b v ∧ v.peer.peer.breaks = w.peer.peer.breaks := by
  obtain ⟨r, p, hanswer, hstate, hcomplete, hbreaks⟩ :=
    full.peer.query (uploadId?_granted target) .nothing w.files
  have hask := exchange_eq hanswer
  rw [← hu.connection, ← hu.total] at hask
  refine ⟨_, Prod.ext ?_ ((query_world _ _ _).trans (congrArg Prod.snd hask)),
    ⟨hcomplete, full.files, full.prefixes.snoc hcomplete.noted _ _ _ _⟩, hbreaks⟩
  rw [query_answer, hask]
  exact hstate

/-- Finding out where to go on: at the start, where the store stops, or nowhere because it has
everything. -/
theorem Job.Resumes.delivers (hu : u.Delivers t key b) (wf : WellFormed key target)
    (hl : b.size < Text.Unsigned.limit) {result : Except Error (Option String)}
    (h : u.Resumes s result s') (stage : Stage t target b s.world s.session.uri) :
    (result = .ok none ∧ (∃ n, Ready t target b n s') ∨
      result = .ok (some (Server.digestTag b)) ∧ Full t target b s'.world) ∧
    s'.world.peer.peer.breaks = s.world.peer.peer.breaks := by
  generalize huri : s.session.uri = known at stage
  cases stage with
  | unstarted peer files prefixes =>
    obtain ⟨r, started, rfl⟩ := h.of_unheld huri
    obtain ⟨rfl, ready, hbreaks⟩ := started.delivers hu wf peer files prefixes
    exact ⟨.inl ⟨rfl, 0, ready⟩, hbreaks⟩
  | @partly n peer files prefixes =>
    obtain ⟨v, hquery, hopen, hfiles, hprefixes, hbreaks⟩ := hu.query_partly hl peer prefixes
    obtain ⟨rfl, rfl⟩ := (h.of_held huri hquery (by rintro ⟨⟩)).1 n rfl
    rw [← hfiles] at files
    exact ⟨.inl ⟨rfl, n, huri, rfl, hopen, files, hprefixes⟩, hbreaks⟩
  | wholly full =>
    obtain ⟨v, hquery, hfull, hbreaks⟩ := hu.query_wholly full
    obtain ⟨rfl, rfl⟩ := (h.of_held huri hquery (by rintro ⟨⟩)).2 _ rfl
    exact ⟨.inr ⟨rfl, hfull⟩, hbreaks⟩

/-- Asking once more after data was cut off changes nothing but what is known of the session. -/
theorem Job.Delivers.afterFailure (hu : u.Delivers t key b) (hl : b.size < Text.Unsigned.limit)
    {session : Session} {w : World (Observed Server)} (e : Error)
    (held : session.uri = some (granted target)) (stage : Stage t target b w session.uri) :
    (u.afterFailure (granted target) e ⟨session, w⟩).1 = e ∧
      Stage t target b (u.afterFailure (granted target) e ⟨session, w⟩).2.world
        (u.afterFailure (granted target) e ⟨session, w⟩).2.session.uri ∧
      (u.afterFailure (granted target) e ⟨session, w⟩).2.world.peer.peer.breaks =
        w.peer.peer.breaks := by
  rw [held] at stage
  cases stage with
  | partly peer files prefixes =>
    obtain ⟨v, hquery, hopen, hfiles, hprefixes, hbreaks⟩ := hu.query_partly hl peer prefixes
    simp only [Job.afterFailure, hquery]
    rw [← hfiles] at files
    exact ⟨trivial, held ▸ .partly hopen files hprefixes, hbreaks⟩
  | wholly full =>
    obtain ⟨v, hquery, hfull, hbreaks⟩ := hu.query_wholly full
    simp only [Job.afterFailure, hquery]
    exact ⟨trivial, held ▸ .wholly hfull, hbreaks⟩

/-- Sending the rest from where the store stops: everything is there, or the connection broke and the
store was asked how far it came. -/
theorem Job.Sends.delivers (hu : u.Delivers t key b) (hl : b.size < Text.Unsigned.limit) {n : Nat}
    {result : Except Error String} (h : u.Sends (granted target) s result s')
    (ready : Ready t target b n s) :
    result = .ok (Server.digestTag b) ∧ Full t target b s'.world ∨
    ∃ e, result = .error e ∧ e.disposition = some .waitBeforeRetry ∧
      Stage t target b s'.world s'.session.uri ∧
      s'.world.peer.peer.breaks.length < s.world.peer.peer.breaks.length := by
  have hoffset : u.offset s = n := by
    rw [offset, ready.confirmed, hu.total]
    exact Nat.min_eq_left ready.peer.le
  have hwait : u.connection.wait s.world = s.world := by
    rw [hu.connection]
    rfl
  have hopen : u.source.readerAt (u.connection.wait s.world).files (u.offset s) =
      .ok (.bytes b n) := by
    rw [hu.source, hoffset, InputSource.readerAt, Nat.min_eq_left ready.peer.le]
  have hreader : Reader.Follows (fun _ => True) b (.bytes b n) n := ⟨rfl, rfl⟩
  obtain ⟨m, received, body, v, hm, came, hsame, ⟨hpeer, hfiles⟩, hend, hsend⟩ :=
    Connection.send_steady (c := Server.connection.observed)
      (P := fun o f => o = s.world.peer ∧ f = s.world.files) (w := s.world) (fun _ _ h => h)
      (fun _ _ _ => trivial)
      (dataRequest (granted target) n b.size)
      (SourceBody.ofRange_ahead ready.peer.le u.buffer
        (u.progress.map fun p => p.tracker b.size u.buffer)) ⟨rfl, rfl⟩ hreader
  have hput : u.connection.send (dataRequest (granted target) (u.offset s) u.total) (u.rest s)
      (.bytes b n) (u.connection.wait s.world) =
        Server.connection.observed.send (dataRequest (granted target) n b.size)
          (.ofRange n (b.size - n) u.buffer (u.progress.map fun p => p.tracker b.size u.buffer))
          (.bytes b n) s.world := by
    rw [hwait, rest, hoffset, hu.connection, hu.total]
  rw [hpeer, hfiles] at hsend
  rw [hpeer] at hend
  rcases ready.peer.data (uploadId?_granted target) hl hm came
      hend s.world.files with
    ⟨r, p, hanswer, htag, hcomplete⟩ | ⟨p, hanswer, hafter, hfewer⟩
  · rw [hsend, observed_answer_eq hanswer] at hput
    left
    rcases h.of_put hopen hput hsame with ⟨eTag, htag', rfl, rfl⟩ | ⟨e, he, -, -⟩
    · cases htag.symm.trans htag'
      exact ⟨rfl, hcomplete, ready.files, ready.prefixes.snoc hcomplete.noted _ _ _ _⟩
    · cases htag.symm.trans he
  · rw [hsend, observed_answer_eq hanswer] at hput
    right
    obtain ⟨k, hnoted⟩ : ∃ k, p.sent = b.extract 0 k := by
      rcases hafter with ⟨k, hk⟩ | hcomplete
      · exact ⟨k, hk.noted⟩
      · exact ⟨_, hcomplete.noted⟩
    obtain ⟨w, hput, hp, same, prefixes⟩ : ∃ w, u.connection.send
        (dataRequest (granted target) (u.offset s) u.total) (u.rest s) (.bytes b n)
        (u.connection.wait s.world) = (.error (.transport (.given "connection reset by peer")),
          body, w) ∧ w.peer.peer = p ∧ w.files = s.world.files ∧ Prefixes b w.peer :=
      ⟨_, hput, rfl, rfl, ready.prefixes.snoc hnoted _ _ _ _⟩
    have stage : Stage t target b w s.session.uri := by
      have files := ready.files
      rw [← same] at files
      rw [← hp] at hafter
      rw [ready.uri]
      rcases hafter with ⟨k, hk⟩ | hcomplete
      · exact .partly hk files prefixes
      · exact .wholly ⟨hcomplete, files, prefixes⟩
    rcases h.of_put hopen hput hsame with ⟨eTag, htag', -, -⟩ | ⟨e, he, rfl, rfl⟩
    · cases htag'
    · cases he
      obtain ⟨he, hstage, hbreaks⟩ := hu.afterFailure hl _ ready.uri stage
      refine ⟨_, congrArg _ he, rfl, hstage, ?_⟩
      rw [hbreaks, hp]
      exact hfewer

/-- The object is stored, and nothing is left to go on with. -/
structure Delivered (t : TrackerFile) (target : Uri) (b : ByteArray) (w : World (Observed Server)) :
    Prop where
  peer : Server.Complete target.path b w.peer.peer
  files : t.Holds w.files none
  prefixes : Prefixes b w.peer

theorem Job.Finishes.delivers (hu : u.Delivers t key b) {result : Except Error Output}
    (h : u.Finishes (Server.digestTag b) s result s') (full : Full t target b s.world) :
    (∃ start, result = .ok ⟨Server.digestTag b, start⟩) ∧ Delivered t target b s'.world := by
  obtain ⟨rfl, start, rfl⟩ := h.honest hu.toCarries
  have hpeer : (u.cleared s).world.peer = s.world.peer := peer_removeTracker _ _
  have hfiles : (u.cleared s).world.files = t.remove s.world.files := by
    rw [cleared, hu.tracker, files_removeTracker]
    rfl
  refine ⟨⟨start, rfl⟩, ?_, ?_, ?_⟩
  · rw [hpeer]
    exact full.peer
  · rw [hfiles]
    exact full.files.remove
  · rw [hpeer]
    exact full.prefixes

theorem Job.Goes.delivers (hu : u.Delivers t key b) (wf : WellFormed key target)
    (hl : b.size < Text.Unsigned.limit) {result : Except Error Output} (h : u.Goes s result s')
    (stage : Stage t target b s.world s.session.uri) :
    (∃ start, result = .ok ⟨Server.digestTag b, start⟩) ∧ Delivered t target b s'.world ∨
    ∃ e, result = .error e ∧ e.disposition = some .waitBeforeRetry ∧
      Stage t target b s'.world s'.session.uri ∧
      s'.world.peer.peer.breaks.length < s.world.peer.peer.breaks.length := by
  have hbegun : u.begun s = s := by
    rw [begun, hu.connection]
    rfl
  have hsize : u.source.size (u.begun s).world.files = .ok u.total := by
    rw [hu.source, hu.total]
    rfl
  cases h with
  | unreadable size => cases hsize.symm.trans size
  | resized size differs =>
    cases hsize.symm.trans size
    exact absurd rfl differs
  | unresumed size resumed =>
    rw [hbegun] at resumed
    obtain ⟨⟨hr, -⟩ | ⟨hr, -⟩, -⟩ := resumed.delivers hu wf hl stage
    · cases hr
    · cases hr
  | complete size resumed finished =>
    rw [hbegun] at resumed
    obtain ⟨⟨hr, -⟩ | ⟨hr, full⟩, -⟩ := resumed.delivers hu wf hl stage
    · cases hr
    · cases hr
      exact .inl (finished.delivers hu full)
  | unsent size resumed held sent =>
    rw [hbegun] at resumed
    obtain ⟨⟨-, n, ready⟩ | ⟨hr, -⟩, hbreaks⟩ := resumed.delivers hu wf hl stage
    · cases ready.uri.symm.trans held
      rcases sent.delivers hu hl (n := n) ⟨ready.uri, ready.confirmed, ready.peer, ready.files,
        ready.prefixes⟩ with ⟨hr, -⟩ | ⟨e, hr, he, hstage, hfewer⟩
      · cases hr
      · cases hr
        rw [← hbreaks]
        exact .inr ⟨_, rfl, he, hstage, hfewer⟩
    · cases hr
  | sent size resumed held sent finished =>
    rw [hbegun] at resumed
    obtain ⟨⟨-, n, ready⟩ | ⟨hr, -⟩, hbreaks⟩ := resumed.delivers hu wf hl stage
    · cases ready.uri.symm.trans held
      rcases sent.delivers hu hl (n := n) ⟨ready.uri, ready.confirmed, ready.peer, ready.files,
        ready.prefixes⟩ with ⟨hr, full⟩ | ⟨e, hr, -⟩
      · cases hr
        exact .inl (finished.delivers hu full)
      · cases hr
    · cases hr

theorem Stage.same {w v : World (Observed Server)} {known : Option SessionUri}
    (h : Stage t target b w known) (peer : v.peer = w.peer) (files : v.files = w.files) :
    Stage t target b v known := by
  cases h with
  | unstarted hp hf hx => exact .unstarted (peer ▸ hp) (files ▸ hf) (peer ▸ hx)
  | partly hp hf hx => exact .partly (peer ▸ hp) (files ▸ hf) (peer ▸ hx)
  | wholly full => exact .wholly ⟨peer ▸ full.peer, files ▸ full.files, peer ▸ full.prefixes⟩

theorem Stage.prefixes {w : World (Observed Server)} {known : Option SessionUri}
    (h : Stage t target b w known) : Prefixes b w.peer := by
  cases h with
  | unstarted peer files prefixes => exact prefixes
  | partly peer files prefixes => exact prefixes
  | wholly full => exact full.prefixes

/-- What a call is asked to do is to upload `b` to the key, with headers that do not give its
length. -/
structure Handler.Task.Delivers (task : Handler.Task) (key : ObjectKey) (b : ByteArray) : Prop where
  key : task.key = key
  source : task.source = .bytes b
  headers : Headers.has task.headers "content-length" = false

def newcomer (t : TrackerFile) (retries : Nat) (policy : StalePolicy) : Handler :=
  ⟨some t, retries, policy, .none⟩

namespace Stage
variable {w w' : World (Observed Server)} {known : Option SessionUri} {retries buffer : Nat}
  {policy : StalePolicy} {task : Handler.Task}

theorem loadTracker (wf : WellFormed key target) (h : Stage t target b w known) :
    ((newcomer t retries policy).loadTracker w.files).uri = known := by
  have hload {content : Option ByteArray} (hc : t.Holds w.files content) :
      ((newcomer t retries policy).loadTracker w.files).uri = sessionIn content := by
    rw [Handler.loadTracker, if_neg (by simp [newcomer, Session.none]), newcomer, tracked?_eq hc]
    cases sessionIn content with
    | none => rfl
    | some uri => rfl
  cases h with
  | unstarted peer files prefixes => exact hload files
  | partly peer files prefixes => rw [hload files, sessionIn_line wf.written]
  | wholly full => rw [hload full.files, sessionIn_line wf.written]

theorem begins (wf : WellFormed key target) (hl : b.size < Text.Unsigned.limit)
    (h : Stage t target b w known) (delivers : task.Delivers key b)
    (begun : (newcomer t retries policy).Begins Server.connection.observed buffer task w u s) :
    u.Delivers t key b ∧ Stage t target b s.world s.session.uri := by
  refine begun.invariant
    (I := fun u s => u.Delivers t key b ∧ Stage t target b s.world s.session.uri) ?_ ?_
  · rintro _ _ ⟨inspected⟩
    have steady : task.source.Steady b fun _ => True :=
      delivers.source ▸ InputSource.steady_bytes b _
    obtain ⟨hr, hpeer, hfiles⟩ := Handler.inspects_steady (c := Server.connection.observed)
      (P := fun o f => o = w.peer ∧ f = w.files) steady (fun _ h => h) (fun _ _ _ => trivial)
      inspected ⟨rfl, rfl⟩
    cases hr
    refine ⟨⟨⟨rfl, delivers.key, delivers.source, rfl, rfl⟩, rfl, delivers.headers⟩, ?_⟩
    rw [h.loadTracker wf]
    exact h.same hpeer hfiles
  · rintro u s v e ⟨hu, hs⟩ hattempt -
    rcases (Job.goes hattempt).delivers hu wf hl hs with ⟨⟨start, hr⟩, -⟩ | ⟨e', -, -, hv, -⟩
    · cases hr
    · exact ⟨hu, hv⟩

/-- How a call ends: the object is delivered, or there were too many failures in a row. -/
theorem returns (wf : WellFormed key target) (hl : b.size < Text.Unsigned.limit)
    (h : Stage t target b w known) (delivers : task.Delivers key b) {result : Except Error Output}
    {h' : Handler} (returned : (newcomer t retries policy).Returns Server.connection.observed buffer
      task w result h' w') :
    (∃ start, result = .ok ⟨Server.digestTag b, start⟩) ∧ Delivered t target b w' ∨
    ∃ e, result = .error e ∧ e.disposition = some .abortCurrentProcess ∧
      ∃ known', Stage t target b w' known' := by
  obtain ⟨-, hended⟩ := returned.ended
  generalize hpeer : w'.peer = peer at hended
  generalize hfiles : w'.files = files at hended
  generalize h'.session = session at hended
  cases hended with
  | uninspected inspected =>
    have steady : task.source.Steady b fun _ => True :=
      delivers.source ▸ InputSource.steady_bytes b _
    obtain ⟨hr, -⟩ := Handler.inspects_steady (c := Server.connection.observed)
      (P := fun _ _ => True) steady (fun _ h => h) (fun _ _ _ => trivial) inspected trivial
    cases hr
  | attempted begun ends =>
    obtain ⟨hu, hs⟩ := h.begins wf hl delivers begun
    cases ends with
    | finished attempt =>
      rcases (Job.goes attempt).delivers hu wf hl hs with ⟨hr, done⟩ | ⟨e, hr, -⟩
      · exact .inl ⟨hr, hpeer ▸ done.peer, hfiles ▸ done.files, hpeer ▸ done.prefixes⟩
      · cases hr
    | left attempt kept =>
      rcases (Job.goes attempt).delivers hu wf hl hs with ⟨⟨start, hr⟩, -⟩ | ⟨e, hr, he, -⟩
      · cases hr
      · cases hr
        rw [he] at kept
        rcases kept with hk | hk
        · cases hk
        · cases hk
    | abandoned attempt abort =>
      rcases (Job.goes attempt).delivers hu wf hl hs with ⟨⟨start, hr⟩, -⟩ | ⟨e, hr, he, -⟩
      · cases hr
      · cases hr
        cases he.symm.trans abort
    | exhausted attempt retryable =>
      rcases (Job.goes attempt).delivers hu wf hl hs with ⟨⟨start, hr⟩, -⟩ | ⟨e, hr, -, hv, -⟩
      · cases hr
      · exact .inr ⟨_, rfl, rfl, _, hv.same hpeer hfiles⟩

theorem exists_returns (wf : WellFormed key target) (hl : b.size < Text.Unsigned.limit)
    (h : Stage t target b w known) (delivers : task.Delivers key b) :
    ∃ result h' w', (newcomer t retries policy).Returns Server.connection.observed buffer task w
      result h' w' := by
  refine Handler.exists_returns fun u s opened => ?_
  have hs := h.begins wf hl delivers (.intro opened .start)
  refine ⟨_, Resumable.run_isSome
    (I := fun s => u.Delivers t key b ∧ Stage t target b s.world s.session.uri)
    (fun s => s.world.peer.peer.breaks.length) ?_ hs (Nat.le_refl _)⟩
  rintro v v' e ⟨hu, hv⟩ hattempt -
  rcases (Job.goes hattempt).delivers hu wf hl hv with ⟨⟨start, hr⟩, -⟩ | ⟨e', -, -, hv', hfewer⟩
  · cases hr
  · exact ⟨⟨hu, hv'⟩, .inl hfewer⟩

end Stage

/-- The world after some calls that all failed, one after the other, each of a new handler with the
tracker file and each to upload `b` to the key. -/
inductive Relayed (t : TrackerFile) (key : ObjectKey) (b : ByteArray) (w : World (Observed Server)) :
    World (Observed Server) → Prop
  | none : Relayed t key b w w
  | more {v v' : World (Observed Server)} {h' : Handler} {retries buffer : Nat}
      {policy : StalePolicy} {task : Handler.Task} {e : Error} (before : Relayed t key b w v)
      (delivers : task.Delivers key b)
      (returned : (newcomer t retries policy).Returns Server.connection.observed buffer task v
        (.error e) h' v') : Relayed t key b w v'

theorem Relayed.stage (wf : WellFormed key target) (hl : b.size < Text.Unsigned.limit)
    {w v : World (Observed Server)} {known : Option SessionUri} (h : Relayed t key b w v)
    (hw : Stage t target b w known) : ∃ known', Stage t target b v known' := by
  induction h with
  | none => exact ⟨_, hw⟩
  | more before delivers returned ih =>
    obtain ⟨known', hv⟩ := ih
    rcases hv.returns wf hl delivers returned with ⟨⟨start, hr⟩, -⟩ | ⟨e, -, -, hnext⟩
    · cases hr
    · exact hnext

/-- A store that has nothing and is told to cut data off, and nothing else. -/
def cutting (limits : List Nat) : Server := { Server.empty with breaks := limits }

/-- However often data is cut off, and wherever: new handlers with the same tracker file, one after the
other, send every byte once. Each call ends; it fails only so that a later process can go on; what the
store noted is always the first bytes of the object, and all of them when a call succeeds. One session
was started then, the object is stored under its digest, and the tracker file is gone. -/
theorem relayed_upload_delivers_once (wf : WellFormed key target)
    (hl : b.size < Text.Unsigned.limit) {limits : List Nat} {w v : World (Observed Server)}
    (begun : w.peer = ⟨cutting limits, []⟩) (missing : t.Holds w.files none)
    (relayed : Relayed t key b w v) (retries buffer : Nat) (policy : StalePolicy)
    {task : Handler.Task} (delivers : task.Delivers key b) :
    (∀ x ∈ v.peer.seen, ∃ n, x.peer.sent = b.extract 0 n) ∧
    (∀ u s, (newcomer t retries policy).Begins Server.connection.observed buffer task v u s →
      ∀ x ∈ (u.attempt s).2.world.peer.seen, ∃ n, x.peer.sent = b.extract 0 n) ∧
    (∃ result h' v', (newcomer t retries policy).Returns Server.connection.observed buffer task v
      result h' v') ∧
    ∀ result h' v', (newcomer t retries policy).Returns Server.connection.observed buffer task v
        result h' v' →
      (∀ e, result = .error e → e.disposition = some .abortCurrentProcess) ∧
      ∀ output, result = .ok output →
        output.eTag = Server.digestTag b ∧ v'.peer.peer.sent = b ∧ v'.peer.peer.started = 1 ∧
          v'.peer.peer.objects.lookup target.path = some b ∧
          v'.files.find t.path = .error .notFound := by
  have hfirst : Stage t target b w none := by
    refine .unstarted ?_ missing ?_
    · rw [begun]
      exact ⟨⟨rfl, rfl, rfl, rfl⟩, rfl, rfl, rfl⟩
    · rw [begun]
      intro x hx
      cases hx
  obtain ⟨known, hv⟩ := relayed.stage wf hl hfirst
  refine ⟨hv.prefixes, ?_, hv.exists_returns wf hl delivers, ?_⟩
  · intro u s hbegins
    obtain ⟨hu, hs⟩ := hv.begins wf hl delivers hbegins
    rcases hattempt : u.attempt s with ⟨result, v'⟩
    rcases (Job.goes hattempt).delivers hu wf hl hs with ⟨-, done⟩ | ⟨e, -, -, hnext, -⟩
    · exact done.prefixes
    · exact hnext.prefixes
  · intro result h' v' returned
    rcases hv.returns wf hl delivers returned with ⟨⟨start, rfl⟩, done⟩ | ⟨e, rfl, he, -⟩
    · refine ⟨fun e hr => (by cases hr), ?_⟩
      rintro output ⟨⟩
      refine ⟨rfl, ?_, done.peer.started, done.peer.object, done.files.find_none⟩
      rw [done.peer.noted, ByteArray.extract_zero_size]
    · refine ⟨?_, fun output hr => (by cases hr)⟩
      rintro _ ⟨⟩
      exact he

theorem wellFormed_plain : WellFormed ⟨"http://h", "b", "k"⟩ ⟨some "http", some "h", "/b/k", none⟩ :=
  ⟨by decide, by decide, by decide, by simp, by decide⟩

/-- A call whose data is cut off at once, and the next one with the same tracker file. -/
theorem broken_upload_is_relayed : ∃ v,
    Relayed ⟨"t"⟩ ⟨"http://h", "b", "k"⟩ ⟨#[1, 2, 3]⟩ (.initial ⟨cutting [0], []⟩ .empty) v ∧
    v.peer.peer.started = 1 ∧
    ∃ result h' v', (newcomer ⟨"t"⟩ 0 .restart).Returns Server.connection.observed 8
        ⟨⟨"http://h", "b", "k"⟩, .bytes ⟨#[1, 2, 3]⟩, [], none⟩ v result h' v' ∧
      (∀ e, result = .error e → e.disposition = some .abortCurrentProcess) ∧
      ∀ output, result = .ok output →
        output.eTag = Server.digestTag ⟨#[1, 2, 3]⟩ ∧ v'.peer.peer.sent = ⟨#[1, 2, 3]⟩ ∧
          v'.peer.peer.started = 1 ∧ v'.peer.peer.objects.lookup "/b/k" = some ⟨#[1, 2, 3]⟩ ∧
          v'.files.find "t" = .error .notFound := by
  let task : Handler.Task := ⟨⟨"http://h", "b", "k"⟩, .bytes ⟨#[1, 2, 3]⟩, [], none⟩
  have delivers : task.Delivers ⟨"http://h", "b", "k"⟩ ⟨#[1, 2, 3]⟩ := ⟨rfl, rfl, by decide⟩
  have hrun : ((newcomer ⟨"t"⟩ 0 .restart).send Server.connection.observed 8 1 task
      (.initial ⟨cutting [0], []⟩ .empty)).map
        (fun r => (r.1.isOk, r.2.2.peer.peer.started)) = some (false, 1) := by decide +kernel
  obtain ⟨⟨result, h', v⟩, hsend, hfacts⟩ := Option.map_eq_some_iff.1 hrun
  rw [Prod.mk.injEq] at hfacts
  cases result with
  | ok output => cases hfacts.1
  | error e =>
    have relayed := Relayed.more .none delivers (Handler.returns_of_send hsend)
    obtain ⟨-, -, ⟨result, h'', v', returned⟩, hall⟩ :=
      relayed_upload_delivers_once wellFormed_plain (by decide) rfl holds_missing relayed 0 8 .restart
        delivers
    exact ⟨v, relayed, hfacts.2, result, h'', v', returned, hall result h'' v' returned⟩

end ObjectTransfer.Upload
