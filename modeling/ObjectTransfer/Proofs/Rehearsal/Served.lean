import ObjectTransfer.Proofs.Download.Copies
import ObjectTransfer.Proofs.Resumed.Offers
/-!
An object of the store that is fetched over a connection, beside the same object in memory. A range goes
out as a header and is read back from it by the store, so that the bytes that come are those that the range
selects, as they are when the object itself is asked.
-/
namespace ObjectTransfer.Rehearsal
open Http

variable {o : HttpObject} {data : ByteArray} {s : Server} {m : MemoryObject} {range : ByteRange}
  {request : Request}

namespace Server

def Stores (path : String) (data : ByteArray) (s : Server) : Prop := s.objects.lookup path = some data

theorem ask_other (kind : kindOf request = .other) (s : Server) (files : Files.Store) :
    connection.ask request s files = (.ok ((s.note none request .empty).serve request).1,
      ((s.note none request .empty).serve request).2, files) := by
  unfold Connection.ask connection answer
  dsimp only
  rw [kind]

theorem serve_head (head : request.method = .head) (stored : s.Stores request.uri.path data) :
    s.serve request = (⟨⟨200⟩,
      [("content-length", .text (toString data.size)), ("etag", .text (digestTag data))], .empty⟩, s) := by
  unfold serve
  dsimp only
  rw [head, show s.objects.lookup request.uri.path = some data from stored]

/-- How a request for an object is answered when this range was read from its header, if any. -/
def cutOut (data : ByteArray) : Option ByteRange → Response
  | none => ⟨⟨200⟩, [], .ofBytes data⟩
  | some range =>
    match range.slice? data with
    | some bytes => ⟨⟨206⟩, [], .ofBytes bytes⟩
    | none => .bare 416

theorem serve_get (get : request.method = .get) (stored : s.Stores request.uri.path data) :
    s.serve request = (cutOut data ((Headers.text? request.headers "range").bind fun text =>
      (ByteRange.parse text).toOption), s) := by
  unfold serve
  dsimp only
  rw [get, show s.objects.lookup request.uri.path = some data from stored]
  dsimp only
  cases (Headers.text? request.headers "range").bind fun text => (ByteRange.parse text).toOption with
  | none => rfl
  | some range =>
    dsimp only [cutOut]
    cases range.slice? data with
    | some bytes => rfl
    | none => rfl

theorem metaOf_head (o : HttpObject) (small : data.size < Text.Unsigned.limit) :
    o.metaOf ⟨⟨200⟩, [("content-length", .text (toString data.size)), ("etag", .text (digestTag data))],
      .empty⟩ = .ok ⟨data.size, some (digestTag data)⟩ := by
  have length : Text.Unsigned.parse (toString data.size).toList = .ok data.size :=
    Text.Unsigned.parse_toString small
  have text : Headers.text? [("content-length", .text (toString data.size)),
      ("etag", .text (digestTag data))] "content-length" = some (toString data.size) := rfl
  have tag : Headers.text? [("content-length", .text (toString data.size)),
      ("etag", .text (digestTag data))] "etag" = some (digestTag data) := rfl
  unfold HttpObject.metaOf
  rw [if_neg (by simp)]
  dsimp only
  rw [text, tag, Option.bind_some, length]
  rfl

/-- A partial content is what the range selects. Anything else is a failure for good, which comes only when
the range selects nothing or cannot be written. -/
theorem gives_cutOut (o : HttpObject) (data : ByteArray) (range : ByteRange) :
    range.Gives data (o.bodyOf range (cutOut data (ByteRange.parse range.header).toOption)) := by
  cases read : ByteRange.parse range.header with
  | error e =>
    refine .nothing rfl fun sound => ?_
    rw [(range.spaced_header.stands sound.left sound.right).parse_eq sound.ordered] at read
    cases read
  | ok range' =>
    obtain rfl := ByteRange.eq_of_parse_header read
    dsimp only [Except.toOption, cutOut]
    cases slice : range'.slice? data with
    | some bytes => exact .bytes slice
    | none => exact .nothing rfl fun _ => slice

theorem offers (o : HttpObject) (small : data.size < Text.Unsigned.limit) :
    (o.source connection).Offers (Stores o.uri.path data) data (some (digestTag data)) where
  inspect s files stored := by
    refine ⟨s.note none o.inspectRequest .empty, stored, ?_⟩
    have stored : (s.note none o.inspectRequest .empty).Stores o.inspectRequest.uri.path data := stored
    unfold HttpObject.source
    dsimp only
    rw [ask_other rfl, serve_head rfl stored]
    dsimp only [Except.bind]
    rw [metaOf_head o small]
  fetch range s files stored := by
    refine ⟨_, s.note none (o.fetchRequest range) .empty, stored, gives_cutOut o data range, ?_⟩
    have stored : (s.note none (o.fetchRequest range) .empty).Stores (o.fetchRequest range).uri.path
        data := stored
    have header : Headers.text? (o.fetchRequest range).headers "range" = some range.header := rfl
    unfold HttpObject.source
    dsimp only
    rw [ask_other rfl, serve_get rfl stored, header, Option.bind_some]
    rfl

end Server

namespace MemoryObject
variable {tag : Option String}

/-- The object in memory with this content and this tag, and no fault is arranged for. -/
structure Plain (data : ByteArray) (tag : Option String) (m : MemoryObject) : Prop where
  content : m.data = data
  eTag : m.eTag = tag
  failAt : m.failAt = []
  interrupts : m.interrupts = []

theorem Plain.fetch_eq (plain : m.Plain data tag) (range : ByteRange) :
    ∃ m' answer, m'.Plain data tag ∧ range.Gives data answer ∧ m.fetch range = (answer, m') := by
  obtain ⟨content, eTag, failAt, interrupts, requests⟩ := m
  obtain ⟨rfl, rfl, rfl, rfl⟩ := plain
  have never : isToFail ⟨content, eTag, [], [], requests.push range⟩ range = false := by
    unfold isToFail
    cases range.start? <;> rfl
  unfold fetch
  dsimp only
  rw [never]
  cases slice : range.slice? content with
  | none => exact ⟨_, _, ⟨rfl, rfl, rfl, rfl⟩, .nothing rfl fun _ => slice, rfl⟩
  | some bytes => exact ⟨_, _, ⟨rfl, rfl, rfl, rfl⟩, .bytes slice, rfl⟩

theorem offers (data : ByteArray) (tag : Option String) :
    source.Offers (Plain data tag) data tag where
  inspect m files plain := by
    refine ⟨m, plain, ?_⟩
    unfold source objectMeta
    dsimp only
    rw [plain.content, plain.eTag]
  fetch range m files plain := by
    obtain ⟨m', answer, plain', gives, same⟩ := plain.fetch_eq range
    refine ⟨answer, m', plain', gives, ?_⟩
    unfold source
    dsimp only
    rw [same]

theorem plain_ofBytes (data : ByteArray) :
    (ofBytes data).Plain data (some (Server.digestTag data)) := ⟨rfl, rfl, rfl, rfl⟩

end MemoryObject

/-- The worlds of a server that stores the object under the path, and of the same object in memory. -/
def Holding (path : String) (data : ByteArray) : World Server → World MemoryObject → Prop :=
  World.Twins (Both (Server.Stores path data) (MemoryObject.Plain data (some (Server.digestTag data))))

/-- An object of the store, if its size can be told, is read over a connection as it is read in memory: its
size and tag, and of every range the bytes that it selects, or nothing for good when it selects none. So a
download in parts makes the same copy of it, whoever moves next, and a resumed one does the same to the
destination, whatever is there, and returns after no more attempts than the retries allow, or one more where
some file refuses what is written. -/
theorem served_object_is_object_in_memory (o : HttpObject) (data : ByteArray)
    (small : data.size < Text.Unsigned.limit) :
    (∀ s m, Server.Stores o.uri.path data s → m.Plain data (some (Server.digestTag data)) →
      (o.source Server.connection).Reads data (some (Server.digestTag data)) s ∧
        MemoryObject.source.Reads data (some (Server.digestTag data)) m) ∧
    (∀ (p : Download.Plan) destination w v, 0 < p.partSize → 0 < p.workers → w.files.Sound →
      Holding o.uri.path data w v →
      p.ComesTo (o.source Server.connection) destination
          (p.Copies data (some (Server.digestTag data)) destination w.files) w ∧
        p.ComesTo MemoryObject.source destination
          (p.Copies data (some (Server.digestTag data)) destination w.files) v) ∧
    ∀ (h : Download.Handler) destination buffer limit progress w v, Holding o.uri.path data w v →
      Option.Rel (AkinWith Error.Final (Holding o.uri.path data))
          (h.get (o.source Server.connection) destination buffer limit progress w)
          (h.get MemoryObject.source destination buffer limit progress v) ∧
        (h.retries + 1 < limit ∨ h.retries < limit ∧ w.files.Roomy →
          (h.get (o.source Server.connection) destination buffer limit progress w).isSome) := by
  have served := Server.offers o small
  have kept := MemoryObject.offers data (some (Server.digestTag data))
  refine ⟨fun s m stored plain => ⟨served.reads stored, kept.reads plain⟩,
    fun p destination w v hp hw sound twins => ?_,
    fun h destination buffer limit progress w v twins => ?_⟩
  · refine ⟨Download.comesTo_copies served small twins.peers.left destination hp hw sound, ?_⟩
    rw [twins.files] at sound ⊢
    exact Download.comesTo_copies kept small twins.peers.right destination hp hw sound
  · let c : Download.Call Server :=
      ⟨h, o.source Server.connection, destination, buffer, progress⟩
    exact ⟨Download.Call.get_twins (c := c) (served.alike kept small) twins limit,
      Download.Call.get_isSome_of_offers (c := c) served small twins.peers.left⟩

/-- An object under a path of a server. -/
def storedObject : HttpObject := ⟨⟨some "http", some "h", "/b/k", none⟩⟩

def storeOfThree : Server := { Server.empty with objects := [("/b/k", ⟨#[1, 2, 3]⟩)] }

/-- The last two of three bytes are read from either, and none behind the third. Two workers make a copy of
all of them, and a resumed download ends alike with either. -/
theorem three_bytes_are_read_alike :
    (∃ body body',
      ((storedObject.source Server.connection).fetch (.last 2) storeOfThree .empty).1 = .ok body ∧
      (MemoryObject.source.fetch (.last 2) (.ofBytes ⟨#[1, 2, 3]⟩) .empty).1 = .ok body' ∧
      body.collect = .ok ⟨#[2, 3]⟩ ∧ body'.collect = .ok ⟨#[2, 3]⟩) ∧
    (∃ e e',
      ((storedObject.source Server.connection).fetch (.allFrom 3) storeOfThree .empty).1 = .error e ∧
      (MemoryObject.source.fetch (.allFrom 3) (.ofBytes ⟨#[1, 2, 3]⟩) .empty).1 = .error e' ∧
      e.isRetryable = false ∧ e'.isRetryable = false) ∧
    (∃ out w', Download.twoWorkers.download (storedObject.source Server.connection) "d"
        (.initial storeOfThree .empty) = some (.ok out, w') ∧
      w'.files.Holds "d" (some ⟨#[1, 2, 3]⟩)) ∧
    ∃ x y, Download.Handler.get ⟨none, 0⟩ (storedObject.source Server.connection) "d" 2 1 none
        (.initial storeOfThree .empty) = some x ∧
      Download.Handler.get ⟨none, 0⟩ MemoryObject.source "d" 2 1 none
        (.initial (.ofBytes ⟨#[1, 2, 3]⟩) .empty) = some y ∧
      AkinWith Error.Final (Holding "/b/k" ⟨#[1, 2, 3]⟩) x y := by
  have stored : Server.Stores storedObject.uri.path ⟨#[1, 2, 3]⟩ storeOfThree := rfl
  have plain := MemoryObject.plain_ofBytes ⟨#[1, 2, 3]⟩
  have twins : Holding storedObject.uri.path ⟨#[1, 2, 3]⟩ (.initial storeOfThree .empty)
      (.initial (.ofBytes ⟨#[1, 2, 3]⟩) .empty) := .intro ⟨stored, plain⟩ ..
  obtain ⟨reads, copies, resumes⟩ :=
    served_object_is_object_in_memory storedObject ⟨#[1, 2, 3]⟩ (by decide)
  obtain ⟨served, kept⟩ := reads _ _ stored plain
  refine ⟨?_, ?_, ?_, ?_⟩
  · have sound : (ByteRange.last 2).Sound := ByteRange.sound_last (by decide)
    have selected : (ByteRange.last 2).selected ⟨#[1, 2, 3]⟩ = [2, 3] := by decide
    obtain ⟨body, got, bytes⟩ := served.chosen (.last 2) .empty sound (by rw [selected]; decide)
    obtain ⟨body', got', bytes'⟩ := kept.chosen (.last 2) .empty sound (by rw [selected]; decide)
    rw [selected] at bytes bytes'
    exact ⟨body, body', got, got', bytes, bytes'⟩
  · have sound : (ByteRange.allFrom 3).Sound := ByteRange.sound_allFrom (by decide)
    have selected : (ByteRange.allFrom 3).selected ⟨#[1, 2, 3]⟩ = [] := by decide
    obtain ⟨e, got, final⟩ := served.nothing (.allFrom 3) .empty sound selected
    obtain ⟨e', got', final'⟩ := kept.nothing (.allFrom 3) .empty sound selected
    exact ⟨e, e', got, got', final, final'⟩
  · obtain ⟨-, result, w', run, copy⟩ := (copies Download.twoWorkers "d" _ _ (by decide) (by decide)
      Files.Store.sound_empty twins).1
    have copied {result : Except Error DownloadOutput} {files : Files.Store}
        (copy : Download.twoWorkers.Copies ⟨#[1, 2, 3]⟩ (some (Server.digestTag ⟨#[1, 2, 3]⟩)) "d"
          .empty result files) :
        ∃ out, result = .ok out ∧ files.Holds "d" (some ⟨#[1, 2, 3]⟩) := by
      cases copy with
      | made created holds others => exact ⟨_, rfl, holds⟩
      | denied denied => cases denied
    obtain ⟨out, rfl, holds⟩ := copied copy
    exact ⟨out, w', run, holds⟩
  · obtain ⟨ends, isSome⟩ := resumes ⟨none, 0⟩ "d" 2 1 none _ _ twins
    have both {x : Option (Except Error DownloadOutput × World Server)}
        {y : Option (Except Error DownloadOutput × World MemoryObject)}
        (ends : Option.Rel (AkinWith Error.Final (Holding "/b/k" ⟨#[1, 2, 3]⟩)) x y)
        (isSome : x.isSome) :
        ∃ a b, x = some a ∧ y = some b ∧ AkinWith Error.Final (Holding "/b/k" ⟨#[1, 2, 3]⟩) a b := by
      cases ends with
      | none => cases isSome
      | some made => exact ⟨_, _, rfl, rfl, made⟩
    exact both ends (isSome (.inr ⟨by decide, Files.Store.roomy_empty⟩))

end ObjectTransfer.Rehearsal
