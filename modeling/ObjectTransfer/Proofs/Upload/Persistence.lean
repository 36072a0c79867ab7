import ObjectTransfer.Proofs.Text.Numeral
import ObjectTransfer.Proofs.Text.Pieces
import ObjectTransfer.Proofs.Upload.Tracking
/-!
Targets of sessions that outlive their process. What makes a target that of a session is said here without
the reader; a target that is read is read again from its own text, and from the tracker file in which that
text was saved.
-/
namespace ObjectTransfer.Upload
open Text

namespace SessionUri
variable {s core : String} {u : SessionUri}

/-- A target with a web scheme, a host, and a query in which an upload is named. -/
structure Targets (u : Uri) : Prop where
  web : u.scheme = some "http" ∨ u.scheme = some "https"
  host : ∃ host, u.host = some host ∧ host ≠ ""
  upload : ∃ query pair, u.query = some query ∧ Piece '&' pair query.toList ∧
    Named "upload_id".toList pair

theorem namesUpload_iff (query : String) : namesUpload query = true ↔
    ∃ pair, Piece '&' pair query.toList ∧ Named "upload_id".toList pair := by
  have none : '=' ∉ "upload_id".toList := by decide
  simp only [namesUpload, List.any_eq_true, decide_eq_true_eq, takeWhile_eq_iff none, mem_splitOn_iff]

theorem isUsable_iff (u : Uri) : isUsable u = true ↔ Targets u := by
  constructor
  · intro usable
    have web := web_of_isUsable usable
    simp only [isUsable, Bool.and_eq_true, Option.any_eq_true] at usable
    obtain ⟨⟨-, host, found, some⟩, query, held, named⟩ := usable
    obtain ⟨pair, piece, name⟩ := (namesUpload_iff query).1 named
    exact ⟨web, ⟨host, found, by simpa using some⟩, query, pair, held, piece, name⟩
  · rintro ⟨web, ⟨host, found, some⟩, query, pair, held, piece, name⟩
    have named : namesUpload query = true := (namesUpload_iff query).2 ⟨pair, piece, name⟩
    simp [isUsable, isWeb, web, found, some, held, named]

/-- Only the text between the blanks is read, and it has to be such a target. -/
theorem parse_eq_ok_iff : parse s = .ok u ↔ Uri.parse (trim s) = .ok u.uri ∧ Targets u.uri := by
  rw [← isUsable_iff]
  refine ⟨parse_eq_ok, fun ⟨read, usable⟩ => ?_⟩
  rw [parse, read]
  simp only [usable, if_true]

theorem parse_eq_error (other : ∀ u, Uri.parse (trim s) = .ok u → ¬ Targets u) :
    parse s = .error (.invalid (.invalidSessionUri s)) := by
  unfold parse
  cases read : Uri.parse (trim s) with
  | error fault => rfl
  | ok u =>
    have unusable : isUsable u ≠ true := fun usable => other u read ((isUsable_iff u).1 usable)
    simp only [unusable]
    rfl

theorem trim_of_padded (padded : Padded core.toList s.toList) : trim s = trim core := by
  rw [trim, trim, padded.strip_eq]

/-- Blanks around a text change nothing of the target that is read from it. -/
theorem written_of_padded (padded : Padded core.toList s.toList)
    (ascii : ∀ c ∈ core.toList, c.toNat < 128) (short : core.utf8ByteSize < Uri.maxBytes)
    (read : parse s = .ok u) : u.Written := by
  refine written_of_parse (s := core) (parse_eq_ok_iff.2 ?_) ascii short
  rw [← trim_of_padded padded]
  exact parse_eq_ok_iff.1 read

end SessionUri

theorem resumes_saved {u : SessionUri} (written : u.Written) {t : TrackerFile} {files : Files.Store}
    {content : Option ByteArray} (holds : t.Holds files content) :
    ∃ after, t.save u.text files = .ok after ∧ t.load after = some u.text ∧
      ∀ h : Handler, h.tracker = some t → h.session.trackerLoaded = false →
        (h.loadTracker after).uri = some u ∧ (h.loadTracker after).confirmed = 0 := by
  obtain ⟨after, saved, holds⟩ := holds.save u.text
  refine ⟨after, saved, ?_, fun h tracked unread => ?_⟩
  · rw [holds.load_eq, Option.bind_some, TrackerFile.fromUTF8?_line, Option.bind_some, written.token]
  · have taken : h.loadTracker after =
        { h.session with trackerLoaded := true, uri := some u, confirmed := 0 } := by
      unfold Handler.loadTracker
      rw [unread, if_neg (by simp), tracked, tracked?_eq holds, sessionIn_line written]
    rw [taken]
    exact ⟨rfl, rfl⟩

/-- A text is read as the target of a session exactly when, less the blanks around it, it is a target with
a web scheme, a host and an upload's name in its query, and any other text is refused. What is read from a
text in ASCII that is shorter than a target may be is read again from its own text, which is written as it
was read; and from the tracker file in which that text is saved, whatever the file held before, the text is
loaded and a later handler takes the same session over. -/
theorem session_survives_tracker :
    (∀ s u, SessionUri.parse s = .ok u ↔
      Uri.parse (trim s) = .ok u.uri ∧ SessionUri.Targets u.uri) ∧
    (∀ s, (∀ u, Uri.parse (trim s) = .ok u → ¬ SessionUri.Targets u) →
      SessionUri.parse s = .error (.invalid (.invalidSessionUri s))) ∧
    ∀ (s core : String) (u : SessionUri), Padded core.toList s.toList →
      (∀ c ∈ core.toList, c.toNat < 128) → core.utf8ByteSize ≤ 65533 → SessionUri.parse s = .ok u →
      SessionUri.parse u.text = .ok u ∧
      (∀ v, SessionUri.parse u.text = .ok v → v.text = u.text) ∧
      ∀ (t : TrackerFile) files content, t.Holds files content →
        ∃ after, t.save u.text files = .ok after ∧ t.load after = some u.text ∧
          ∀ h : Handler, h.tracker = some t → h.session.trackerLoaded = false →
            (h.loadTracker after).uri = some u ∧ (h.loadTracker after).confirmed = 0 := by
  refine ⟨fun s u => SessionUri.parse_eq_ok_iff, fun s => SessionUri.parse_eq_error, ?_⟩
  intro s core u padded ascii short read
  have written := SessionUri.written_of_padded padded ascii (Nat.lt_succ_of_le short) read
  refine ⟨written.read, fun v again => ?_, fun t files content => resumes_saved written⟩
  cases written.read.symm.trans again
  rfl

/-- A target whose text changes when it is read: the scheme was in capitals, there was no path, and there
was a fragment. -/
def capitals : SessionUri := ⟨⟨some "https", some "me@h:80", "/", some "a=b&upload_id=x"⟩⟩

theorem capitals_survive_tracker :
    SessionUri.parse "\u3000HTTPS://me@h:80?a=b&upload_id=x#f\n" = .ok capitals ∧
    SessionUri.parse "https://me@h:80/?a=b&upload_id=x" = .ok capitals ∧
    SessionUri.parse "https://h/b/k?upload_ids=x" =
      .error (.invalid (.invalidSessionUri "https://h/b/k?upload_ids=x")) ∧
    ∃ after, (TrackerFile.mk "t").save capitals.text .empty = .ok after ∧
      (TrackerFile.mk "t").load after = some "https://me@h:80/?a=b&upload_id=x" := by
  have text : capitals.text = "https://me@h:80/?a=b&upload_id=x" := by decide
  have read : SessionUri.parse "\u3000HTTPS://me@h:80?a=b&upload_id=x#f\n" = .ok capitals := by rfl
  obtain ⟨exact, refused, survives⟩ := session_survives_tracker
  obtain ⟨again, -, kept⟩ := survives _ "HTTPS://me@h:80?a=b&upload_id=x#f" capitals
    ⟨['\u3000'], ['\n'], by decide, by decide, by decide⟩ (by simp) (by decide) read
  obtain ⟨after, saved, loaded, -⟩ := kept ⟨"t"⟩ .empty none holds_missing
  refine ⟨read, text ▸ again, refused _ ?_, after, saved, text ▸ loaded⟩
  intro u hu targets
  have failed : (SessionUri.parse "https://h/b/k?upload_ids=x").isOk = false := by decide
  rw [(exact _ ⟨u⟩).2 ⟨hu, targets⟩] at failed
  cases failed

end ObjectTransfer.Upload
