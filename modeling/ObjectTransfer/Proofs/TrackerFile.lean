import ObjectTransfer.Proofs.Files.Store
import ObjectTransfer.TrackerFile
/-!
Tracker files that nobody else touches: what is saved is what is loaded next, and a file that was
removed holds nothing.
-/
namespace ObjectTransfer.TrackerFile
open Files

/-- The tracker file holds these bytes, or is missing but could be made. -/
def Holds (t : TrackerFile) (files : Store) (content : Option ByteArray) : Prop :=
  files.Holds t.path content

/-- The text of a tracker file that holds a token. -/
def line (token : String) : ByteArray := (token ++ "\n").toUTF8

theorem fromUTF8?_line (token : String) : String.fromUTF8? (line token) = some (token ++ "\n") := by
  have hbytes : (token ++ "\n").toUTF8 = (token ++ "\n").toByteArray :=
    String.toUTF8_eq_toByteArray
  rw [line, String.fromUTF8?, hbytes, dif_pos (token ++ "\n").isValidUTF8]
  rfl

/-- A text that is a line of its own and has no blanks around it. -/
structure Plain (token : String) : Prop where
  nonempty : token ≠ ""
  line : '\n' ∉ token.toList
  trimmed : Text.trim token = token

theorem Plain.token?_line {token : String} (h : Plain token) :
    token? (token ++ "\n") = some token := by
  have other : ∀ c ∈ token.toList, (c != '\n') = true := by
    intro c hc
    rw [bne_iff_ne]
    rintro rfl
    exact h.line hc
  have line : Text.firstLine (token ++ "\n") = token := by
    have stop : "\n".toList.takeWhile (· != '\n') = [] := by decide
    rw [Text.firstLine, String.toList_append, List.takeWhile_append_of_pos other, stop,
      List.append_nil, String.ofList_toList]
  rw [token?, line, h.trimmed, if_neg h.nonempty]

theorem Holds.load_eq {t : TrackerFile} {files : Store} {content : Option ByteArray}
    (h : t.Holds files content) :
    t.load files = (content.bind String.fromUTF8?).bind token? := by
  cases content with
  | none =>
    rw [load, Store.Holds.readAll_none h]
    rfl
  | some data =>
    rw [load, Store.Holds.readAll_some h]
    rfl

theorem Holds.save {t : TrackerFile} {files : Store} {content : Option ByteArray}
    (h : t.Holds files content) (token : String) :
    ∃ after, t.save token files = .ok after ∧ t.Holds after (some (line token)) := by
  obtain ⟨after, hw, ha⟩ := Store.Holds.write h (line token)
  refine ⟨after, ?_, ha⟩
  rw [line] at hw
  simp only [TrackerFile.save, hw]

theorem Holds.remove {t : TrackerFile} {files : Store} {content : Option ByteArray}
    (h : t.Holds files content) : t.Holds (t.remove files) none := by
  cases content with
  | none =>
    have hr : files.remove t.path = .error .notFound := by
      rw [Store.remove, Store.Holds.find_none h]
    have hkept : t.remove files = files := by
      simp only [TrackerFile.remove, hr]
    rw [hkept]
    exact h
  | some data =>
    obtain ⟨after, hr, ha⟩ := Store.Holds.remove h
    have hkept : t.remove files = after := by
      simp only [TrackerFile.remove, hr]
    rw [hkept]
    exact ha

end ObjectTransfer.TrackerFile
