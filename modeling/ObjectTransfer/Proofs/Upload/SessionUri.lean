import Mathlib.Data.List.Basic
import ObjectTransfer.Proofs.Text
import ObjectTransfer.Proofs.TrackerFile
import ObjectTransfer.Proofs.Uri
import ObjectTransfer.Upload.SessionUri
/-!
The texts of session targets. A target that a store named in a header is read back from its text, and
from the line that a tracker file holds of it.
-/
namespace ObjectTransfer

theorem Text.isBlank_of_visible {c : Char} (h1 : 33 ≤ c.toNat) (h2 : c.toNat < 128) :
    isBlank c = false := by
  simp only [isBlank, Bool.or_eq_false_iff, Bool.and_eq_false_iff, decide_eq_false_iff_not,
    beq_eq_false_iff_ne]
  omega

theorem Text.strip_sublist (cs : List Char) : List.Sublist (strip cs) cs := by
  have h : List.Sublist (trimLeft cs).reverse.reverse cs := by
    rw [List.reverse_reverse]
    exact List.dropWhile_sublist _
  exact List.Sublist.trans (List.Sublist.reverse (List.dropWhile_sublist _)) h

namespace Upload.SessionUri

structure Written (u : SessionUri) : Prop where
  solid : ∀ c ∈ u.text.toList, Text.isBlank c = false
  read : parse u.text = .ok u

theorem parse_eq_ok {s : String} {u : SessionUri} (h : parse s = .ok u) :
    Uri.parse (Text.trim s) = .ok u.uri ∧ isUsable u.uri = true := by
  unfold parse at h
  split at h
  · split at h
    · rename_i hu usable
      cases h
      exact ⟨hu, usable⟩
    · cases h
  · cases h

theorem web_of_isUsable {u : Uri} (h : isUsable u = true) :
    u.scheme = some "http" ∨ u.scheme = some "https" := by
  simp only [isUsable, isWeb, Bool.and_eq_true, Bool.or_eq_true, decide_eq_true_eq] at h
  exact h.1.1

theorem trim_of_solid {s : String} (h : ∀ c ∈ s.toList, Text.isBlank c = false) :
    Text.trim s = s := by
  rw [Text.trim, Text.strip_eq_self_of_all h, String.ofList_toList]

theorem written_of_web {u : SessionUri} (web : u.uri.Web) (usable : isUsable u.uri = true)
    (hl : u.text.utf8ByteSize ≤ Uri.maxBytes) (ascii : ∀ c ∈ u.text.toList, c.toNat < 128) :
    u.Written := by
  have solid : ∀ c ∈ u.text.toList, Text.isBlank c = false :=
    fun c hc => Text.isBlank_of_visible (web.visible c hc).1.1 (ascii c hc)
  refine ⟨solid, ?_⟩
  have hparse : Uri.parse (Text.trim u.text) = .ok u.uri := by
    rw [trim_of_solid solid]
    exact web.parse_text hl
  rw [parse, hparse]
  simp only [usable, if_true]

/-- What is read from a text in ASCII is written, unless the text is as long as a target can be. -/
theorem written_of_parse {s : String} {u : SessionUri} (h : parse s = .ok u)
    (ascii : ∀ c ∈ s.toList, c.toNat < 128) (hl : s.utf8ByteSize < Uri.maxBytes) : u.Written := by
  obtain ⟨hparse, usable⟩ := parse_eq_ok h
  obtain ⟨web, hsize, hchars⟩ := Uri.web_of_parse hparse (web_of_isUsable usable)
  have hsub := Text.strip_sublist s.toList
  have htrim : (Text.trim s).utf8ByteSize ≤ s.utf8ByteSize := by
    rw [Text.trim, String.utf8ByteSize_ofList]
    calc String.utf8Len (Text.strip s.toList) ≤ String.utf8Len s.toList :=
          String.utf8Len_le_of_sublist hsub
      _ = s.utf8ByteSize := by rw [← String.utf8ByteSize_ofList, String.ofList_toList]
  apply written_of_web web usable
  · have := hsize
    rw [text]
    omega
  · intro c hc
    rcases hchars c hc with hc | hc
    · rw [Text.trim, String.toList_ofList] at hc
      exact ascii c (hsub.subset hc)
    · have hfront : ∀ c ∈ "https:/".toList, c.toNat < 128 := by simp
      exact hfront c hc

theorem Written.ne_empty {u : SessionUri} (h : u.Written) : u.text ≠ "" := by
  intro he
  have hread := h.read
  rw [he] at hread
  have hfail : (parse "").isOk = false := by decide
  rw [hread] at hfail
  cases hfail

theorem Written.token {u : SessionUri} (h : u.Written) :
    TrackerFile.token? (u.text ++ "\n") = some u.text := by
  have plain : TrackerFile.Plain u.text :=
    { nonempty := h.ne_empty
      line := fun newline => by
        have solid := h.solid _ newline
        contradiction
      trimmed := trim_of_solid h.solid }
  exact plain.token?_line

end Upload.SessionUri

end ObjectTransfer
