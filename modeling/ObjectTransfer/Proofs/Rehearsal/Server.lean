import Mathlib.Tactic.Common
import ObjectTransfer.Proofs.Http.Range
import ObjectTransfer.Proofs.Text.Pieces
import ObjectTransfer.Rehearsal.Server
import ObjectTransfer.Upload.Attempt
/-!
What the store in memory makes of the requests of an upload: which exchange each of them is, where it
puts the data, and how the entity tags that it gives are compared with a digest.
-/
namespace ObjectTransfer

theorem Http.Headers.text?_set (h : Headers) (name : String) (value : HeaderValue) :
    text? (set h name value) name = value.text? := by
  have hl : (h.filter fun field => field.1 != name).lookup name = none := by
    rw [List.lookup_eq_none_iff]
    intro field hf
    simpa [bne_comm] using (List.mem_filter.1 hf).2
  simp [text?, set, List.lookup_append, hl]

theorem Text.toString_eq_zero {n : Nat} : toString n = "0" ↔ n = 0 := by
  constructor
  · intro h
    rw [← ofDigitChars_toString n, h]
    rfl
  · rintro rfl
    rfl

theorem Keyed.mem_put {α β : Type} [BEq α] [LawfulBEq α] {k : α} {v : β} {l : List (α × β)}
    {e : α × β} (h : e ∈ put k v l) : e = (k, v) ∨ e ∈ l := by
  induction l with
  | nil => simpa [put] using h
  | cons p l ih =>
    unfold put at h
    split at h
    · rename_i hk
      rcases List.mem_cons.1 h with rfl | h
      · exact .inl (by rw [eq_of_beq hk])
      · exact .inr (List.mem_cons_of_mem _ h)
    · rcases List.mem_cons.1 h with rfl | h
      · exact .inr List.mem_cons_self
      · exact (ih h).imp_right (List.mem_cons_of_mem _)

theorem Keyed.mem_of_lookup {α β : Type} [BEq α] [LawfulBEq α] {k : α} {v : β} {l : List (α × β)}
    (h : l.lookup k = some v) : (k, v) ∈ l := by
  obtain ⟨front, back, rfl, -⟩ := List.lookup_eq_some_iff.1 h
  simp

theorem Text.stripBy_quoted {p : Char → Bool} {q : Char} {cs : List Char} (hq : p q = true)
    (h : ∀ c ∈ cs, p c = false) : stripBy p (q :: (cs ++ [q])) = cs := by
  have quote : ∀ c ∈ [q], p c := by simpa using hq
  exact stripBy_eq quote quote h

theorem Text.Hex.digit_mem {n : Nat} (h : n < 16) : digit n ∈ "0123456789abcdef".toList := by
  have hall : ∀ m < 16, digit m ∈ "0123456789abcdef".toList := by decide
  exact hall n h

theorem Text.Hex.mem_ofBytes {b : ByteArray} {c : Char} (h : c ∈ (ofBytes b).toList) :
    c ∈ "0123456789abcdef".toList := by
  simp only [ofBytes, String.toList_ofList, List.mem_flatMap, List.mem_cons, List.not_mem_nil,
    or_false] at h
  obtain ⟨x, -, rfl | rfl⟩ := h
  · have hx := x.toNat_lt
    exact digit_mem (by omega)
  · exact digit_mem (Nat.mod_lt _ (by decide))

namespace Rehearsal.Server
open Http Upload

theorem toList_digestTag (data : ByteArray) :
    (digestTag data).toList = '"' :: ((Digest.md5Hex data).toList ++ ['"']) := by
  simp [digestTag]

theorem ofText_eq {text : String} (h : ∀ c ∈ text.toList, HeaderValue.isReadable c.toNat = true) :
    HeaderValue.ofText text = .text text := by
  rw [HeaderValue.ofText, if_pos (List.all_eq_true.2 h)]

theorem isReadable_of_isDigit {c : Char} (h : c.isDigit) :
    HeaderValue.isReadable c.toNat = true := by
  simp only [Char.isDigit, Bool.and_eq_true, decide_eq_true_eq] at h
  have h1 : 48 ≤ c.toNat := h.1
  have h2 : c.toNat ≤ 57 := h.2
  simp only [HeaderValue.isReadable, Bool.or_eq_true, Bool.and_eq_true, decide_eq_true_eq]
  omega

theorem ofText_digestTag (data : ByteArray) :
    HeaderValue.ofText (digestTag data) = .text (digestTag data) := by
  have hex : ∀ c ∈ "0123456789abcdef".toList, HeaderValue.isReadable c.toNat = true := by
    simp [HeaderValue.isReadable]
  apply ofText_eq
  intro c hc
  rw [toList_digestTag] at hc
  simp only [List.mem_cons, List.mem_append, List.not_mem_nil, or_false] at hc
  rcases hc with rfl | hc | rfl
  · decide
  · exact hex c (Text.Hex.mem_ofBytes hc)
  · decide

theorem digestOf_digestTag (data : ByteArray) :
    Job.digestOf (digestTag data) = Digest.md5Hex data := by
  have hex : ∀ c ∈ "0123456789abcdef".toList, (c == '"' || c == '\'') = false := by simp
  have hstrip : Text.stripBy (fun c => c == '"' || c == '\'')
      ('"' :: ((Digest.md5Hex data).toList ++ ['"'])) = (Digest.md5Hex data).toList :=
    Text.stripBy_quoted (by decide) fun c hc => hex c (Text.Hex.mem_ofBytes hc)
  rw [Job.digestOf, toList_digestTag, hstrip, String.ofList_toList]

theorem kindOf_start {key : ObjectKey} {headers : Headers} {request : Request}
    (h : startRequest key headers = .ok request) :
    kindOf request = .start ∧ objectTarget key = .ok request.uri := by
  unfold startRequest at h
  split at h
  · cases h
  · split at h
    · cases h
    · rename_i target htarget
      cases h
      refine ⟨?_, htarget⟩
      simp only [kindOf, Headers.text?_set, HeaderValue.text?, decide_true, Bool.and_self, if_true]

theorem isQuery_of_unsatisfied {request : Request} {total : Nat}
    (hr : Headers.text? request.headers "content-range" = some (ContentRange.unsatisfied total).text)
    (hl : Headers.text? request.headers "content-length" = some "0") : isQuery request = true := by
  have hlist : (ContentRange.unsatisfied total).text.toList =
      "bytes */".toList ++ (toString total).toList := String.toList_append
  simp only [isQuery, hr, hl, hlist, Text.after?_append, Option.any_some, Option.isSome_some,
    decide_true, Bool.and_self]

theorem kindOf_put {request : Request} (h : request.method = .put) :
    kindOf request = (uploadId? request.uri).elim .unnamed fun id =>
      if isQuery request then .query id else .chunk id := by
  unfold kindOf
  rw [h]
  cases uploadId? request.uri <;> simp

theorem kindOf_query (session : SessionUri) (total : Nat) :
    kindOf (queryRequest session total) = (uploadId? session.uri).elim .unnamed .query := by
  have hq : isQuery (queryRequest session total) = true := isQuery_of_unsatisfied rfl rfl
  rw [kindOf_put rfl, hq]
  rfl

/-- Whether there is nothing to send from an offset on, and yet the object is not empty; such a
request is taken for a query. -/
def Spent (start total : Nat) : Prop := total ≠ 0 ∧ total ≤ start

theorem range_data (session : SessionUri) (start total : Nat) :
    Headers.text? (dataRequest session start total).headers "content-range" =
      if total = 0 then none else some (ContentRange.remaining start total).text := by
  by_cases h0 : total = 0
  · rw [dataRequest, if_pos h0, if_pos h0]
    rfl
  · rw [dataRequest, if_neg h0, if_neg h0]
    rfl

theorem length_data (session : SessionUri) (start total : Nat) :
    Headers.text? (dataRequest session start total).headers "content-length" =
      some (toString (total - start)) := rfl

theorem kindOf_spent (session : SessionUri) {start total : Nat} (h : Spent start total) :
    kindOf (dataRequest session start total) = (uploadId? session.uri).elim .unnamed .query := by
  have hrange := range_data session start total
  have hlength := length_data session start total
  rw [if_neg h.1, ContentRange.remaining, if_pos h.2] at hrange
  rw [Nat.sub_eq_zero_of_le h.2] at hlength
  rw [kindOf_put rfl, isQuery_of_unsatisfied hrange hlength]
  rfl

theorem kindOf_data (session : SessionUri) {start total : Nat} (h : ¬Spent start total) :
    kindOf (dataRequest session start total) = (uploadId? session.uri).elim .unnamed .chunk := by
  have hq : isQuery (dataRequest session start total) = false := by
    by_cases h0 : total = 0
    · rw [isQuery, range_data, if_pos h0]
      rfl
    · have hlt : total - start ≠ 0 := by
        unfold Spent at h
        omega
      simp only [isQuery, length_data, Option.some.injEq, Text.toString_eq_zero, hlt, decide_false,
        Bool.and_false]
  rw [kindOf_put rfl, hq]
  rfl

theorem placement_data (session : SessionUri) {start total start' total' : Nat}
    (h : ¬Spent start total) (hs : start ≤ total)
    (hp : placement (dataRequest session start total) = .ok (start', total')) :
    start' = start ∧ total' = total := by
  by_cases h0 : total = 0
  · rw [placement, range_data, if_pos h0] at hp
    cases hp
    omega
  · have hlt : ¬total ≤ start := fun hle => h ⟨h0, hle⟩
    rw [placement, range_data, if_neg h0, ContentRange.remaining, if_neg hlt] at hp
    dsimp only at hp
    cases hparse : ContentRange.parse (ContentRange.bytes start (total - 1) total).text with
    | error e =>
      rw [hparse] at hp
      cases hp
    | ok r =>
      cases ContentRange.eq_of_parse_text_bytes hparse
      rw [hparse] at hp
      cases hp
      exact ⟨rfl, rfl⟩

theorem placement_eq (session : SessionUri) {start total : Nat} (h : ¬Spent start total)
    (hs : start ≤ total) (hl : total < Text.Unsigned.limit) :
    placement (dataRequest session start total) = .ok (start, total) := by
  by_cases h0 : total = 0
  · have hs0 : start = 0 := by omega
    rw [placement, range_data, if_pos h0, h0, hs0]
  · have hlt : ¬total ≤ start := fun hle => h ⟨h0, hle⟩
    rw [placement, range_data, if_neg h0, ContentRange.remaining, if_neg hlt]
    dsimp only
    rw [ContentRange.parse_text_bytes (by omega) (by omega) hl]
    rfl

theorem acceptable_eq_ok {s : Server} {id : String} {request : Request} {session : ServerSession}
    {start total : Nat} (h : s.acceptable id request = .ok (session, start, total)) :
    placement request = .ok (start, total) ∧ s.sessions.lookup id = some session ∧
      start ≤ session.data.size := by
  unfold acceptable at h
  split at h
  · cases h
  · rename_i hp
    split at h
    · cases h
    · rename_i hl
      split at h
      · cases h
      · rename_i hle
        cases h
        exact ⟨hp, hl, Nat.not_lt.1 hle⟩

/-- After how many bytes the data of this request is cut off. -/
def cut? (s : Server) (received : Received) : Option Nat :=
  s.breaks.head?.filter fun limit => !received.newest.isEmpty && limit ≤ received.size

/-- What accepted data does to the server, and the entity tag when the object is stored. -/
def taken (s : Server) (id : String) (request : Request) (session : ServerSession)
    (start total : Nat) (data : ByteArray) : Option String × Server :=
  let kept := { session with data := session.data.extract 0 start }
  extend
    (note { s with sessions := Keyed.put id kept s.sessions, breaks := s.breaks.drop 1 }
      (some .chunk) request data)
    id kept data total

section
variable {s : Server} {id : String} {request : Request} {received : Received}
  {session : ServerSession} {start total : Nat}

theorem receive_whole (hacc : s.acceptable id request = .ok (session, start, total))
    (hf : received.failure = none) (hc : s.cut? received = none) (files : Files.Store) :
    s.receive id request received files =
      (.ok ((s.taken id request session start total received.bytes).1.elim (.bare 308)
          (responseWith 200 "etag")),
        (s.taken id request session start total received.bytes).2, files) := by
  rw [cut?] at hc
  unfold receive
  rw [hacc]
  dsimp only
  rw [hf, hc]
  dsimp only
  rw [← taken]
  cases (s.taken id request session start total received.bytes).1 with
  | none => rfl
  | some eTag => rfl

theorem receive_cut (hacc : s.acceptable id request = .ok (session, start, total))
    (hf : received.failure = none) {limit : Nat} (hc : s.cut? received = some limit)
    (files : Files.Store) :
    s.receive id request received files =
      (.error (.transport (.given "connection reset by peer")),
        { (s.taken id request session start total (received.bytes.extract 0 limit)).2 with
          onBreak := none },
        files.edit
          ((s.taken id request session start total (received.bytes.extract 0 limit)).2.onBreak.getD
            [])) := by
  rw [cut?] at hc
  unfold receive
  rw [hacc]
  dsimp only
  rw [hf, hc]
  rfl

end

end Rehearsal.Server

end ObjectTransfer
