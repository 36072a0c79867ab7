import ObjectTransfer.Proofs.Rehearsal.Server
import ObjectTransfer.Proofs.Upload.Exchange
import ObjectTransfer.Proofs.Upload.SessionUri
/-!
The names of the sessions that the store in memory starts. A target has one question mark in front of
its query and none before it, so the name that stands in the query of the session's target is the
one under which the store put the session, wherever the object is.
-/
namespace ObjectTransfer

namespace Uri

/-- Neither a query nor a fragment begins in these characters. -/
def Unmarked (cs : List Char) : Prop := ∀ c ∈ cs, c ≠ '?' ∧ c ≠ '#'

theorem Unmarked.append {cs ds : List Char} (hc : Unmarked cs) (hd : Unmarked ds) :
    Unmarked (cs ++ ds) := by
  intro c h
  rcases List.mem_append.1 h with h | h
  · exact hc c h
  · exact hd c h

theorem unmarked_of_path {cs : List Char} (h : ∀ c ∈ cs, isPathChar c) : Unmarked cs :=
  fun c hc => ⟨ne_of_kind (h c hc) (by decide), ne_of_kind (h c hc) (by decide)⟩

theorem unmarked_of_authority {cs : List Char} (h : ∀ c ∈ cs, endsAuthority c = false) :
    Unmarked cs := by
  intro c hc
  have hends := h c hc
  simp only [endsAuthority, Bool.or_eq_false_iff, beq_eq_false_iff_ne] at hends
  exact ⟨hends.1.2, hends.2⟩

theorem unmarked_of_scheme {cs : List Char} (h : ∀ c ∈ cs, isSchemeChar c) : Unmarked cs := by
  intro c hc
  have hchar := h c hc
  constructor
  · rintro rfl
    exact absurd hchar (by decide)
  · rintro rfl
    exact absurd hchar (by decide)

theorem unmarked_of_splitScheme {cs rest : List Char} {scheme : String}
    (h : splitScheme cs = .ok (some scheme, rest)) :
    Unmarked scheme.toList ∧ ∃ s, cs = s ++ rest ∧ Unmarked s := by
  have front {s : List Char} (hs : ∀ c ∈ s, isSchemeChar c) :
      Unmarked (s ++ [':', '/', '/']) :=
    (unmarked_of_scheme hs).append (by simp [Unmarked])
  unfold splitScheme at h
  split at h
  · cases h
  · split at h
    · cases h
    · rename_i s rest' hs
      obtain ⟨hsplit, hchars⟩ := of_schemeOf? hs
      have hcs : cs = (s ++ [':', '/', '/']) ++ rest' := by simp [hsplit]
      split at h
      · cases h
        exact ⟨by simp [Unmarked], _, hcs, front hchars⟩
      · split at h
        · cases h
          exact ⟨by simp [Unmarked], _, hcs, front hchars⟩
        · split at h
          · cases h
          · cases h
            exact ⟨by simpa using unmarked_of_scheme hchars, _, hcs, front hchars⟩

theorem kept_of_splitQuery {cs : List Char} {path : String} {query : Option String}
    (h : splitQuery cs = .ok (path, query)) :
    Unmarked path.toList ∧ cs.takeWhile (· != '#') = path.toList ++ queryChars query := by
  rw [splitQuery] at h
  generalize cs.takeWhile (· != '#') = kept at h ⊢
  have hkept : kept.takeWhile (· != '?') ++ kept.dropWhile (· != '?') = kept :=
    List.takeWhile_append_dropWhile
  have hhead := head?_dropWhile_not (· != '?') kept
  generalize kept.takeWhile (· != '?') = p at h hkept
  generalize kept.dropWhile (· != '?') = q at h hkept hhead
  cases hall : p.all isPathChar with
  | false => simp [hall] at h
  | true =>
    have unmarked : Unmarked p := unmarked_of_path (List.all_eq_true.1 hall)
    cases q with
    | nil =>
      simp only [hall] at h
      cases h
      exact ⟨by simpa using unmarked, by simpa [queryChars] using hkept.symm⟩
    | cons c q =>
      have hc : c = '?' := by simpa using hhead c (by simp)
      cases hq : q.all isQueryChar with
      | false => simp [hall, hq] at h
      | true =>
        simp only [hall, hq] at h
        cases h
        exact ⟨by simpa using unmarked, by simp [queryChars, ← hkept, hc]⟩

/-- The parts of a target that stand before its query, and the whole text up to a fragment. -/
structure Parts (cs : List Char) (u : Uri) : Prop where
  scheme : ∀ s ∈ u.scheme, Unmarked s.toList
  authority : ∀ a ∈ u.authority, Unmarked a.toList
  path : Unmarked u.path.toList
  query : ∀ q ∈ u.query, ∃ front, Unmarked front ∧ cs.takeWhile (· != '#') = front ++ '?' :: q.toList

theorem parts_of_parseFull {cs : List Char} {u : Uri} (h : parseFull cs = .ok u) : Parts cs u := by
  cases hscheme : u.scheme with
  | some scheme =>
    obtain ⟨rest, a, tail, path, query, rfl, hsplit, rfl, -, -, hends, -, hquery⟩ :=
      of_parseFull h hscheme
    obtain ⟨hs, s, rfl, hfront⟩ := unmarked_of_splitScheme hsplit
    obtain ⟨hpath, hkept⟩ := kept_of_splitQuery hquery
    have ha := unmarked_of_authority hends
    refine ⟨by simpa using hs, by simpa using ha, ?_, ?_⟩
    · dsimp only
      split
      · simp [Unmarked]
      · exact hpath
    · rintro q ⟨⟩
      refine ⟨s ++ a ++ path.toList, (hfront.append ha).append hpath, ?_⟩
      have hash : ∀ c ∈ s ++ a, (c != '#') = true :=
        fun c hc => bne_iff_ne.2 ((hfront.append ha) c hc).2
      rw [← List.append_assoc, List.takeWhile_append_of_pos hash, hkept]
      simp [queryChars]
  | none =>
    unfold parseFull at h
    split at h
    · cases h
    · rename_i scheme rest hsplit
      dsimp only at h
      split at h
      · cases h
      · split at h
        · cases h
        · cases scheme with
          | none =>
            dsimp only at h
            split at h
            · cases h
              have hends : ∀ c ∈ rest.takeWhile (!endsAuthority ·), endsAuthority c = false := by
                intro c hc
                simpa using List.mem_takeWhile_imp hc
              exact ⟨by simp, by simpa using unmarked_of_authority hends, by simp [Unmarked],
                by simp⟩
            · cases h
          | some scheme =>
            dsimp only at h
            split at h
            · cases h
            · split at h
              · cases h
              · cases h
                cases hscheme

theorem parts_of_parse {s : String} {u : Uri} (h : parse s = .ok u) : Parts s.toList u := by
  unfold parse at h
  split at h
  · cases h
  · split at h
    · cases h
    · cases h
      exact ⟨by simp, by simp, by simp [Unmarked], by simp⟩
    · rename_i cs hs
      split at h
      · cases h
      · rename_i path query hquery
        cases h
        obtain ⟨hpath, hkept⟩ := kept_of_splitQuery hquery
        refine ⟨by simp, by simp, hpath, ?_⟩
        rintro q ⟨⟩
        exact ⟨path.toList, hpath, by rw [hs, hkept]; rfl⟩
    · rename_i c hs
      split at h
      · cases h
      · rw [hs]
        exact parts_of_parseFull h
    · exact parts_of_parseFull h

/-- Whatever is read as a target, its query begins at the first question mark. -/
theorem Parts.query_eq {front q : List Char} {u : Uri} (parts : Parts (front ++ '?' :: q) u)
    (hfront : Unmarked front) (hq : '#' ∉ q) {query : String} (some : u.query = some query) :
    query.toList = q := by
  obtain ⟨front', hfront', hkept⟩ := parts.query query some
  have hash : ∀ c ∈ front ++ '?' :: q, (c != '#') = true := by
    intro c hc
    rw [bne_iff_ne]
    rcases List.mem_append.1 hc with hc | hc
    · exact (hfront c hc).2
    · rcases List.mem_cons.1 hc with rfl | hc
      · decide
      · exact ne_of_mem_of_not_mem hc hq
  rw [List.takeWhile_eq_self_iff.2 hash] at hkept
  have first := congrArg (Text.splitOnce '?') hkept
  rw [Text.splitOnce_append fun h => (hfront _ h).1 rfl,
    Text.splitOnce_append fun h => (hfront' _ h).1 rfl] at first
  cases first
  rfl

end Uri

theorem Text.strip_append_toString (front middle : List Char) (n : Nat) :
    strip (front ++ '?' :: (middle ++ (toString n).toList)) =
      front.dropWhile isBlank ++ '?' :: (middle ++ (toString n).toList) := by
  have left : trimLeft (front ++ '?' :: (middle ++ (toString n).toList)) =
      front.dropWhile isBlank ++ '?' :: (middle ++ (toString n).toList) := by
    rw [trimLeft, List.dropWhile_append]
    split
    · rename_i he
      rw [List.isEmpty_iff.1 he]
      rfl
    · rfl
  have last := isBlank_last_toString (front.dropWhile isBlank ++ '?' :: middle) n
  simp only [List.append_assoc, List.cons_append] at last
  rw [strip, left, trimRight_eq_self last]

namespace Rehearsal.Server
open Http Upload

theorem eq_of_text?_ofText {text found : String} (h : (HeaderValue.ofText text).text? = some found) :
    found = text := by
  unfold HeaderValue.ofText at h
  split at h
  · exact (Option.some.inj h).symm
  · cases h

theorem uploadId?_eq {u : Uri} {query : String} {n : Nat} (h : u.query = some query)
    (hq : query.toList = "upload_id=".toList ++ (toString n).toList) :
    uploadId? u = some (toString n) := by
  have alone : '&' ∉ "upload_id=".toList ++ (toString n).toList := by
    rw [List.mem_append, not_or]
    exact ⟨by decide, Text.not_mem_toString (by decide) n⟩
  rw [uploadId?, h, Option.bind_some, hq, List.splitOn_eq_singleton alone, List.findSome?_cons,
    Text.after?_append, Option.map_some, String.ofList_toList]

theorem uploadId?_of_grants {key : ObjectKey} {headers : Headers} {request : Request}
    {s : Server} {uri : SessionUri} (made : startRequest key headers = .ok request)
    (granted : Upload.Answer.Grants (.ok (s.startSession request).1) uri) :
    uploadId? uri.uri = some (toString (s.started + 1)) := by
  obtain ⟨r, location, got, -, named, read⟩ := granted
  cases got
  have target : Uri.parse key.uri = .ok request.uri := by
    obtain ⟨-, ht⟩ := kindOf_start made
    unfold objectTarget at ht
    split at ht
    · cases ht
      assumption
    · cases ht
  have parts := Uri.parts_of_parse target
  let front := (request.uri.scheme.getD "http" ++ "://" ++
    request.uri.authority.getD "localhost" ++ request.uri.path).toList
  have hfront : Uri.Unmarked front := by
    have scheme : Uri.Unmarked (request.uri.scheme.getD "http").toList := by
      cases hs : request.uri.scheme with
      | none => simp [Uri.Unmarked]
      | some scheme => exact parts.scheme scheme hs
    have authority : Uri.Unmarked (request.uri.authority.getD "localhost").toList := by
      cases ha : request.uri.authority with
      | none => simp [Uri.Unmarked]
      | some authority => exact parts.authority authority ha
    simp only [front, String.toList_append]
    exact ((scheme.append (by simp [Uri.Unmarked])).append authority).append parts.path
  have written : location.toList =
      front ++ '?' :: ("upload_id=".toList ++ (toString (s.started + 1)).toList) := by
    unfold startSession at named
    dsimp only at named
    split at named
    · cases named
    · cases eq_of_text?_ofText named
      simp [front]
  obtain ⟨hparse, usable⟩ := SessionUri.parse_eq_ok read
  obtain ⟨query, hquery⟩ : ∃ query, uri.uri.query = some query := by
    simp only [SessionUri.isUsable, Bool.and_eq_true, Option.any_eq_true] at usable
    obtain ⟨query, hquery, -⟩ := usable.2
    exact ⟨query, hquery⟩
  have hparts := Uri.parts_of_parse hparse
  rw [Text.trim, String.toList_ofList, written, Text.strip_append_toString] at hparts
  refine uploadId?_eq hquery (hparts.query_eq ?_ ?_ hquery)
  · exact fun c hc => hfront c ((List.dropWhile_sublist _).subset hc)
  · rw [List.mem_append, not_or]
    exact ⟨by decide, Text.not_mem_toString (by decide) _⟩

end Rehearsal.Server

end ObjectTransfer
