import Mathlib.Data.List.TakeWhile
import Mathlib.Data.String.Basic
import Mathlib.Tactic.Common
import ObjectTransfer.Uri
/-!
Web targets. The text of a target that was read from a text with a web scheme is read back as the
same target: all that reading changes is written in the text.
-/
namespace ObjectTransfer

theorem takeWhile_append_stop {α : Type} {p : α → Bool} {xs ys : List α} (hx : ∀ a ∈ xs, p a = true)
    (hy : ∀ a ∈ ys.head?, p a = false) : (xs ++ ys).takeWhile p = xs := by
  rw [List.takeWhile_append_of_pos hx]
  cases ys with
  | nil => simp
  | cons y ys => simp [hy y (by simp)]

theorem dropWhile_append_stop {α : Type} {p : α → Bool} {xs ys : List α} (hx : ∀ a ∈ xs, p a = true)
    (hy : ∀ a ∈ ys.head?, p a = false) : (xs ++ ys).dropWhile p = ys := by
  rw [List.dropWhile_append_of_pos hx]
  cases ys with
  | nil => rfl
  | cons y ys => simp [hy y (by simp)]

theorem head?_dropWhile_not {α : Type} (p : α → Bool) (xs : List α) :
    ∀ a ∈ (xs.dropWhile p).head?, p a = false := by
  intro a ha
  have h := List.head?_dropWhile_not p xs
  rw [ha] at h
  simpa using h

namespace Uri

/-- A target with a web scheme and an authority, each of whose parts may stand where it stands. -/
structure Web (u : Uri) : Prop where
  scheme : u.scheme = some "http" ∨ u.scheme = some "https"
  authority : ∃ a, u.authority = some (String.ofList a) ∧ a ≠ [] ∧
    checkAuthority {} a = .ok () ∧ ∀ c ∈ a, endsAuthority c = false
  path : ∃ p, u.path = String.ofList ('/' :: p) ∧ ∀ c ∈ p, isPathChar c
  query : ∀ q ∈ u.query, ∀ c ∈ q.toList, isQueryChar c

def queryChars (query : Option String) : List Char :=
  match query with
  | none => []
  | some q => '?' :: q.toList

theorem ne_of_kind {kind : Char → Bool} {c d : Char} (h : kind c) (hd : kind d = false) : c ≠ d := by
  rintro rfl
  rw [h] at hd
  contradiction

theorem splitQuery_append {p : List Char} {query : Option String} (hp : ∀ c ∈ p, isPathChar c)
    (hq : ∀ q ∈ query, ∀ c ∈ q.toList, isQueryChar c) :
    splitQuery (p ++ queryChars query) = .ok (String.ofList p, query) := by
  have hash : ∀ c ∈ p ++ queryChars query, (c != '#') = true := by
    intro c hc
    rw [bne_iff_ne]
    rcases List.mem_append.1 hc with hc | hc
    · exact ne_of_kind (hp c hc) (by decide)
    · cases query with
      | none => cases hc
      | some q =>
        rcases List.mem_cons.1 hc with rfl | hc
        · decide
        · exact ne_of_kind (hq q rfl c hc) (by decide)
  have mark : ∀ c ∈ p, (c != '?') = true := by
    intro c hc
    rw [bne_iff_ne]
    exact ne_of_kind (hp c hc) (by decide)
  have stop : ∀ c ∈ (queryChars query).head?, (c != '?') = false := by
    cases query with
    | none => simp [queryChars]
    | some q => simp [queryChars]
  have kept : (p ++ queryChars query).takeWhile (· != '#') = p ++ queryChars query := by
    exact List.takeWhile_eq_self_iff.2 hash
  have all : p.all isPathChar = true := List.all_eq_true.2 hp
  rw [splitQuery, kept]
  simp only [takeWhile_append_stop mark stop, dropWhile_append_stop mark stop, all]
  cases query with
  | none => rfl
  | some q =>
    have all : q.toList.all isQueryChar = true := List.all_eq_true.2 (hq q rfl)
    simp [queryChars, all]

theorem of_splitQuery {cs : List Char} {path : String} {query : Option String}
    (h : splitQuery cs = .ok (path, query)) :
    (∀ c ∈ path.toList, isPathChar c) ∧ (∀ q ∈ query, ∀ c ∈ q.toList, isQueryChar c) ∧
      ∃ rest, cs = path.toList ++ queryChars query ++ rest := by
  rw [splitQuery] at h
  have hcs : cs.takeWhile (· != '#') ++ cs.dropWhile (· != '#') = cs :=
    List.takeWhile_append_dropWhile
  generalize cs.takeWhile (· != '#') = kept at h hcs
  have hkept : kept.takeWhile (· != '?') ++ kept.dropWhile (· != '?') = kept :=
    List.takeWhile_append_dropWhile
  have hhead := head?_dropWhile_not (· != '?') kept
  generalize kept.takeWhile (· != '?') = p at h hkept
  generalize kept.dropWhile (· != '?') = q at h hkept hhead
  cases hall : p.all isPathChar with
  | false => simp [hall] at h
  | true =>
    rw [List.all_eq_true] at hall
    cases q with
    | nil =>
      simp only [List.all_eq_true.2 hall] at h
      cases h
      refine ⟨by simpa using hall, by simp, cs.dropWhile (· != '#'), ?_⟩
      simp only [List.append_nil] at hkept
      simp [queryChars, hkept, hcs]
    | cons c q =>
      have hc : c = '?' := by simpa using hhead c (by simp)
      cases hq : q.all isQueryChar with
      | false => simp [List.all_eq_true.2 hall, hq] at h
      | true =>
        simp only [List.all_eq_true.2 hall, hq] at h
        cases h
        refine ⟨by simpa using hall, by simpa using hq, cs.dropWhile (· != '#'), ?_⟩
        rw [← hkept, hc] at hcs
        exact hcs.symm.trans (by simp [queryChars])

def webChars (scheme authority path : List Char) (query : Option String) : List Char :=
  scheme ++ ':' :: '/' :: '/' :: (authority ++ (path ++ queryChars query))

theorem toList_text (scheme path : String) (authority : List Char) (query : Option String) :
    (Uri.text ⟨some scheme, some (String.ofList authority), path, query⟩).toList =
      webChars scheme.toList authority path.toList query := by
  cases query <;> simp [text, webChars, queryChars]

theorem splitScheme_web {scheme : String} (hs : scheme = "http" ∨ scheme = "https")
    (rest : List Char) :
    splitScheme (scheme.toList ++ ':' :: '/' :: '/' :: rest) = .ok (some scheme, rest) := by
  rcases hs with rfl | rfl
  · have hof : schemeOf? ("http".toList ++ ':' :: '/' :: '/' :: rest) =
        some ("http".toList, rest) := rfl
    have hlow : lowered "http".toList = "http".toList := by decide
    rw [splitScheme, if_neg (by simp), hof]
    simp only [hlow, if_true]
  · have hof : schemeOf? ("https".toList ++ ':' :: '/' :: '/' :: rest) =
        some ("https".toList, rest) := rfl
    have hlow : lowered "https".toList = "https".toList := by decide
    have hne : "https".toList ≠ "http".toList := by decide
    rw [splitScheme, if_neg (by simp), hof]
    simp only [hlow, hne, if_false, if_true]

theorem head?_path_query (p : List Char) (query : Option String) :
    ∀ c ∈ (('/' :: p) ++ queryChars query).head?, (!endsAuthority c) = false := by
  simp [endsAuthority]

/-- The text of a web target, where it is not too long, is read as the target. -/
theorem Web.parse_text {u : Uri} (h : u.Web) (hl : u.text.utf8ByteSize ≤ maxBytes) :
    parse u.text = .ok u := by
  obtain ⟨scheme, authority, path, query⟩ := u
  obtain ⟨a, ha, hne, hcheck, hends⟩ := h.authority
  obtain ⟨p, hp, hpath⟩ := h.path
  obtain ⟨s, hs, hweb⟩ : ∃ s, scheme = some s ∧ (s = "http" ∨ s = "https") := by
    rcases h.scheme with hs | hs
    · exact ⟨_, hs, .inl rfl⟩
    · exact ⟨_, hs, .inr rfl⟩
  have hquery := h.query
  dsimp only at ha hp hquery
  subst hs ha hp
  have hlist := toList_text s (String.ofList ('/' :: p)) a query
  rw [String.toList_ofList] at hlist
  have hauth : ∀ c ∈ a, (!endsAuthority c) = true := by simpa using hends
  have hstop := head?_path_query p query
  have hslash : ∀ c ∈ '/' :: p, isPathChar c := by
    intro c hc
    rcases List.mem_cons.1 hc with rfl | hc
    · decide
    · exact hpath c hc
  have hfull : parseFull (webChars s.toList a ('/' :: p) query) =
      .ok ⟨some s, some (String.ofList a), String.ofList ('/' :: p), query⟩ := by
    have hrest : (a ++ ('/' :: p ++ queryChars query)).isEmpty = false := by simp
    have hempty : a.isEmpty = false := by simpa using hne
    have hwritten : String.ofList ('/' :: p) ≠ "" := by
      intro he
      have := congrArg String.toList he
      simp at this
    rw [parseFull, webChars, splitScheme_web hweb]
    simp only [takeWhile_append_stop hauth hstop, dropWhile_append_stop hauth hstop, hrest, hcheck,
      hempty, splitQuery_append hslash hquery, hwritten]
    rfl
  rw [parse, if_neg (Nat.not_lt.2 hl), hlist, ← hfull]
  rcases hweb with rfl | rfl <;> rfl

theorem length_le_utf8Len (cs : List Char) : cs.length ≤ String.utf8Len cs := by
  induction cs with
  | nil => rfl
  | cons c cs ih =>
    have hc := c.utf8Size_pos
    simp only [List.length_cons, String.utf8Len_cons]
    omega

theorem of_schemeOf? {cs s rest : List Char} (h : schemeOf? cs = some (s, rest)) :
    cs = s ++ ':' :: '/' :: '/' :: rest ∧ ∀ c ∈ s, isSchemeChar c := by
  fun_induction schemeOf? cs generalizing s with
  | case1 =>
    cases h
    exact ⟨rfl, by simp⟩
  | case2 c cs _ schemeChar ih =>
    rw [Option.map_eq_some_iff] at h
    obtain ⟨⟨s', rest'⟩, hs, he⟩ := h
    cases he
    obtain ⟨rfl, chars⟩ := ih hs
    exact ⟨rfl, by simpa [schemeChar] using chars⟩
  | case3 => cases h
  | case4 => cases h

theorem of_splitScheme {cs rest : List Char} {scheme : String}
    (h : splitScheme cs = .ok (some scheme, rest)) :
    ∃ s, cs = s ++ ':' :: '/' :: '/' :: rest ∧ scheme.utf8ByteSize ≤ String.utf8Len s := by
  unfold splitScheme at h
  split at h
  · cases h
  · split at h
    · cases h
    · rename_i s rest' hs
      obtain ⟨hcs, -⟩ := of_schemeOf? hs
      have hlen := length_le_utf8Len s
      have hlow : (lowered s).length = s.length := by simp [lowered]
      split at h
      · rename_i hl
        cases h
        rw [hl] at hlow
        exact ⟨s, hcs, Nat.le_trans (Nat.le_of_eq hlow) hlen⟩
      · split at h
        · rename_i hl
          cases h
          rw [hl] at hlow
          exact ⟨s, hcs, Nat.le_trans (Nat.le_of_eq hlow) hlen⟩
        · split at h
          · cases h
          · cases h
            exact ⟨s, hcs, Nat.le_of_eq (String.utf8ByteSize_ofList s)⟩

theorem text_size (scheme path : String) (authority : List Char) (query : Option String) :
    (Uri.text ⟨some scheme, some (String.ofList authority), path, query⟩).utf8ByteSize =
      scheme.utf8ByteSize + 3 + String.utf8Len authority + path.utf8ByteSize +
        String.utf8Len (queryChars query) := by
  have h := congrArg String.utf8Len (toList_text scheme path authority query)
  rw [← String.utf8ByteSize_ofList, String.ofList_toList] at h
  have hs : ∀ s : String, String.utf8Len s.toList = s.utf8ByteSize := by
    intro s
    rw [← String.utf8ByteSize_ofList, String.ofList_toList]
  have h1 : (':' : Char).utf8Size = 1 := rfl
  have h2 : ('/' : Char).utf8Size = 1 := rfl
  simp only [webChars, String.utf8Len_append, String.utf8Len_cons, hs, h1, h2] at h
  omega

/-- A character that is no blank and no control of ASCII. -/
def Visible (c : Char) : Prop := 33 ≤ c.toNat ∧ c.toNat ≠ 127

instance (c : Char) : Decidable (Visible c) := inferInstanceAs (Decidable (_ ∧ _))

theorem visible_of_between {c d e : Char} (hd : 33 ≤ d.toNat) (he : e.toNat < 127) (h : d ≤ c ∧ c ≤ e) :
    Visible c := by
  have h1 : d.toNat ≤ c.toNat := h.1
  have h2 : c.toNat ≤ e.toNat := h.2
  exact ⟨by omega, by omega⟩

theorem visible_of_isPathChar {c : Char} (h : isPathChar c) : Visible c := by
  simp only [isPathChar, Bool.or_eq_true, Bool.and_eq_true, beq_iff_eq, decide_eq_true_eq] at h
  rcases h with (((((((((rfl | h) | rfl) | h) | h) | rfl) | rfl) | rfl) | rfl) | rfl) | h
  · decide
  · exact visible_of_between (by decide) (by decide) h
  · decide
  · exact visible_of_between (by decide) (by decide) h
  · exact visible_of_between (by decide) (by decide) h
  · decide
  · decide
  · decide
  · decide
  · decide
  · exact ⟨by omega, by omega⟩

theorem visible_of_isQueryChar {c : Char} (h : isQueryChar c) : Visible c := by
  simp only [isQueryChar, Bool.or_eq_true, Bool.and_eq_true, beq_iff_eq, decide_eq_true_eq] at h
  rcases h with (((rfl | h) | rfl) | h) | h
  · decide
  · exact visible_of_between (by decide) (by decide) h
  · decide
  · exact visible_of_between (by decide) (by decide) h
  · exact ⟨by omega, by omega⟩

theorem visible_of_isAlphanum {c : Char} (h : c.isAlphanum) : Visible c ∧ c.toNat < 128 := by
  have between {d e : Char} (hd : 33 ≤ d.toNat) (he : e.toNat < 127) (hc : d ≤ c ∧ c ≤ e) :
      Visible c ∧ c.toNat < 128 := by
    have hle : c.toNat ≤ e.toNat := hc.2
    exact ⟨visible_of_between hd he hc, by omega⟩
  have hcases : (c.isUpper || c.isLower || c.isDigit) = true := h
  rw [Bool.or_eq_true, Bool.or_eq_true] at hcases
  rcases hcases with (hupper | hlower) | hdigit
  · exact between (d := 'A') (e := 'Z') (by decide) (by decide) (of_decide_eq_true hupper)
  · have hc := Bool.and_eq_true_iff.1 hlower
    exact between (d := 'a') (e := 'z') (by decide) (by decide)
      ⟨of_decide_eq_true hc.1, of_decide_eq_true hc.2⟩
  · have hc := Bool.and_eq_true_iff.1 hdigit
    exact between (d := '0') (e := '9') (by decide) (by decide)
      ⟨of_decide_eq_true hc.1, of_decide_eq_true hc.2⟩

theorem visible_of_isAuthorityChar {c : Char} (h : isAuthorityChar c) :
    Visible c ∧ c.toNat < 128 := by
  have marks : ∀ d ∈ "!$&'()*+,-.:;=@[]_~".toList, Visible d ∧ d.toNat < 128 := by
    simp [Visible]
  rw [isAuthorityChar, Bool.or_eq_true, List.contains_iff_mem] at h
  rcases h with h | h
  · exact visible_of_isAlphanum h
  · exact marks c h

theorem visible_of_next {scan next : AuthorityScan} {c : Char} (h : scan.next c = .ok next) :
    Visible c ∧ c.toNat < 128 := by
  by_cases hc : c ∈ [':', '[', ']', '@', '%']
  · have marks : ∀ d ∈ [':', '[', ']', '@', '%'], Visible d ∧ d.toNat < 128 := by simp [Visible]
    exact marks c hc
  · simp only [List.mem_cons, List.not_mem_nil, or_false, not_or] at hc
    obtain ⟨h1, h2, h3, h4, h5⟩ := hc
    cases hchar : isAuthorityChar c with
    | true => exact visible_of_isAuthorityChar hchar
    | false => simp [AuthorityScan.next, h1, h2, h3, h4, h5, hchar] at h

theorem written_path {path : String} (hp : ∀ c ∈ path.toList, isPathChar c)
    (hfirst : ∀ c ∈ path.toList.head?, endsAuthority c) :
    ∃ p, (if path = "" then "/" else path) = String.ofList ('/' :: p) ∧
      (∀ c ∈ p, isPathChar c) ∧
      (if path = "" then "/" else path).utf8ByteSize ≤ path.utf8ByteSize + 1 := by
  by_cases he : path = ""
  · subst he
    exact ⟨[], rfl, by simp, by decide⟩
  · cases hcs : path.toList with
    | nil => exact absurd (String.toList_eq_nil_iff.1 hcs) he
    | cons c p =>
      rw [hcs] at hp hfirst
      have hc : c = '/' := by
        have hends : endsAuthority c := hfirst c (by simp)
        simp only [endsAuthority, Bool.or_eq_true, beq_iff_eq] at hends
        rcases hends with (h | h) | h
        · exact h
        · exact absurd h (ne_of_kind (hp c (by simp)) (by decide))
        · exact absurd h (ne_of_kind (hp c (by simp)) (by decide))
      refine ⟨p, ?_, fun d hd => hp d (by simp [hd]), ?_⟩
      · rw [if_neg he, ← hc, ← hcs, String.ofList_toList]
      · rw [if_neg he]
        omega

/-- What is read behind a scheme: an authority that can stand there, and then a path and a query. -/
theorem of_parseFull {cs : List Char} {u : Uri} {scheme : String} (h : parseFull cs = .ok u)
    (hs : u.scheme = some scheme) :
    ∃ rest authority tail path query,
      u = ⟨some scheme, some (String.ofList authority), if path = "" then "/" else path, query⟩ ∧
      splitScheme cs = .ok (some scheme, rest) ∧ rest = authority ++ tail ∧ authority ≠ [] ∧
      checkAuthority {} authority = .ok () ∧ (∀ c ∈ authority, endsAuthority c = false) ∧
      (∀ c ∈ tail.head?, endsAuthority c) ∧ splitQuery tail = .ok (path, query) := by
  unfold parseFull at h
  split at h
  · cases h
  · rename_i scheme' rest hscheme
    have hrest : rest = rest.takeWhile (!endsAuthority ·) ++ rest.dropWhile (!endsAuthority ·) :=
      List.takeWhile_append_dropWhile.symm
    have hends : ∀ c ∈ rest.takeWhile (!endsAuthority ·), endsAuthority c = false := by
      intro c hc
      simpa using List.mem_takeWhile_imp hc
    have hstop := head?_dropWhile_not (!endsAuthority ·) rest
    generalize rest.takeWhile (!endsAuthority ·) = a at h hrest hends
    generalize rest.dropWhile (!endsAuthority ·) = tail at h hrest hstop
    dsimp only at h
    split at h
    · cases h
    · split at h
      · cases h
      · rename_i hcheck
        cases scheme' with
        | none =>
          dsimp only at h
          split at h
          · cases h
            cases hs
          · cases h
        | some scheme' =>
          dsimp only at h
          split at h
          · cases h
          · rename_i hne
            split at h
            · cases h
            · rename_i path query hquery
              cases h
              cases hs
              exact ⟨rest, a, tail, path, query, rfl, hscheme, hrest, by simpa using hne, hcheck,
                hends, fun c hc => by simpa using hstop c hc, hquery⟩

/-- What a text consists of was there when it was read, but for a scheme in lower case and the slash
of a path that was not written. -/
theorem mem_of_mem_webChars {scheme path : String} {authority : List Char} {query : Option String}
    {c : Char} (rest : List Char) (hs : scheme = "http" ∨ scheme = "https")
    (hc : c ∈ webChars scheme.toList authority (if path = "" then "/" else path).toList query) :
    c ∈ authority ++ (path.toList ++ queryChars query ++ rest) ∨ c ∈ "https:/".toList := by
  have hscheme : ∀ c ∈ scheme.toList, c ∈ "https:/".toList := by
    rcases hs with rfl | rfl
    · simp
    · simp
  have hwritten : ∀ c ∈ (if path = "" then "/" else path).toList,
      c ∈ path.toList ∨ c ∈ "https:/".toList := by
    split
    · have hslash : ∀ c ∈ "/".toList, c ∈ "https:/".toList := by simp
      exact fun c hc => .inr (hslash c hc)
    · exact fun c hc => .inl hc
  simp only [webChars, List.mem_append, List.mem_cons] at hc ⊢
  rcases hc with hc | rfl | rfl | rfl | hc | hc | hc
  · exact .inr (hscheme c hc)
  · exact .inr (by decide)
  · exact .inr (by decide)
  · exact .inr (by decide)
  · simp [hc]
  · rcases hwritten c hc with hc | hc
    · simp [hc]
    · exact .inr hc
  · simp [hc]

theorem web_of_parseFull {cs : List Char} {u : Uri} (h : parseFull cs = .ok u)
    (hs : u.scheme = some "http" ∨ u.scheme = some "https") :
    u.Web ∧ u.text.utf8ByteSize ≤ String.utf8Len cs + 1 ∧
      ∀ c ∈ u.text.toList, c ∈ cs ∨ c ∈ "https:/".toList := by
  obtain ⟨scheme, hu, hweb⟩ : ∃ scheme, u.scheme = some scheme ∧
      (scheme = "http" ∨ scheme = "https") :=
    hs.elim (fun h => ⟨_, h, .inl rfl⟩) fun h => ⟨_, h, .inr rfl⟩
  obtain ⟨rest, a, tail, path, query, rfl, hscheme, rfl, hne, hcheck, hends, hstop, hquery⟩ :=
    of_parseFull h hu
  obtain ⟨s, rfl, hlen⟩ := of_splitScheme hscheme
  obtain ⟨hpath, hq, left, rfl⟩ := of_splitQuery hquery
  obtain ⟨p, hp, hpc, hps⟩ := written_path hpath (by
    intro c hc
    apply hstop c
    rw [List.append_assoc, List.head?_append, hc]
    rfl)
  refine ⟨⟨hs, ⟨a, rfl, hne, hcheck, hends⟩, ⟨p, hp, hpc⟩, hq⟩, ?_, ?_⟩
  · have hsize : String.utf8Len path.toList = path.utf8ByteSize := by
      rw [← String.utf8ByteSize_ofList, String.ofList_toList]
    have h1 : (':' : Char).utf8Size = 1 := rfl
    have h2 : ('/' : Char).utf8Size = 1 := rfl
    rw [text_size]
    simp only [String.utf8Len_append, String.utf8Len_cons, hsize, h1, h2]
    omega
  · intro c hc
    rw [toList_text] at hc
    rcases mem_of_mem_webChars left hweb hc with hc | hc
    · exact .inl (List.mem_append_right _ (by simp only [List.mem_cons, hc, or_true]))
    · exact .inr hc

theorem checkAuthority_visible {cs : List Char} {scan : AuthorityScan}
    (h : checkAuthority scan cs = .ok ()) : ∀ c ∈ cs, Visible c ∧ c.toNat < 128 := by
  induction cs generalizing scan with
  | nil => simp
  | cons c cs ih =>
    simp only [checkAuthority] at h
    split at h
    · rename_i next hnext
      intro d hd
      rcases List.mem_cons.1 hd with rfl | hd
      · exact visible_of_next hnext
      · exact ih h d hd
    · cases h

theorem Web.visible {u : Uri} (h : u.Web) : ∀ c ∈ u.text.toList, Visible c ∧
    (c.toNat < 128 ∨ c ∈ u.path.toList ∨ ∃ q ∈ u.query, c ∈ q.toList) := by
  obtain ⟨scheme, authority, path, query⟩ := u
  obtain ⟨a, ha, -, hcheck, -⟩ := h.authority
  obtain ⟨p, hp, hpath⟩ := h.path
  have hquery := h.query
  dsimp only at ha hp hquery
  subst ha hp
  obtain ⟨s, hs, hweb⟩ : ∃ s, scheme = some s ∧ ∀ c ∈ s.toList, Visible c ∧ c.toNat < 128 := by
    rcases h.scheme with hs | hs
    · exact ⟨_, hs, by simp [Visible]⟩
    · exact ⟨_, hs, by simp [Visible]⟩
  subst hs
  intro c hc
  rw [toList_text, webChars] at hc
  simp only [String.toList_ofList, List.mem_append, List.mem_cons] at hc
  rcases hc with hc | rfl | rfl | rfl | hc | (rfl | hc) | hc
  · exact (hweb c hc).imp_right .inl
  · exact ⟨by decide, .inl (by decide)⟩
  · exact ⟨by decide, .inl (by decide)⟩
  · exact ⟨by decide, .inl (by decide)⟩
  · exact (checkAuthority_visible hcheck c hc).imp_right .inl
  · exact ⟨by decide, .inl (by decide)⟩
  · exact ⟨visible_of_isPathChar (hpath c hc), .inr (.inl (by simp [hc]))⟩
  · cases query with
    | none => cases hc
    | some q =>
      rcases List.mem_cons.1 hc with rfl | hc
      · exact ⟨by decide, .inl (by decide)⟩
      · exact ⟨visible_of_isQueryChar (hquery q rfl c hc), .inr (.inr ⟨q, rfl, hc⟩)⟩

/-- A target with a web scheme is a web target. Its text can be longer than what it was read from
by the slash of a path that was not written. -/
theorem web_of_parse {s : String} {u : Uri} (h : parse s = .ok u)
    (hs : u.scheme = some "http" ∨ u.scheme = some "https") :
    u.Web ∧ u.text.utf8ByteSize ≤ s.utf8ByteSize + 1 ∧
      ∀ c ∈ u.text.toList, c ∈ s.toList ∨ c ∈ "https:/".toList := by
  have hsize : s.utf8ByteSize = String.utf8Len s.toList := by
    rw [← String.utf8ByteSize_ofList, String.ofList_toList]
  rw [hsize]
  unfold parse at h
  split at h
  · cases h
  · split at h
    · cases h
    · cases h
      simp at hs
    · split at h
      · cases h
      · cases h
        simp at hs
    · rename_i hc
      split at h
      · cases h
      · simp only [hc]
        exact web_of_parseFull h hs
    · exact web_of_parseFull h hs

end Uri

end ObjectTransfer
