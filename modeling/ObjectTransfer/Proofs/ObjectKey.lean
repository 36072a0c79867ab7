import ObjectTransfer.ObjectKey
import ObjectTransfer.Proofs.Text.Percent
import ObjectTransfer.Proofs.Uri
import ObjectTransfer.Url
/-!
Targets of requests for objects. Whatever an object is called, the target made for it is read as a path
at its endpoint that holds the bucket and the escaped name and nothing else, and the name can be told
from it.
-/
namespace ObjectTransfer

theorem Url.unescape?_encode {isPlain : Char → Bool} (percent : isPlain '%' = false) (s : String) :
    unescape? (Text.Percent.encode isPlain s) = some s := by
  have valid : s.toUTF8.IsValidUTF8 := s.isValidUTF8
  rw [unescape?, Text.Percent.decode_encode percent, Array.toArray_toList, String.fromUTF8?, dif_pos valid]
  rfl

namespace Uri

/-- Characters of a host that is a name. A percent sign is not among them. -/
def isHostChar (c : Char) : Bool := c.isAlphanum || "!$&'()*+,-.;=_~".toList.contains c

/-- A host: a name, or an address in brackets. -/
def IsHost (host : List Char) : Prop :=
  (host ≠ [] ∧ ∀ c ∈ host, isHostChar c) ∨
    ∃ address, host = '[' :: (address ++ [']']) ∧ (∀ c ∈ address, isHostChar c ∨ c = ':') ∧
      address.count ':' ≤ 8

def IsHostPort (authority : List Char) : Prop :=
  ∃ host, IsHost host ∧
    (authority = host ∨ ∃ port, (∀ c ∈ port, c.isDigit) ∧ authority = host ++ ':' :: port)

variable {scan : AuthorityScan} {c : Char} {cs rest host authority : List Char}

theorem isHostChar_of_isDigit (h : c.isDigit) : isHostChar c := by
  rw [isHostChar, Char.isAlphanum, h, Bool.or_true, Bool.true_or]

theorem isAuthorityChar_of_isHostChar (h : isHostChar c) : isAuthorityChar c := by
  have marks : ∀ d ∈ "!$&'()*+,-.;=_~".toList, isAuthorityChar d := by
    simp [isAuthorityChar]
  rw [isHostChar, Bool.or_eq_true, List.contains_iff_mem] at h
  rcases h with h | h
  · rw [isAuthorityChar, h, Bool.true_or]
  · exact marks c h

theorem next_of_isHostChar (quiet : scan.atSign = false) (h : isHostChar c) :
    scan.next c = .ok scan := by
  have other {d : Char} (none : isHostChar d = false) : (c == d) = false := by
    rw [beq_eq_false_iff_ne]
    rintro rfl
    rw [h] at none
    cases none
  obtain ⟨colons, opened, closed, percent, atSign⟩ := scan
  dsimp only at quiet
  subst quiet
  simp [AuthorityScan.next, isAuthorityChar_of_isHostChar h, other (d := ':') (by decide),
    other (d := '[') (by decide), other (d := ']') (by decide), other (d := '@') (by decide),
    other (d := '%') (by decide)]

theorem checkAuthority_append (quiet : scan.atSign = false) (plain : ∀ c ∈ cs, isHostChar c ∨ c = ':')
    (few : scan.colons + cs.count ':' ≤ 8) (rest : List Char) :
    checkAuthority scan (cs ++ rest) =
      checkAuthority { scan with colons := scan.colons + cs.count ':' } rest := by
  induction cs generalizing scan with
  | nil => rfl
  | cons c cs ih =>
    have tail : ∀ d ∈ cs, isHostChar d ∨ d = ':' := fun d mem => plain d (List.mem_cons_of_mem c mem)
    rw [List.cons_append, checkAuthority]
    rcases plain c List.mem_cons_self with h | rfl
    · have other : c ≠ ':' := by
        rintro rfl
        exact absurd h (by decide)
      rw [List.count_cons_of_ne other] at few ⊢
      rw [next_of_isHostChar quiet h]
      exact ih quiet tail few
    · rw [List.count_cons_self] at few ⊢
      have room : ¬8 ≤ scan.colons := by omega
      have seen : scan.next ':' = .ok { scan with colons := scan.colons + 1, atSign := false } := by
        simp [AuthorityScan.next, room]
      have left : scan.colons + 1 + cs.count ':' ≤ 8 := by omega
      rw [seen]
      dsimp only
      rw [@ih { scan with colons := scan.colons + 1, atSign := false } rfl tail left, quiet]
      dsimp only
      rw [Nat.add_assoc, Nat.add_comm 1]

theorem count_colon_of_isHostChar (h : ∀ c ∈ cs, isHostChar c) : cs.count ':' = 0 := by
  rw [List.count_eq_zero]
  intro mem
  exact absurd (h ':' mem) (by decide)

theorem checkAuthority_host (h : IsHost host) (rest : List Char) :
    ∃ scan : AuthorityScan, scan.colons = 0 ∧ scan.atSign = false ∧ scan.percent = false ∧
      scan.opened = scan.closed ∧ checkAuthority {} (host ++ rest) = checkAuthority scan rest := by
  rcases h with ⟨-, plain⟩ | ⟨address, rfl, plain, few⟩
  · have none := count_colon_of_isHostChar plain
    refine ⟨{}, rfl, rfl, rfl, rfl, ?_⟩
    rw [checkAuthority_append rfl (fun c mem => .inl (plain c mem)) (by rw [none]; decide), none]
  · refine ⟨{ opened := true, closed := true }, rfl, rfl, rfl, rfl, ?_⟩
    have enters : AuthorityScan.next {} '[' = .ok { opened := true } := rfl
    have leaves (n : Nat) : AuthorityScan.next { colons := n, opened := true } ']' =
        .ok { opened := true, closed := true } := rfl
    rw [List.cons_append, checkAuthority, enters, List.append_assoc]
    dsimp only
    rw [checkAuthority_append rfl plain (by dsimp only; omega), List.singleton_append, checkAuthority,
      leaves]

theorem checkAuthority_of_isHostPort (h : IsHostPort authority) :
    checkAuthority {} authority = .ok () := by
  obtain ⟨host, ishost, rfl | ⟨port, digits, rfl⟩⟩ := h
  · obtain ⟨scan, colons, quiet, percent, paired, seen⟩ := checkAuthority_host ishost []
    rw [List.append_nil] at seen
    rw [seen, checkAuthority, if_pos]
    simp [AuthorityScan.finished, colons, quiet, percent, paired]
  · obtain ⟨scan, colons, quiet, percent, paired, seen⟩ := checkAuthority_host ishost (':' :: port)
    have plain : ∀ c ∈ port, isHostChar c := fun c mem => isHostChar_of_isDigit (digits c mem)
    have one : (':' :: port).count ':' = 1 := by
      rw [List.count_cons_self, count_colon_of_isHostChar plain]
    have known : ∀ c ∈ ':' :: port, isHostChar c ∨ c = ':' := by
      intro c mem
      rcases List.mem_cons.1 mem with rfl | mem
      · exact .inr rfl
      · exact .inl (plain c mem)
    have whole := checkAuthority_append quiet known (by rw [colons, one]; decide) []
    rw [List.append_nil] at whole
    rw [seen, whole, checkAuthority, if_pos]
    simp [AuthorityScan.finished, colons, one, quiet, percent, paired]

theorem IsHost.mem (h : IsHost host) (mem : c ∈ host) : isHostChar c ∨ c ∈ [':', '[', ']'] := by
  rcases h with ⟨-, plain⟩ | ⟨address, rfl, plain, -⟩
  · exact .inl (plain c mem)
  · rw [List.mem_cons, List.mem_append, List.mem_singleton] at mem
    rcases mem with rfl | mem | rfl
    · exact .inr (by simp)
    · exact (plain c mem).imp_right fun colon => by simp [colon]
    · exact .inr (by simp)

theorem IsHostPort.mem (h : IsHostPort authority) (mem : c ∈ authority) :
    isHostChar c ∨ c ∈ [':', '[', ']'] := by
  obtain ⟨host, ishost, rfl | ⟨port, digits, rfl⟩⟩ := h
  · exact ishost.mem mem
  · rw [List.mem_append, List.mem_cons] at mem
    rcases mem with mem | rfl | mem
    · exact ishost.mem mem
    · exact .inr (by simp)
    · exact .inl (isHostChar_of_isDigit (digits c mem))

/-- Neither a slash nor a mark of a query or a fragment stands in a host. -/
theorem IsHostPort.not_endsAuthority (h : IsHostPort authority) (mem : c ∈ authority) :
    endsAuthority c = false := by
  rcases h.mem mem with plain | mark
  · rw [← Bool.not_eq_true]
    intro ends
    simp only [endsAuthority, Bool.or_eq_true, beq_iff_eq] at ends
    rcases ends with (rfl | rfl) | rfl <;> exact absurd plain (by decide)
  · simp only [List.mem_cons, List.not_mem_nil, or_false] at mark
    rcases mark with rfl | rfl | rfl <;> rfl

theorem IsHostPort.ne_nil (h : IsHostPort authority) : authority ≠ [] := by
  obtain ⟨host, ishost, rfl | ⟨port, -, rfl⟩⟩ := h
  · rcases ishost with ⟨some, -⟩ | ⟨address, rfl, -⟩
    · exact some
    · exact List.cons_ne_nil _ _
  · simp

theorem isPathChar_of_isAlphanum (h : c.isAlphanum) : isPathChar c := by
  have between {d e : Char} (hc : d ≤ c ∧ c ≤ e)
      (within : ('$' ≤ d ∧ e ≤ ';') ∨ ('@' ≤ d ∧ e ≤ '_') ∨ ('a' ≤ d ∧ e ≤ 'z')) : isPathChar c := by
    simp only [isPathChar, Bool.or_eq_true, Bool.and_eq_true, decide_eq_true_eq]
    rcases within with h | h | h
    · simp [h.1.trans hc.1, hc.2.trans h.2]
    · simp [h.1.trans hc.1, hc.2.trans h.2]
    · simp [h.1.trans hc.1, hc.2.trans h.2]
  have kinds : (c.isUpper || c.isLower || c.isDigit) = true := h
  rw [Bool.or_eq_true, Bool.or_eq_true] at kinds
  rcases kinds with (upper | lower) | digit
  · exact between (d := 'A') (e := 'Z') (of_decide_eq_true upper) (by decide)
  · have hc := Bool.and_eq_true_iff.1 lower
    exact between (d := 'a') (e := 'z') ⟨of_decide_eq_true hc.1, of_decide_eq_true hc.2⟩ (by decide)
  · have hc := Bool.and_eq_true_iff.1 digit
    exact between (d := '0') (e := '9') ⟨of_decide_eq_true hc.1, of_decide_eq_true hc.2⟩ (by decide)

/-- A target with a web scheme is written without a mark of a fragment. -/
theorem Web.hash_not_mem {u : Uri} (h : u.Web) : '#' ∉ u.text.toList := by
  obtain ⟨scheme, authority, path, query⟩ := u
  obtain ⟨a, ha, -, -, ends⟩ := h.authority
  obtain ⟨p, hp, plain⟩ := h.path
  have marks := h.query
  have web := h.scheme
  dsimp only at ha hp marks web
  subst ha hp
  obtain ⟨s, rfl, hs⟩ : ∃ s, scheme = some s ∧ '#' ∉ s.toList := by
    rcases web with rfl | rfl
    · exact ⟨_, rfl, by simp⟩
    · exact ⟨_, rfl, by simp⟩
  have inAuthority : '#' ∉ a := fun mem => absurd (ends '#' mem) (by decide)
  have inPath : '#' ∉ p := fun mem => absurd (plain '#' mem) (by decide)
  have inQuery : '#' ∉ queryChars query := by
    cases query with
    | none => exact List.not_mem_nil
    | some q =>
      intro mem
      have other : '#' ≠ '?' := by decide
      exact absurd (marks q rfl '#' ((List.mem_cons.1 mem).resolve_left other)) (by decide)
  rw [toList_text, String.toList_ofList]
  simp [webChars, hs, inAuthority, inPath, inQuery]

end Uri

namespace ObjectKey

/-- A web scheme, a host, maybe a port, and any number of slashes at the end. -/
def IsEndpoint (scheme : String) (authority : List Char) (endpoint : String) : Prop :=
  (scheme = "http" ∨ scheme = "https") ∧ Uri.IsHostPort authority ∧
    ∃ n, endpoint = scheme ++ "://" ++ String.ofList (authority ++ List.replicate n '/')

def isBucketChar (c : Char) : Bool := c.isAlphanum || c == '.' || c == '_' || c == '-'

variable {c : Char} {scheme endpoint bucket name other : String} {authority : List Char} {k : ObjectKey}

theorem isPathChar_of_isBucketChar (h : isBucketChar c) : Uri.isPathChar c := by
  simp only [isBucketChar, Bool.or_eq_true, beq_iff_eq] at h
  rcases h with ((h | rfl) | rfl) | rfl
  · exact Uri.isPathChar_of_isAlphanum h
  · decide
  · decide
  · decide

theorem isPathChar_of_isPlain (h : isPlain c) : Uri.isPathChar c := by
  simp only [isPlain, Bool.or_eq_true, beq_iff_eq] at h
  rcases h with ((((h | rfl) | rfl) | rfl) | rfl) | rfl
  · exact Uri.isPathChar_of_isAlphanum h
  · decide
  · decide
  · decide
  · decide
  · decide

theorem isPathChar_of_mem_encodeName (h : c ∈ (encodeName name).toList) : Uri.isPathChar c := by
  rcases Text.Percent.mem_encode h with ⟨plain, -⟩ | rfl | alphanum
  · exact isPathChar_of_isPlain plain
  · decide
  · exact Uri.isPathChar_of_isAlphanum alphanum

/-- The slashes at the end of an endpoint are dropped, and nothing else. -/
theorem endpoint_withEndpoint (h : IsEndpoint scheme authority endpoint) :
    (k.withEndpoint endpoint).endpoint = scheme ++ "://" ++ String.ofList authority := by
  obtain ⟨-, hostPort, n, rfl⟩ := h
  have last : ∀ c ∈ (scheme.toList ++ ("://".toList ++ authority)).reverse.head?, (c == '/') = false := by
    intro c first
    rw [List.head?_reverse, ← List.append_assoc, List.getLast?_append_of_ne_nil _ hostPort.ne_nil] at first
    have kept := hostPort.not_endsAuthority (List.mem_of_getLast? first)
    rw [Uri.endsAuthority, Bool.or_eq_false_iff, Bool.or_eq_false_iff] at kept
    exact kept.1.1
  have slashes : ∀ c ∈ List.replicate n '/', (c == '/') = true := by
    intro c mem
    rw [List.eq_of_mem_replicate mem]
    rfl
  have chars : (scheme ++ "://" ++ String.ofList (authority ++ List.replicate n '/')).toList.reverse =
      List.replicate n '/' ++ (scheme.toList ++ ("://".toList ++ authority)).reverse := by
    simp
  rw [withEndpoint, chars]
  dsimp only
  rw [dropWhile_append_stop slashes last, List.reverse_reverse, ← String.toList_inj, String.toList_ofList]
  simp

/-- The target of an object that is called `name`. -/
def target (scheme : String) (authority : List Char) (bucket name : String) : Uri :=
  ⟨some scheme, some (String.ofList authority), "/" ++ bucket ++ "/" ++ encodeName name, none⟩

theorem uri_withEndpoint (h : IsEndpoint scheme authority endpoint) :
    ((ofName bucket name).withEndpoint endpoint).uri = (target scheme authority bucket name).text := by
  rw [uri, endpoint_withEndpoint h]
  simp [withEndpoint, ofName, target, Uri.text, String.append_assoc]

theorem web_target (h : IsEndpoint scheme authority endpoint)
    (plain : ∀ c ∈ bucket.toList, isBucketChar c) :
    (target scheme authority bucket name).Web where
  scheme := by
    rcases h.1 with rfl | rfl
    · exact .inl rfl
    · exact .inr rfl
  authority := ⟨authority, rfl, h.2.1.ne_nil, Uri.checkAuthority_of_isHostPort h.2.1,
    fun c mem => h.2.1.not_endsAuthority mem⟩
  path := by
    refine ⟨bucket.toList ++ '/' :: (encodeName name).toList, ?_, ?_⟩
    · rw [← String.toList_inj, String.toList_ofList, target]
      simp
    · intro c mem
      rw [List.mem_append, List.mem_cons] at mem
      rcases mem with mem | rfl | mem
      · exact isPathChar_of_isBucketChar (plain c mem)
      · decide
      · exact isPathChar_of_mem_encodeName mem
  query := by
    intro q none
    cases none

theorem encodeName_injective (h : encodeName name = encodeName other) : name = other := by
  have read (name : String) : Url.unescape? (encodeName name) = some name :=
    Url.unescape?_encode (by decide) name
  exact Option.some.inj ((read name).symm.trans (h ▸ read other))

/-- An object is addressed by its endpoint, its bucket and its name, whatever characters the name has:
the target that is made for it is read as the path of the bucket and the escaped name at the endpoint,
without a query and without a mark of a fragment; the name is read back from its escapes; its slashes are
slashes of the path, and between them its pieces are escaped one by one. At one endpoint and in one bucket
two names have two targets. -/
theorem target_keeps_name (origin : IsEndpoint scheme authority endpoint)
    (plain : ∀ c ∈ bucket.toList, isBucketChar c) :
    (∀ name, ((ofName bucket name).withEndpoint endpoint).uri.utf8ByteSize ≤ Uri.maxBytes →
      Uri.parse ((ofName bucket name).withEndpoint endpoint).uri =
        .ok ⟨some scheme, some (String.ofList authority),
          "/" ++ bucket ++ "/" ++ encodeName name, none⟩ ∧
      '#' ∉ ((ofName bucket name).withEndpoint endpoint).uri.toList ∧
      Url.unescape? (encodeName name) = some name ∧
      (encodeName name).toList.splitOn '/' =
        (name.toList.splitOn '/').map fun piece => (encodeName (String.ofList piece)).toList) ∧
    ∀ name other, ((ofName bucket name).withEndpoint endpoint).uri =
      ((ofName bucket other).withEndpoint endpoint).uri → name = other := by
  refine ⟨fun name short => ?_, fun name other same => ?_⟩
  · have web : (target scheme authority bucket name).Web := web_target origin plain
    rw [uri_withEndpoint origin] at short ⊢
    exact ⟨web.parse_text short, web.hash_not_mem, Url.unescape?_encode (by decide) name,
      Text.Percent.splitOn_encode (by decide) (by decide) (by decide) (by decide) name⟩
  · rw [uri, uri, endpoint_withEndpoint origin, endpoint_withEndpoint origin] at same
    exact encodeName_injective ((String.append_right_inj _).1 same)

/-- A name with marks of queries and fragments, with escapes and beyond ASCII. -/
theorem odd_name_is_kept :
    (let uri := ((ofName "my.bucket" "dir/?q=1#50% ä/%2F").withEndpoint "http://[::1]:4443//").uri
     uri = "http://[::1]:4443/my.bucket/dir/%3Fq%3D1%2350%25%20%C3%A4/%252F" ∧
      Uri.parse uri = .ok ⟨some "http", some "[::1]:4443",
        "/my.bucket/dir/%3Fq%3D1%2350%25%20%C3%A4/%252F", none⟩) ∧
    Url.unescape? "dir/%3Fq%3D1%2350%25%20%C3%A4/%252F" = some "dir/?q=1#50% ä/%2F" := by
  have encoded : encodeName "dir/?q=1#50% ä/%2F" = "dir/%3Fq%3D1%2350%25%20%C3%A4/%252F" := by
    decide +kernel
  have address (c : Char) (mem : c ∈ "::1".toList) : Uri.isHostChar c ∨ c = ':' := by
    have all : "::1".toList.all (fun c => Uri.isHostChar c || c == ':') := by decide
    simpa using List.all_eq_true.1 all c mem
  have origin : IsEndpoint "http" "[::1]:4443".toList "http://[::1]:4443//" :=
    ⟨.inl rfl, ⟨"[::1]".toList, .inr ⟨"::1".toList, by simp, address, by decide⟩,
      .inr ⟨"4443".toList, by simp, by simp⟩⟩, 2, by decide +kernel⟩
  have short : ((ofName "my.bucket" "dir/?q=1#50% ä/%2F").withEndpoint
      "http://[::1]:4443//").uri.utf8ByteSize ≤ Uri.maxBytes := by
    decide +kernel
  have plain : ∀ c ∈ "my.bucket".toList, isBucketChar c := by simp [isBucketChar]
  obtain ⟨read, -, back, -⟩ := (target_keeps_name origin plain).1 _ short
  refine ⟨⟨by decide +kernel, read.trans ?_⟩, ?_⟩
  · rw [encoded]
    decide +kernel
  · rw [← encoded]
    exact back

end ObjectKey
end ObjectTransfer
