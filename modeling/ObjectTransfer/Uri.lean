/-!
Request targets: an optional scheme, an optional authority, a path and an optional query. The
fragment is not part of a target and is dropped. A text without a scheme is either a path (it begins
with a slash, or is a lone asterisk) or an authority and nothing else.
-/
namespace ObjectTransfer

structure Uri where
  scheme : Option String
  authority : Option String
  /-- The path that is asked for; empty when there is an authority and nothing else. -/
  path : String
  query : Option String
  deriving Repr, DecidableEq, Inhabited

namespace Uri

/-- Why a text is no target. -/
inductive Fault where
  | tooLong
  | empty
  | format
  | schemeTooLong
  | character
  | authority
  deriving Repr, DecidableEq, Inhabited

def Fault.message : Fault → String
  | .tooLong => "uri too long"
  | .empty => "empty string"
  | .format => "invalid format"
  | .schemeTooLong => "scheme too long"
  | .character => "invalid uri character"
  | .authority => "invalid authority"

/-- The greatest number of bytes in a target. -/
def maxBytes : Nat := 65534

/-- The greatest number of characters in a scheme. -/
def maxScheme : Nat := 64

/-- Letters, digits and the marks that a scheme may hold. -/
def isSchemeChar (c : Char) : Bool := c.isAlphanum || c == '+' || c == '-' || c == '.' || c == '~'

/-- Characters of an authority; the percent sign is treated apart. -/
def isAuthorityChar (c : Char) : Bool := c.isAlphanum || "!$&'()*+,-.:;=@[]_~".toList.contains c

/-- Characters of a path: those that need no escape, quotes and braces, and all beyond ASCII. The last
character of ASCII is none, here and in a query: there are readers of targets that let it pass, but the one
that is modelled was seen to refuse it. -/
def isPathChar (c : Char) : Bool :=
  c == '!' || ('$' ≤ c && c ≤ ';') || c == '=' || ('@' ≤ c && c ≤ '_') || ('a' ≤ c && c ≤ 'z') ||
  c == '|' || c == '~' || c == '"' || c == '\x7b' || c == '\x7d' || 128 ≤ c.toNat

def isQueryChar (c : Char) : Bool :=
  c == '!' || ('$' ≤ c && c ≤ ';') || c == '=' || ('?' ≤ c && c ≤ '~') || 128 ≤ c.toNat

def endsAuthority (c : Char) : Bool := c == '/' || c == '?' || c == '#'

/-- What has been seen of an authority: the colons and percent signs since the last `@` or `]`, the
brackets, and whether the last character was an `@`. -/
structure AuthorityScan where
  colons : Nat := 0
  opened : Bool := false
  closed : Bool := false
  percent : Bool := false
  atSign : Bool := false

def AuthorityScan.next (s : AuthorityScan) (c : Char) : Except Fault AuthorityScan :=
  if c == ':' then
    if 8 ≤ s.colons then .error .authority
    else .ok { s with colons := s.colons + 1, atSign := false }
  else if c == '[' then
    if s.percent || s.opened then .error .authority
    else .ok { s with opened := true, atSign := false }
  else if c == ']' then
    if !s.opened || s.closed then .error .authority
    else .ok { s with closed := true, colons := 0, percent := false, atSign := false }
  else if c == '@' then .ok { s with colons := 0, percent := false, atSign := true }
  else if c == '%' then .ok { s with percent := true, atSign := false }
  else if isAuthorityChar c then .ok { s with atSign := false }
  else .error .character

/-- Whether what was seen is a whole authority: brackets in pairs, at most one colon behind the
host, something behind the last `@`, and no percent sign in the host. -/
def AuthorityScan.finished (s : AuthorityScan) : Bool :=
  s.opened == s.closed && s.colons ≤ 1 && !s.atSign && !s.percent

def checkAuthority (s : AuthorityScan) : List Char → Except Fault Unit
  | [] => if s.finished then .ok () else .error .authority
  | c :: cs =>
    match s.next c with
    | .ok t => checkAuthority t cs
    | .error e => .error e

/-- The characters up to a colon that two slashes follow, when they all may stand in a scheme. -/
def schemeOf? : List Char → Option (List Char × List Char)
  | ':' :: '/' :: '/' :: rest => some ([], rest)
  | c :: cs => if isSchemeChar c then (schemeOf? cs).map fun p => (c :: p.1, p.2) else none
  | [] => none

def lowered (cs : List Char) : List Char := cs.map Char.toLower

/-- Splits off the scheme. The two web schemes are written in lower case, any other as it stands. -/
def splitScheme (cs : List Char) : Except Fault (Option String × List Char) :=
  if cs.length ≤ 3 then .ok (none, cs)
  else
    match schemeOf? cs with
    | none => .ok (none, cs)
    | some (s, rest) =>
      if lowered s = "http".toList then .ok (some "http", rest)
      else if lowered s = "https".toList then .ok (some "https", rest)
      else if maxScheme < s.length then .error .schemeTooLong
      else .ok (some (String.ofList s), rest)

/-- Reads the path and the query; what follows a `#` is dropped. -/
def splitQuery (cs : List Char) : Except Fault (String × Option String) :=
  let kept := cs.takeWhile (· != '#')
  let path := kept.takeWhile (· != '?')
  if !path.all isPathChar then .error .character
  else
    match kept.dropWhile (· != '?') with
    | [] => .ok (String.ofList path, none)
    | _ :: q =>
      if q.all isQueryChar then .ok (String.ofList path, some (String.ofList q))
      else .error .character

/-- A target that has an authority, with or without a scheme in front. Behind a scheme, a path that
was not written is a slash. -/
def parseFull (cs : List Char) : Except Fault Uri :=
  match splitScheme cs with
  | .error e => .error e
  | .ok (scheme, rest) =>
    let authority := rest.takeWhile (!endsAuthority ·)
    let tail := rest.dropWhile (!endsAuthority ·)
    if rest.isEmpty then .error .empty
    else
      match checkAuthority {} authority with
      | .error e => .error e
      | .ok () =>
        match scheme with
        | none =>
          if tail.isEmpty then .ok ⟨none, some (String.ofList authority), "", none⟩
          else .error .format
        | some s =>
          if authority.isEmpty then .error .format
          else
            match splitQuery tail with
            | .error e => .error e
            | .ok (path, query) =>
              .ok ⟨some s, some (String.ofList authority), if path = "" then "/" else path, query⟩

def parse (s : String) : Except Fault Uri :=
  if maxBytes < s.utf8ByteSize then .error .tooLong
  else
    match s.toList with
    | [] => .error .empty
    | ['*'] => .ok ⟨none, none, "*", none⟩
    | '/' :: cs =>
      match splitQuery ('/' :: cs) with
      | .error e => .error e
      | .ok (path, query) => .ok ⟨none, none, path, query⟩
    | [c] => if endsAuthority c then .error .character else parseFull [c]
    | cs => parseFull cs

def text (u : Uri) : String :=
  (match u.scheme with | some s => s ++ "://" | none => "") ++ u.authority.getD "" ++ u.path ++
    (match u.query with | some q => "?" ++ q | none => "")

/-- What follows the last `@`. -/
def afterUser (cs : List Char) : List Char := (cs.reverse.takeWhile (· != '@')).reverse

/-- The host: without the user before it and the colon behind it, and with its brackets where it has
them. -/
def host (u : Uri) : Option String :=
  u.authority.map fun a =>
    let cs := afterUser a.toList
    match cs with
    | '[' :: _ => String.ofList (cs.takeWhile (· != ']') ++ [']'])
    | _ => String.ofList (cs.takeWhile (· != ':'))

end Uri

end ObjectTransfer
