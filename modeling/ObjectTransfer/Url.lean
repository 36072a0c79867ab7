import ObjectTransfer.Text.Pieces
import ObjectTransfer.Url.Host
import ObjectTransfer.Url.Path
/-!
URLs in their standard form, as a client shows the address that it was told to connect to. Many
texts mean one URL: scheme and domain in lower case, numeric hosts in one spelling, no port that the
scheme has anyway, no dot segments, and everything escaped that has to be.
-/
namespace ObjectTransfer

structure Url where
  scheme : String
  /-- Escaped, and empty where there is none. -/
  user : String
  password : Option String
  /-- The host, with brackets where it has them; a URL without one is opaque behind its scheme. -/
  host : Option String
  port : Option Nat
  path : String
  query : Option String
  deriving Repr, DecidableEq, Inhabited

namespace Url

/-- The schemes whose hosts are domains, with the ports that need not be written. -/
def webPorts : List (String × Nat) :=
  [("http", 80), ("https", 443), ("ws", 80), ("wss", 443), ("ftp", 21)]

/-- Splits off the scheme, in lower case. It begins with a letter and ends at the first colon. -/
def splitScheme (cs : List Char) : Option (String × List Char) :=
  match Text.splitOnce ':' cs with
  | some (first :: more, rest) =>
    let isLater (c : Char) : Bool := c.isAlphanum || c == '+' || c == '-' || c == '.'
    if first.isAlpha && more.all isLater then
      some (String.ofList ((first :: more).map Char.toLower), rest)
    else none
  | _ => none

/-- Splits what stands before the last `@` from what stands behind it. -/
def splitUser (cs : List Char) : List Char × List Char :=
  let behind := (cs.reverse.takeWhile (· != '@')).reverse
  (cs.take (cs.length - behind.length - 1), behind)

def splitPort (bracket : Bool) : List Char → List Char × Option (List Char)
  | [] => ([], none)
  | c :: cs =>
    if c = ':' && !bracket then ([], some cs)
    else
      let inside := if c = '[' then true else if c = ']' then false else bracket
      let (host, port) := splitPort inside cs
      (c :: host, port)

def maxPort : Nat := 65535

/-- Reads a port, of which nothing may be written; the one of the scheme is left out. -/
def port? (scheme : String) (cs : List Char) : Option (Option Nat) :=
  if cs.isEmpty then some none
  else
    match numberIn? 10 cs with
    | none => none
    | some n =>
      if maxPort < n then none else some (if webPorts.lookup scheme = some n then none else some n)

def isUserChar (c : Char) : Bool := isPlainBut "\"#/:;<=>?@[\\]^`\x7b|\x7d" c

def isQueryChar (web : Bool) (c : Char) : Bool :=
  isPlainBut "\"#<>" c && !(web && c == '\'')

def queryOf (web : Bool) (cs : List Char) : Option String :=
  match cs.dropWhile (· != '?') with
  | [] => none
  | _ :: q => some (Text.Percent.encode (isQueryChar web) (String.ofList q))

/-- Reads what follows two slashes: user, host and port, then path and query. -/
def ofAuthority? (scheme : String) (web : Bool) (cs : List Char) : Option Url :=
  let endsIt (c : Char) : Bool := c == '/' || c == '?' || (web && c == '\\')
  let tail := cs.dropWhile (!endsIt ·)
  let (credentials, place) := splitUser (cs.takeWhile (!endsIt ·))
  let user := credentials.takeWhile (· != ':')
  let password := credentials.drop (user.length + 1)
  let shown (part : List Char) := Text.Percent.encode isUserChar (String.ofList part)
  let (host, port) := splitPort false place
  let path := tail.takeWhile (· != '?')
  match if web then Host.domain? host else Host.opaque? host, port? scheme (port.getD []) with
  | some host, some number =>
    if host = "" && (port.isSome || !credentials.isEmpty) then none
    else
      some ⟨scheme, shown user, if password.isEmpty then none else some (shown password), some host,
        number, if path.isEmpty then (if web then "/" else "") else Path.standard web path,
        queryOf web tail⟩
  | _, _ => none

/-- Reads a file URL: its host has neither user nor port, the local one is not shown, and the path
begins with one slash. -/
def ofFile? (cs : List Char) : Option Url :=
  let isSlash (c : Char) : Bool := c == '/' || c == '\\'
  let (host, tail) :=
    match cs with
    | a :: b :: rest =>
      if isSlash a && isSlash b then
        (rest.takeWhile fun c => !(isSlash c || c == '?'),
          rest.dropWhile fun c => !(isSlash c || c == '?'))
      else ([], cs)
    | _ => ([], cs)
  let path := Path.standard true ('/' :: tail.takeWhile (· != '?'))
  match if host.isEmpty then some "" else Host.domain? host with
  | some host =>
    some ⟨"file", "", none, some (if host = "localhost" then "" else host), none,
      "/" ++ String.ofList (path.toList.dropWhile (· == '/')), queryOf true tail⟩
  | none => none

def ofText? (s : String) : Option Url :=
  match splitScheme s.toList with
  | none => none
  | some (scheme, rest) =>
    if scheme = "file" then ofFile? rest
    else if (webPorts.lookup scheme).isSome then
      ofAuthority? scheme true (rest.dropWhile fun c => c == '/' || c == '\\')
    else
      match rest with
      | '/' :: '/' :: rest => ofAuthority? scheme false rest
      | '/' :: _ =>
        some ⟨scheme, "", none, none, none, Path.standard false (rest.takeWhile (· != '?')),
          queryOf false rest⟩
      | _ =>
        some ⟨scheme, "", none, none, none, String.ofList (rest.takeWhile (· != '?')),
          queryOf false rest⟩

def text (u : Url) : String :=
  let credentials :=
    if u.user = "" && u.password.isNone then ""
    else u.user ++ (u.password.elim "" (":" ++ ·)) ++ "@"
  u.scheme ++ ":" ++
    u.host.elim "" (fun host =>
      "//" ++ credentials ++ host ++ u.port.elim "" fun n => ":" ++ toString n) ++
    u.path ++ u.query.elim "" ("?" ++ ·)

def unescape? (s : String) : Option String :=
  String.fromUTF8? ⟨(Text.Percent.decode s.toList).toArray⟩

def anonymous (u : Url) : Url :=
  match unescape? u.user with
  | none => u
  | some user =>
    if user = "" && (u.password.bind unescape?).isNone then u
    else { u with user := "", password := none }

def isWeb (u : Url) : Bool := (u.scheme == "http" || u.scheme == "https") && u.host.any (· != "")

end Url

end ObjectTransfer
