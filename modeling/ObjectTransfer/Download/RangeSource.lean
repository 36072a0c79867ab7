import ObjectTransfer.Connection
import ObjectTransfer.Http.Range
/-!
Objects to download: their size and entity tag can be asked for, and their bytes can be fetched in
ranges. An object of a web server is asked for with HEAD and fetched with GET and a `Range` header.
-/
namespace ObjectTransfer

structure ObjectMeta where
  size : Nat
  eTag : Option String
  deriving Repr, DecidableEq, Inhabited

/-- An object that is served by a peer with state `σ`; others may be at work on the files
meanwhile. -/
structure RangeSource (σ : Type) where
  inspect : σ → Files.Store → Except Error ObjectMeta × σ × Files.Store
  fetch : Http.ByteRange → σ → Files.Store → Except Error Http.Body × σ × Files.Store

namespace RangeSource

variable {σ : Type}

/-- Asks for the size and the entity tag. -/
def objectMeta (r : RangeSource σ) (w : World σ) : Except Error ObjectMeta × World σ :=
  let (result, peer, files) := r.inspect w.peer w.files
  (result, { w with peer, files })

def getRange (r : RangeSource σ) (range : Http.ByteRange) (w : World σ) :
    Except Error Http.Body × World σ :=
  let (result, peer, files) := r.fetch range w.peer w.files
  (result, { w with peer, files })

/-- The object of a peer that is part of a larger whole. -/
def within {τ : Type} (r : RangeSource σ) (part : τ → σ) (put : σ → τ → τ) : RangeSource τ where
  inspect t files :=
    let (result, s, files) := r.inspect (part t) files
    (result, put s t, files)
  fetch range t files :=
    let (result, s, files) := r.fetch range (part t) files
    (result, put s t, files)

end RangeSource

/-- An object of a web server. -/
structure HttpObject where
  uri : Uri
  deriving Repr, DecidableEq, Inhabited

namespace HttpObject

def inspectRequest (o : HttpObject) : Http.Request := ⟨.head, o.uri, []⟩

def metaOf (o : HttpObject) (response : Http.Response) : Except Error ObjectMeta :=
  if response.status.code ≠ 200 then
    .error (.ofStatus response.status (.metadataStatus response.status o.uri.text))
  else
    let length := (Http.Headers.text? response.headers "content-length").bind fun text =>
      (Text.Unsigned.parse text.toList).toOption
    match length with
    | none => .error (.incomplete "a usable Content-Length")
    | some size => .ok ⟨size, Http.Headers.text? response.headers "etag"⟩

def fetchRequest (o : HttpObject) (range : Http.ByteRange) : Http.Request :=
  ⟨.get, o.uri, [("range", .text range.header)]⟩

/-- The bytes in the answer to a GET request; only a partial content has them. -/
def bodyOf (o : HttpObject) (range : Http.ByteRange) (response : Http.Response) :
    Except Error Http.Body :=
  if response.status.code = 206 then .ok response.body
  else .error (.ofStatus response.status (.rangeStatus response.status range o.uri.text))

def source {σ : Type} (o : HttpObject) (c : Connection σ) : RangeSource σ where
  inspect peer files :=
    let (result, peer, files) := c.ask o.inspectRequest peer files
    (result.bind o.metaOf, peer, files)
  fetch range peer files :=
    let (result, peer, files) := c.ask (o.fetchRequest range) peer files
    (result.bind (o.bodyOf range), peer, files)

end HttpObject

/-- What a finished download gives. -/
structure DownloadOutput where
  size : Nat
  parts : Nat
  eTag : Option String
  deriving Repr, DecidableEq, Inhabited

end ObjectTransfer
