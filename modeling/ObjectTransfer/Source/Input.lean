import ObjectTransfer.Digest.Md5
import ObjectTransfer.Error
import ObjectTransfer.Files.Store
/-!
Sources of uploads: a file, or bytes in memory. A source can be read from any offset and as often as
wanted; a reader of a file goes on with the file it opened when another one takes its name.
-/
namespace ObjectTransfer

inductive InputSource where
  | file (path : String)
  | bytes (data : ByteArray)
  deriving Inhabited

/-- A place in a source from which to read on. -/
inductive Reader where
  | file (entry : Files.Entry) (position : Nat)
  | bytes (data : ByteArray) (position : Nat)
  deriving Inhabited

/-- A file gives at most this many bytes at once: two mebibytes. -/
def Reader.maxRead : Nat := 2097152

def Reader.read (files : Files.Store) (count : Nat) : Reader → Except Files.Fault ByteArray × Reader
  | .bytes data position =>
    let chunk := data.extract position (position + count)
    (.ok chunk, .bytes data (position + chunk.size))
  | .file entry position =>
    match files.readAt entry position (min count maxRead) with
    | .error fault => (.error fault, .file entry position)
    | .ok data => (.ok data, .file entry (position + data.size))

namespace InputSource

def size (s : InputSource) (files : Files.Store) : Except Error Nat :=
  match s with
  | .file path => (files.size path).mapError Error.io
  | .bytes data => .ok data.size

def readerAt (s : InputSource) (files : Files.Store) (offset : Nat) : Except Error Reader :=
  match s with
  | .file path => ((files.openRead path).map fun entry => .file entry offset).mapError Error.io
  | .bytes data => .ok (.bytes data (min offset data.size))

def bytesNow (s : InputSource) (files : Files.Store) : Except Error ByteArray :=
  match s with
  | .file path => (files.readAll path).mapError Error.io
  | .bytes data => .ok data

def md5 (s : InputSource) (files : Files.Store) : Except Error String :=
  (s.bytesNow files).map Digest.md5Hex

end InputSource

end ObjectTransfer
