import ObjectTransfer.Error
import ObjectTransfer.Text.Blank
import ObjectTransfer.Text.Unsigned
/-!
Settings of a client. A setting that is left to the client has a default; limits are applied where a
setting is made or where it is read, so that no part is empty and there is always a worker.
-/
namespace ObjectTransfer

/-- A size or a count that may be left to the client. -/
inductive Setting where
  | auto
  | explicit (n : Nat)
  deriving Repr, DecidableEq, Inhabited

/-- What is done when the store refuses a query for the state of a session with 401 or 403. -/
inductive StalePolicy where
  /-- A new session is started. -/
  | restart
  /-- The transfer is given up. -/
  | abortOnAuthFailure
  deriving Repr, DecidableEq, Inhabited

def StalePolicy.name : StalePolicy → String
  | .restart => "Restart"
  | .abortOnAuthFailure => "AbortOnAuthFailure"

inductive FailurePolicy where
  | abortUpload
  | retain
  deriving Repr, DecidableEq, Inhabited

/-- How often the work on one part is tried, and the pause between two tries in milliseconds. -/
structure ChunkRetry where
  maxAttempts : Nat
  delay : Nat
  deriving Repr, DecidableEq, Inhabited

namespace ChunkRetry

def standard : ChunkRetry := ⟨5, 5000⟩

def disabled : ChunkRetry := ⟨1, 0⟩

/-- Tries of one part; there is always a first. -/
def tries (r : ChunkRetry) : Nat := max 1 r.maxAttempts

theorem tries_pos (r : ChunkRetry) : 0 < r.tries := by unfold tries; omega

end ChunkRetry

structure Config where
  retries : Nat
  bufferSize : Nat
  partSize : Setting
  uploadPartSize : Setting
  concurrency : Setting
  chunkRetry : ChunkRetry
  stalePolicy : StalePolicy
  /-- An S3 client is at hand. -/
  hasS3 : Bool
  deriving Repr, DecidableEq, Inhabited

namespace Config

def defaultRetries : Nat := 5

def defaultBufferSize : Nat := 8192

def defaultPartSize : Nat := 4194304

def defaultUploadPartSize : Nat := 10485760

def defaultConcurrency : Nat := 10

def initial (hasS3 : Bool) : Config :=
  ⟨defaultRetries, defaultBufferSize, .auto, .auto, .auto, .standard, .restart, hasS3⟩

inductive Change where
  | retries (n : Nat)
  | bufferSize (n : Nat)
  | partSize (s : Setting)
  | uploadPartSize (s : Setting)
  | concurrency (s : Setting)
  | chunkRetry (r : ChunkRetry)
  | stalePolicy (p : StalePolicy)
  deriving Repr, DecidableEq, Inhabited

/-- A size for the parts of uploads, raised to the least that a store takes. -/
def atLeastMinimum : Setting → Setting
  | .auto => .auto
  | .explicit n => .explicit (max n minUploadPart)

/-- Makes one setting. A buffer of no bytes stands for the default. -/
def set (c : Config) : Change → Config
  | .retries n => { c with retries := n }
  | .bufferSize n => { c with bufferSize := if n = 0 then defaultBufferSize else n }
  | .partSize s => { c with partSize := s }
  | .uploadPartSize s => { c with uploadPartSize := atLeastMinimum s }
  | .concurrency s => { c with concurrency := s }
  | .chunkRetry r => { c with chunkRetry := r }
  | .stalePolicy p => { c with stalePolicy := p }

def build (hasS3 : Bool) (changes : List Change) : Config := changes.foldl set (initial hasS3)

def downloadPart (c : Config) : Nat :=
  match c.partSize with
  | .auto => defaultPartSize
  | .explicit n => max n 1

def uploadPart (c : Config) : Nat :=
  match c.uploadPartSize with
  | .auto => defaultUploadPartSize
  | .explicit n => n

def workers (c : Config) : Nat :=
  match c.concurrency with
  | .auto => defaultConcurrency
  | .explicit n => max n 1

theorem downloadPart_pos (c : Config) : 0 < c.downloadPart := by
  cases h : c.partSize with
  | auto => simp [downloadPart, h, defaultPartSize]
  | explicit n => simp only [downloadPart, h]; omega

theorem workers_pos (c : Config) : 0 < c.workers := by
  cases h : c.concurrency with
  | auto => simp [workers, h, defaultConcurrency]
  | explicit n => simp only [workers, h]; omega

/-- The number of retries in the text of an environment variable, with blanks around it. A text that
is not UTF-8 or no number counts as absent. -/
def retriesFrom (text : ByteArray) : Option Nat :=
  match String.fromUTF8? text with
  | none => none
  | some s => (Text.Unsigned.parse (Text.strip s.toList)).toOption

/-- Settings that can be made on configurations loaded from the environment. -/
def Change.isLoadable : Change → Bool
  | .bufferSize _ | .stalePolicy _ => false
  | _ => true

/-- A configuration from the environment, which gives an S3 client and, unless it is set, the number
of retries. -/
def load (retries : Option ByteArray) (changes : List Change) : Config :=
  let fromEnvironment := ((retries.bind retriesFrom).map Change.retries).toList
  build true (fromEnvironment ++ changes.filter Change.isLoadable)

end Config

end ObjectTransfer
