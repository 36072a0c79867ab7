import ObjectTransfer.Files.Store
import ObjectTransfer.Metrics
import ObjectTransfer.Progress
/-!
What transfers act on: the files, the peers they talk to, and what they leave for others to see,
which are progress reports, pauses and counters.
-/
namespace ObjectTransfer

/-- A pause before something is tried again. -/
inductive Pause where
  /-- A random part of two to this power of seconds. -/
  | backoff (exponent : Nat)
  /-- A fixed number of milliseconds. -/
  | fixed (milliseconds : Nat)
  deriving Repr, DecidableEq, Inhabited

/-- The state of everything around a transfer; `σ` is the state of its peers. -/
structure World (σ : Type) where
  peer : σ
  files : Files.Store
  /-- Progress reports, oldest first. -/
  reports : Array Progress.Report
  /-- Pauses, oldest first. -/
  pauses : Array Pause
  metrics : Metrics

namespace World

variable {σ : Type}

def initial (peer : σ) (files : Files.Store) : World σ := ⟨peer, files, #[], #[], .zero⟩

instance [Inhabited σ] : Inhabited (World σ) := ⟨initial default .empty⟩

def report (w : World σ) (reports : List Progress.Report) : World σ :=
  { w with reports := w.reports ++ reports.toArray }

def pauseAll (w : World σ) (pauses : List Pause) : World σ :=
  { w with pauses := w.pauses ++ pauses.toArray }

def withFiles (w : World σ) (files : Files.Store) : World σ := { w with files }

end World

end ObjectTransfer
