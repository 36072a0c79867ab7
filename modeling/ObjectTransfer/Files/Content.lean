import ObjectTransfer.Files.Fault
/-!
Contents of files: bytes that were written, followed by zeros that were not. A file grown by setting
its length holds only a count of its zeros until something is written behind them. A device takes no
bytes, so it never holds any.
-/
namespace ObjectTransfer.Files

inductive Content where
  | plain (written : ByteArray) (zeros : Nat)
  /-- A device, with its reason to refuse every byte that is written to it. -/
  | device (refusal : Fault)

namespace Content

def empty : Content := .plain .empty 0

instance : Inhabited Content := ⟨empty⟩

def ofBytes (b : ByteArray) : Content := .plain b 0

def refusal? : Content → Option Fault
  | plain _ _ => none
  | device refusal => some refusal

def size : Content → Nat
  | plain written zeros => written.size + zeros
  | device _ => 0

def pushZeros (b : ByteArray) : (n : Nat) → ByteArray
  | 0 => b
  | n + 1 => pushZeros (b.push 0) n

/-- At most `count` bytes from `offset` on. -/
def read : Content → (offset count : Nat) → ByteArray
  | plain written zeros, offset, count =>
    let b := written.extract offset (offset + count)
    pushZeros b (min count (written.size + zeros - offset) - b.size)
  | device _, _, _ => .empty

def bytes : Content → ByteArray
  | plain written zeros => pushZeros written zeros
  | device _ => .empty

/-- Writes at the end of the file, unless it refuses that. -/
def append (c : Content) (b : ByteArray) : Content :=
  if b.isEmpty || c.refusal?.isSome then c else .ofBytes (c.bytes ++ b)

/-- Writes at an offset, over what is there and on behind it, unless the file refuses that; zeros
fill the gap before the offset. -/
def writeAt (c : Content) (offset : Nat) (b : ByteArray) : Content :=
  if b.isEmpty || c.refusal?.isSome then c
  else if c.size = offset then c.append b
  else
    let before := c.read 0 offset
    let stop := offset + b.size
    .ofBytes (pushZeros before (offset - before.size) ++ b ++ c.read stop (c.size - stop))

/-- Cuts the file off, or fills it up with zeros; a device stays as it is. -/
def resize : Content → (n : Nat) → Content
  | plain written _, n =>
    if n ≤ written.size then .ofBytes (written.extract 0 n) else .plain written (n - written.size)
  | device refusal, _ => .device refusal

def cleared (c : Content) : Content := c.resize 0

theorem size_pushZeros (b : ByteArray) (n : Nat) : (pushZeros b n).size = b.size + n := by
  induction n generalizing b with
  | zero => rfl
  | succ n ih => rw [pushZeros, ih, ByteArray.size_push]; omega

theorem size_bytes (c : Content) : c.bytes.size = c.size := by
  cases c with
  | plain written zeros => exact size_pushZeros written zeros
  | device refusal => rfl

theorem bytes_append {c : Content} (takes : c.refusal? = none) (b : ByteArray) :
    (c.append b).bytes = c.bytes ++ b := by
  unfold append
  by_cases empty : b.isEmpty
  · have none : b = ByteArray.empty :=
      ByteArray.size_eq_zero_iff.1 (by simpa [ByteArray.isEmpty] using empty)
    rw [empty, Bool.true_or, if_pos rfl, none, ByteArray.append_empty]
  · rw [if_neg (by simp [empty, takes])]
    rfl

theorem size_append {c : Content} (takes : c.refusal? = none) (b : ByteArray) :
    (c.append b).size = c.size + b.size := by
  rw [← size_bytes, bytes_append takes, ByteArray.size_append, size_bytes]

/-- Whether a file takes what is written does not change with what is written. -/
theorem refusal?_append (c : Content) (b : ByteArray) : (c.append b).refusal? = c.refusal? := by
  unfold append
  split
  · rfl
  · rename_i takes
    simp only [Bool.or_eq_true, not_or, Bool.not_eq_true, Option.isSome_eq_false_iff,
      Option.isNone_iff_eq_none] at takes
    exact takes.2.symm

theorem refusal?_resize (c : Content) (n : Nat) : (c.resize n).refusal? = c.refusal? := by
  cases c with
  | plain written zeros =>
    by_cases within : n ≤ written.size
    · rw [resize, if_pos within]
      rfl
    · rw [resize, if_neg within]
      rfl
  | device refusal => rfl

theorem size_of_refusal? {c : Content} {fault : Fault} (refuses : c.refusal? = some fault) :
    c.size = 0 := by
  cases c with
  | plain written zeros => cases refuses
  | device refusal => rfl

theorem cleared_eq {c : Content} (takes : c.refusal? = none) : c.cleared = .empty := by
  cases c with
  | plain written zeros =>
    have none : written.extract 0 0 = ByteArray.empty := ByteArray.extract_same
    rw [cleared, resize, if_pos (Nat.zero_le _), none]
    rfl
  | device refusal => cases takes

theorem size_cleared (c : Content) : c.cleared.size = 0 := by
  cases c with
  | plain written zeros =>
    rw [cleared_eq rfl]
    rfl
  | device refusal => rfl

end Content

end ObjectTransfer.Files
