import Mathlib.Tactic.Common
import ObjectTransfer.Files.Content
/-!
Reading a file gives the bytes that stand at the offset, also where they are zeros that were never
written.
-/
namespace ObjectTransfer.Files.Content

def zeroBytes (n : Nat) : ByteArray := ⟨Array.replicate n 0⟩

theorem pushZeros_eq (b : ByteArray) (n : Nat) : pushZeros b n = b ++ zeroBytes n := by
  induction n generalizing b with
  | zero =>
    apply ByteArray.ext
    simp [pushZeros, zeroBytes, ByteArray.data_append]
  | succ n ih =>
    rw [pushZeros, ih]
    apply ByteArray.ext
    simp [zeroBytes, ByteArray.data_append, ByteArray.data_push, Array.replicate_succ']

theorem extract_zeroBytes (n i j : Nat) : (zeroBytes n).extract i j = zeroBytes (min j n - i) := by
  apply ByteArray.ext
  simp [zeroBytes, ByteArray.data_extract]

theorem read_eq (c : Content) (offset count : Nat) :
    c.read offset count = c.bytes.extract offset (offset + count) := by
  cases c with
  | plain written zeros =>
    simp only [read, bytes, pushZeros_eq, ByteArray.extract_append, extract_zeroBytes,
      ByteArray.size_extract]
    congr 2
    omega
  | device refusal =>
    apply ByteArray.ext
    simp [read, bytes, ByteArray.data_extract]

end ObjectTransfer.Files.Content
