import Mathlib.Tactic.Common
import ObjectTransfer.Text.Percent
/-!
Texts behind percent escapes. What is written of a text is read back as its bytes, no character stands in
it but plain ones and escapes, and a plain mark stands in it exactly where it stood in the text.
-/
namespace ObjectTransfer.Text

theorem Hex.value?_upperDigit : ∀ n < 16, Hex.value? (Hex.upperDigit n) = some n := by
  decide

theorem Hex.isAlphanum_upperDigit : ∀ n < 16, (Hex.upperDigit n).isAlphanum := by
  decide

/-- The pieces of a text of which every character is written on its own, and the separator alone as
itself. -/
theorem splitOn_flatMap {sep : Char} {f : Char → List Char} (alone : f sep = [sep])
    (other : ∀ c, c ≠ sep → sep ∉ f c) (cs : List Char) :
    (cs.flatMap f).splitOn sep = (cs.splitOn sep).map (List.flatMap f) := by
  have unsplit {piece : List Char} (none : sep ∉ piece) : sep ∉ piece.flatMap f := by
    rw [List.mem_flatMap]
    rintro ⟨c, mem, found⟩
    exact other c (fun same => none (same ▸ mem)) found
  induction size : cs.length using Nat.strongRecOn generalizing cs with
  | _ n ih =>
    by_cases mem : sep ∈ cs
    · obtain ⟨first, rest, rfl, none⟩ := List.eq_append_cons_of_mem mem
      have shorter : rest.length < n := by
        rw [← size, List.length_append, List.length_cons]
        omega
      rw [List.flatMap_append, List.flatMap_cons, alone, List.singleton_append,
        List.splitOn_append_cons_self_of_not_mem (unsplit none),
        List.splitOn_append_cons_self_of_not_mem none, ih _ shorter rest rfl, List.map_cons]
    · rw [List.splitOn_eq_singleton (unsplit mem), List.splitOn_eq_singleton mem, List.map_singleton]

theorem toUTF8_eq_flatMap (s : String) :
    s.toUTF8.data.toList = s.toList.flatMap String.utf8EncodeChar := by
  have bytes : s.toUTF8.data = (s.toList.flatMap String.utf8EncodeChar).toArray := by
    rw [String.toUTF8_eq_toByteArray, ← String.utf8Encode_toList, List.utf8Encode,
      List.data_toByteArray]
  rw [bytes]

/-- Of a character that takes more than one byte, every byte is 128 or greater. -/
theorem toNat_of_mem_utf8EncodeChar {c : Char} {x : UInt8} (mem : x ∈ String.utf8EncodeChar c)
    (ascii : x.toNat < 128) : x.toNat = c.toNat := by
  have large (n : Nat) {k first : Nat} (some : 0 < k) (low : 128 ≤ first) (fits : first + k ≤ 256) :
      x ≠ UInt8.ofNat (n % k + first) := by
    rintro rfl
    have below := Nat.mod_lt n some
    rw [UInt8.toNat_ofNat', Nat.mod_eq_of_lt (by omega)] at ascii
    omega
  unfold String.utf8EncodeChar at mem
  dsimp only at mem
  split at mem
  · rename_i single
    rw [List.mem_singleton] at mem
    rw [mem, UInt8.toNat_ofNat']
    exact Nat.mod_eq_of_lt (by omega)
  · exfalso
    split at mem
    · simp only [List.mem_cons, List.not_mem_nil, or_false] at mem
      rcases mem with same | same
      · exact large _ (by decide) (by decide) (by decide) same
      · exact large _ (by decide) (by decide) (by decide) same
    · split at mem
      · simp only [List.mem_cons, List.not_mem_nil, or_false] at mem
        rcases mem with same | same | same
        · exact large _ (by decide) (by decide) (by decide) same
        · exact large _ (by decide) (by decide) (by decide) same
        · exact large _ (by decide) (by decide) (by decide) same
      · simp only [List.mem_cons, List.not_mem_nil, or_false] at mem
        rcases mem with same | same | same | same
        · exact large _ (by decide) (by decide) (by decide) same
        · exact large _ (by decide) (by decide) (by decide) same
        · exact large _ (by decide) (by decide) (by decide) same
        · exact large _ (by decide) (by decide) (by decide) same

theorem utf8EncodeChar_of_ascii {c : Char} (ascii : c.toNat < 128) :
    String.utf8EncodeChar c = [UInt8.ofNat c.toNat] := by
  unfold String.utf8EncodeChar
  exact if_pos (Nat.le_of_lt_succ ascii)

theorem ofNat_toNat_of_ascii {x : UInt8} (ascii : x.toNat < 128) :
    (Char.ofNat x.toNat).toNat = x.toNat := by
  have valid : x.toNat.isValidChar := .inl (by omega)
  rw [Char.ofNat, dif_pos valid]
  rfl

namespace Percent
variable {isPlain : Char → Bool} {c : Char}

def written (isPlain : Char → Bool) (x : UInt8) : List Char :=
  if x.toNat < 128 && isPlain (Char.ofNat x.toNat) then [Char.ofNat x.toNat] else escape x

theorem toList_encode (s : String) :
    (encode isPlain s).toList =
      s.toList.flatMap fun c => (String.utf8EncodeChar c).flatMap (written isPlain) := by
  rw [← List.flatMap_assoc, ← toUTF8_eq_flatMap, encode, String.toList_ofList]
  rfl

theorem decode_escape (x : UInt8) (rest : List Char) :
    decode (escape x ++ rest) = x :: decode rest := by
  have small := x.toNat_lt
  have value : 16 * (x.toNat / 16) + x.toNat % 16 = x.toNat := Nat.div_add_mod _ _
  rw [escape, List.cons_append, List.cons_append, List.cons_append, List.nil_append, decode,
    Hex.value?_upperDigit _ (by omega), Hex.value?_upperDigit _ (by omega)]
  simp only [value, UInt8.ofNat_toNat]

theorem decode_cons (percent : c ≠ '%') (rest : List Char) :
    decode (c :: rest) = String.utf8EncodeChar c ++ decode rest := by
  have bytes := toUTF8_eq_flatMap (String.singleton c)
  rw [String.toList_singleton, List.flatMap_singleton] at bytes
  rw [decode, bytes]
  exact fun a b rest same _ => percent same

theorem decode_written (percent : isPlain '%' = false) (x : UInt8) (rest : List Char) :
    decode (written isPlain x ++ rest) = x :: decode rest := by
  rw [written]
  split
  · rename_i plain
    rw [Bool.and_eq_true, decide_eq_true_eq] at plain
    have code := ofNat_toNat_of_ascii plain.1
    have other : Char.ofNat x.toNat ≠ '%' := by
      intro same
      rw [same, percent] at plain
      cases plain.2
    rw [List.singleton_append, decode_cons other, utf8EncodeChar_of_ascii (by omega), code,
      UInt8.ofNat_toNat, List.singleton_append]
  · exact decode_escape x rest

theorem decode_flatMap_written (percent : isPlain '%' = false) (bytes : List UInt8) :
    decode (bytes.flatMap (written isPlain)) = bytes := by
  induction bytes with
  | nil => rfl
  | cons x bytes ih => rw [List.flatMap_cons, decode_written percent, ih]

theorem decode_encode (percent : isPlain '%' = false) (s : String) :
    decode (encode isPlain s).toList = s.toUTF8.data.toList := by
  rw [toList_encode, ← List.flatMap_assoc, ← toUTF8_eq_flatMap, decode_flatMap_written percent]

theorem mem_encode {s : String} (mem : c ∈ (encode isPlain s).toList) :
    (isPlain c ∧ c.toNat < 128) ∨ c = '%' ∨ c.isAlphanum := by
  rw [toList_encode, ← List.flatMap_assoc, List.mem_flatMap] at mem
  obtain ⟨x, -, mem⟩ := mem
  rw [written] at mem
  split at mem
  · rename_i plain
    rw [Bool.and_eq_true, decide_eq_true_eq] at plain
    rw [List.mem_singleton] at mem
    subst mem
    exact .inl ⟨plain.2, by rw [ofNat_toNat_of_ascii plain.1]; exact plain.1⟩
  · have small := x.toNat_lt
    simp only [escape, List.mem_cons, List.not_mem_nil, or_false] at mem
    rcases mem with rfl | rfl | rfl
    · exact .inr (.inl rfl)
    · exact .inr (.inr (Hex.isAlphanum_upperDigit _ (by omega)))
    · exact .inr (.inr (Hex.isAlphanum_upperDigit _ (by omega)))

theorem not_mem_written {sep : Char} (percent : sep ≠ '%') (digit : sep.isAlphanum = false)
    (other : c ≠ sep) : sep ∉ (String.utf8EncodeChar c).flatMap (written isPlain) := by
  rw [List.mem_flatMap]
  rintro ⟨x, byte, mem⟩
  rw [written] at mem
  split at mem
  · rename_i plain
    rw [Bool.and_eq_true, decide_eq_true_eq] at plain
    rw [List.mem_singleton, toNat_of_mem_utf8EncodeChar byte plain.1, Char.ofNat_toNat] at mem
    exact other mem.symm
  · have small := x.toNat_lt
    have digits {n : Nat} (h : n < 16) : sep ≠ Hex.upperDigit n := by
      rintro rfl
      rw [Hex.isAlphanum_upperDigit n h] at digit
      cases digit
    simp only [escape, List.mem_cons, List.not_mem_nil, or_false] at mem
    rcases mem with same | same | same
    · exact percent same
    · exact digits (by omega) same
    · exact digits (by omega) same

theorem splitOn_encode {sep : Char} (plain : isPlain sep) (ascii : sep.toNat < 128) (percent : sep ≠ '%')
    (digit : sep.isAlphanum = false) (s : String) :
    (encode isPlain s).toList.splitOn sep =
      (s.toList.splitOn sep).map fun piece => (encode isPlain (String.ofList piece)).toList := by
  have code : (UInt8.ofNat sep.toNat).toNat = sep.toNat := by
    rw [UInt8.toNat_ofNat']
    exact Nat.mod_eq_of_lt (by omega)
  have alone : (String.utf8EncodeChar sep).flatMap (written isPlain) = [sep] := by
    rw [utf8EncodeChar_of_ascii ascii, List.flatMap_singleton, written, code, Char.ofNat_toNat, if_pos]
    simp [plain, ascii]
  simp only [toList_encode, String.toList_ofList]
  exact splitOn_flatMap alone (fun c other => not_mem_written percent digit other) s.toList

end Percent
end ObjectTransfer.Text
