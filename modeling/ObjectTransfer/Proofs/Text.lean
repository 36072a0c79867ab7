import Mathlib.Data.List.Basic
import Mathlib.Data.Nat.Digits.Defs
import Mathlib.Data.String.Basic
import ObjectTransfer.Text.Blank
import ObjectTransfer.Text.Pieces
import ObjectTransfer.Text.Unsigned
/-!
Written numbers and trimmed texts: a number below the limit is read back from its decimal digits, no
digits are read as another number, and a text without blanks at its ends is its own trimmed form.
-/
namespace ObjectTransfer.Text

theorem le_ofDigitChars (cs : List Char) (n : Nat) : n ≤ Nat.ofDigitChars 10 cs n := by
  induction cs generalizing n with
  | nil => simp
  | cons c cs ih =>
    rw [Nat.ofDigitChars_cons]
    have h := ih (10 * n + (c.toNat - '0'.toNat))
    omega

/-- Digits are read as their value, as long as the value stays below the limit. -/
theorem Unsigned.digits_eq_ofDigitChars (cs : List Char) (n : Nat) (hd : ∀ c ∈ cs, c.isDigit)
    (hl : Nat.ofDigitChars 10 cs n < limit) : digits n cs = .ok (Nat.ofDigitChars 10 cs n) := by
  induction cs generalizing n with
  | nil => rfl
  | cons c cs ih =>
    rw [Nat.ofDigitChars_cons] at hl ⊢
    have hc : c.isDigit = true := hd c (by simp)
    have hm : 10 * n + (c.toNat - 48) < limit := Nat.lt_of_le_of_lt (le_ofDigitChars cs _) hl
    simp only [digits, hc, if_true, hm]
    exact ih _ (fun d h => hd d (by simp [h])) hl

theorem isDigit_of_mem_toString {n : Nat} {c : Char} (h : c ∈ (toString n).toList) :
    c.isDigit := by
  rw [Nat.toString_eq_repr, Nat.toList_repr] at h
  exact Nat.isDigit_of_mem_toDigits (by decide) (by decide) h

theorem not_mem_toString {c : Char} (hc : c.isDigit = false) (n : Nat) :
    c ∉ (toString n).toList := by
  intro h
  rw [isDigit_of_mem_toString h] at hc
  contradiction

theorem toString_ne_nil (n : Nat) : (toString n).toList ≠ [] := by
  rw [Nat.toString_eq_repr, Nat.toList_repr]
  exact Nat.toDigits_ne_nil

theorem Unsigned.parse_toString_eq (n : Nat) :
    parse (toString n).toList = digits 0 (toString n).toList := by
  cases hcs : (toString n).toList with
  | nil => exact absurd hcs (toString_ne_nil n)
  | cons c cs =>
    have hc : c ≠ '+' := by
      rintro rfl
      have hp : ('+' : Char).isDigit := isDigit_of_mem_toString (n := n) (by rw [hcs]; simp)
      exact absurd hp (by decide)
    unfold parse
    split
    · contradiction
    · rename_i he
      cases he
      contradiction
    · rfl

theorem utf8Len_digits {cs : List Char} (digits : ∀ c ∈ cs, c.isDigit) :
    String.utf8Len cs = cs.length := by
  induction cs with
  | nil => rfl
  | cons c cs ih =>
    have digit : c.isDigit = true := digits c List.mem_cons_self
    have byte : c.utf8Size = 1 := by
      rw [Char.utf8Size_eq_one_iff]
      simp only [Char.isDigit, Bool.and_eq_true, decide_eq_true_eq] at digit
      exact UInt32.le_trans digit.2 (by decide)
    rw [String.utf8Len_cons, ih fun d hd => digits d (List.mem_cons_of_mem c hd), byte,
      List.length_cons]

/-- A word has at most twenty digits. -/
theorem size_toString_le {n : Nat} (word : n < Unsigned.limit) : (toString n).utf8ByteSize ≤ 20 := by
  have length : (toString n).length ≤ 20 := by
    rw [Nat.toString_eq_repr]
    exact Nat.repr_length n 20 (by decide) (Nat.lt_trans word (by decide))
  have size : String.utf8Len (toString n).toList = (toString n).toList.length :=
    utf8Len_digits fun _ => isDigit_of_mem_toString
  rw [← String.utf8ByteSize_ofList, String.ofList_toList, String.length_toList] at size
  omega

theorem ofDigitChars_toString (n : Nat) : Nat.ofDigitChars 10 (toString n).toList 0 = n := by
  rw [Nat.toString_eq_repr, Nat.toList_repr, Nat.ofDigitChars_ten_toDigits]

theorem Unsigned.parse_toString {n : Nat} (h : n < limit) :
    parse (toString n).toList = .ok n := by
  have hv := ofDigitChars_toString n
  rw [parse_toString_eq,
    digits_eq_ofDigitChars _ _ (fun c => isDigit_of_mem_toString) (by rwa [hv]), hv]

theorem Unsigned.eq_of_digits {cs : List Char} {n m : Nat} (h : digits n cs = .ok m) :
    m = Nat.ofDigitChars 10 cs n := by
  induction cs generalizing n with
  | nil =>
    cases h
    rfl
  | cons c cs ih =>
    rw [Nat.ofDigitChars_cons]
    unfold digits at h
    split at h
    · dsimp only at h
      split at h
      · exact ih h
      · cases h
    · cases h

theorem Unsigned.eq_of_parse_toString {n m : Nat} (h : parse (toString n).toList = .ok m) :
    m = n := by
  rw [parse_toString_eq] at h
  rw [eq_of_digits h, ofDigitChars_toString]

theorem isBlank_of_isDigit {c : Char} (h : c.isDigit) : isBlank c = false := by
  simp only [Char.isDigit, Bool.and_eq_true, decide_eq_true_eq] at h
  have h1 : 48 ≤ c.toNat := h.1
  have h2 : c.toNat ≤ 57 := h.2
  simp only [isBlank, Bool.or_eq_false_iff, Bool.and_eq_false_iff, decide_eq_false_iff_not,
    beq_eq_false_iff_ne]
  omega

theorem trimLeft_eq_self {cs : List Char} (h : ∀ c ∈ cs.head?, isBlank c = false) :
    trimLeft cs = cs := by
  cases cs with
  | nil => rfl
  | cons c cs => simp [trimLeft, h c (by simp)]

theorem trimRight_eq_self {cs : List Char} (h : ∀ c ∈ cs.getLast?, isBlank c = false) :
    trimRight cs = cs := by
  have hd : trimLeft cs.reverse = cs.reverse :=
    trimLeft_eq_self (by rwa [List.head?_reverse])
  rw [trimRight, ← trimLeft, hd, List.reverse_reverse]

theorem strip_eq_self {cs : List Char} (hfirst : ∀ c ∈ cs.head?, isBlank c = false)
    (hlast : ∀ c ∈ cs.getLast?, isBlank c = false) : strip cs = cs := by
  rw [strip, trimLeft_eq_self hfirst, trimRight_eq_self hlast]

theorem strip_eq_self_of_all {cs : List Char} (h : ∀ c ∈ cs, isBlank c = false) : strip cs = cs :=
  strip_eq_self (fun c hc => h c (List.mem_of_mem_head? hc))
    (fun c hc => h c (List.mem_of_mem_getLast? hc))

theorem strip_toString (n : Nat) : strip (toString n).toList = (toString n).toList :=
  strip_eq_self_of_all fun _ h => isBlank_of_isDigit (isDigit_of_mem_toString h)

/-- A text that ends with a number does not end with a blank. -/
theorem isBlank_last_toString (cs : List Char) (n : Nat) :
    ∀ c ∈ (cs ++ (toString n).toList).getLast?, isBlank c = false := by
  intro c hc
  rw [List.getLast?_append_of_ne_nil cs (toString_ne_nil n)] at hc
  exact isBlank_of_isDigit (isDigit_of_mem_toString (List.mem_of_mem_getLast? hc))

theorem splitOnce_append {c : Char} {a b : List Char} (h : c ∉ a) :
    splitOnce c (a ++ c :: b) = some (a, b) := by
  induction a with
  | nil => simp [splitOnce]
  | cons d ds ih =>
    have hd : d ≠ c := fun he => h (by simp [he])
    simp [splitOnce, hd, ih (fun hm => h (by simp [hm]))]

theorem after?_append (lead rest : List Char) : after? lead (lead ++ rest) = some rest :=
  after?_eq_some_iff.2 rfl

end ObjectTransfer.Text
