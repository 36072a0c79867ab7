import Mathlib.Data.List.TakeWhile
import ObjectTransfer.Proofs.Text
/-!
Numerals and what may stand around them. The texts that are read as a number are exactly the runs of
digits below the limit, with at most one plus sign in front; blanks at the ends of a text are dropped,
whatever they are and however many.
-/
namespace ObjectTransfer.Text

def Blanks (cs : List Char) : Prop := ∀ c ∈ cs, isBlank c

instance (cs : List Char) : Decidable (Blanks cs) := List.decidableBAll _ cs

def Padded (core cs : List Char) : Prop :=
  ∃ before after, Blanks before ∧ Blanks after ∧ cs = before ++ core ++ after

variable {core cs before after : List Char}

theorem Padded.refl (cs : List Char) : Padded cs cs :=
  ⟨[], [], by simp [Blanks], by simp [Blanks], by simp⟩

theorem trimLeft_blanks (h : Blanks before) (cs : List Char) :
    trimLeft (before ++ cs) = trimLeft cs :=
  List.dropWhile_append_of_pos h

theorem trimRight_blanks (h : Blanks after) (cs : List Char) :
    trimRight (cs ++ after) = trimRight cs := by
  have dropped : trimLeft (after.reverse ++ cs.reverse) = trimLeft cs.reverse :=
    trimLeft_blanks (fun c hc => h c (List.mem_reverse.1 hc)) _
  rw [trimRight, trimRight, List.reverse_append, ← trimLeft, dropped, trimLeft]

theorem trimLeft_spec (cs : List Char) : ∃ before, Blanks before ∧ cs = before ++ trimLeft cs :=
  ⟨cs.takeWhile isBlank, fun _ h => List.mem_takeWhile_imp h,
    List.takeWhile_append_dropWhile.symm⟩

theorem trimRight_spec (cs : List Char) : ∃ after, Blanks after ∧ cs = trimRight cs ++ after := by
  obtain ⟨blanks, blank, same⟩ := trimLeft_spec cs.reverse
  refine ⟨blanks.reverse, fun c hc => blank c (List.mem_reverse.1 hc), ?_⟩
  have same' := congrArg List.reverse same
  rwa [List.reverse_reverse, List.reverse_append] at same'

theorem strip_nil_of_blanks (h : Blanks cs) : strip cs = [] := by
  have none := trimLeft_blanks h []
  rw [List.append_nil] at none
  rw [strip, none]
  rfl

theorem Padded.strip_eq (h : Padded core cs) : strip cs = strip core := by
  obtain ⟨before, after, hbefore, hafter, rfl⟩ := h
  rw [List.append_assoc, strip, trimLeft_blanks hbefore, strip]
  cases hcore : trimLeft core with
  | nil =>
    have blank : Blanks core := List.dropWhile_eq_nil_iff.1 hcore
    rw [trimLeft_blanks blank]
    exact strip_nil_of_blanks hafter
  | cons c rest =>
    have kept : trimLeft (core ++ after) = trimLeft core ++ after := by
      unfold trimLeft at hcore ⊢
      rw [List.dropWhile_append, hcore]
      rfl
    rw [kept, trimRight_blanks hafter, hcore]

/-- What is left of a text is the text less blanks around it. -/
theorem padded_strip (cs : List Char) : Padded (strip cs) cs := by
  obtain ⟨before, hbefore, left⟩ := trimLeft_spec cs
  obtain ⟨after, hafter, right⟩ := trimRight_spec (trimLeft cs)
  exact ⟨before, after, hbefore, hafter, by rw [List.append_assoc, strip, ← right, ← left]⟩

theorem Padded.mem (h : Padded core cs) {c : Char} (mem : c ∈ cs) : isBlank c ∨ c ∈ core := by
  obtain ⟨before, after, hbefore, hafter, rfl⟩ := h
  simp only [List.mem_append] at mem
  rcases mem with (mem | mem) | mem
  · exact .inl (hbefore c mem)
  · exact .inr mem
  · exact .inl (hafter c mem)

theorem strip_strip (cs : List Char) : strip (strip cs) = strip cs :=
  (padded_strip cs).strip_eq.symm

theorem strip_eq_nil_iff : strip cs = [] ↔ Blanks cs := by
  constructor
  · intro empty c mem
    rcases (padded_strip cs).mem mem with blank | mem
    · exact blank
    · rw [empty] at mem
      cases mem
  · exact strip_nil_of_blanks

theorem trimRight_append_cons {c : Char} (solid : isBlank c = false) (lead rest : List Char) :
    trimRight (lead ++ c :: rest) = lead ++ c :: trimRight rest := by
  have stop : trimLeft (rest.reverse ++ c :: lead.reverse) =
      trimLeft rest.reverse ++ c :: lead.reverse := by
    unfold trimLeft
    rw [List.dropWhile_append]
    split
    · rename_i empty
      rw [List.isEmpty_iff.1 empty, List.dropWhile_cons, if_neg (by simp [solid]), List.nil_append]
    · rfl
  have reversed : (lead ++ c :: rest).reverse = rest.reverse ++ c :: lead.reverse := by simp
  rw [trimRight, reversed, ← trimLeft, stop, trimRight, ← trimLeft]
  simp

theorem strip_cons_append_cons {b c : Char} (first : isBlank b = false) (solid : isBlank c = false)
    (lead rest : List Char) :
    strip (b :: lead ++ c :: rest) = b :: lead ++ c :: trimRight rest := by
  have front : trimLeft (b :: lead ++ c :: rest) = b :: lead ++ c :: rest :=
    trimLeft_eq_self (by simpa using first)
  rw [strip, front, trimRight_append_cons solid]

theorem strip_trimRight (cs : List Char) : strip (trimRight cs) = strip cs := by
  obtain ⟨after, blank, same⟩ := trimRight_spec cs
  have padded : Padded (trimRight cs) cs := ⟨[], after, by simp [Blanks], blank, by simpa using same⟩
  exact padded.strip_eq.symm

namespace Unsigned

/-- At least one digit, and at most one plus sign in front. -/
inductive Numeral : List Char → Nat → Prop
  | plain {ds : List Char} (digits : ∀ d ∈ ds, d.isDigit) (some : ds ≠ []) :
      Numeral ds (Nat.ofDigitChars 10 ds 0)
  | signed {ds : List Char} (digits : ∀ d ∈ ds, d.isDigit) (some : ds ≠ []) :
      Numeral ('+' :: ds) (Nat.ofDigitChars 10 ds 0)

theorem numeral_toString (n : Nat) : Numeral (toString n).toList n := by
  have numeral := Numeral.plain (fun d => isDigit_of_mem_toString (n := n) (c := d))
    (toString_ne_nil n)
  rwa [ofDigitChars_toString] at numeral

/-- What is read behind the value `n`: digits, and the value that they make of it. -/
theorem digits_eq_ok_iff {cs : List Char} {n m : Nat} (small : n < limit) :
    digits n cs = .ok m ↔ (∀ c ∈ cs, c.isDigit) ∧ Nat.ofDigitChars 10 cs n = m ∧ m < limit := by
  constructor
  · intro read
    have value := eq_of_digits read
    induction cs generalizing n with
    | nil =>
      cases read
      exact ⟨by simp, rfl, small⟩
    | cons c cs ih =>
      unfold digits at read
      split at read
      · rename_i digit
        dsimp only at read
        split at read
        · rename_i small'
          obtain ⟨rest, same, below⟩ := ih small' read (eq_of_digits read)
          exact ⟨by simpa [digit] using rest, value.symm, below⟩
        · cases read
      · cases read
  · rintro ⟨all, rfl, below⟩
    exact digits_eq_ofDigitChars cs n all below

theorem parse_eq_ok_iff {cs : List Char} {n : Nat} :
    parse cs = .ok n ↔ Numeral cs n ∧ n < limit := by
  have zero : 0 < limit := by decide
  constructor
  · intro read
    unfold parse at read
    split at read
    · cases read
    · rename_i ds
      split at read
      · cases read
      · rename_i some
        obtain ⟨all, rfl, below⟩ := (digits_eq_ok_iff zero).1 read
        exact ⟨.signed all (by simpa using some), below⟩
    · rename_i some _
      obtain ⟨all, rfl, below⟩ := (digits_eq_ok_iff zero).1 read
      exact ⟨.plain all some, below⟩
  · rintro ⟨numeral, below⟩
    cases numeral with
    | plain all some =>
      unfold parse
      split
      · exact absurd rfl some
      · exact absurd (all '+' (by simp)) (by decide)
      · exact (digits_eq_ok_iff zero).2 ⟨all, rfl, below⟩
    | signed all some =>
      rw [parse, if_neg (by simpa using some)]
      exact (digits_eq_ok_iff zero).2 ⟨all, rfl, below⟩

theorem Numeral.unique {cs : List Char} {n m : Nat} (h : Numeral cs n) (h' : Numeral cs m) :
    n = m := by
  have sign : ¬ ('+' : Char).isDigit := by decide
  cases h with
  | plain all some =>
    cases h' with
    | plain => rfl
    | signed => exact absurd (all '+' (by simp)) sign
  | signed =>
    cases h' with
    | plain all some => exact absurd (all '+' (by simp)) sign
    | signed => rfl

theorem Numeral.mem {cs : List Char} {n : Nat} (h : Numeral cs n) :
    cs ≠ [] ∧ ∀ c ∈ cs, c = '+' ∨ c.isDigit := by
  cases h with
  | plain all some => exact ⟨some, fun c hc => .inr (all c hc)⟩
  | signed all some =>
    refine ⟨by simp, fun c hc => ?_⟩
    rcases List.mem_cons.1 hc with rfl | hc
    · exact .inl rfl
    · exact .inr (all c hc)

end Unsigned

end ObjectTransfer.Text
