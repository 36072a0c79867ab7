/-!
Taking texts apart: at the first place where a character stands, behind what a text begins with, and
between what surrounds it. The pieces and what was taken from between them are the whole text again.
-/
namespace ObjectTransfer.Text

/-- The text before the first line feed; a text without one is all first line. -/
def firstLine (s : String) : String := String.ofList (s.toList.takeWhile (· != '\n'))

/-- Splits at the first `c`, which belongs to neither side. -/
def splitOnce (c : Char) : List Char → Option (List Char × List Char)
  | [] => none
  | d :: ds => if d = c then some ([], ds) else (splitOnce c ds).map fun p => (d :: p.1, p.2)

theorem splitOnce_eq_some {c : Char} {cs a b : List Char} (h : splitOnce c cs = some (a, b)) :
    cs = a ++ c :: b ∧ c ∉ a := by
  induction cs generalizing a with
  | nil => simp [splitOnce] at h
  | cons d ds ih =>
    by_cases hd : d = c
    · simp only [splitOnce, hd, if_true, Option.some.injEq, Prod.mk.injEq] at h
      obtain ⟨rfl, rfl⟩ := h
      simp [hd]
    · simp only [splitOnce, hd, if_false, Option.map_eq_some_iff, Prod.mk.injEq] at h
      obtain ⟨⟨a', b'⟩, hs, rfl, rfl⟩ := h
      obtain ⟨rfl, hn⟩ := ih hs
      simp [hn, Ne.symm hd]

/-- What follows `lead`, when the text begins with it. -/
def after? : (lead cs : List Char) → Option (List Char)
  | [], cs => some cs
  | _ :: _, [] => none
  | l :: ls, c :: cs => if l = c then after? ls cs else none

theorem after?_eq_some_iff {lead cs rest : List Char} :
    after? lead cs = some rest ↔ cs = lead ++ rest := by
  induction lead generalizing cs with
  | nil => simp [after?]
  | cons l ls ih =>
    cases cs with
    | nil => simp [after?]
    | cons c cs =>
      by_cases hc : l = c
      · simp [after?, hc, ih]
      · simp [after?, hc, Ne.symm hc]

/-- Drops every `p` in front and at the end. -/
def stripBy (p : Char → Bool) (cs : List Char) : List Char :=
  ((cs.dropWhile p).reverse.dropWhile p).reverse

end ObjectTransfer.Text
