import Mathlib.Algebra.Order.Floor.Div
import ObjectTransfer.Text.Unsigned
/-!
Arithmetic of machine words. Sizes and offsets are numbers of 64 bits; an operation on them gives nothing
where its result is no such number or where it divides by zero. What is calculated with any numbers is
calculated right when each step gives a result with words.
-/
namespace ObjectTransfer.Word

def fit? (n : Nat) : Option Nat := if n < Text.Unsigned.limit then some n else none

def add? (a b : Nat) : Option Nat := fit? (a + b)

def mul? (a b : Nat) : Option Nat := fit? (a * b)

def sub? (a b : Nat) : Option Nat := if b ≤ a then some (a - b) else none

def div? (a b : Nat) : Option Nat := if b = 0 then none else some (a / b)

/-- Divides and rounds up: one is added when something is left. -/
def ceilDiv? (a b : Nat) : Option Nat := do
  let q ← div? a b
  if a % b = 0 then pure q else add? q 1

variable {a b : Nat}

theorem add?_eq (fits : a + b < Text.Unsigned.limit) : add? a b = some (a + b) := if_pos fits

theorem mul?_eq (fits : a * b < Text.Unsigned.limit) : mul? a b = some (a * b) := if_pos fits

theorem sub?_eq (le : b ≤ a) : sub? a b = some (a - b) := if_pos le

theorem div?_eq (pos : 0 < b) : div? a b = some (a / b) := if_neg (Nat.ne_of_gt pos)

theorem ceilDiv?_eq (pos : 0 < b) (fits : a < Text.Unsigned.limit) : ceilDiv? a b = some (a ⌈/⌉ b) := by
  have split : a / b * b + a % b = a := Nat.div_add_mod' a b
  have below := Nat.mod_lt a pos
  have next : (a / b + 1) * b = a / b * b + b := Nat.succ_mul _ _
  rw [ceilDiv?, div?_eq pos, Nat.ceilDiv_eq_add_pred_div]
  change (if a % b = 0 then some (a / b) else add? (a / b) 1) = _
  by_cases whole : a % b = 0
  · have same : (a + b - 1) / b = a / b := Nat.div_eq_of_lt_le (by omega) (by omega)
    rw [if_pos whole, same]
  · -- with something left the quotient is smaller than what was divided
    have less : a / b < a := Nat.div_lt_self (Nat.pos_of_ne_zero fun h => whole (by rw [h, Nat.zero_mod]))
      (by omega)
    have after : (a / b + 1 + 1) * b = a / b * b + b + b := by rw [Nat.succ_mul, next]
    have same : (a + b - 1) / b = a / b + 1 := Nat.div_eq_of_lt_le (by omega) (by omega)
    rw [if_neg whole, add?_eq (by omega), same]

theorem mapM_eq {α β : Type} {f : α → Option β} {g : α → β} {l : List α}
    (each : ∀ x ∈ l, f x = some (g x)) : l.mapM f = some (l.map g) := by
  induction l with
  | nil => rfl
  | cons x l ih =>
    rw [List.mapM_cons, each x List.mem_cons_self, ih fun y hy => each y (.tail _ hy)]
    rfl

end ObjectTransfer.Word
