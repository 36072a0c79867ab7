/-!
Values under keys, as lists of pairs in the order in which the keys came.
-/
namespace ObjectTransfer.Keyed

variable {α β : Type}

/-- Puts a value under a key, in place of the one there or at the end. -/
def put [BEq α] (k : α) (v : β) : List (α × β) → List (α × β)
  | [] => [(k, v)]
  | (k', v') :: rest => if k' == k then (k', v) :: rest else (k', v') :: put k v rest

/-- Changes the value under a key, if there is one. -/
def change [BEq α] (k : α) (f : β → β) : List (α × β) → List (α × β)
  | [] => []
  | (k', v') :: rest => if k' == k then (k', f v') :: rest else (k', v') :: change k f rest

/-- Adds values behind those that are under a key already. -/
def extend [BEq α] (l : List (α × List β)) (k : α) (more : List β) : List (α × List β) :=
  put k ((l.lookup k).getD [] ++ more) l

theorem lookup_put_self [BEq α] [LawfulBEq α] (k : α) (v : β) (l : List (α × β)) :
    (put k v l).lookup k = some v := by
  induction l with
  | nil => simp [put]
  | cons p rest ih =>
    obtain ⟨j, u⟩ := p
    by_cases h : j = k
    · simp [put, h]
    · have hk : (k == j) = false := by simpa using Ne.symm h
      simp [put, h, List.lookup_cons, hk, ih]

theorem lookup_put_of_ne [BEq α] [LawfulBEq α] {j k : α} (h : j ≠ k) (v : β) (l : List (α × β)) :
    (put k v l).lookup j = l.lookup j := by
  have hjk : (j == k) = false := by simpa using h
  induction l with
  | nil => simp [put, List.lookup_cons, hjk]
  | cons p rest ih =>
    obtain ⟨i, u⟩ := p
    by_cases hi : i = k
    · simp [put, hi, List.lookup_cons, hjk]
    · by_cases hj : j = i
      · subst hj
        simp [put, h]
      · have hj' : (j == i) = false := by simpa using hj
        simp [put, hi, List.lookup_cons, hj', ih]

end ObjectTransfer.Keyed
