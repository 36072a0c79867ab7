import ObjectTransfer.Proofs.Rehearsal.Storing
import ObjectTransfer.Proofs.Source
/-!
What the store in memory makes of a body that comes in chunks. Where data is cut off, and how it is answered,
depends on all the bytes that were to come, not on the chunks; and every failure that may be tried again uses
up something that was arranged for.
-/
namespace ObjectTransfer.Rehearsal.Server
open Http Upload

variable {s : Server} {request : Request} {received received' : Received} {data : ByteArray}
  {id : String}

/-- As much of `data` came as is wanted: all of it, or so many of its first bytes that no more is wanted. -/
def Enough (s : Server) (request : Request) (data : ByteArray) (received : Received) : Prop :=
  ∃ n ≤ data.size, received.Is (data.extract 0 n) ∧
    (n = data.size ∨ wants request received s = false)

/-- After how many bytes a request that is to send `data` is cut off. -/
def cutIn (s : Server) (data : ByteArray) : Option Nat :=
  s.breaks.head?.filter fun limit => decide (data.size ≠ 0) && decide (limit ≤ data.size)

theorem cut?_eq_cutIn (s : Server) (came : received.Is data) : s.cut? received = s.cutIn data := by
  have newest : received.newest.isEmpty = decide (data.size = 0) :=
    Bool.eq_iff_iff.2 ((List.isEmpty_iff.trans came.newest).trans decide_eq_true_iff.symm)
  unfold cut? cutIn
  rw [newest, came.size, decide_not]

theorem cut_of_unwanted (kind : kindOf request = .chunk id) (unscripted : s.scripted? .chunk = none)
    {accepted : ServerSession × Nat × Nat} (accepts : s.acceptable id request = .ok accepted)
    (came : received.Is data) (unwanted : wants request received s = false) :
    ∃ limit rest, s.breaks = limit :: rest ∧ data.size ≠ 0 ∧ limit ≤ data.size := by
  cases breaks : s.breaks with
  | nil => simp [wants, kind, unscripted, accepts, breaks] at unwanted
  | cons limit rest =>
    simp only [wants, kind, unscripted, accepts, breaks, Option.isSome_none, Bool.false_eq_true,
      if_false, Bool.or_eq_false_iff, decide_eq_false_iff_not, Nat.not_lt] at unwanted
    refine ⟨limit, rest, rfl, fun empty => ?_, came.size ▸ unwanted.2⟩
    rw [came.newest.2 empty] at unwanted
    cases unwanted.1

/-- A cut comes where it was arranged for, or not at all when there are fewer bytes, and what comes before
it is taken. -/
theorem Enough.cut (h : s.Enough request data received) (kind : kindOf request = .chunk id)
    (unscripted : s.scripted? .chunk = none) {accepted : ServerSession × Nat × Nat}
    (accepts : s.acceptable id request = .ok accepted) :
    s.cut? received = s.cutIn data ∧
      s.uncut received = (s.cutIn data).elim data (data.extract 0) := by
  obtain ⟨n, le, came, ended⟩ := h
  rw [uncut, cut?_eq_cutIn s came, came.bytes]
  rcases ended with rfl | unwanted
  · rw [ByteArray.extract_zero_size]
    exact ⟨rfl, rfl⟩
  · obtain ⟨limit, rest, breaks, some, within⟩ :=
      cut_of_unwanted kind unscripted accepts came unwanted
    rw [ByteArray.size_extract] at some within
    have cut {d : ByteArray} (some : d.size ≠ 0) (within : limit ≤ d.size) :
        s.cutIn d = .some limit := by
      rw [cutIn, breaks, List.head?_cons, Option.filter_some, if_pos]
      simp only [Bool.and_eq_true, decide_eq_true_eq]
      exact ⟨some, within⟩
    have first : min (0 + limit) n = limit := by omega
    rw [cut (d := data.extract 0 n) (by rw [ByteArray.size_extract]; omega)
      (by rw [ByteArray.size_extract]; omega), cut (d := data) (by omega) (by omega),
      Option.elim_some, Option.elim_some, ByteArray.extract_extract, first]
    exact ⟨rfl, rfl⟩

theorem Enough.answer_eq (h : s.Enough request data received) (h' : s.Enough request data received')
    (files : Files.Store) : s.answer request received files = s.answer request received' files := by
  unfold answer
  cases kind : kindOf request with
  | start => rfl
  | query id => rfl
  | unnamed => rfl
  | other => rfl
  | chunk id =>
    dsimp only
    cases unscripted : s.scripted? .chunk with
    | some status => rfl
    | none =>
      dsimp only
      rcases accepted : s.acceptable id request with status | ⟨session, start, total⟩
      · unfold receive
        rw [accepted]
      · obtain ⟨cut, taken⟩ := h.cut kind unscripted accepted
        obtain ⟨cut', taken'⟩ := h'.cut kind unscripted accepted
        obtain ⟨_, _, came, _⟩ := h
        obtain ⟨_, _, came', _⟩ := h'
        rw [← taken'] at taken
        rw [← cut'] at cut
        unfold uncut at taken
        cases cutAt : s.cut? received' with
        | none =>
          rw [cut, cutAt, Option.elim_none, Option.elim_none] at taken
          rw [receive_whole accepted came.failure (cut.trans cutAt),
            receive_whole accepted came'.failure cutAt, taken]
        | some limit =>
          rw [cut, cutAt, Option.elim_some, Option.elim_some] at taken
          rw [receive_cut accepted came.failure (cut.trans cutAt),
            receive_cut accepted came'.failure cutAt, taken]

/-- How many answers and cuts are still arranged for. -/
def arranged (s : Server) : Nat := s.scripted.length + s.breaks.length

theorem arranged_takeScripted {exchange : Exchange} {status : Status}
    (told : s.scripted? exchange = some status) :
    (s.takeScripted exchange).arranged < s.arranged := by
  have member := Keyed.mem_of_lookup told
  have shorter : (s.takeScripted exchange).scripted.length = s.scripted.length - 1 :=
    List.length_eraseP_of_mem member (by simp)
  have some_ := List.length_pos_of_mem member
  have breaks : (s.takeScripted exchange).breaks = s.breaks := rfl
  unfold arranged
  rw [shorter, breaks]
  omega

theorem arranged_receive (files : Files.Store) {accepted : ServerSession × Nat × Nat}
    (accepts : s.acceptable id request = .ok accepted) :
    (s.receive id request received files).2.1.arranged =
      s.scripted.length + (s.breaks.length - 1) := by
  obtain ⟨session, start, total⟩ := accepted
  have taken (data : ByteArray) :
      (s.taken id request session start total data).2.arranged =
        s.scripted.length + (s.breaks.length - 1) := by
    unfold Server.taken extend
    dsimp only
    split
    · simp [arranged, note]
    · simp [arranged, note]
  cases whole : received.failure with
  | some cause =>
    unfold receive
    rw [accepts]
    dsimp only
    rw [whole]
    simp [arranged]
  | none =>
    cases cut : s.cut? received with
    | none =>
      rw [receive_whole accepts whole cut]
      exact taken _
    | some limit =>
      have unbroken (t : Server) : { t with onBreak := none }.arranged = t.arranged := rfl
      rw [receive_cut accepts whole cut]
      exact (unbroken _).trans (taken _)

theorem arranged_serve (s : Server) (request : Request) :
    (s.serve request).2.arranged = s.arranged := by
  unfold serve
  dsimp only
  split
  · rfl
  · split
    · rfl
    · split
      · rfl
      · rfl
  · rfl
  · rfl
  · rfl
  · rfl
  · rfl
  · rfl

theorem arranged_answer_le (s : Server) (request : Request) (received : Received)
    (files : Files.Store) : (s.answer request received files).2.1.arranged ≤ s.arranged := by
  unfold answer
  cases kind : kindOf request with
  | start =>
    dsimp only
    split
    · rename_i status told
      exact Nat.le_of_lt (arranged_takeScripted told)
    · rw [startSession_note, startSession_snd]
      exact Nat.le_refl _
  | query id =>
    dsimp only
    split
    · rename_i status told
      exact Nat.le_of_lt (arranged_takeScripted told)
    · exact Nat.le_refl _
  | chunk id =>
    dsimp only
    split
    · rename_i status told
      have noted : (s.note (some .chunk) request .empty).scripted? .chunk = some status := told
      exact Nat.le_of_lt (arranged_takeScripted noted)
    · rcases accepts : s.acceptable id request with status | accepted
      · unfold receive
        rw [accepts]
      · rw [arranged_receive files accepts]
        unfold arranged
        omega
  | unnamed => exact Nat.le_refl _
  | other =>
    exact Nat.le_of_eq (arranged_serve _ request)

theorem code_sessionState (s : Server) (id : String) :
    (s.sessionState id).status.code ∈ [200, 308, 400, 404] := by
  unfold sessionState
  split
  · decide
  · split
    · exact List.mem_cons_self
    · split
      · decide
      · exact List.mem_cons_of_mem _ List.mem_cons_self

theorem code_of_unacceptable {status : Status} (h : s.acceptable id request = .error status) :
    status.code ∈ [200, 308, 400, 404] := by
  unfold acceptable at h
  split at h
  · cases h
    decide
  · split at h
    · cases h
      decide
    · split at h
      · cases h
        decide
      · cases h

theorem answer_of_arranged (put : request.method = .put) (whole : received.failure = none)
    (files : Files.Store) (still : s.arranged ≤ (s.answer request received files).2.1.arranged) :
    ∃ r, (s.answer request received files).1 = .ok r ∧
      r.status.code ∈ [200, 308, 400, 404] := by
  have used {exchange : Exchange} {body : ByteArray} {status : Status}
      (told : (s.note (some exchange) request body).scripted? exchange = some status) :
      ((s.note (some exchange) request body).takeScripted exchange).arranged < s.arranged :=
    arranged_takeScripted told
  unfold answer at still ⊢
  cases kind : kindOf request with
  | start => exact absurd kind (kindOf_put_ne put).1
  | query id =>
    rw [kind] at still
    dsimp only at still ⊢
    split
    · rename_i status told
      rw [told] at still
      exact absurd (used told) (Nat.not_lt.2 still)
    · exact ⟨_, rfl, code_sessionState _ id⟩
  | chunk id =>
    rw [kind] at still
    dsimp only at still ⊢
    split
    · rename_i status told
      rw [told] at still
      exact absurd (used told) (Nat.not_lt.2 still)
    · rename_i unscripted
      rw [unscripted] at still
      dsimp only at still
      rcases accepts : s.acceptable id request with status | ⟨session, start, total⟩
      · unfold receive
        rw [accepts]
        exact ⟨_, rfl, code_of_unacceptable accepts⟩
      · rw [arranged_receive files accepts, arranged] at still
        have breaks : s.breaks = [] := List.eq_nil_of_length_eq_zero (by omega)
        have uncut : s.cut? received = none := by rw [cut?, breaks]; rfl
        rw [receive_whole accepts whole uncut]
        refine ⟨_, rfl, ?_⟩
        cases (s.taken id request session start total received.bytes).1 with
        | none => exact List.mem_cons_of_mem _ List.mem_cons_self
        | some eTag => exact List.mem_cons_self
  | unnamed => exact ⟨_, rfl, by decide⟩
  | other => exact absurd kind (kindOf_put_ne put).2

end ObjectTransfer.Rehearsal.Server
