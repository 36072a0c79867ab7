import Mathlib.Tactic.Common
import ObjectTransfer.Proofs.Observed
/-!
What a connection keeps. A property of the peer and the files that each step of the connection keeps
is kept by whole requests, with and without a body, whatever source the body is read from.
-/
namespace ObjectTransfer

theorem SourceBody.next_keeps {τ : Type} {Q : τ → Prop}
    {read : Nat → τ → Except Files.Fault ByteArray × τ} (hread : ∀ n s, Q s → Q (read n s).2)
    (b : SourceBody) {s : τ} (hs : Q s) : Q (b.next read s).reader := by
  unfold next
  split
  · exact hs
  · dsimp only
    split
    · exact hs
    · split
      · rename_i h1
        have h := hread b.start.1.want s hs
        rwa [h1] at h
      · rename_i s1 h1
        have hs1 : Q s1 := by
          have h := hread b.start.1.want s hs
          rwa [h1] at h
        split
        · exact hs1
        · split
          · exact hs1
          · split
            · rename_i h2
              have h := hread 1 s1 hs1
              rwa [h2] at h
            · rename_i s2 h2
              have hs2 : Q s2 := by
                have h := hread 1 s1 hs1
                rwa [h2] at h
              split
              · exact hs2
              · exact hs2

namespace Connection
variable {σ : Type} {c : Connection σ} {P : σ → Files.Store → Prop}

structure Keeps (c : Connection σ) (P : σ → Files.Store → Prop) : Prop where
  arrive : ∀ request p f, P p f → P (c.arrive request p f).1 (c.arrive request p f).2
  answer : ∀ request received p f, P p f →
    P (c.answer request received p f).2.1 (c.answer request received p f).2.2
  elapse : ∀ p f, P p f → P (c.elapse p f).1 (c.elapse p f).2

namespace Keeps

theorem wait (k : c.Keeps P) {w : World σ} (h : P w.peer w.files) :
    P (c.wait w).peer (c.wait w).files := k.elapse _ _ h

theorem exchange (k : c.Keeps P) (request : Http.Request) {w : World σ} (h : P w.peer w.files) :
    P (c.exchange request w).2.peer (c.exchange request w).2.files :=
  k.answer request .nothing _ _ (k.arrive request _ _ h)

theorem readSource (k : c.Keeps P) (count : Nat) (s : Reader × World σ)
    (h : P s.2.peer s.2.files) :
    P (c.readSource count s).2.2.peer (c.readSource count s).2.2.files := k.elapse _ _ h

theorem drain (k : c.Keeps P) (request : Http.Request) (fuel : Nat) (received : Received)
    (body : SourceBody) {s : Reader × World σ} (h : P s.2.peer s.2.files) :
    P (c.drain request fuel received body s).2.2.2.peer
      (c.drain request fuel received body s).2.2.2.files := by
  induction fuel generalizing received body s with
  | zero => exact h
  | succ fuel ih =>
    have hnext := body.next_keeps (Q := fun s : Reader × World σ => P s.2.peer s.2.files) k.readSource h
    unfold Connection.drain
    split
    · dsimp only
      split
      · exact hnext
      · exact hnext
      · exact ih _ _ hnext
    · exact h

theorem send (k : c.Keeps P) (request : Http.Request) (body : SourceBody) (reader : Reader)
    {w : World σ} (h : P w.peer w.files) :
    P (c.send request body reader w).2.2.peer (c.send request body reader w).2.2.files := by
  have hd := k.drain request (body.remaining + 1) .nothing body
    (s := (reader, { w with
      peer := (c.arrive request w.peer w.files).1
      files := (c.arrive request w.peer w.files).2 })) (k.arrive request _ _ h)
  exact k.answer request _ _ _ hd

theorem observed (k : c.Keeps P) : c.observed.Keeps fun o f => P o.peer f where
  arrive request o f h := k.arrive request o.peer f h
  answer request received o f h := k.answer request received o.peer f h
  elapse o f h := k.elapse o.peer f h

end Keeps

theorem keeps_seen (c : Connection σ) (seen : List (Exchanged σ)) :
    c.observed.Keeps fun o _ => seen <+: o.seen where
  arrive _ _ _ h := h
  answer _ _ _ _ h := List.prefix_append_of_prefix h
  elapse _ _ h := h

end Connection

theorem SourceBody.next_silent {τ : Type} (read : Nat → τ → Except Files.Fault ByteArray × τ)
    {b : SourceBody} (s : τ) (silent : b.progress = none) :
    (b.next read s).reports = [] ∧ (b.next read s).body.progress = none := by
  have started : b.start.2 = [] ∧ b.start.1.progress = none := by
    unfold start
    split
    · exact ⟨rfl, silent⟩
    · rw [silent]
      exact ⟨rfl, rfl⟩
  have advanced (n : Nat) : (b.start.1.advance n).2 = [] ∧
      (b.start.1.advance n).1.progress = none := by
    unfold advance
    dsimp only
    rw [started.2]
    exact ⟨rfl, rfl⟩
  have both (n : Nat) : b.start.2 ++ (b.start.1.advance n).2 = [] := by
    rw [started.1, (advanced n).1, List.append_nil]
  unfold next
  split
  · exact ⟨rfl, silent⟩
  · dsimp only
    split
    · exact started
    · split
      · exact started
      · split
        · exact started
        · split
          · exact ⟨both _, (advanced _).2⟩
          · split
            · exact started
            · split
              · exact ⟨both _, (advanced _).2⟩
              · exact started

theorem Connection.reports_drain {σ : Type} (c : Connection σ) (request : Http.Request) (fuel : Nat)
    (received : Received) {body : SourceBody} (s : Reader × World σ)
    (silent : body.progress = none) :
    (c.drain request fuel received body s).2.2.2.reports = s.2.reports := by
  have reads (n : Nat) (t : Reader × World σ) (same : t.2.reports = s.2.reports) :
      (c.readSource n t).2.2.reports = s.2.reports := same
  induction fuel generalizing received body s with
  | zero => rfl
  | succ fuel ih =>
    obtain ⟨none, silent'⟩ := body.next_silent c.readSource s silent
    have kept : (body.next c.readSource s).reader.2.reports = s.2.reports :=
      body.next_keeps reads rfl
    have reported : ((body.next c.readSource s).reader.2.report
        (body.next c.readSource s).reports).reports = s.2.reports := by
      rw [none, World.report, kept]
      exact Array.append_empty
    unfold drain
    split
    · dsimp only
      split
      · exact reported
      · exact reported
      · exact (ih _ _ silent' fun _ _ same => same).trans reported
    · rfl

theorem Connection.reports_send {σ : Type} (c : Connection σ) (request : Http.Request)
    {body : SourceBody} (reader : Reader) (w : World σ) (silent : body.progress = none) :
    (c.send request body reader w).2.2.reports = w.reports :=
  c.reports_drain request (body.remaining + 1) .nothing (reader, { w with
    peer := (c.arrive request w.peer w.files).1
    files := (c.arrive request w.peer w.files).2 }) silent

end ObjectTransfer
