import ObjectTransfer.Proofs.Retry
import ObjectTransfer.Proofs.Source
import ObjectTransfer.Proofs.Upload.Kept
import ObjectTransfer.Upload.Handler
/-!
Calls of a handler: the job a call is given, the states in which its attempts begin, and how it
returns. A call returns when some number of attempts is enough for it.
-/
namespace ObjectTransfer.Upload.Handler
variable {σ : Type}

def job (h : Handler) (c : Connection σ) (buffer : Nat) (task : Task) (total : Nat) (md5 : String) :
    Job σ :=
  ⟨c, h.tracker, h.stalePolicy, buffer, task.key, task.source, task.headers, task.progress, total,
    md5⟩

def Inspects (c : Connection σ) (task : Task) (w : World σ)
    (result : Except Error (Nat × String)) (v : World σ) : Prop :=
  inspect c task.source { w with metrics := w.metrics.initiate } = (result, v)

/-- The first attempt of a call has this job and begins in this state. -/
inductive Opens (h : Handler) (c : Connection σ) (buffer : Nat) (task : Task) (w : World σ) :
    Job σ → State σ → Prop
  | intro {total : Nat} {md5 : String} {v : World σ}
      (inspected : Inspects c task w (.ok (total, md5)) v) :
      Opens h c buffer task w (h.job c buffer task total md5) ⟨h.loadTracker w.files, v⟩

inductive Begins (h : Handler) (c : Connection σ) (buffer : Nat) (task : Task) (w : World σ) :
    Job σ → State σ → Prop
  | intro {u : Job σ} {s t : State σ} {made idle : Nat} (opened : Opens h c buffer task w u s)
      (reached : u.resumable.Reaches h.retries s made idle t) : Begins h c buffer task w u t

/-- However many attempts a call is allowed, from some number on, this is what it returns. -/
def Returns (h : Handler) (c : Connection σ) (buffer : Nat) (task : Task) (w : World σ)
    (result : Except Error Output) (h' : Handler) (w' : World σ) : Prop :=
  ∃ enough, ∀ limit, enough ≤ limit → h.send c buffer limit task w = some (result, h', w')

theorem send_mono {h h' : Handler} {c : Connection σ} {buffer limit limit' : Nat} {task : Task}
    {w w' : World σ} {result : Except Error Output}
    (hs : h.send c buffer limit task w = some (result, h', w')) (hl : limit ≤ limit') :
    h.send c buffer limit' task w = some (result, h', w') := by
  rcases hi : inspect c task.source { w with metrics := w.metrics.initiate } with ⟨answer, v⟩
  cases answer with
  | error e => simpa only [send, transfer, hi] using hs
  | ok found =>
    obtain ⟨total, md5⟩ := found
    simp only [send, transfer, hi] at hs ⊢
    rw [Option.map_map, Option.map_eq_some_iff] at hs ⊢
    obtain ⟨outcome, hrun, hout⟩ := hs
    exact ⟨outcome, Resumable.run_mono hrun hl, hout⟩

theorem returns_of_send {h h' : Handler} {c : Connection σ} {buffer limit : Nat} {task : Task}
    {w w' : World σ} {result : Except Error Output}
    (hs : h.send c buffer limit task w = some (result, h', w')) :
    h.Returns c buffer task w result h' w' := ⟨limit, fun _ hl => send_mono hs hl⟩

theorem exists_returns {h : Handler} {c : Connection σ} {buffer : Nat} {task : Task} {w : World σ}
    (hrun : ∀ u s, h.Opens c buffer task w u s →
      ∃ limit, (u.resumable.run h.retries limit s).isSome) :
    ∃ result h' w', h.Returns c buffer task w result h' w' := by
  have hsome : ∃ limit, (h.send c buffer limit task w).isSome := by
    rcases hi : inspect c task.source { w with metrics := w.metrics.initiate } with ⟨answer, v⟩
    cases answer with
    | error e =>
      refine ⟨0, ?_⟩
      simp only [send, transfer, hi, Option.map_some, Option.isSome_some]
    | ok found =>
      obtain ⟨total, md5⟩ := found
      obtain ⟨limit, hrun⟩ := hrun _ _ (.intro hi)
      refine ⟨limit, ?_⟩
      rw [job] at hrun
      simp only [send, transfer, hi, Option.isSome_map, hrun]
  obtain ⟨limit, hsome⟩ := hsome
  obtain ⟨⟨result, h', w'⟩, hs⟩ := Option.isSome_iff_exists.1 hsome
  exact ⟨result, h', w', returns_of_send hs⟩

section
variable {h : Handler} {c : Connection σ} {buffer : Nat} {task : Task} {w : World σ} {u : Job σ}
  {s : State σ}

theorem send_of_unopened (unopened : ∀ u s, ¬ h.Opens c buffer task w u s) (limit : Nat) :
    (h.send c buffer limit task w).isSome := by
  rcases inspected : inspect c task.source { w with metrics := w.metrics.initiate } with ⟨result, v⟩
  cases result with
  | error e => simp only [send, transfer, inspected, Option.map_some, Option.isSome_some]
  | ok found => exact absurd (.intro inspected) (unopened _ _)

theorem Opens.connection (opens : h.Opens c buffer task w u s) : u.connection = c := by
  cases opens
  rfl

theorem Opens.tracker (opens : h.Opens c buffer task w u s) : u.tracker = h.tracker := by
  cases opens
  rfl

theorem Opens.isSome_send (opens : h.Opens c buffer task w u s) (limit : Nat) :
    (h.send c buffer limit task w).isSome = (u.resumable.run h.retries limit s).isSome := by
  cases opens with
  | intro inspected =>
    unfold Inspects at inspected
    simp only [send, transfer, inspected, Option.isSome_map]
    rfl

/-- It returns what its attempts come to, and leaves what the last of them leaves. -/
theorem Opens.returns (opens : h.Opens c buffer task w u s) {made : Nat}
    {o : Outcome (State σ) Output}
    (run : ∀ limit, made < limit → u.resumable.run h.retries limit s = some o) :
    ∃ w', h.Returns c buffer task w o.result { h with session := o.state.session } w' ∧
      w'.peer = o.state.world.peer ∧ w'.files = o.state.world.files := by
  cases opens with
  | intro inspected =>
    unfold Inspects at inspected
    have run := run (made + 1) (Nat.lt_succ_self made)
    unfold job at run
    obtain ⟨w', sent, peer, files⟩ : ∃ w', h.send c buffer (made + 1) task w =
        some (o.result, { h with session := o.state.session }, w') ∧
        w'.peer = o.state.world.peer ∧ w'.files = o.state.world.files := by
      simp only [send, transfer, inspected, run, Option.map_some]
      exact ⟨_, rfl, rfl, rfl⟩
    exact ⟨w', returns_of_send sent, peer, files⟩

end

theorem Returns.unique {h h₁ h₂ : Handler} {c : Connection σ} {buffer : Nat} {task : Task}
    {w w₁ w₂ : World σ} {result₁ result₂ : Except Error Output}
    (hr₁ : h.Returns c buffer task w result₁ h₁ w₁) (hr₂ : h.Returns c buffer task w result₂ h₂ w₂) :
    result₁ = result₂ ∧ h₁ = h₂ ∧ w₁ = w₂ := by
  obtain ⟨n₁, e₁⟩ := hr₁
  obtain ⟨n₂, e₂⟩ := hr₂
  have he := (e₁ (max n₁ n₂) (Nat.le_max_left _ _)).symm.trans
    (e₂ (max n₁ n₂) (Nat.le_max_right _ _))
  simpa only [Option.some.injEq, Prod.mk.injEq] using he

/-- A call that returned had a source that could not be looked at, or ended with an attempt. -/
inductive Ended (h : Handler) (c : Connection σ) (buffer : Nat) (task : Task) (w : World σ) :
    Except Error Output → Session → σ → Files.Store → Prop
  | uninspected {e : Error} {v : World σ} (inspected : Inspects c task w (.error e) v) :
      Ended h c buffer task w (.error e) (h.loadTracker w.files) v.peer v.files
  | attempted {u : Job σ} {s t : State σ} {number : Nat} {result : Except Error Output}
      (begun : h.Begins c buffer task w u s) (ends : u.resumable.Ends number s result t) :
      Ended h c buffer task w result t.session t.world.peer t.world.files

theorem Returns.ended {h h' : Handler} {c : Connection σ} {buffer : Nat} {task : Task}
    {w w' : World σ} {result : Except Error Output}
    (hr : h.Returns c buffer task w result h' w') :
    h' = { h with session := h'.session } ∧
      h.Ended c buffer task w result h'.session w'.peer w'.files := by
  obtain ⟨enough, henough⟩ := hr
  have hs := henough enough (Nat.le_refl _)
  rcases hi : inspect c task.source { w with metrics := w.metrics.initiate } with ⟨answer, v⟩
  cases answer with
  | error e =>
    simp only [send, transfer, hi, Option.map_some, Option.some.injEq, Prod.mk.injEq] at hs
    obtain ⟨rfl, rfl, rfl⟩ := hs
    have he : h.Ended c buffer task w (.error e) (h.loadTracker w.files) v.peer v.files :=
      .uninspected hi
    exact ⟨rfl, he⟩
  | ok found =>
    obtain ⟨total, md5⟩ := found
    simp only [send, transfer, hi] at hs
    rw [Option.map_map, Option.map_eq_some_iff] at hs
    obtain ⟨outcome, hrun, hout⟩ := hs
    simp only [Function.comp_apply, Prod.mk.injEq] at hout
    obtain ⟨rfl, rfl, rfl⟩ := hout
    obtain ⟨made, idle, t, hreach, -, hends⟩ := Resumable.run_eq_some hrun
    have he : h.Ended c buffer task w outcome.result outcome.state.session
        outcome.state.world.peer outcome.state.world.files :=
      .attempted (.intro (.intro hi) hreach) hends
    exact ⟨rfl, he⟩

/-- The handler and the world after some calls of one handler that all failed, each with a task and
a buffer of its own. -/
inductive Fails (h : Handler) (c : Connection σ) (w : World σ) : Handler → World σ → Prop
  | start : Fails h c w h w
  | again {h' h'' : Handler} {v v' : World σ} {buffer : Nat} {task : Task} {e : Error}
      (before : Fails h c w h' v) (returned : h'.Returns c buffer task v (.error e) h'' v') :
      Fails h c w h'' v'

theorem Begins.invariant {h : Handler} {c : Connection σ} {buffer : Nat} {task : Task}
    {w : World σ} {I : Job σ → State σ → Prop} {u : Job σ} {s : State σ}
    (hopen : ∀ u s, h.Opens c buffer task w u s → I u s)
    (hstep : ∀ u s t e, I u s → u.attempt s = (.error e, t) → e.isRetryable → I u t)
    (hb : h.Begins c buffer task w u s) : I u s := by
  obtain ⟨hopened, hreach⟩ := hb
  exact hreach.invariant (hopen _ _ hopened) fun hi ha he => hstep _ _ _ _ hi ha he

theorem Inspects.keeps {c : Connection σ} {task : Task} {w v : World σ}
    {result : Except Error (Nat × String)} {P : σ → Files.Store → Prop}
    (hw : ∀ w, Job.In P w → Job.In P (c.wait w)) (hi : Inspects c task w result v)
    (h : Job.In P w) : Job.In P v := by
  have h1 : Job.In P (c.wait { w with metrics := w.metrics.initiate }) := hw _ h
  unfold Inspects inspect at hi
  dsimp only at hi
  split at hi
  · cases hi
    exact h1
  · cases hi
    exact hw _ h1

theorem inspects_steady {c : Connection σ} {task : Task} {w v : World σ} {data : ByteArray}
    {I : Files.Store → Prop} {P : σ → Files.Store → Prop} {result : Except Error (Nat × String)}
    (steady : task.source.Steady data I) (hw : ∀ w, Job.In P w → Job.In P (c.wait w))
    (hP : ∀ p f, P p f → I f) (hi : Inspects c task w result v) (h : Job.In P w) :
    result = .ok (data.size, Digest.md5Hex data) ∧ Job.In P v := by
  have h1 : Job.In P (c.wait { w with metrics := w.metrics.initiate }) := hw _ h
  have h2 := hw _ h1
  unfold Inspects inspect at hi
  simp only [steady.size _ (hP _ _ h1), InputSource.md5, steady.whole _ (hP _ _ h2)] at hi
  cases hi
  exact ⟨rfl, h2⟩

theorem inspects_bytes (c : Connection σ) (key : ObjectKey) (data : ByteArray)
    (headers : Http.Headers) (progress : Option Progress.Reporter) (w : World σ) :
    Inspects c ⟨key, .bytes data, headers, progress⟩ w (.ok (data.size, Digest.md5Hex data))
      (c.wait (c.wait { w with metrics := w.metrics.initiate })) := rfl

theorem Inspects.disposition {c : Connection σ} {task : Task} {w v : World σ} {e : Error}
    (hi : Inspects c task w (.error e) v) : e.disposition = some .waitBeforeRetry := by
  unfold Inspects inspect at hi
  dsimp only at hi
  split at hi
  · rename_i hsize
    cases hi
    exact task.source.disposition_of_size hsize
  · rw [Prod.mk.injEq] at hi
    obtain ⟨hmd5, -⟩ := hi
    cases hm : task.source.md5 (c.wait (c.wait { w with metrics := w.metrics.initiate })).files with
    | ok md5 =>
      rw [hm] at hmd5
      cases hmd5
    | error e' =>
      rw [hm] at hmd5
      cases hmd5
      exact task.source.disposition_of_md5 hm

end ObjectTransfer.Upload.Handler
