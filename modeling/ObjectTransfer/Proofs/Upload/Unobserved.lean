import ObjectTransfer.Proofs.Unobserved
import ObjectTransfer.Proofs.Upload.Through
/-!
Uploads that are observed. Whatever was proved of the calls to a connection under observation is true
of the calls to the connection itself: a call returns the same, leaves the same session and the same
files behind, and needs as many attempts.
-/
namespace ObjectTransfer.Upload
variable {σ : Type}

namespace Job

@[simps]
def bare (u : Job (Observed σ)) (c : Connection σ) : Job σ :=
  ⟨c, u.tracker, u.stalePolicy, u.buffer, u.key, u.source, u.headers, u.progress, u.total, u.md5⟩

end Job

@[simps]
def State.bare (s : State (Observed σ)) : State σ := ⟨s.session, s.world.bare⟩

namespace Job
variable {c : Connection σ} {u : Job (Observed σ)}

theorem alike_bare (hc : u.connection = c.observed) :
    u.Alike c u.buffer u.progress Observed.peer id where
  wait w := by
    rw [hc]
    exact c.wait_bare w
  exchange request w := by
    rw [hc]
    exact c.exchange_bare request w
  send uri offset reader w _ _ answer body v sent := by
    rw [hc] at sent
    have same := c.send_bare (dataRequest uri offset u.total) (.ofRange offset (u.total - offset)
      u.buffer (u.progress.map fun p => p.tracker u.total u.buffer)) reader w
    rw [sent] at same
    exact ⟨body, same, rfl, fun _ => rfl⟩

theorem resumable_bare (hc : u.connection = c.observed) :
    u.resumable.Through (u.bare c).resumable State.bare := resumable_through (alike_bare hc)

end Job

namespace Handler

theorem inspect_bare (c : Connection σ) (source : InputSource) (w : World (Observed σ)) :
    inspect c source w.bare =
      ((inspect c.observed source w).1, (inspect c.observed source w).2.bare) := by
  have waits (v : World (Observed σ)) : c.wait (v.through Observed.peer id) =
    (c.observed.wait v).through Observed.peer id := c.wait_bare v
  exact inspect_through waits source w

theorem send_bare (h : Handler) (c : Connection σ) (buffer limit : Nat) (task : Task)
    (w : World (Observed σ)) : h.send c buffer limit task w.bare =
      (h.send c.observed buffer limit task w).map fun r => (r.1, r.2.1, r.2.2.bare) := by
  have hi : inspect c task.source { w.bare with metrics := w.bare.metrics.initiate } = _ :=
    inspect_bare c task.source { w with metrics := w.metrics.initiate }
  simp only [send, transfer, hi]
  rcases inspect c.observed task.source { w with metrics := w.metrics.initiate } with ⟨answer, v⟩
  cases answer with
  | error e => rfl
  | ok found =>
    have through : (h.job c.observed buffer task found.1 found.2).resumable.Through
        (h.job c buffer task found.1 found.2).resumable State.bare := Job.resumable_bare rfl
    have hr : (h.job c buffer task found.1 found.2).resumable.run h.retries limit
        ⟨h.loadTracker w.files, v.bare⟩ = _ :=
      through.run h.retries limit ⟨h.loadTracker w.files, v⟩
    rw [job, job] at hr
    simp only [World.bare_files, hr, Option.map_map]
    rfl

theorem Returns.bare {h h' : Handler} {c : Connection σ} {buffer : Nat} {task : Task}
    {w v : World (Observed σ)} {result : Except Error Output}
    (hr : h.Returns c.observed buffer task w result h' v) :
    h.Returns c buffer task w.bare result h' v.bare := by
  obtain ⟨enough, hr⟩ := hr
  refine ⟨enough, fun limit hl => ?_⟩
  rw [send_bare, hr limit hl]
  rfl

end Handler

end ObjectTransfer.Upload
