import ObjectTransfer.Proofs.Connection
import ObjectTransfer.Proofs.Upload.Course
/-!
What the attempts of an upload keep. A property of the peer and the files that each single exchange
of an upload keeps is kept on every course an attempt can take.
-/
namespace ObjectTransfer.Upload.Job
variable {σ : Type} {u : Job σ} {P : σ → Files.Store → Prop}

def In (P : σ → Files.Store → Prop) (w : World σ) : Prop := P w.peer w.files

theorem in_wait {c : Connection σ} (k : c.Keeps P) (w : World σ) (h : In P w) : In P (c.wait w) :=
  k.wait h

/-- Each exchange but the deletion of an object keeps this, and so does work on the tracker file. -/
structure Keeps (u : Job σ) (P : σ → Files.Store → Prop) : Prop where
  wait : ∀ w, In P w → In P (u.connection.wait w)
  start : ∀ w request, startRequest u.key u.headers = .ok request → In P w →
    In P (u.connection.exchange request w).2
  query : ∀ w uri, In P w → In P (u.connection.exchange (queryRequest uri u.total) w).2
  send : ∀ w uri s reader, u.source.readerAt w.files (u.offset s) = .ok reader → In P w →
    In P (u.connection.send (dataRequest uri (u.offset s) u.total) (u.rest s) reader w).2.2
  save : ∀ t token p f g, u.tracker = some t → t.save token f = .ok g → P p f → P p g
  remove : ∀ t p f, u.tracker = some t → P p f → P p (t.remove f)

def KeptByDelete (u : Job σ) (P : σ → Files.Store → Prop) : Prop :=
  ∀ w request, deleteRequest u.key = .ok request → In P w →
    In P (u.connection.exchange request w).2

namespace Keeps

theorem starts (k : u.Keeps P) {s t : State σ} {result : Except Error Unit}
    (h : u.Starts s result t) (hs : In P s.world) : In P t.world := by
  have after {request : Http.Request} {answer : Except Error Http.Response} {w : World σ}
      (made : startRequest u.key u.headers = .ok request)
      (asked : u.connection.exchange request s.world = (answer, w)) : In P w := by
    have hk := k.start s.world request made hs
    rwa [asked] at hk
  cases h with
  | unmade made => exact hs
  | failed made asked => exact after made asked
  | refused made asked answered => exact after made asked
  | untracked made asked answered tracker => exact after made asked
  | saved made asked answered tracker save =>
    exact k.save _ _ _ _ _ tracker save (after made asked)
  | unsaved made asked answered tracker save => exact after made asked

theorem queried (k : u.Keeps P) {uri : SessionUri} {w v : World σ}
    {answer : Except Error SessionState} (h : u.query uri w = (answer, v)) (hw : In P w) :
    In P v := by
  have hk := k.query w uri hw
  rwa [← query_world, h] at hk

theorem resumes (k : u.Keeps P) {s t : State σ} {result : Except Error (Option String)}
    (h : u.Resumes s result t) (hs : In P s.world) : In P t.world := by
  cases h with
  | began held started => exact k.starts started hs
  | restarted held asked stale started => exact k.starts started (k.queried asked hs)
  | incomplete held asked => exact k.queried asked hs
  | complete held asked => exact k.queried asked hs
  | untagged held asked => exact k.queried asked hs
  | refused held asked auth => exact k.queried asked hs
  | failed held asked disposition => exact k.queried asked hs

theorem afterFailure (k : u.Keeps P) (uri : SessionUri) (e : Error) {s : State σ}
    (hs : In P s.world) : In P (u.afterFailure uri e s).2.world := by
  rw [afterFailure_world]
  exact k.query _ uri hs

theorem sends (k : u.Keeps P) {uri : SessionUri} {s t : State σ} {result : Except Error String}
    (h : u.Sends uri s result t) (hs : In P s.world) : In P t.world := by
  have hw := k.wait s.world hs
  have after {reader : Reader} {answer : Except Error Http.Response} {body : SourceBody}
      {v : World σ}
      (opened : u.source.readerAt (u.connection.wait s.world).files (u.offset s) = .ok reader)
      (put : u.connection.send (dataRequest uri (u.offset s) u.total) (u.rest s) reader
        (u.connection.wait s.world) = (answer, body, v)) : In P v := by
    have hk := k.send _ uri s reader opened hw
    rwa [put] at hk
  cases h with
  | unopened opened => exact hw
  | changed opened put changed => exact after opened put
  | stored opened put same answered => exact after opened put
  | failed opened put same answered => exact k.afterFailure uri _ (after opened put)

theorem cleared (k : u.Keeps P) {s : State σ} (hs : In P s.world) : In P (u.cleared s).world := by
  unfold Job.cleared State.removeTracker
  split
  · exact hs
  · rename_i t ht
    exact k.remove t _ _ ht hs

theorem finishes (k : u.Keeps P) (hd : u.KeptByDelete P) {eTag : String} {s t : State σ}
    {result : Except Error Output} (h : u.Finishes eTag s result t) (hs : In P s.world) :
    In P t.world := by
  cases h with
  | verified same => exact k.cleared hs
  | undeleted differs made => exact k.cleared hs
  | deleted differs made => exact hd _ _ made (k.cleared hs)

theorem goes (k : u.Keeps P) (hd : u.KeptByDelete P) {s t : State σ} {result : Except Error Output}
    (h : u.Goes s result t) (hs : In P s.world) : In P t.world := by
  have hb : In P (u.begun s).world := k.wait _ hs
  cases h with
  | unreadable size => exact hb
  | resized size differs => exact hb
  | unresumed size resumed => exact k.resumes resumed hb
  | complete size resumed finished =>
    have hr := k.resumes resumed hb
    exact k.finishes hd finished hr
  | unsent size resumed held sent =>
    have hr := k.resumes resumed hb
    exact k.sends sent hr
  | sent size resumed held sent finished =>
    have hr := k.resumes resumed hb
    exact k.finishes hd finished (k.sends sent hr)

theorem discard (k : u.Keeps P) {s : State σ} (hs : In P s.world) : In P (u.discard s).world := by
  unfold Job.discard State.removeTracker
  split
  · exact hs
  · rename_i t ht
    exact k.remove t _ _ ht hs

theorem ofConnection {Q : σ → Prop} (k : u.connection.Keeps fun p _ => Q p) :
    u.Keeps (fun p _ => Q p) ∧ u.KeptByDelete (fun p _ => Q p) where
  left :=
    { wait := fun _ h => k.wait h
      start := fun _ request _ h => k.exchange request h
      query := fun _ _ h => k.exchange _ h
      send := fun _ _ _ reader _ h => k.send _ _ reader h
      save := fun _ _ _ _ _ _ _ h => h
      remove := fun _ _ _ _ h => h }
  right := fun _ request _ h => k.exchange request h

end Keeps

end ObjectTransfer.Upload.Job
