import ObjectTransfer.Proofs.Download.Delivery
import ObjectTransfer.Proofs.Download.Keeping
import ObjectTransfer.Proofs.Progress
/-!
Progress reports of a download in parts. Parts come in any order, but they are put away one behind the
other and only then reported. So a download that succeeds makes the reports of a transfer whose buffers
are its parts, moved in order.
-/
namespace ObjectTransfer.Download
open Crew Files Progress

def Part.ends (total partSize k : Nat) : List Nat :=
  (List.range k).map fun i => boundary total partSize (i + 1)

theorem Part.ends_succ (total partSize k : Nat) :
    ends total partSize (k + 1) = ends total partSize k ++ [boundary total partSize (k + 1)] := by
  rw [ends, List.range_succ, List.map_append]
  rfl

theorem Part.ends_count (total partSize : Nat) :
    ends total partSize (count total partSize) = Tracker.ends partSize total := rfl

theorem Part.ends_eq_stops {total partSize : Nat} (hp : 0 < partSize) :
    Tracker.ends partSize total = (split total partSize).map fun part => part.stop + 1 := by
  rw [split, List.map_map]
  refine List.map_congr_left fun i mem => ?_
  exact (start_eq hp (List.mem_range.1 mem)).2.1.symm

def Assembly.through (a : Assembly) : Nat :=
  match a.appending with
  | some (part, _, _) => part.index
  | none => a.waiting.next

/-- What was reported since `base` are the buffers that end here, and the tracker is as it is behind
them. -/
structure Heard (t : Tracker) (base : Array Report) (ends : List Nat) (progress : Option Tracker)
    (reports : Array Report) : Prop where
  tracker : progress = some (t.onBuffers ends).1
  reports : reports = base ++ (t.onBuffers ends).2.toArray

structure Reported {σ : Type} (t : Tracker) (base : Array Report) (total partSize : Nat)
    (v : View (World σ) Part Fetch Staged Assembly) : Prop where
  collecting : ∀ a, v.outlook = .collecting a →
    Heard t base (Part.ends total partSize a.through) a.progress v.world.reports
  complete : ∀ a, v.outlook = .complete a →
    Heard t base (Part.ends total partSize (Part.count total partSize)) a.progress v.world.reports

variable {σ : Type} {p : Plan} {source : RangeSource σ} {P : σ → Prop} {content : ByteArray}
  {destination : String} {directory : Path} {t t' : Tracker} {base reports : Array Report}
  {ends : List Nat} {a a' : Assembly} {w w' : World (Fetches σ)} {total target : Nat}
  {held held' : List (Holding Part Fetch Staged)} {o : Outlook Assembly} {store : Store}

theorem Heard.more (heard : Heard t base ends (some t') reports) (done : Nat) :
    Heard t base (ends ++ [done]) (some (t'.onBuffer done).1)
      (reports ++ (t'.onBuffer done).2.toList.toArray) := by
  obtain ⟨tracker, rfl⟩ := heard
  obtain rfl := Option.some.inj tracker
  refine ⟨?_, ?_⟩
  · rw [Tracker.onBuffers_append, Tracker.onBuffers_singleton]
  · rw [Tracker.onBuffers_append, Tracker.onBuffers_singleton, ← List.append_toArray,
      ← Array.append_assoc]

theorem Reported.unheard {w' : World (Fetches σ)}
    (reported : Reported t base total p.partSize ⟨held, o, w⟩) (same : w'.reports = w.reports) :
    Reported t base total p.partSize ⟨held', o, w'⟩ where
  collecting a ha := same ▸ reported.collecting a ha
  complete a ha := same ▸ reported.complete a ha

theorem Reported.lost (e : Error) : Reported t base total p.partSize ⟨held, .lost e, w⟩ :=
  ⟨fun _ h => (by cases h), fun _ h => (by cases h)⟩

theorem Reported.puts_away {indices : List Nat} {shown : ByteArray} (hp : 0 < p.partSize)
    (fits : a.Fits content p.partSize target store indices shown)
    (file : a.file w = some (.ok a', w'))
    (heard : Heard t base (Part.ends content.size p.partSize a.through) a.progress w.reports) :
    Heard t base (Part.ends content.size p.partSize a'.through) a'.progress w'.reports := by
  obtain ⟨destination, written, ⟨next, held⟩, appending, progress⟩ := a
  obtain ⟨-, -, -, staged, -, -, appends⟩ := fits
  dsimp only at staged appends
  cases Assembly.goes_of_file file with
  | copies appending n files =>
    obtain rfl := appending
    exact heard
  | opens idle held =>
    obtain rfl := idle
    have index := (staged _ (held ▸ List.mem_cons_self)).1
    have same : Part.ends content.size p.partSize next = _ := congrArg _ index.symm
    exact same ▸ heard
  | completes appending =>
    obtain rfl := appending
    cases appends with
    | busy valid size copied_le opened =>
      rename_i part id copied
      have ends := Part.size_eq hp valid
      rw [← size] at ends
      have heard : Heard t base (Part.ends content.size p.partSize part.index) progress w.reports := heard
      cases progress with
      | none => cases heard.tracker
      | some t' =>
        have more := heard.more (Part.boundary content.size p.partSize (part.index + 1))
        rw [← Part.ends_succ, ← ends] at more
        exact more

theorem Reported.change (hp : 0 < p.partSize)
    {v v' : View (World (Fetches σ)) Part Fetch Staged Assembly}
    (change : Change (craft p source.observed directory) Assembly.desk
      (Part.split content.size p.partSize) v v')
    (course : Course p P content store target v)
    (reported : Reported t base content.size p.partSize v) :
    Reported t base content.size p.partSize v' := by
  have worked {f : Fetch} {result : Except Error Staged ⊕ Fetch} {w w' : World (Fetches σ)}
      (proceed : f.proceed source.observed directory w = (result, w')) : w'.reports = w.reports := by
    have same : (f.proceed source.observed directory w).2.reports = w.reports :=
      (steady_reports source.observed w.reports).proceed f rfl
    rwa [proceed] at same
  cases change with
  | rests => exact reported
  | arrives prepare =>
    cases prepare
    exact reported
  | stumbles prepare => cases prepare
  | takes tool part held o w => exact reported.unheard rfl
  | proceeds proceed => exact reported.unheard (worked proceed)
  | finishes proceed => exact reported.unheard (worked proceed)
  | abandons part f held e w => exact .lost e
  | drops parcel held e w => exact .lost e
  | accepts part made held idle =>
    refine ⟨fun a ha => ?_, fun a ha => (by cases ha)⟩
    cases ha
    have heard := reported.collecting _ rfl
    exact heard
  | hears part e held idle => exact .lost e
  | files held file =>
    obtain ⟨shown, expects, st⟩ := course.outlook
    refine ⟨fun a ha => ?_, fun a ha => (by cases ha)⟩
    cases ha
    cases expects with
    | collecting got fits => exact Reported.puts_away hp fits file (reported.collecting _ rfl)
  | misfiles held file => exact (course.never_misfiles hp file).elim
  | closes idle rest =>
    obtain rfl := course.rest_eq_nil rest
    rw [List.append_nil] at course
    obtain ⟨-, appending, next, -⟩ := course.assembled hp idle
    refine ⟨fun a ha => (by cases ha), fun a ha => ?_⟩
    cases ha
    have heard := reported.collecting _ rfl
    rw [Assembly.through, appending] at heard
    exact next ▸ heard

theorem Ready.reported {id : Nat} {past : List (Event Part)} {crew : Team (Fetches σ)}
    (ready : Ready p source P content id w)
    (reached : Crew.State.Reaches (craft p source.observed directory) Assembly.desk
      (p.staff content.size id (some t) w) past crew) :
    Reported t w.reports content.size p.partSize crew.view := by
  have both := reached.holds
    (J := fun v => Course p P content w.files id v ∧ Reported t w.reports content.size p.partSize v)
    ready.staff_pos (fun perm both => ⟨both.1.listed perm, both.2.unheard rfl⟩)
    ⟨.start ready.peer ready.unasked ready.target_lt ready.empty (some t), ?_⟩
    (fun change both => ⟨.change ready.partSize_pos ready.serves change both.1,
      .change ready.partSize_pos change both.1 both.2⟩)
  · exact both.2
  · refine ⟨fun a ha => ?_, fun a ha => (by cases ha)⟩
    cases ha
    exact ⟨rfl, (Array.append_empty).symm⟩

/-- What is known at a moment of a download of which someone wants to hear. -/
inductive Tracks {σ : Type} (p : Plan) (r : Reporter) (source : RangeSource σ) (P : σ → Prop)
    (content : ByteArray) (w : World σ) : Moment (Fetches σ) → Prop
  | begun : Tracks p r source P content w (.begun (watched w))
  | fetching {object : ObjectMeta} {directory : Path} {crew : Team (Fetches σ)} {id : Nat}
      {v : World (Fetches σ)} {past : List (Event Part)} (size : object.size = content.size)
      (ready : Ready p source P content id v)
      (started : v.reports = w.reports ++ #[(0, content.size)])
      (reached : Crew.State.Reaches (craft p source.observed directory) Assembly.desk
        (p.staff content.size id (some (r.tracker content.size p.partSize)) v) past crew) :
      Tracks p r source P content w (.fetching object directory crew)
  | failed (e : Error) (w' : World (Fetches σ)) : Tracks p r source P content w (.ended (.error e) w')
  | done {out : DownloadOutput} {w' : World (Fetches σ)} (size : out.size = content.size)
      (reports : w'.reports =
        w.reports ++ ((r.tracker content.size p.partSize).run p.partSize).2.toArray) :
      Tracks p r source P content w (.ended (.ok out) w')

section
variable {r : Reporter} {w : World σ} {m n : Moment (Fetches σ)}

theorem Given.tracks (g : Given p source P content w) (wanted : p.progress = some r) :
    Tracks p r source P content w (p.opened source.observed destination (watched w)) := by
  obtain ⟨peer, files⟩ := g.serves.inspect w.peer w.files g.peer
  have opens := p.opens source.observed destination (watched w)
  generalize p.opened source.observed destination (watched w) = m at opens ⊢
  have asks {object : ObjectMeta} {v : World (Fetches σ)}
      (asked : source.observed.objectMeta (watched w) = (.ok object, v)) :
      object.size = content.size ∧ P v.peer.peer ∧ v.peer.log = [] ∧ v.files = w.files ∧
        v.reports = w.reports := by
    obtain rfl : _ = v := congrArg Prod.snd asked
    exact ⟨g.serves.size g.peer (congrArg Prod.fst asked), peer, rfl, files, rfl⟩
  cases opens with
  | refused asked => exact .failed _ _
  | denied reports asked denied => exact .failed _ _
  | nothing asked tracked created empty =>
    obtain ⟨size, -, -, -, reports⟩ := asks asked
    refine .done (empty.symm.trans size) ?_
    rw [Tracker.run_tracker, tracked, wanted, ← size, empty, Part.ends_eq_stops g.partSize_pos,
      Part.split_zero g.partSize_pos]
    exact congrArg (· ++ #[(0, 0)] ++ #[(0, 0)]) reports
  | fetches directory asked tracked created filled =>
    rename_i object v id files started
    obtain ⟨size, peer, unasked, same, reports⟩ := asks asked
    rw [same] at created
    obtain ⟨parent, name, opened⟩ := Store.opened_of_create g.sound created
    obtain rfl : started = some (r.tracker content.size p.partSize, (0, content.size)) := by
      rw [tracked, wanted, size]
      rfl
    rw [size]
    -- the parts are fetched from the world in which the start was reported and the destination made
    have ready : Ready p source P content id ((v.report [(0, content.size)]).withFiles files) :=
      ⟨g.serves, g.partSize_pos, g.workers_pos, by omega, peer, unasked, opened.id_lt, opened.empty⟩
    have started : ((v.report [(0, content.size)]).withFiles files).reports =
        w.reports ++ #[(0, content.size)] := congrArg (· ++ #[(0, content.size)]) reports
    exact .fetching size ready started .start

theorem Tracks.next (tracks : Tracks p r source P content w m)
    (next : Moment.Next p source.observed destination m n) (g : Given p source P content w)
    (wanted : p.progress = some r) : Tracks p r source P content w n := by
  cases tracks with
  | begun =>
    cases next with
    | opens => exact g.tracks wanted
  | fetching size ready started reached =>
    rename_i object directory crew id v past
    cases next with
    | moves step => exact .fetching size ready started (.step reached step)
    | closes returned =>
      rename_i result
      cases result with
      | error e => exact .failed _ _
      | ok a =>
        have heard := (ready.reported reached).complete a
          (by rw [Crew.State.view, returned]; rfl)
        obtain ⟨tracker, reports⟩ := heard
        have reports : crew.world.reports = _ := reports
        have last : (a.progress.map fun t => t.finish object.size).toList =
            [(content.size, content.size)] := by
          rw [tracker, size]
          exact congrArg (fun total => [(content.size, total)]) (Tracker.onBuffers_fst _ _).1
        refine .done size ?_
        change crew.world.reports ++ _ = _
        rw [last, reports, started, Tracker.run_tracker]
        simp [Part.ends_count]
  | failed e w' => cases next
  | done size reports => cases next

theorem Given.tracks_path (g : Given p source P content w) (wanted : p.progress = some r)
    (path : Relation.ReflTransGen (Moment.Next p source.observed destination) (.begun (watched w)) m) :
    Tracks p r source P content w m := by
  induction path with
  | refl => exact .begun
  | tail before next ih => exact ih.next next g wanted

/-- What is reported of a download of `total` bytes that succeeds: all of it, from the start to the end,
and every part in order when every buffer is asked for. -/
def Plan.Tells (p : Plan) (r : Reporter) (total : Nat) (before after : Array Report) : Prop :=
  ∃ new, after = before ++ new.toArray ∧ Whole total new ∧ (r.count < 0 →
    new = (0, total) :: ((Part.split total p.partSize).map fun part => (part.stop + 1, total)) ++
      [(total, total)])

/-- In whatever order the parts come, the reports are those of the parts in order. -/
theorem Given.tells (g : Given p source P content w) (wanted : p.progress = some r)
    {out : DownloadOutput} {w' : World σ}
    (path : Relation.ReflTransGen (Moment.Next p source destination) (.begun w) (.ended (.ok out) w')) :
    out.size = content.size ∧ p.Tells r content.size w.reports w'.reports := by
  have begun : (Moment.begun (watched w)).unwatched = .begun w := rfl
  obtain ⟨m, same, path⟩ := Moment.path_watched (begun ▸ path)
  have tracks := g.tracks_path wanted path
  cases tracks with
  | begun => cases same
  | fetching size ready started reached => cases same
  | failed e v => cases same
  | done size reports =>
    cases same
    refine ⟨size, _, reports, whole_run .., fun neg => ?_⟩
    rw [run_of_neg neg, Part.ends_eq_stops g.partSize_pos, List.map_map]
    rfl

end

end ObjectTransfer.Download
