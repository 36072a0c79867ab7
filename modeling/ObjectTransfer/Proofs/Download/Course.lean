import ObjectTransfer.Proofs.Download.Assembly
/-!
The course of a download in parts. Whoever moves next, every part stands as its tries say, the staging
files are those of the parts that are not put away yet, and the destination holds whole parts from the
beginning of the object on and perhaps the first bytes of the next one.
-/
namespace ObjectTransfer.Download
open Crew Files

/-- The content is some of the parts from the first one on, and perhaps the beginning of one more. -/
def Partly (content : ByteArray) (partSize : Nat) (shown : ByteArray) : Prop :=
  ∃ k copied, shown = content.extract 0 (Part.boundary content.size partSize k + copied) ∧
    (copied = 0 ∨ k < Part.count content.size partSize ∧
      copied ≤ (Part.ofIndex content.size partSize k).size)

def receivedOf (held : List (Holding Part Fetch Staged)) : List Part :=
  held.filterMap fun
    | .received part => some part
    | _ => none

/-- The staging files in the hands of the coordinator. -/
def outlookFiles (content : ByteArray) (partSize : Nat) : Outlook Assembly → List (Path × ByteArray)
  | .collecting a => a.files content partSize
  | _ => []

/-- What the coordinator expects fits the parts it has received and what the destination holds. -/
inductive Expects (p : Plan) (content : ByteArray) (target : Nat) (log : List Fetched) (files : Store)
    (received : List Part) : Outlook Assembly → ByteArray → Prop
  | collecting {a : Assembly} {shown : ByteArray} (got : ∀ part ∈ received, p.Got part log)
      (fits : a.Fits content p.partSize target files (received.map Part.index) shown) :
      Expects p content target log files received (.collecting a) shown
  | complete (a : Assembly) (got : ∀ part ∈ received, p.Got part log) :
      Expects p content target log files received (.complete a) content
  | lost {part : Part} {e : Error} {shown : ByteArray} (heard : part ∈ received)
      (gaveUp : p.GaveUp part log e) (partly : Partly content p.partSize shown) :
      Expects p content target log files received
        (.lost (.around (.chunkFailed (.download part.index)) e)) shown

structure Course {σ : Type} (p : Plan) (P : σ → Prop) (content : ByteArray) (base : Store)
    (target : Nat) (v : View (World (Fetches σ)) Part Fetch Staged Assembly) : Prop where
  distinct : (v.holdings.filterMap Holding.part?).Nodup
  known : ∀ part ∈ v.holdings.filterMap Holding.part?, part ∈ Part.split content.size p.partSize
  peer : P v.world.peer.peer
  asked : ∀ f ∈ v.world.peer.log, ∃ part ∈ Part.split content.size p.partSize, f.range = part.range
  fits : ∀ h ∈ v.holdings, p.Fits content v.world.peer.log v.world.files h
  closed : ∀ a, v.outlook = .complete a → ∀ h ∈ v.holdings, ∃ part, h = .received part
  outlook : ∃ shown, Expects p content target v.world.peer.log v.world.files
      (receivedOf v.holdings) v.outlook shown ∧
    Store.Staging base target shown (v.holdings.flatMap (filesOf content p.partSize) ++
      outlookFiles content p.partSize v.outlook) v.world.files

variable {σ : Type} {p : Plan} {source : RangeSource σ} {directory : Path} {P : σ → Prop}
  {content shown : ByteArray} {base : Store} {target : Nat} {part : Part} {log log' : List Fetched}
  {files files' : Store} {h h' : Holding Part Fetch Staged}
  {held : List (Holding Part Fetch Staged)}
  {o : Outlook Assembly} {w w' : World (Fetches σ)}

theorem Plan.Got.later (got : p.Got part log) (same : part.outcomes log' = part.outcomes log) :
    p.Got part log' := by rwa [Plan.Got, same]

theorem Plan.GaveUp.later {e : Error} (gaveUp : p.GaveUp part log e)
    (same : part.outcomes log' = part.outcomes log) : p.GaveUp part log' e := by
  rwa [Plan.GaveUp, same]

/-- A part still stands as its tries say after something happened to another one. -/
theorem Plan.Fits.later (fits : p.Fits content log files h)
    (same : ∀ part, h.part? = some part → part.outcomes log' = part.outcomes log)
    (names : ∀ {q id}, q ∈ (filesOf content p.partSize h).map (·.1) →
      files.entries.lookup q = some (.file id) → files'.entries.lookup q = some (.file id)) :
    p.Fits content log' files' h := by
  cases fits with
  | queued untried => exact .queued ((same _ rfl).trans untried)
  | asking accepts tried => exact .asking accepts (by rwa [same _ rfl])
  | answered accepts opened given right outcomes tried =>
    exact .answered accepts (names List.mem_cons_self opened) given right
      ((same _ rfl).trans outcomes) tried
  | got index size got => exact .got index size (got.later (same _ rfl))
  | gaveUp gaveUp => exact .gaveUp (gaveUp.later (same _ rfl))
  | received part => exact .received part

theorem Assembly.Fits.later {a : Assembly} {indices : List Nat}
    (fits : a.Fits content p.partSize target files indices shown)
    (names : ∀ {q id}, q ∈ (a.files content p.partSize).map (·.1) →
      files.entries.lookup q = some (.file id) → files'.entries.lookup q = some (.file id)) :
    a.Fits content p.partSize target files' indices shown := by
  obtain ⟨destination, written, ⟨next, held⟩, appending, progress⟩ := a
  obtain ⟨rfl, sorted, ahead, staged, accounted, valid, appends⟩ := fits
  refine ⟨rfl, sorted, ahead, staged, accounted, valid, ?_⟩
  dsimp only at appends ⊢
  cases appends with
  | idle => exact .idle _
  | busy valid size copied_le opened =>
    exact .busy valid size copied_le (names List.mem_cons_self opened)

theorem Assembly.Fits.partly {a : Assembly} {indices : List Nat}
    (fits : a.Fits content p.partSize target files indices shown) :
    Partly content p.partSize shown := by
  obtain ⟨destination, written, ⟨next, held⟩, appending, progress⟩ := a
  obtain ⟨rfl, sorted, ahead, staged, accounted, valid, appends⟩ := fits
  dsimp only at appends
  cases appends with
  | idle => exact ⟨next, 0, rfl, .inl rfl⟩
  | busy valid size copied_le opened => exact ⟨_, _, rfl, .inr ⟨valid, size ▸ copied_le⟩⟩

theorem Expects.partly (hp : 0 < p.partSize) {received : List Part}
    (expects : Expects p content target log files received o shown) :
    Partly content p.partSize shown := by
  cases expects with
  | collecting got fits => exact fits.partly
  | complete a got =>
    refine ⟨Part.count content.size p.partSize, 0, ?_, .inl rfl⟩
    rw [Nat.add_zero, Part.boundary_count hp, ByteArray.extract_zero_size]
  | lost heard gaveUp partly => exact partly

theorem Expects.later {received : List Part}
    (expects : Expects p content target log files received o shown)
    (same : ∀ part ∈ received, part.outcomes log' = part.outcomes log)
    (names : ∀ {q id}, q ∈ (outlookFiles content p.partSize o).map (·.1) →
      files.entries.lookup q = some (.file id) → files'.entries.lookup q = some (.file id)) :
    Expects p content target log' files' received o shown := by
  cases expects with
  | collecting got fits =>
    exact .collecting (fun part h => (got part h).later (same part h)) (fits.later names)
  | complete a got => exact .complete a fun part h => (got part h).later (same part h)
  | lost heard gaveUp partly => exact .lost heard (gaveUp.later (same _ heard)) partly

theorem mem_receivedOf {held : List (Holding Part Fetch Staged)} :
    part ∈ receivedOf held ↔ .received part ∈ held := by
  unfold receivedOf
  rw [List.mem_filterMap]
  constructor
  · rintro ⟨h, hh, hpart⟩
    cases h with
    | received part' =>
      cases hpart
      exact hh
    | queued part' => cases hpart
    | working part' f => cases hpart
    | packed parcel => cases hpart
  · intro h
    exact ⟨_, h, rfl⟩

theorem receivedOf_cons {held : List (Holding Part Fetch Staged)}
    (unreceived : ∀ part, h ≠ .received part) : receivedOf (h :: held) = receivedOf held := by
  cases h with
  | received part => exact absurd rfl (unreceived part)
  | queued part => rfl
  | working part f => rfl
  | packed parcel => rfl

theorem receivedOf_queued (parts : List Part) : receivedOf (parts.map .queued) = [] := by
  rw [receivedOf, List.filterMap_map]
  exact List.filterMap_eq_nil_iff.2 fun _ _ => rfl

theorem mem_names {partSize : Nat} {q : Path} (hh : h ∈ held)
    (hq : q ∈ (filesOf content partSize h).map (·.1)) :
    q ∈ (held.flatMap (filesOf content partSize)).map (·.1) := by
  obtain ⟨x, hx, rfl⟩ := List.mem_map.1 hq
  exact List.mem_map_of_mem (List.mem_flatMap.2 ⟨h, hh, hx⟩)

namespace Course

/-- Something happens to a part that the coordinator has not received, and to nothing else. -/
theorem replaced (hp : 0 < p.partSize) (new : List (Holding Part Fetch Staged))
    (course : Course p P content base target ⟨h :: held, o, w⟩) (hpart : h.part? = some part)
    (unreceived : ∀ part, h ≠ .received part) (parts : (new.filterMap Holding.part?).Sublist [part])
    (moved : Onward P part (held.flatMap (filesOf content p.partSize) ++
      outlookFiles content p.partSize o) w w')
    (fits : ∀ h' ∈ new, p.Fits content w'.peer.log w'.files h' ∧ ∀ part, h' ≠ .received part)
    (staged : ∀ shown,
      Store.Staging base target shown (filesOf content p.partSize h ++
        (held.flatMap (filesOf content p.partSize) ++ outlookFiles content p.partSize o)) w.files →
      Store.Staging base target shown (new.flatMap (filesOf content p.partSize) ++
        (held.flatMap (filesOf content p.partSize) ++ outlookFiles content p.partSize o)) w'.files) :
    Course p P content base target ⟨new ++ held, o, w'⟩ := by
  obtain ⟨more, hlog, hmore⟩ := moved.log
  have distinct := course.distinct
  have known := course.known
  rw [List.filterMap_cons_some hpart] at distinct known
  have here := known part List.mem_cons_self
  have sub : ((new ++ held).filterMap Holding.part?).Sublist
      (part :: held.filterMap Holding.part?) := by
    rw [List.filterMap_append]
    exact parts.append_right _
  have same {h' : Holding Part Fetch Staged} (hh : h' ∈ held) (other : Part)
      (hother : h'.part? = some other) :
      other.outcomes w'.peer.log = other.outcomes w.peer.log := by
    have hmem : other ∈ held.filterMap Holding.part? := List.mem_filterMap.2 ⟨h', hh, hother⟩
    rw [hlog]
    -- another part has another range, so what was noted now was not asked for it
    refine Part.outcomes_append_of_ne fun f hf hrange => ?_
    rw [hmore f hf] at hrange
    have hsame := Part.range_injOn hp here (known other (.tail _ hmem)) hrange
    exact (List.nodup_cons.1 distinct).1 (hsame ▸ hmem)
  have noneNew : receivedOf (new ++ held) = receivedOf held := by
    clear sub parts staged
    induction new with
    | nil => rfl
    | cons h' new ih =>
      rw [List.cons_append, receivedOf_cons (fits h' List.mem_cons_self).2]
      exact ih fun h'' hh => fits h'' (.tail _ hh)
  obtain ⟨shown, expects, st⟩ := course.outlook
  rw [receivedOf_cons unreceived] at expects
  rw [List.flatMap_cons, List.append_assoc] at st
  exact
    { distinct := distinct.sublist sub
      known := fun part' h' => known part' (sub.subset h')
      peer := moved.peer
      asked := by
        intro f hf
        rw [hlog, List.mem_append] at hf
        rcases hf with hf | hf
        · exact course.asked f hf
        · exact ⟨part, here, hmore f hf⟩
      fits := by
        intro h' hh
        rcases List.mem_append.1 hh with hh | hh
        · exact (fits h' hh).1
        · refine (course.fits h' (.tail _ hh)).later (same hh) fun hq => moved.names ?_
          rw [List.map_append]
          exact List.mem_append_left _ (mem_names hh hq)
      closed := by
        intro a ho
        obtain ⟨part', hpart'⟩ := course.closed a ho h List.mem_cons_self
        exact absurd hpart' (unreceived part')
      outlook := by
        refine ⟨shown, ?_, ?_⟩
        · rw [noneNew]
          refine expects.later (fun other hother => same (mem_receivedOf.1 hother) other rfl)
            fun hq => moved.names ?_
          rw [List.map_append]
          exact List.mem_append_right _ hq
        · rw [List.flatMap_append, List.append_assoc]
          exact staged shown st }

theorem tried_first (p : Plan) : p.Tried [] p.policy.left := by
  refine ⟨fun o ho => (by cases ho), ?_⟩
  simp only [Plan.policy, ChunkRetry.tries, List.length_nil]
  omega

theorem takes (hp : 0 < p.partSize)
    (course : Course p P content base target ⟨.queued part :: held, o, w⟩) :
    Course p P content base target ⟨.working part ⟨part, p.policy, none⟩ :: held, o, w⟩ := by
  have untried : part.outcomes w.peer.log = [] := by
    cases course.fits _ List.mem_cons_self with
    | queued untried => exact untried
  refine course.replaced hp [_] rfl (fun _ h => (by cases h)) (.refl _)
    ⟨course.peer, ⟨[], (List.append_nil _).symm, fun f hf => (by cases hf)⟩, fun _ h => h⟩
    (fun h' hh => ?_) fun shown st => st
  obtain rfl := List.mem_singleton.1 hh
  exact ⟨.asking rfl (untried ▸ tried_first p), fun _ h => (by cases h)⟩

theorem proceeds (hp : 0 < p.partSize) (serves : source.Serves P content) {f : Fetch}
    {result : Except Error Staged ⊕ Fetch}
    (proceed : f.proceed source.observed directory w = (result, w'))
    (course : Course p P content base target ⟨.working part f :: held, o, w⟩) :
    Course p P content base target ⟨standing p source directory part result :: held, o, w'⟩ := by
  have known := course.known part (List.mem_filterMap.2 ⟨_, List.mem_cons_self, rfl⟩)
  have fits := course.fits _ List.mem_cons_self
  have step (shown : ByteArray) (st : Store.Staging base target shown (f.file ++
      (held.flatMap (filesOf content p.partSize) ++ outlookFiles content p.partSize o)) w.files) :=
    Fetch.proceed_fits serves directory known course.peer fits st
  rw [proceed] at step
  have unreceived (other : Part) : standing p source directory part result ≠ .received other := by
    cases result with
    | inl made => exact fun h => (by cases h)
    | inr f' => exact fun h => (by cases h)
  have hpart : (standing p source directory part result).part? = some part := by
    cases result with
    | inl made => rfl
    | inr f' => rfl
  obtain ⟨shown, -, st⟩ := course.outlook
  rw [List.flatMap_cons, List.append_assoc] at st
  refine course.replaced hp [standing p source directory part result] rfl
    (fun _ h => (by cases h)) ?_ (step shown st).1 (fun h' hh => ?_) fun shown st => ?_
  · rw [List.filterMap_cons_some hpart]
    exact .refl _
  · obtain rfl := List.mem_singleton.1 hh
    exact ⟨(step shown st).2.1, unreceived⟩
  · rw [List.flatMap_singleton]
    exact (step shown st).2.2

theorem dropped (hp : 0 < p.partSize)
    (course : Course p P content base target ⟨h :: held, o, w⟩) (hpart : h.part? = some part)
    (unreceived : ∀ part, h ≠ .received part) (peer : w'.peer = w.peer)
    (deleted : filesOf content p.partSize h = [] ∧ w'.files = w.files ∨
      ∃ x, filesOf content p.partSize h = [x] ∧ w'.files = w.files.forget x.1) :
    Course p P content base target ⟨held, o, w'⟩ := by
  have staged (shown : ByteArray) (others : List (Path × ByteArray))
      (st : Store.Staging base target shown (filesOf content p.partSize h ++ others) w.files) :
      Store.Staging base target shown others w'.files ∧ ∀ {q}, q ∈ others.map (·.1) →
        w'.files.entries.lookup q = w.files.entries.lookup q := by
    rcases deleted with ⟨none, same⟩ | ⟨x, file, gone⟩
    · rw [same]
      rw [none] at st
      exact ⟨st, fun _ => rfl⟩
    · rw [gone]
      rw [file] at st
      exact ⟨st.forget.1, st.forget_names⟩
  obtain ⟨shown, -, st⟩ := course.outlook
  rw [List.flatMap_cons, List.append_assoc] at st
  refine course.replaced hp [] hpart unreceived (List.nil_sublist _) ⟨?_, ⟨[], ?_, ?_⟩, ?_⟩
    (fun h' hh => (by cases hh)) fun shown st => (staged shown _ st).1
  · rw [peer]
    exact course.peer
  · rw [peer, List.append_nil]
  · exact fun f hf => (by cases hf)
  · exact fun hq h => ((staged shown _ st).2 hq).trans h

theorem new_index (part : Part) (course : Course p P content base target ⟨h :: held, o, w⟩)
    (hpart : h.part? = some part) : part.index ∉ (receivedOf held).map Part.index := by
  have distinct := course.distinct
  have known := course.known
  rw [List.filterMap_cons_some hpart] at distinct known
  intro again
  obtain ⟨other, hother, same⟩ := List.mem_map.1 again
  have hmem : other ∈ held.filterMap Holding.part? :=
    List.mem_filterMap.2 ⟨_, mem_receivedOf.1 hother, rfl⟩
  have hsame : other = part := by
    rw [(Part.mem_split (known part List.mem_cons_self)).1,
      (Part.mem_split (known other (.tail _ hmem))).1, same]
  exact (List.nodup_cons.1 distinct).1 (hsame ▸ hmem)

theorem accepts {made : Staged} {part : Option Part} {a : Assembly}
    (course : Course p P content base target ⟨.packed ⟨part, .ok made⟩ :: held, .collecting a, w⟩) :
    Course p P content base target
      ⟨part.toList.map .received ++ held, .collecting (Assembly.desk.accept made a w).1, w⟩ := by
  cases course.fits _ List.mem_cons_self with
  | got index size got =>
    rename_i part
    obtain ⟨shown, expects, st⟩ := course.outlook
    have known := course.known part (List.mem_filterMap.2 ⟨_, List.mem_cons_self, rfl⟩)
    obtain ⟨hpart, valid⟩ := Part.mem_split known
    rw [receivedOf_cons fun _ h => (by cases h)] at expects
    cases expects with
    | collecting gots fits =>
      have new := course.new_index part rfl
      have fits' := fits.accept (s := made) (w := w) (index ▸ new) (index ▸ valid)
        (by rw [size, index, ← hpart])
      rw [index] at fits'
      exact
        { distinct := course.distinct
          known := course.known
          peer := course.peer
          asked := course.asked
          fits := by
            intro h hh
            rcases List.mem_cons.1 hh with rfl | hh
            · exact .received part
            · exact course.fits h (.tail _ hh)
          closed := fun _ h => (by cases h)
          outlook := by
            refine ⟨shown, .collecting (fun other hother => ?_) fits', st.perm ?_⟩
            · rcases List.mem_cons.1 hother with rfl | hother
              · exact got
              · exact gots other hother
            · have perm := (Assembly.files_accept content p.partSize a made w).append_left
                (held.flatMap (filesOf content p.partSize))
              exact (List.perm_middle.symm.trans perm.symm) }

theorem hears {part : Option Part} {e : Error} {a : Assembly}
    (course : Course p P content base target ⟨.packed ⟨part, .error e⟩ :: held, .collecting a, w⟩) :
    Course p P content base target ⟨part.toList.map .received ++ held, .lost e, a.drop w⟩ := by
  cases course.fits _ List.mem_cons_self with
  | gaveUp gaveUp =>
    obtain ⟨shown, expects, st⟩ := course.outlook
    rw [receivedOf_cons fun _ h => (by cases h)] at expects
    cases expects with
    | collecting gots fits =>
      have st : Store.Staging base target shown (held.flatMap (filesOf content p.partSize) ++
          a.files content p.partSize) w.files := st
      obtain ⟨st', names⟩ := a.drop_staged (st.perm List.perm_append_comm)
      exact
        { distinct := course.distinct
          known := course.known
          peer := course.peer
          asked := course.asked
          fits := by
            intro h hh
            rcases List.mem_cons.1 hh with rfl | hh
            · exact .received _
            · exact (course.fits h (.tail _ hh)).later (fun _ _ => rfl) fun hq =>
                (names (mem_names hh hq)).trans
          closed := fun _ h => (by cases h)
          outlook := by
            refine ⟨shown, .lost List.mem_cons_self gaveUp fits.partly, ?_⟩
            change Store.Staging base target shown (held.flatMap (filesOf content p.partSize) ++ []) _
            rw [List.append_nil]
            exact st' }

theorem puts_away (hp : 0 < p.partSize) {a a' : Assembly} (file : a.file w = some (.ok a', w'))
    (course : Course p P content base target ⟨held, .collecting a, w⟩) :
    Course p P content base target ⟨held, .collecting a', w'⟩ := by
  obtain ⟨shown, expects, st⟩ := course.outlook
  cases expects with
  | collecting gots fits =>
    rcases Assembly.file_cases hp fits (st.perm List.perm_append_comm) with
      ⟨none, -⟩ | ⟨a'', w'', file', filed⟩
    · rw [none] at file
      cases file
    · rw [file'] at file
      cases file
      obtain ⟨shown', fits', st'⟩ := filed.fits
      exact
        { distinct := course.distinct
          known := course.known
          peer := filed.peer ▸ course.peer
          asked := filed.peer ▸ course.asked
          fits := by
            intro h hh
            exact (course.fits h hh).later (fun _ _ => by rw [filed.peer]) fun hq =>
              filed.names (mem_names hh hq)
          closed := fun _ h => (by cases h)
          outlook :=
            ⟨shown', .collecting (fun part h => (gots part h).later (by rw [filed.peer])) fits',
              st'.perm List.perm_append_comm⟩ }

theorem never_misfiles (hp : 0 < p.partSize) {a : Assembly} {e : Error}
    (file : a.file w = some (.error e, w'))
    (course : Course p P content base target ⟨held, .collecting a, w⟩) : False := by
  obtain ⟨shown, expects, st⟩ := course.outlook
  cases expects with
  | collecting gots fits =>
    rcases Assembly.file_cases hp fits (st.perm List.perm_append_comm) with
      ⟨none, -⟩ | ⟨a'', w'', file', filed⟩
    · rw [none] at file
      cases file
    · rw [file'] at file
      cases file

theorem receivedOf_map (parts : List Part) :
    receivedOf (parts.map .received) = parts := by
  induction parts with
  | nil => rfl
  | cons part parts ih => exact congrArg (part :: ·) ih

theorem rest_eq_nil {parts : List Part} (rest : ∀ h ∈ held, ∃ result, h = .packed ⟨none, result⟩)
    (course : Course p P content base target ⟨parts.map .received ++ held, o, w⟩) : held = [] := by
  cases held with
  | nil => rfl
  | cons h held =>
    obtain ⟨result, rfl⟩ := rest h List.mem_cons_self
    cases course.fits _ (List.mem_append_right _ List.mem_cons_self)

/-- When every part was received and there is nothing to put away, all of them are through. -/
theorem assembled (hp : 0 < p.partSize) {a : Assembly} (idle : a.file w = none)
    (course : Course p P content base target
      ⟨(Part.split content.size p.partSize).map .received, .collecting a, w⟩) :
    (∀ part ∈ Part.split content.size p.partSize, p.Got part w.peer.log) ∧
      a.appending = none ∧ a.waiting.next = Part.count content.size p.partSize ∧
      Store.Staging base target content (((Part.split content.size p.partSize).map
        .received).flatMap (filesOf content p.partSize)) w.files := by
  obtain ⟨shown, expects, st⟩ := course.outlook
  dsimp only at expects st
  rw [receivedOf_map] at expects
  cases expects with
  | collecting gots fits =>
    rcases Assembly.file_cases hp fits (st.perm List.perm_append_comm) with
      ⟨-, appending, waits⟩ | ⟨a'', w'', file', filed⟩
    · have all : (Part.split content.size p.partSize).map Part.index =
          List.range (Part.count content.size p.partSize) := by
        rw [Part.split, List.map_map]
        exact List.map_id _
      obtain ⟨heldNone, next, rfl⟩ := fits.complete hp (all ▸ .refl _) appending waits
      change Store.Staging base target shown (_ ++ a.files shown p.partSize) _ at st
      rw [Assembly.files, heldNone, List.map_nil, List.append_nil] at st
      exact ⟨gots, appending, next, st⟩
    · rw [file'] at idle
      cases idle

theorem closes (hp : 0 < p.partSize) {a : Assembly} (idle : a.file w = none)
    (rest : ∀ h ∈ held, ∃ result, h = .packed ⟨none, result⟩)
    (course : Course p P content base target
      ⟨(Part.split content.size p.partSize).map .received ++ held, .collecting a, w⟩) :
    Course p P content base target
      ⟨(Part.split content.size p.partSize).map .received ++ held, .complete a, w⟩ := by
  obtain rfl := course.rest_eq_nil rest
  rw [List.append_nil] at course ⊢
  obtain ⟨gots, -, -, st⟩ := course.assembled hp idle
  exact
    { distinct := course.distinct
      known := course.known
      peer := course.peer
      asked := course.asked
      fits := course.fits
      closed := by
        intro a' _ h hh
        obtain ⟨part, -, rfl⟩ := List.mem_map.1 hh
        exact ⟨part, rfl⟩
      outlook := by
        refine ⟨content, ?_, ?_⟩
        · rw [receivedOf_map]
          exact .complete a gots
        · change Store.Staging base target content (_ ++ []) _
          rw [List.append_nil]
          exact st }

theorem change (hp : 0 < p.partSize) (serves : source.Serves P content)
    {v v' : View (World (Fetches σ)) Part Fetch Staged Assembly}
    (change : Change (craft p source.observed directory) Assembly.desk
      (Part.split content.size p.partSize) v v')
    (course : Course p P content base target v) : Course p P content base target v' := by
  cases change with
  | rests => exact course
  | arrives prepare =>
    cases prepare
    exact course
  | stumbles prepare => cases prepare
  | takes tool part held o w => exact course.takes hp
  | proceeds proceed => exact course.proceeds hp serves proceed
  | finishes proceed => exact course.proceeds hp serves proceed
  | abandons part f held e w =>
    cases course.fits _ List.mem_cons_self with
    | asking accepts tried =>
      exact course.dropped hp rfl (fun _ h => (by cases h)) rfl (.inl ⟨rfl, rfl⟩)
    | answered accepts opened given right outcomes tried =>
      exact course.dropped hp rfl (fun _ h => (by cases h)) rfl (.inr ⟨_, rfl, rfl⟩)
  | drops parcel held e w =>
    cases course.fits _ List.mem_cons_self with
    | got index size got =>
      exact course.dropped hp rfl (fun _ h => (by cases h)) rfl (.inr ⟨_, rfl, rfl⟩)
    | gaveUp gaveUp =>
      exact course.dropped hp rfl (fun _ h => (by cases h)) rfl (.inl ⟨rfl, rfl⟩)
  | accepts part made held idle => exact course.accepts
  | hears part e held idle => exact course.hears
  | files held file => exact course.puts_away hp file
  | misfiles held file => exact (course.never_misfiles hp file).elim
  | closes idle rest => exact course.closes hp idle rest

end Course

end ObjectTransfer.Download
