import Mathlib.Data.List.Basic
import ObjectTransfer.Proofs.S3.Calls
/-!
Listings that come in pages. What is listed are the entries of all pages, one page behind the other, and
each page but the first is asked for with the marker of the page before it. The first page that does not
lead to another one ends the listing: it is the last one, or it lacks something.
-/
namespace ObjectTransfer.S3

def UploadedPart.entry (p : UploadedPart) : Option Int × Option String := (some p.number, some p.eTag)

/-- Every listed part has its number and its tag. -/
def Page.Whole (p : Page) : Prop := ∀ entry ∈ p.parts, entry.1.isSome ∧ entry.2.isSome

structure Page.Continues (p : Page) : Prop where
  whole : p.Whole
  truncated : p.truncated = true
  marked : p.next.isSome

/-- What a listing comes to at a page from which it does not go on, behind the entries listed before. -/
inductive Page.Ends (p : Page) (before : List (Option Int × Option String)) :
    Except Error (List UploadedPart) → Prop
  | unfinished (flawed : ¬ p.Whole) : Ends p before (.error (.incomplete "a listed part number or ETag"))
  | unmarked (whole : p.Whole) (truncated : p.truncated = true) (none : p.next = none) :
      Ends p before (.error (.incomplete "the next part number marker"))
  | last {parts : List UploadedPart} (last : p.truncated = false)
      (all : before ++ p.parts = parts.map (·.entry)) : Ends p before (.ok parts)

variable {σ : Type}

/-- The service answers with these pages, one after the other, when each is asked for with the marker of
the page before it. -/
inductive Answers (s : S3 σ) (u : Upload) : Option String → List Page → σ → σ → Prop
  | nil {marker : Option String} {peer : σ} : Answers s u marker [] peer peer
  | cons {marker : Option String} {p : Page} {pages : List Page} {peer peer' after : σ}
      (answer : s.call (.listParts u marker) peer = (.ok p, peer'))
      (rest : Answers s u p.next pages peer' after) : Answers s u marker (p :: pages) peer after

def above (number? : Option Int) (parts : List UploadedPart) : List UploadedPart :=
  parts.filter fun p => number?.all (· < p.number)

/-- A service that, while its state is `held`, stocks these parts and answers each request with at most `m`
of those above the marker, and with a marker of the last one when there are more. -/
structure Stocks (s : S3 σ) (u : Upload) (held : σ → Prop) (parts : List UploadedPart) (m : Nat)
    (mark : Int → String) : Prop where
  ascending : parts.Pairwise fun a b => a.number < b.number
  answers : ∀ peer, held peer → ∀ number? : Option Int,
    (∀ number, number? = some number → ∃ p ∈ parts, p.number = number) →
    ∃ k next peer', 1 ≤ k ∧ k ≤ m ∧ held peer' ∧
      s.call (.listParts u (number?.map mark)) peer = (.ok ⟨((above number? parts).take k).map (·.entry),
        k < (above number? parts).length, next⟩, peer') ∧
      (k < (above number? parts).length →
        next = ((above number? parts).take k).getLast?.map (mark ·.number))

/-- One request for each page: the first with `marker`, each other one with the marker of the page before. -/
def requests (u : Upload) (marker : Option String) (pages : List Page) : List Called :=
  List.zipWith (fun marker page => ⟨.listParts u marker, .ok page⟩) (marker :: pages.map (·.next)) pages

variable {s : S3 σ} {u : Upload} {p last : Page} {pages earlier : List Page} {marker : Option String}
  {parts listed : List UploadedPart} {e : Error} {w : World (Calls σ)} {peer : σ} {limit : Nat}

theorem length_requests : (requests u marker pages).length = pages.length := by
  rw [requests, List.length_zipWith, List.length_cons, List.length_map]
  omega

theorem Page.whole_of_entries (h : p.parts = parts.map (·.entry)) : p.Whole := by
  intro entry listed
  rw [h, List.mem_map] at listed
  obtain ⟨part, -, rfl⟩ := listed
  exact ⟨rfl, rfl⟩

theorem Page.uploaded_cases (p : Page) :
    (∃ parts, p.uploaded = .ok parts ∧ p.parts = parts.map (·.entry)) ∨
    ¬ p.Whole ∧ p.uploaded = .error (.incomplete "a listed part number or ETag") := by
  unfold uploaded Whole
  generalize p.parts = entries
  induction entries with
  | nil => exact .inl ⟨[], rfl, rfl⟩
  | cons entry entries ih =>
    rw [List.mapM_cons, List.forall_mem_cons]
    rcases entry with ⟨_ | number, _ | eTag⟩
    · exact .inr ⟨by simp, rfl⟩
    · exact .inr ⟨by simp, rfl⟩
    · exact .inr ⟨by simp, rfl⟩
    · obtain ⟨parts, read, all⟩ | ⟨flawed, failed⟩ := ih
      · rw [read, all]
        exact .inl ⟨⟨number, eTag⟩ :: parts, rfl, rfl⟩
      · rw [failed]
        exact .inr ⟨fun h => flawed h.2, rfl⟩

theorem request_answered (answer : s.call (.listParts u marker) w.peer.peer = (.ok p, peer)) :
    s.observed.request (.listParts u marker) w = (.ok p, noted w peer ⟨.listParts u marker, .ok p⟩) := by
  simp only [request, observed, answer]
  rfl

theorem listFrom_more (continues : p.Continues)
    (answer : s.call (.listParts u marker) w.peer.peer = (.ok p, peer)) :
    ∃ parts, p.parts = parts.map (·.entry) ∧ s.observed.listFrom u (limit + 1) marker listed w =
      s.observed.listFrom u limit p.next (listed ++ parts) (noted w peer ⟨.listParts u marker, .ok p⟩) := by
  obtain ⟨parts, read, all⟩ | ⟨flawed, -⟩ := p.uploaded_cases
  · obtain ⟨next, marked⟩ := Option.isSome_iff_exists.1 continues.marked
    have goesOn : p.continuation = .ok (some next) := by
      rw [Page.continuation, continues.truncated, marked]
      rfl
    refine ⟨parts, all, ?_⟩
    rw [listFrom, request_answered answer, marked]
    dsimp only
    rw [read, goesOn]
  · exact absurd continues.whole flawed

theorem listFrom_end (stops : ¬ p.Continues)
    (answer : s.call (.listParts u marker) w.peer.peer = (.ok p, peer)) :
    ∃ result, s.observed.listFrom u (limit + 1) marker listed w =
        some (result, noted w peer ⟨.listParts u marker, .ok p⟩) ∧
      p.Ends (listed.map (·.entry)) result := by
  rw [listFrom, request_answered answer]
  dsimp only
  obtain ⟨parts, read, all⟩ | ⟨flawed, read⟩ := p.uploaded_cases
  · rw [read]
    have whole := Page.whole_of_entries all
    unfold Page.continuation
    cases truncated : p.truncated with
    | false => exact ⟨_, rfl, .last truncated (by rw [all, List.map_append])⟩
    | true =>
      cases marked : p.next with
      | none => exact ⟨_, rfl, .unmarked whole truncated marked⟩
      | some next => exact absurd ⟨whole, truncated, by rw [marked]; rfl⟩ stops
  · rw [read]
    exact ⟨_, rfl, .unfinished flawed⟩

theorem listFrom_pages (answers : Answers s u marker (earlier ++ [last]) w.peer.peer peer)
    (continues : ∀ p ∈ earlier, p.Continues) (stops : ¬ last.Continues) (few : earlier.length < limit) :
    ∃ result, s.observed.listFrom u limit marker listed w =
        some (result, { w with peer := ⟨peer, w.peer.log ++ requests u marker (earlier ++ [last])⟩ }) ∧
      last.Ends (listed.map (·.entry) ++ earlier.flatMap (·.parts)) result := by
  induction earlier generalizing marker listed w limit with
  | nil =>
    cases answers with
    | cons answer rest =>
      cases rest
      cases limit with
      | zero => cases few
      | succ limit =>
        obtain ⟨result, run, ends⟩ := listFrom_end stops answer
        exact ⟨result, run, by rwa [List.flatMap_nil, List.append_nil]⟩
  | cons p earlier ih =>
    cases answers with
    | cons answer rest =>
      cases limit with
      | zero => cases few
      | succ limit =>
        obtain ⟨first, others⟩ := List.forall_mem_cons.1 continues
        obtain ⟨parts, all, goesOn⟩ := listFrom_more first answer
        obtain ⟨result, run, ends⟩ := ih (w := noted w _ _) rest others (Nat.lt_of_succ_lt_succ few)
        refine ⟨result, (goesOn.trans run).trans ?_, ?_⟩
        · rw [noted_log, List.append_assoc]
          rfl
        · rwa [List.map_append, ← all, List.append_assoc] at ends

theorem listFrom_unwatched (s : S3 σ) (u : Upload) (limit : Nat) (marker : Option String)
    (listed : List UploadedPart) (w : World (Calls σ)) :
    s.listFrom u limit marker listed (unwatched w) =
      (s.observed.listFrom u limit marker listed w).map (.map id unwatched) := by
  induction limit generalizing marker listed w with
  | zero => rfl
  | succ limit ih =>
    have same : s.request (.listParts u marker) (unwatched w) =
      (s.observed.request (.listParts u marker) w).map id unwatched := rfl
    rw [listFrom, listFrom, same]
    rcases s.observed.request (.listParts u marker) w with ⟨_ | page, w'⟩
    · rfl
    · dsimp only [Prod.map, id_eq]
      cases page.uploaded with
      | error e => rfl
      | ok parts =>
        cases page.continuation with
        | error e => rfl
        | ok next =>
          cases next with
          | none => rfl
          | some next => exact ih _ _ w'

theorem entry_injective : Function.Injective UploadedPart.entry := by
  intro p q same
  cases p
  cases q
  cases same
  rfl

theorem above_last {before left : List UploadedPart}
    (ascending : (before ++ left).Pairwise fun a b => a.number < b.number) :
    above (before.getLast?.map (·.number)) (before ++ left) = left := by
  obtain ⟨sorted, -, apart⟩ := List.pairwise_append.1 ascending
  rcases List.eq_nil_or_concat' before with rfl | ⟨before, q, rfl⟩
  · simp [above]
  · have below : ∀ p ∈ before ++ [q], ¬ q.number < p.number := by
      intro p hp
      rcases List.mem_append.1 hp with earlier | same
      · have smaller := (List.pairwise_append.1 sorted).2.2 p earlier q List.mem_cons_self
        omega
      · cases List.mem_singleton.1 same
        omega
    have larger : ∀ p ∈ left, q.number < p.number := apart q (List.mem_append_right _ List.mem_cons_self)
    rw [List.getLast?_concat, above, List.filter_append, List.filter_eq_nil_iff.2, List.nil_append,
      List.filter_eq_self.2]
    · simpa using larger
    · simpa using below

theorem Stocks.paged {held : σ → Prop} {m : Nat} {mark : Int → String}
    (h : Stocks s u held parts m mark) (before left : List UploadedPart) (split : parts = before ++ left)
    (holds : held peer) :
    ∃ earlier last after, Answers s u (before.getLast?.map (mark ·.number)) (earlier ++ [last]) peer after ∧
      (∀ p ∈ earlier, p.Continues) ∧ last.truncated = false ∧
      (earlier ++ [last]).flatMap (·.parts) = left.map (·.entry) ∧ earlier.length < max 1 left.length := by
  induction size : left.length using Nat.strongRecOn generalizing before left peer with
  | ind n ih =>
    have ascending := h.ascending
    rw [split] at ascending
    have known : ∀ number, before.getLast?.map (·.number) = some number →
        ∃ p ∈ parts, p.number = number := by
      intro number last
      obtain ⟨p, hp, rfl⟩ := Option.map_eq_some_iff.1 last
      exact ⟨p, split ▸ List.mem_append_left _ (List.mem_of_getLast? hp), rfl⟩
    obtain ⟨k, next, peer', positive, -, holds, answer, marked⟩ := h.answers peer holds _ known
    rw [split, above_last ascending] at answer marked
    rw [Option.map_map] at answer
    by_cases more : k < left.length
    · obtain ⟨q, shown⟩ : ∃ q, (left.take k).getLast? = some q := by
        refine Option.isSome_iff_exists.1 (List.getLast?_isSome.2 fun none => ?_)
        have length := congrArg List.length none
        rw [List.length_take, List.length_nil] at length
        omega
      have last : (before ++ left.take k).getLast? = some q := by
        rw [List.getLast?_append, shown]
        rfl
      have next : next = some (mark q.number) := by
        rw [marked more, shown]
        rfl
      obtain ⟨earlier, final, after, answers, continues, ended, all, few⟩ :=
        ih (left.drop k).length (by rw [List.length_drop]; omega) (before ++ left.take k) (left.drop k)
          (by rw [List.append_assoc, List.take_append_drop]; exact split) holds rfl
      rw [last] at answers
      subst next
      refine ⟨_ :: earlier, final, after, .cons answer answers, ?_, ended, ?_, ?_⟩
      · exact List.forall_mem_cons.2
          ⟨⟨Page.whole_of_entries rfl, decide_eq_true more, rfl⟩, continues⟩
      · rw [List.cons_append, List.flatMap_cons, all, ← List.map_append, List.take_append_drop]
      · rw [List.length_drop] at few
        rw [List.length_cons]
        omega
    · refine ⟨[], _, _, .cons answer .nil, by simp, decide_eq_false more, ?_, by rw [List.length_nil]; omega⟩
      simp [List.take_of_length_le (Nat.le_of_not_lt more)]

/-- Whatever pages a service answers with, the listing asks for them one after the other, the first without
a marker and each other one with the marker of the page before, up to the first page from which it does not
go on; its result is as that page ends it. So from a service that stocks parts it lists exactly these,
however few of them come at a time. -/
theorem listing_is_all_pages (s : S3 σ) (u : Upload) (w : World σ) :
    (∀ earlier last peer limit, Answers s u none (earlier ++ [last]) w.peer peer →
      (∀ p ∈ earlier, p.Continues) → ¬ last.Continues → earlier.length < limit →
      ∃ result w', s.observed.listParts u limit (watched w) = some (result, w') ∧
        s.listParts u limit w = some (result, unwatched w') ∧
        w'.peer.log = requests u none (earlier ++ [last]) ∧
        w'.peer.log.length = (earlier ++ [last]).length ∧
        last.Ends (earlier.flatMap (·.parts)) result) ∧
    ∀ held parts m mark limit, Stocks s u held parts m mark → held w.peer →
      max 1 parts.length ≤ limit → ∃ w', s.listParts u limit w = some (.ok parts, w') := by
  have listed (earlier : List Page) (last : Page) (peer : σ) (limit : Nat)
      (answers : Answers s u none (earlier ++ [last]) w.peer peer) (continues : ∀ p ∈ earlier, p.Continues)
      (stops : ¬ last.Continues) (few : earlier.length < limit) :
      ∃ result w', s.observed.listParts u limit (watched w) = some (result, w') ∧
        s.listParts u limit w = some (result, unwatched w') ∧
        w'.peer.log = requests u none (earlier ++ [last]) ∧
        w'.peer.log.length = (earlier ++ [last]).length ∧
        last.Ends (earlier.flatMap (·.parts)) result := by
    obtain ⟨result, run, ends⟩ := listFrom_pages (w := watched w) answers continues stops few
    have same := listFrom_unwatched s u limit none [] (watched w)
    rw [unwatched_watched, run] at same
    exact ⟨result, _, run, same, rfl, length_requests, ends⟩
  refine ⟨listed, fun held parts m mark limit stocks holds enough => ?_⟩
  obtain ⟨earlier, last, peer, answers, continues, ended, all, few⟩ := stocks.paged [] parts rfl holds
  have stops : ¬ last.Continues := fun h => Bool.false_ne_true (ended.symm.trans h.truncated)
  obtain ⟨result, w', -, run, -, -, ends⟩ :=
    listed earlier last peer limit answers continues stops (Nat.lt_of_lt_of_le few enough)
  have whole : last.Whole := by
    intro entry inLast
    have inAll : entry ∈ parts.map (·.entry) := all ▸ List.mem_flatMap.2 ⟨last, by simp, inLast⟩
    obtain ⟨part, -, rfl⟩ := List.mem_map.1 inAll
    exact ⟨rfl, rfl⟩
  cases ends with
  | unfinished flawed => exact absurd whole flawed
  | unmarked _ truncated none => cases ended.symm.trans truncated
  | last _ these =>
    rw [List.flatMap_append, List.flatMap_singleton] at all
    rw [entry_injective.list_map (these.symm.trans all)] at run
    exact ⟨_, run⟩

/-- A service that stocks parts and tells at most `m` of them at a time; a number is marked by its digits. -/
def shelf (parts : List UploadedPart) (m : Nat) : S3 Unit where
  call
    | .listParts _ marker, peer =>
      let behind := parts.find? fun p => some p.number.repr = marker
      let left := above (behind.map (·.number)) parts
      (.ok ⟨(left.take m).map (·.entry), m < left.length, (left.take m).getLast?.map (·.number.repr)⟩, peer)
    | _, peer => (.error .notDispatched, peer)

theorem shelf_stocks {m : Nat} (ascending : parts.Pairwise fun a b => a.number < b.number)
    (told : ∀ p ∈ parts, ∀ q ∈ parts, p.number.repr = q.number.repr → p.number = q.number)
    (positive : 1 ≤ m) : Stocks (shelf parts m) u (fun _ => True) parts m Int.repr where
  ascending := ascending
  answers peer _ number? known := by
    have read : (parts.find? fun p => some p.number.repr = number?.map Int.repr).map (·.number) =
        number? := by
      cases number? with
      | none => simp
      | some number =>
        obtain ⟨p, hp, rfl⟩ := known number rfl
        rw [Option.map_some]
        cases found : parts.find? fun q => some q.number.repr = some p.number.repr with
        | none => simpa using List.find?_eq_none.1 found p hp
        | some q =>
          have same : q.number.repr = p.number.repr := by simpa using List.find?_some found
          exact congrArg some (told q (List.mem_of_find?_eq_some found) p hp same)
    refine ⟨m, _, peer, positive, Nat.le_refl m, trivial, ?_, fun _ => rfl⟩
    simp only [shelf, read]

def threeParts : List UploadedPart := [⟨1, "a"⟩, ⟨2, "b"⟩, ⟨5, "c"⟩]

def unmarked : S3 Unit where
  call
    | .listParts _ _, peer => (.ok ⟨[(some 1, some "a")], true, none⟩, peer)
    | _, peer => (.error .notDispatched, peer)

theorem three_parts_listed_by_two :
    (∃ w', (shelf threeParts 2).listParts ⟨⟨"b", "k"⟩, "1"⟩ 3 (.initial () .empty) =
      some (.ok threeParts, w')) ∧
    ∃ w', unmarked.observed.listParts ⟨⟨"b", "k"⟩, "1"⟩ 1 (watched (.initial () .empty)) =
        some (.error (.incomplete "the next part number marker"), w') ∧ w'.peer.log.length = 1 := by
  constructor
  · exact (listing_is_all_pages (shelf threeParts 2) ⟨⟨"b", "k"⟩, "1"⟩ (.initial () .empty)).2 _ threeParts
      2 Int.repr 3 (shelf_stocks (by decide) (by decide) (by decide)) trivial (by decide)
  · obtain ⟨result, w', run, -, -, once, ends⟩ :=
      (listing_is_all_pages unmarked ⟨⟨"b", "k"⟩, "1"⟩ (.initial () .empty)).1 []
        ⟨[(some 1, some "a")], true, none⟩ () 1 (.cons rfl .nil) (by simp)
        (fun h => Bool.false_ne_true h.marked) (by decide)
    cases ends with
    | unfinished flawed => exact absurd (by simp [Page.Whole]) flawed
    | unmarked => exact ⟨w', run, once⟩
    | last last => cases last

end ObjectTransfer.S3
