import DocumentStore.Proofs.Collection.Identity
import DocumentStore.Proofs.Service.Run
import Mathlib.Data.List.Infix
import Mathlib.Logic.Function.Basic

/-! Bulk deletions that are under way at the same time. Each reads the documents of its identifiers
and then has them deleted, and answers with what it read. The two are separate operations of the
collection: in between, another deletion can take the same documents. -/

namespace DocumentStore

/-- The document is one of those that the identifiers name. -/
def Document.isNamed (ids : List ObjectId) (d : Document) : Bool :=
  ids.any (fun id => Value.equalsAny (Document.reached d (.ofString idKey)) (.objectId id))

theorem Document.isNamed_nil (d : Document) : d.isNamed [] = false := rfl

namespace BulkDeletion

/-- How far a deletion has come, and which documents it has read. -/
inductive Progress where
  | waiting
  | found (ds : List Document)
  | answered (outcome : Except QueryFault (List Document))

/-- It has read and not yet deleted. -/
def Progress.IsUnderWay (p : Progress) : Prop :=
  ∃ ds, p = .found ds

/-- The next operation of a deletion; without identifiers it is answered at once. -/
def advance (ids : List ObjectId) (c : Collection) : Progress → Progress × Collection
  | .waiting =>
    if ids.isEmpty then (.answered (.ok []), c)
    else
      match c.find (Query.byIds ids) with
      | .ok ds => (.found ds, c)
      | .error fault => (.answered (.error fault), c)
  | .found ds =>
    match c.deleteMany (Query.byIds ids) with
    | .ok (_, c) => (.answered (.ok ds), c)
    | .error fault => (.answered (.error fault), c)
  | .answered outcome => (.answered outcome, c)

/-- The entities that a deletion is answered with. -/
def answer {β δ : Type} (m : Model β δ) :
    Except QueryFault (List Document) → Except ServiceFault (List (Entity β))
  | .ok ds => ds.mapM m.decodeStored
  | .error fault => .error (.query fault)

/-- A collection with the deletions that are made on it. -/
structure State (ι : Type) where
  store : Collection
  progress : ι → Progress

section Steps

variable {ι : Type} [DecidableEq ι]

def start (c : Collection) : State ι :=
  ⟨c, fun _ => .waiting⟩

def step (ids : ι → List ObjectId) (s : State ι) (i : ι) : State ι :=
  ⟨(advance (ids i) s.store (s.progress i)).2,
    Function.update s.progress i (advance (ids i) s.store (s.progress i)).1⟩

/-- A schedule says whose turn it is, one operation at a time. -/
def run (ids : ι → List ObjectId) (c : Collection) (schedule : List ι) : State ι :=
  schedule.foldl (step ids) (start c)

/-- A document leaves the collection in a turn of this deletion. -/
def Removes (ids : ι → List ObjectId) (c : Collection) (schedule : List ι) (i : ι)
    (d : Document) : Prop :=
  ∃ before, before ++ [i] <+: schedule ∧ d ∈ (run ids c before).store.documents ∧
    d ∉ (run ids c (before ++ [i])).store.documents

/-- Another deletion is about to take a document that this one has read and still has to delete. -/
def IsForestalled (ids : ι → List ObjectId) (c : Collection) (schedule : List ι) (i : ι) : Prop :=
  ∃ before j, before ++ [j] <+: schedule ∧ j ≠ i ∧
    ((run ids c before).progress i).IsUnderWay ∧ ((run ids c before).progress j).IsUnderWay ∧
    ∃ d ∈ (run ids c before).store.documents,
      d.isNamed (ids i) = true ∧ d.isNamed (ids j) = true

end Steps

section Operations

variable {ids : List ObjectId} {c : Collection} {d : Document}

theorem find_byIds (ids : List ObjectId) (c : Collection) :
    c.find (Query.byIds ids) = .ok (c.documents.filter (·.isNamed ids)) :=
  Collection.keep_of_answers fun d _ => Query.matches_byIds_eq d ids

theorem deleteMany_byIds (ids : List ObjectId) (c : Collection) : c.deleteMany (Query.byIds ids) =
    .ok ((c.documents.filter (·.isNamed ids)).length,
      { c with documents := c.documents.filter (fun d => !d.isNamed ids) }) :=
  Collection.deleteMany_of_answers fun d _ => Query.matches_byIds_eq d ids

theorem advance_nil (c : Collection) : advance [] c .waiting = (.answered (.ok []), c) := rfl

theorem advance_waiting (c : Collection) (hne : ids ≠ []) :
    advance ids c .waiting = (.found (c.documents.filter (·.isNamed ids)), c) := by
  have hempty : ids.isEmpty = false := by simpa using hne
  simp only [advance, hempty, Bool.false_eq_true, if_false, find_byIds]

theorem advance_found (ids : List ObjectId) (c : Collection) (ds : List Document) :
    advance ids c (.found ds) = (.answered (.ok ds),
      { c with documents := c.documents.filter (fun d => !d.isNamed ids) }) := by
  simp only [advance, deleteMany_byIds]

theorem advance_answered (ids : List ObjectId) (c : Collection)
    (outcome : Except QueryFault (List Document)) :
    advance ids c (.answered outcome) = (.answered outcome, c) := rfl

theorem sublist_advance (ids : List ObjectId) (c : Collection) (p : Progress) :
    (advance ids c p).2.documents.Sublist c.documents := by
  cases p with
  | waiting =>
    by_cases hne : ids = []
    · rw [hne, advance_nil]
    · rw [advance_waiting c hne]
  | found ds =>
    rw [advance_found]
    exact List.filter_sublist
  | answered outcome => rw [advance_answered]

theorem deleteMany_eq_advance {β δ : Type} (m : Model β δ) (ids : List ObjectId) (c : Collection) :
    ∃ outcome after,
      advance ids (advance ids c .waiting).2 (advance ids c .waiting).1 =
        (.answered outcome, after) ∧
      m.deleteMany c ids = (answer m outcome, after) := by
  by_cases hne : ids = []
  · subst hne
    exact ⟨_, _, rfl, m.deleteMany_nil⟩
  · rw [advance_waiting c hne]
    refine ⟨_, _, advance_found ids c _, ?_⟩
    exact m.deleteMany_of_ok hne (find_byIds ids c)
      (Collection.rest_of_answers fun d _ => Query.matches_byIds_eq d ids)

/-- Documents only leave by a deletion that has read and not yet answered. -/
theorem of_removed {p : Progress} (h : d ∈ c.documents) (h' : d ∉ (advance ids c p).2.documents) :
    d.isNamed ids = true ∧ p.IsUnderWay := by
  cases p with
  | waiting =>
    by_cases hne : ids = []
    · rw [hne, advance_nil] at h'
      exact absurd h h'
    · rw [advance_waiting c hne] at h'
      exact absurd h h'
  | found ds =>
    rw [advance_found] at h'
    refine ⟨?_, ds, rfl⟩
    by_contra hnamed
    exact h' (List.mem_filter.mpr ⟨h, by simpa using hnamed⟩)
  | answered outcome =>
    rw [advance_answered] at h'
    exact absurd h h'

end Operations

namespace Progress

variable {ids : List ObjectId} {c : Collection} {all stored : List Document} {p p' : Progress}

/-- The deletion has read these documents. -/
def Has (p : Progress) (ds : List Document) : Prop :=
  p = .found ds ∨ p = .answered (.ok ds)

/-- What is known of a deletion on the way: whatever it has read was named by its identifiers, it
has read all of these that are left, and with its answer none of them is left. -/
def Fits (ids : List ObjectId) (all stored : List Document) : Progress → Prop
  | .waiting => True
  | .found ds => ds.Sublist all ∧ (∀ d ∈ ds, d.isNamed ids = true) ∧
      ∀ d ∈ stored, d.isNamed ids = true → d ∈ ds
  | .answered outcome => ∃ ds, outcome = .ok ds ∧ ds.Sublist all ∧
      (∀ d ∈ ds, d.isNamed ids = true) ∧ ∀ d, d.isNamed ids = true → d ∉ stored

theorem Fits.mono {stored' : List Document} (h : p.Fits ids all stored)
    (hsub : stored'.Sublist stored) : p.Fits ids all stored' := by
  cases p with
  | waiting => exact h
  | found ds =>
    obtain ⟨hall, hnamed, hread⟩ := h
    exact ⟨hall, hnamed, fun d hd => hread d (hsub.subset hd)⟩
  | answered outcome =>
    obtain ⟨ds, he, hall, hnamed, hgone⟩ := h
    exact ⟨ds, he, hall, hnamed, fun d hd hstored => hgone d hd (hsub.subset hstored)⟩

theorem Fits.advance (h : p.Fits ids all c.documents) (hall : c.documents.Sublist all) :
    (advance ids c p).1.Fits ids all (advance ids c p).2.documents := by
  cases p with
  | waiting =>
    by_cases hne : ids = []
    · subst hne
      exact ⟨[], rfl, List.nil_sublist _, by simp, fun d hd => by simp [d.isNamed_nil] at hd⟩
    · rw [advance_waiting c hne]
      refine ⟨List.filter_sublist.trans hall, fun d hd => (List.mem_filter.mp hd).2, ?_⟩
      exact fun d hd hnamed => List.mem_filter.mpr ⟨hd, hnamed⟩
  | found ds =>
    obtain ⟨hds, hnamed, -⟩ := h
    rw [advance_found]
    exact ⟨ds, rfl, hds, hnamed, fun d hd => by simp [hd]⟩
  | answered outcome => exact h

/-- What becomes of a deletion later on: what it has read stays as it is, and what it reads
afterwards are documents that were stored. -/
def LeadsTo (stored : List Document) : Progress → Progress → Prop
  | .waiting, p => ∀ ds, p.Has ds → ds ⊆ stored
  | .found ds, p => p.Has ds
  | .answered outcome, p => p = .answered outcome

theorem LeadsTo.refl (stored : List Document) (p : Progress) : p.LeadsTo stored p := by
  cases p with
  | waiting => exact fun ds h => h.elim nofun nofun
  | found ds => exact .inl rfl
  | answered outcome => rfl

theorem Has.advance {ds : List Document} (h : p.Has ds) (ids : List ObjectId) (c : Collection) :
    (advance ids c p).1.Has ds := by
  rcases h with rfl | rfl
  · rw [advance_found]
    exact .inr rfl
  · exact .inr rfl

theorem subset_of_advance {ds : List Document} (h : ∀ ds, p.Has ds → ds ⊆ stored)
    (hsub : c.documents.Sublist stored) (hds : (advance ids c p).1.Has ds) : ds ⊆ stored := by
  cases p with
  | waiting =>
    by_cases hne : ids = []
    · rw [hne, advance_nil] at hds
      rcases hds with hds | hds <;> cases hds
      exact List.nil_subset _
    · rw [advance_waiting c hne] at hds
      rcases hds with hds | hds <;> cases hds
      exact (List.filter_sublist.trans hsub).subset
  | found found =>
    rw [advance_found] at hds
    rcases hds with hds | hds <;> cases hds
    exact h ds (.inl rfl)
  | answered outcome => exact h ds hds

theorem LeadsTo.advance (h : p.LeadsTo stored p') (hsub : c.documents.Sublist stored) :
    p.LeadsTo stored (advance ids c p').1 := by
  cases p with
  | waiting => exact fun ds hds => subset_of_advance h hsub hds
  | found ds => exact Has.advance h ids c
  | answered outcome =>
    obtain rfl := h
    rfl

end Progress

section Turns

variable {ι : Type} [DecidableEq ι] {ids : ι → List ObjectId} {c : Collection} {s s' : State ι}
  {i j : ι} {d : Document} {schedule : List ι}

theorem run_concat (ids : ι → List ObjectId) (c : Collection) (schedule : List ι) (i : ι) :
    run ids c (schedule ++ [i]) = step ids (run ids c schedule) i := by
  rw [run, List.foldl_append]
  rfl

theorem progress_step (ids : ι → List ObjectId) (s : State ι) (i j : ι) :
    (step ids s i).progress j =
      if j = i then (advance (ids i) s.store (s.progress i)).1 else s.progress j :=
  Function.update_apply s.progress i _ j

/-- A deletion whose two turns nobody comes between is the one of the service. -/
theorem deleteMany_eq_step {β δ : Type} (m : Model β δ) (ids : ι → List ObjectId)
    (hi : s.progress i = .waiting) :
    ∃ outcome, (step ids (step ids s i) i).progress i = .answered outcome ∧
      m.deleteMany s.store (ids i) = (answer m outcome, (step ids (step ids s i) i).store) := by
  obtain ⟨outcome, after, hturns, hdelete⟩ := deleteMany_eq_advance m (ids i) s.store
  refine ⟨outcome, ?_, ?_⟩
  · simp only [step, Function.update_self, hi, hturns]
  · simp only [step, Function.update_self, hi, hturns, hdelete]

structure IsSound (ids : ι → List ObjectId) (all : List Document) (s : State ι) : Prop where
  stored : s.store.documents.Sublist all
  fits : ∀ i, (s.progress i).Fits (ids i) all s.store.documents

theorem IsSound.step {all : List Document} (h : IsSound ids all s) (i : ι) :
    IsSound ids all (BulkDeletion.step ids s i) := by
  have hsub : (BulkDeletion.step ids s i).store.documents.Sublist s.store.documents :=
    sublist_advance _ _ _
  refine ⟨hsub.trans h.stored, fun j => ?_⟩
  rw [progress_step]
  split
  · next hji =>
    subst hji
    exact (h.fits j).advance h.stored
  · exact (h.fits j).mono hsub

theorem isSound_run (ids : ι → List ObjectId) (c : Collection) (schedule : List ι) :
    IsSound ids c.documents (run ids c schedule) := by
  induction schedule using List.reverseRecOn with
  | nil => exact ⟨List.Sublist.refl _, fun _ => trivial⟩
  | append_singleton schedule i ih =>
    rw [run_concat]
    exact ih.step i

structure Leads (s s' : State ι) : Prop where
  stored : s'.store.documents.Sublist s.store.documents
  progress : ∀ i, (s.progress i).LeadsTo s.store.documents (s'.progress i)

theorem Leads.step (h : Leads s s') (ids : ι → List ObjectId) (i : ι) :
    Leads s (BulkDeletion.step ids s' i) := by
  have hsub : (BulkDeletion.step ids s' i).store.documents.Sublist s'.store.documents :=
    sublist_advance _ _ _
  refine ⟨hsub.trans h.stored, fun j => ?_⟩
  rw [progress_step]
  split
  · next hji =>
    subst hji
    exact (h.progress j).advance h.stored
  · exact h.progress j

theorem leads_run {before : List ι} (ids : ι → List ObjectId) (c : Collection)
    (h : before <+: schedule) : Leads (run ids c before) (run ids c schedule) := by
  obtain ⟨after, rfl⟩ := h
  induction after using List.reverseRecOn with
  | nil =>
    rw [List.append_nil]
    exact ⟨List.Sublist.refl _, fun i => Progress.LeadsTo.refl _ _⟩
  | append_singleton after i ih =>
    rw [← List.append_assoc, run_concat]
    exact ih.step ids i

theorem removes_concat :
    Removes ids c (schedule ++ [j]) i d ↔ Removes ids c schedule i d ∨
      i = j ∧ d ∈ (run ids c schedule).store.documents ∧
        d ∉ (run ids c (schedule ++ [j])).store.documents := by
  constructor
  · rintro ⟨before, hbefore, hd, hd'⟩
    rcases List.prefix_concat_iff.mp hbefore with he | hbefore
    · obtain ⟨rfl, hlast⟩ := List.append_inj' he rfl
      obtain rfl := List.singleton_inj.mp hlast
      exact .inr ⟨rfl, hd, hd'⟩
    · exact .inl ⟨before, hbefore, hd, hd'⟩
  · rintro (⟨before, hbefore, hd, hd'⟩ | ⟨rfl, hd, hd'⟩)
    · exact ⟨before, hbefore.trans (List.prefix_append _ _), hd, hd'⟩
    · exact ⟨schedule, List.prefix_refl _, hd, hd'⟩

/-- What is stored is what was stored at the start and no deletion has removed. -/
theorem mem_run_iff : d ∈ (run ids c schedule).store.documents ↔
    d ∈ c.documents ∧ ∀ i, ¬ Removes ids c schedule i d := by
  induction schedule using List.reverseRecOn with
  | nil =>
    refine ⟨fun h => ⟨h, ?_⟩, fun h => h.1⟩
    rintro i ⟨before, hbefore, -, -⟩
    simp at hbefore
  | append_singleton schedule j ih =>
    have hsub := (leads_run ids c (List.prefix_append schedule [j])).stored.subset
    constructor
    · intro h
      obtain ⟨hall, hleft⟩ := ih.mp (hsub h)
      refine ⟨hall, fun i hremoves => ?_⟩
      rcases removes_concat.mp hremoves with hearlier | ⟨-, -, hgone⟩
      · exact hleft i hearlier
      · exact hgone h
    · rintro ⟨hall, hleft⟩
      by_contra hgone
      refine hleft j (removes_concat.mpr (.inr ⟨rfl, ?_, hgone⟩))
      exact ih.mpr ⟨hall, fun i h => hleft i (removes_concat.mpr (.inl h))⟩

theorem Removes.notMem (h : Removes ids c schedule i d) :
    d ∉ (run ids c schedule).store.documents :=
  fun hd => (mem_run_iff.mp hd).2 i h

theorem Removes.unique (h : Removes ids c schedule i d) (h' : Removes ids c schedule j d) :
    i = j := by
  induction schedule using List.reverseRecOn with
  | nil =>
    obtain ⟨before, hbefore, -, -⟩ := h
    simp at hbefore
  | append_singleton schedule k ih =>
    rcases removes_concat.mp h with hi | ⟨rfl, hd, -⟩ <;>
      rcases removes_concat.mp h' with hj | ⟨rfl, hd', -⟩
    · exact ih hi hj
    · exact absurd hd' hi.notMem
    · exact absurd hd hj.notMem
    · rfl

/-- A document is removed in the second turn of a deletion that has read it. -/
theorem Removes.exists_answered (h : Removes ids c schedule i d) :
    ∃ ds, (run ids c schedule).progress i = .answered (.ok ds) ∧ d ∈ ds := by
  obtain ⟨before, hbefore, hd, hd'⟩ := h
  rw [run_concat] at hd'
  obtain ⟨hnamed, ds, hi⟩ := of_removed hd hd'
  have hread := (isSound_run ids c before).fits i
  rw [hi] at hread
  have hanswered : (run ids c (before ++ [i])).progress i = .answered (.ok ds) := by
    rw [run_concat, progress_step, if_pos rfl, hi, advance_found]
  have hleads := (leads_run ids c hbefore).progress i
  rw [hanswered] at hleads
  exact ⟨ds, hleads, hread.2.2 d hd hnamed⟩

theorem removes_of_isUnderWay {before : List ι} (hbefore : before ++ [i] <+: schedule)
    (hi : ((run ids c before).progress i).IsUnderWay)
    (hd : d ∈ (run ids c before).store.documents) (hnamed : d.isNamed (ids i) = true) :
    Removes ids c schedule i d := by
  obtain ⟨ds, hi⟩ := hi
  refine ⟨before, hbefore, hd, fun hd' => ?_⟩
  rw [run_concat, step, hi, advance_found] at hd'
  simp [hnamed] at hd'

/-- When a document is removed, another deletion that is answered with it is under way. -/
theorem isUnderWay_of_mem {before : List ι} {ds : List Document}
    (hi : (run ids c schedule).progress i = .answered (.ok ds)) (hd : d ∈ ds)
    (hnamed : d.isNamed (ids i) = true) (hbefore : before ++ [j] <+: schedule) (hne : i ≠ j)
    (hstored : d ∈ (run ids c before).store.documents)
    (hgone : d ∉ (run ids c (before ++ [j])).store.documents) :
    ((run ids c before).progress i).IsUnderWay := by
  have hlater := (leads_run ids c hbefore).progress i
  have hsame : (run ids c (before ++ [j])).progress i = (run ids c before).progress i := by
    rw [run_concat, progress_step, if_neg hne]
  rw [hsame, hi] at hlater
  have hfits := (isSound_run ids c before).fits i
  cases hp : (run ids c before).progress i with
  | waiting =>
    rw [hp] at hlater
    exact absurd (hlater ds (.inr rfl) hd) hgone
  | found ds' => exact ⟨ds', rfl⟩
  | answered outcome =>
    rw [hp] at hfits
    obtain ⟨-, -, -, -, hnone⟩ := hfits
    exact absurd hstored (hnone d hnamed)

theorem removes_iff_not_isForestalled {ds : List Document}
    (hi : (run ids c schedule).progress i = .answered (.ok ds)) :
    (∀ d ∈ ds, Removes ids c schedule i d) ↔ ¬ IsForestalled ids c schedule i := by
  constructor
  · rintro hremoves ⟨before, j, hbefore, hne, ⟨found, hfound⟩, hj, d, hd, hnamed, hnamed'⟩
    have hread := (isSound_run ids c before).fits i
    rw [hfound] at hread
    have hlater := (leads_run ids c ((List.prefix_append _ _).trans hbefore)).progress i
    rw [hfound, hi] at hlater
    rcases hlater with he | he <;> cases he
    have hi' := hremoves d (hread.2.2 d hd hnamed)
    exact hne ((removes_of_isUnderWay hbefore hj hd hnamed').unique hi')
  · intro hfree d hd
    have hfits := (isSound_run ids c schedule).fits i
    rw [hi] at hfits
    obtain ⟨_, he, hall, hnamed, hnone⟩ := hfits
    cases he
    have hleft := hnone d (hnamed d hd)
    rw [mem_run_iff, not_and, not_forall_not] at hleft
    obtain ⟨j, hj⟩ := hleft (hall.subset hd)
    by_cases hne : i = j
    · rwa [hne]
    · obtain ⟨before, hbefore, hstored, hgone⟩ := hj
      have hway := isUnderWay_of_mem hi hd (hnamed d hd) hbefore hne hstored hgone
      rw [run_concat] at hgone
      obtain ⟨hnamed', hway'⟩ := of_removed hstored hgone
      exact absurd ⟨before, j, hbefore, Ne.symm hne, hway, hway', d, hstored, hnamed d hd, hnamed'⟩
        hfree

/-- Any number of bulk deletions on any collection, in any order of their operations. A document
that leaves is removed by exactly one of them, which is answered with it. The answer of a deletion
is what it removed exactly if none of its documents was taken between its reading and its deleting.
A deletion whose two operations nobody comes between is answered, and leaves what it leaves, like a
request that is served alone. -/
theorem bulk_deletions_interleaved {β δ : Type} (m : Model β δ) (ids : ι → List ObjectId)
    (c : Collection) (schedule : List ι) :
    (∀ d ∈ c.documents, d ∉ (run ids c schedule).store.documents ↔
      ∃! i, Removes ids c schedule i d) ∧
    (∀ i outcome, (run ids c schedule).progress i = .answered outcome →
      ∃ ds : List Document, answer m outcome = ds.mapM m.decodeStored ∧ ds.Sublist c.documents ∧
        (∀ d, Removes ids c schedule i d → d ∈ ds) ∧
        ((∀ d ∈ ds, Removes ids c schedule i d) ↔ ¬ IsForestalled ids c schedule i)) ∧
    ∀ i, (run ids c schedule).progress i = .waiting →
      ∃ outcome, (run ids c (schedule ++ [i] ++ [i])).progress i = .answered outcome ∧
        m.deleteMany (run ids c schedule).store (ids i) =
          (answer m outcome, (run ids c (schedule ++ [i] ++ [i])).store) := by
  refine ⟨fun d hd => ⟨fun hgone => ?_, fun ⟨i, hi, _⟩ => hi.notMem⟩, fun i outcome hi => ?_,
    fun i hi => ?_⟩
  · rw [mem_run_iff, not_and, not_forall_not] at hgone
    obtain ⟨i, hi⟩ := hgone hd
    exact ⟨i, hi, fun j hj => hj.unique hi⟩
  · have hfits := (isSound_run ids c schedule).fits i
    rw [hi] at hfits
    obtain ⟨ds, rfl, hall, -, -⟩ := hfits
    refine ⟨ds, rfl, hall, fun d hremoves => ?_, removes_iff_not_isForestalled hi⟩
    obtain ⟨ds', hi', hd⟩ := hremoves.exists_answered
    rw [hi] at hi'
    cases hi'
    exact hd
  · rw [run_concat, run_concat]
    exact deleteMany_eq_step m ids hi

/-- Both deletions have read the photo before one of them removes it. -/
theorem photo_returned_twice :
    let id : ObjectId := ⟨List.replicate 12 1, List.length_replicate⟩
    let photo : Document := Record.model.newDocument id 0 (.embedded "photo" .null)
    let c : Collection := ⟨"records", [photo]⟩
    let ids : Bool → List ObjectId := fun _ => [id]
    let schedule := [false, true, false, true]
    (∀ i, ∃ outcome, (run ids c schedule).progress i = .answered outcome ∧
      (answer Record.model outcome).map (List.map Entity.id) = .ok [id]) ∧
    Removes ids c schedule false photo ∧ ¬ Removes ids c schedule true photo := by
  intro id photo c ids schedule
  have hnamed : photo.isNamed [id] = true := by decide +kernel
  have hread : advance [id] c .waiting = (.found [photo], c) := by
    rw [advance_waiting c (by simp)]
    simp [c, hnamed]
  have hway (i : Bool) : (run ids c [false, true]).progress i = .found [photo] := by
    cases i <;> simp [run, start, step, ids, hread]
  have hstored : photo ∈ (run ids c [false, true]).store.documents := by
    simp [run, start, step, ids, hread, c]
  have hanswered (i : Bool) : (run ids c schedule).progress i = .answered (.ok [photo]) := by
    have hsplit : schedule = [false, true] ++ [false] ++ [true] := rfl
    rw [hsplit, run_concat, run_concat]
    cases i <;> simp [step, hway, advance_found]
  have hremoves : Removes ids c schedule false photo :=
    removes_of_isUnderWay (by decide) ⟨_, hway false⟩ hstored hnamed
  refine ⟨fun i => ⟨_, hanswered i, rfl⟩, hremoves, fun hother => ?_⟩
  cases hremoves.unique hother

end Turns

end BulkDeletion

end DocumentStore
