import DocumentStore.Proofs.Collection.Operations

/-! Operations that change what is stored in its place. Here a fault ends an operation where it
stands, and takes nothing back of what was written before it. They answer and leave what the
operations on collections do, which come without a collection where they are refused. -/

namespace DocumentStore

/-- What works on a state in its place and may end with a fault. -/
abbrev InPlace (σ ε α : Type) : Type :=
  ExceptT ε (StateM σ) α

namespace InPlace

variable {σ ε α β : Type}

/-- The answer, and the state that is left. -/
def runOn (x : InPlace σ ε α) (s : σ) : Except ε α × σ :=
  x.run.run s

theorem runOn_bind (x : InPlace σ ε α) (f : α → InPlace σ ε β) (s : σ) :
    runOn (x >>= f) s = match runOn x s with
      | (.ok a, s) => runOn (f a) s
      | (.error e, s) => (.error e, s) := by
  simp only [runOn, ExceptT.run_bind, StateT.run_bind]
  rcases x.run.run s with ⟨_ | _, _⟩ <;> rfl

theorem runOn_get (s : σ) : runOn (get : InPlace σ ε σ) s = (.ok s, s) := rfl

theorem runOn_modifyGet (f : σ → α × σ) (s : σ) :
    runOn (modifyGet f : InPlace σ ε α) s = (.ok (f s).1, (f s).2) := rfl

theorem runOn_lift (x : Except ε α) (s : σ) : runOn (liftM x : InPlace σ ε α) s = (x, s) := rfl

/-- A change in its place comes to a state, or ends with a fault wherever it stands. -/
def Performs (x : InPlace σ ε Unit) (s : σ) : Except ε σ → Prop
  | .ok s' => x.runOn s = (.ok (), s')
  | .error e => (x.runOn s).1 = .error e

theorem Performs.andThen {x y : InPlace σ ε Unit} {s : σ} {r : Except ε σ} {g : σ → Except ε σ}
    (hx : x.Performs s r) (hy : ∀ s', y.Performs s' (g s')) :
    (do x; y : InPlace σ ε Unit).Performs s (r >>= g) := by
  cases r with
  | ok s' =>
    have hxs : (do x; y : InPlace σ ε Unit).runOn s = y.runOn s' := by
      rw [runOn_bind, show x.runOn s = _ from hx]
    change Performs _ s (g s')
    have hys := hy s'
    unfold Performs at hys ⊢
    rwa [hxs]
  | error e =>
    change ((do x; y : InPlace σ ε Unit).runOn s).1 = .error e
    have hxs : (x.runOn s).1 = .error e := hx
    rw [runOn_bind]
    rcases hr : x.runOn s with ⟨answer, s'⟩
    obtain rfl : answer = .error e := by simpa [hr] using hxs
    rfl

theorem Performs.forM {x : β → InPlace σ ε Unit} {f : σ → β → Except ε σ}
    (h : ∀ b s, (x b).Performs s (f s b)) (bs : List β) (s : σ) :
    (bs.forM x).Performs s (bs.foldlM f s) := by
  induction bs generalizing s with
  | nil => rfl
  | cons b bs ih => exact (h b s).andThen ih

end InPlace

namespace Document

/-- What a refused write has made on its way stays. -/
def setFieldInPlace (entry : String × Value) : InPlace Document QueryFault Unit := do
  let path := FieldPath.ofString entry.1
  if path.isIdentifier then throw .identifierImmutable
  match ← modifyGet (setPath · path entry.2) with
  | none => return ()
  | some fault => throw (.write fault)

def applyOperatorInPlace (operator : String) (fields : Document) :
    InPlace Document QueryFault Unit :=
  match operator with
  | "$set" => fields.forM setFieldInPlace
  | "$unset" => fields.forM (fun entry => modify (unsetField · entry))
  | name => throw (.unknownUpdate name)

def updateInPlace : Document → InPlace Document QueryFault Unit
  | [] => return ()
  | (operator, arg) :: rest => do
    match arg with
    | .document fields =>
      applyOperatorInPlace operator fields
      updateInPlace rest
    | _ => throw (.notADocument operator)

theorem performs_setField (entry : String × Value) (d : Document) :
    (setFieldInPlace entry).Performs d (setField d entry) := by
  unfold setField setFieldInPlace
  dsimp only
  cases (FieldPath.ofString entry.1).isIdentifier with
  | true => rfl
  | false =>
    simp only [Bool.false_eq_true, if_false]
    rcases hset : setPath d (.ofString entry.1) entry.2 with ⟨fault, d'⟩
    cases fault <;> simp only [InPlace.Performs, InPlace.runOn_bind, InPlace.runOn_modifyGet, hset]
      <;> rfl

theorem performs_applyOperator (operator : String) (fields d : Document) :
    (applyOperatorInPlace operator fields).Performs d (applyOperator d operator fields) := by
  by_cases hset : operator = "$set"
  · subst hset
    exact InPlace.Performs.forM performs_setField fields d
  · by_cases hunset : operator = "$unset"
    · subst hunset
      have hfold : applyOperator d "$unset" fields =
          fields.foldlM (fun d entry => .ok (unsetField d entry)) d :=
        (List.foldlM_pure (m := Except QueryFault)).symm
      have hentry (entry : String × Value) (d : Document) :
          InPlace.Performs (modify (unsetField · entry)) d
            (.ok (unsetField d entry) : Except QueryFault Document) := rfl
      rw [hfold]
      exact InPlace.Performs.forM hentry fields d
    · have hunknown : applyOperator d operator fields = .error (.unknownUpdate operator) := by
        simp [applyOperator]
      have hunknown' : applyOperatorInPlace operator fields = throw (.unknownUpdate operator) := by
        simp [applyOperatorInPlace]
      rw [hunknown, hunknown']
      rfl

theorem performs_update (u d : Document) : (updateInPlace u).Performs d (update d u) := by
  induction u generalizing d with
  | nil => rfl
  | cons entry rest ih =>
    obtain ⟨operator, arg⟩ := entry
    cases arg with
    | document fields => exact (performs_applyOperator operator fields d).andThen ih
    | _ => rfl

end Document

namespace Collection

def insertInPlace (name : String) (fresh : ObjectId) (d : Document) :
    InPlace (List Document) InsertFault ObjectId := do
  let d := d.withId fresh
  match (Document.get d idKey).bind Value.asObjectId? with
  | none => throw .identifierKind
  | some id =>
    if holdsId ⟨name, ← get⟩ id then throw (.duplicateKey id name)
    modify (· ++ [d])
    return id

/-- Acts on the first document that satisfies a query, among those at some positions. -/
def atFirst (query : Document)
    (act : Nat → Document → InPlace (List Document) QueryFault (Option Document)) :
    List Nat → InPlace (List Document) QueryFault (Option Document)
  | [] => return none
  | i :: positions => do
    match (← get)[i]? with
    | none => return none
    | some d => if ← d.matches query then act i d else atFirst query act positions

/-- The update works on a copy, which is stored when it is done. -/
def replaceAt (update : Document) (i : Nat) (d : Document) :
    InPlace (List Document) QueryFault (Option Document) := do
  match (Document.updateInPlace update).runOn d with
  | (.error fault, _) => throw fault
  | (.ok (), image) =>
    modify (·.set i image)
    return some image

def takeAt (i : Nat) (d : Document) : InPlace (List Document) QueryFault (Option Document) := do
  modify (·.eraseIdx i)
  return some d

def onFirst (query : Document)
    (act : Nat → Document → InPlace (List Document) QueryFault (Option Document)) :
    InPlace (List Document) QueryFault (Option Document) := do
  atFirst query act (List.range (← get).length)

def marks (query : Document) (ds : List Document) : Except QueryFault (List Bool) :=
  ds.mapM (Document.matches · query)

/-- The documents whose turn is not marked; those past the last mark stay. -/
def unmarked : List Bool → List Document → List Document
  | mark :: marks, d :: ds => if mark then unmarked marks ds else d :: unmarked marks ds
  | _, ds => ds

/-- All documents are asked before one of them is removed. -/
def deleteManyInPlace (query : Document) : InPlace (List Document) QueryFault Nat := do
  let size := (← get).length
  let doomed ← marks query (← get)
  modify (unmarked doomed)
  return size - (← get).length

/-- The documents that an operation leaves, in its place, with its answer. -/
def outcome {α ε : Type} (c : Collection) :
    Except ε (α × Collection) → Except ε α × List Document
  | .ok (a, after) => (.ok a, after.documents)
  | .error fault => (.error fault, c.documents)

theorem runOn_insertInPlace (c : Collection) (fresh : ObjectId) (d : Document) :
    (insertInPlace c.name fresh d).runOn c.documents = c.outcome (c.insert fresh d) := by
  unfold insertInPlace insert
  dsimp only
  cases (Document.get (d.withId fresh) idKey).bind Value.asObjectId? with
  | none => rfl
  | some id =>
    cases hheld : c.holdsId id <;>
      simp only [InPlace.runOn_bind, InPlace.runOn_get, hheld] <;> rfl

section First

variable (query : Document)
  (act : Nat → Document → InPlace (List Document) QueryFault (Option Document))

/-- What was asked already stands in front, so that positions agree with those in the whole list. -/
theorem runOn_atFirst (before ds : List Document) :
    (atFirst query act (List.range' before.length ds.length)).runOn (before ++ ds) =
      match splitFirst query ds with
      | .ok (some (skipped, found, _)) =>
        (act (before.length + skipped.length) found).runOn (before ++ ds)
      | .ok none => (.ok none, before ++ ds)
      | .error fault => (.error fault, before ++ ds) := by
  induction ds generalizing before with
  | nil => rfl
  | cons d ds ih =>
    have hd : (before ++ d :: ds)[before.length]? = some d := by simp
    rw [List.length_cons, List.range'_succ, atFirst, splitFirst]
    simp only [InPlace.runOn_bind, InPlace.runOn_get, hd, InPlace.runOn_lift]
    cases d.matches query with
    | error fault => rfl
    | ok holds =>
      cases holds with
      | true => rfl
      | false =>
        have hrest := ih (before ++ [d])
        rw [List.length_append, List.length_singleton, List.append_assoc,
          List.singleton_append] at hrest
        refine Eq.trans hrest ?_
        cases splitFirst query ds with
        | error fault => rfl
        | ok split =>
          cases split with
          | none => rfl
          | some parts =>
            obtain ⟨skipped, found, after⟩ := parts
            change (act (before.length + 1 + skipped.length) found).runOn _ =
              (act (before.length + (skipped.length + 1)) found).runOn _
            rw [Nat.add_right_comm, Nat.add_assoc]

theorem runOn_onFirst (ds : List Document) : (onFirst query act).runOn ds =
    match splitFirst query ds with
    | .ok (some (skipped, found, _)) => (act skipped.length found).runOn ds
    | .ok none => (.ok none, ds)
    | .error fault => (.error fault, ds) := by
  have hloop := runOn_atFirst query act [] ds
  simp only [List.nil_append, List.length_nil, Nat.zero_add, ← List.range_eq_range'] at hloop
  exact hloop

end First

/-- The update of a copy may have written before it was refused, and this is not stored. -/
theorem runOn_replaceAt (update : Document) (skipped after : List Document) (found : Document) :
    (replaceAt update skipped.length found).runOn (skipped ++ found :: after) =
      match Document.update found update with
      | .ok image => (.ok (some image), skipped ++ image :: after)
      | .error fault => (.error fault, skipped ++ found :: after) := by
  have hcopy := Document.performs_update update found
  unfold replaceAt
  cases hu : Document.update found update with
  | ok image =>
    rw [hu] at hcopy
    rw [show (Document.updateInPlace update).runOn found = _ from hcopy]
    change (Except.ok (some image), (skipped ++ found :: after).set skipped.length image) = _
    rw [List.set_append_right _ _ (Nat.le_refl _), Nat.sub_self, List.set_cons_zero]
  | error fault =>
    rw [hu] at hcopy
    rcases hrun : (Document.updateInPlace update).runOn found with ⟨answer, part⟩
    obtain rfl : answer = .error fault := by
      simpa [InPlace.Performs, hrun] using hcopy
    rfl

theorem runOn_update (c : Collection) (query update : Document) :
    (onFirst query (replaceAt update)).runOn c.documents =
      c.outcome (c.findOneAndUpdate query update) := by
  rw [runOn_onFirst, findOneAndUpdate]
  cases hs : splitFirst query c.documents with
  | error fault => rfl
  | ok split =>
    cases split with
    | none => rfl
    | some parts =>
      obtain ⟨skipped, found, after⟩ := parts
      have hds := (splitFirst_eq_some_iff.mp hs).1
      have hreplace := runOn_replaceAt update skipped after found
      rw [← hds] at hreplace
      refine Eq.trans hreplace ?_
      cases hu : Document.update found update with
      | ok image => simp only [bind, Except.bind, hu]; rfl
      | error fault => simp only [bind, Except.bind, hu]; rfl

theorem runOn_delete (c : Collection) (query : Document) :
    (onFirst query takeAt).runOn c.documents = c.outcome (c.findOneAndDelete query) := by
  rw [runOn_onFirst, findOneAndDelete]
  cases hs : splitFirst query c.documents with
  | error fault => rfl
  | ok split =>
    cases split with
    | none => rfl
    | some parts =>
      obtain ⟨skipped, found, after⟩ := parts
      have hds := (splitFirst_eq_some_iff.mp hs).1
      change (Except.ok (some found), c.documents.eraseIdx skipped.length) =
        (Except.ok (some found), skipped ++ after)
      rw [hds, List.eraseIdx_append_of_length_le (Nat.le_refl _), Nat.sub_self,
        List.eraseIdx_cons_zero]

theorem rest_eq_unmarked (query : Document) (ds : List Document) :
    rest query ds = (marks query ds).map (unmarked · ds) := by
  induction ds with
  | nil => rfl
  | cons d ds ih =>
    rw [rest, marks, List.mapM_cons, ih, marks]
    cases d.matches query with
    | error fault => rfl
    | ok mark =>
      cases ds.mapM (Document.matches · query) with
      | error fault => rfl
      | ok marks => cases mark <;> rfl

theorem runOn_deleteManyInPlace (c : Collection) (query : Document) :
    (deleteManyInPlace query).runOn c.documents = c.outcome (c.deleteMany query) := by
  unfold deleteManyInPlace deleteMany
  rw [rest_eq_unmarked]
  simp only [InPlace.runOn_bind, InPlace.runOn_get, InPlace.runOn_lift]
  cases marks query c.documents <;> rfl

/-- In its place an operation answers and leaves what it does on the collection, and leaves every
document as it was if it ends with a fault. -/
def AllOrNothing {ε α : Type} (c : Collection) (inPlace : InPlace (List Document) ε α)
    (result : Except ε (α × Collection)) : Prop :=
  inPlace.runOn c.documents = c.outcome result ∧
    ∀ fault left, inPlace.runOn c.documents = (.error fault, left) → left = c.documents

theorem allOrNothing_of_outcome {ε α : Type} {c : Collection}
    {inPlace : InPlace (List Document) ε α} {result : Except ε (α × Collection)}
    (h : inPlace.runOn c.documents = c.outcome result) : c.AllOrNothing inPlace result := by
  refine ⟨h, ?_⟩
  intro fault left hrun
  rw [h] at hrun
  cases result with
  | ok answer => cases hrun
  | error e =>
    cases hrun
    rfl

/-- Operations agree with what a query finds, and are done as a whole or not at all. Where a query
is refused by no document, a stage finds the same documents, one is the first of them, one is
removed or replaced by its new image at its position alone, and many are removed and counted while
the others stay in order. In their place the operations do the same, and what they are refused by
leaves no trace in what is stored. -/
theorem operations_agree_with_find (c : Collection) :
    (∀ query found, c.find query = .ok found →
      c.aggregate [(Stage.filter query).toDocument] = .ok found ∧
      c.findOne query = .ok found.head? ∧
      (∃ holds : Document → Bool, (∀ d ∈ c.documents, d.matches query = .ok (holds d)) ∧
        found = c.documents.filter holds ∧
        c.deleteMany query = .ok (found.length,
          { c with documents := c.documents.filter (fun d => !holds d) })) ∧
      (found = [] → c.findOneAndDelete query = .ok (none, c) ∧
        ∀ update, c.findOneAndUpdate query update = .ok (none, c)) ∧
      ∀ first later, found = first :: later → ∃ before after,
        c.documents = before ++ first :: after ∧
        (∀ d ∈ before, d.matches query = .ok false) ∧ first.matches query = .ok true ∧
        c.findOneAndDelete query = .ok (some first, { c with documents := before ++ after }) ∧
        ∀ update, c.findOneAndUpdate query update = (Document.update first update).map
          (fun image => (some image, { c with documents := before ++ image :: after }))) ∧
    (∀ fresh d, c.AllOrNothing (insertInPlace c.name fresh d) (c.insert fresh d)) ∧
    (∀ query update, c.AllOrNothing (onFirst query (replaceAt update))
      (c.findOneAndUpdate query update)) ∧
    (∀ query, c.AllOrNothing (onFirst query takeAt) (c.findOneAndDelete query)) ∧
    ∀ query, c.AllOrNothing (deleteManyInPlace query) (c.deleteMany query) := by
  refine ⟨?_, fun fresh d => allOrNothing_of_outcome (runOn_insertInPlace c fresh d),
    fun query update => allOrNothing_of_outcome (runOn_update c query update),
    fun query => allOrNothing_of_outcome (runOn_delete c query),
    fun query => allOrNothing_of_outcome (runOn_deleteManyInPlace c query)⟩
  intro query found hfind
  have hanswers := answers_of_keep hfind
  have hfound := Except.ok.inj (hfind.symm.trans (keep_of_answers hanswers))
  have hdelete := deleteMany_of_answers hanswers
  rw [← hfound] at hdelete
  refine ⟨(c.aggregate_filter query).trans hfind, ?_, ⟨_, hanswers, hfound, hdelete⟩, ?_, ?_⟩
  · cases found with
    | nil =>
      rw [findOne, splitFirst_of_find_nil hfind]
      rfl
    | cons first later =>
      obtain ⟨before, after, hs⟩ := splitFirst_of_find_cons hfind
      rw [findOne, hs]
      rfl
  · rintro rfl
    have hs := splitFirst_of_find_nil hfind
    refine ⟨?_, fun update => ?_⟩
    · rw [findOneAndDelete, hs]
      rfl
    · rw [findOneAndUpdate, hs]
      rfl
  · rintro first later rfl
    obtain ⟨before, after, hs⟩ := splitFirst_of_find_cons hfind
    obtain ⟨hds, hbefore, hfirst⟩ := splitFirst_eq_some_iff.mp hs
    refine ⟨before, after, hds, hbefore, hfirst, ?_, fun update => ?_⟩
    · rw [findOneAndDelete, hs]
      rfl
    · rw [findOneAndUpdate, hs]
      cases hu : Document.update first update with
      | ok image => simp only [bind, Except.bind, hu]; rfl
      | error fault => simp only [bind, Except.bind, hu]; rfl

/-- The update is refused at its second field, when the copy has the first already. -/
theorem operations_agree_with_find_titles :
    let photo (title : String) (size : Int32) : Document :=
      [("title", .string title), ("size", .int32 size)]
    let c : Collection := ⟨"records", [photo "a" 1, photo "b" 2, photo "b" 3]⟩
    let query : Document := [("title", .string "b")]
    let update : Document := [("$set", .document [("size", .int32 7), ("_id", .null)])]
    c.find query = .ok [photo "b" 2, photo "b" 3] ∧
      c.findOne query = .ok (some (photo "b" 2)) ∧
      (∃ before after, c.documents = before ++ photo "b" 2 :: after ∧
        c.findOneAndDelete query =
          .ok (some (photo "b" 2), { c with documents := before ++ after })) ∧
      ((Document.updateInPlace update).runOn (photo "b" 2)).2.same (photo "b" 7) = true ∧
      ∃ fault, (onFirst query (replaceAt update)).runOn c.documents =
        (.error fault, c.documents) := by
  intro photo c query update
  obtain ⟨hagree, -, hupdate, -⟩ := operations_agree_with_find c
  have hfind : c.find query = .ok [photo "b" 2, photo "b" 3] := rfl
  obtain ⟨-, hone, -, -, hfirst⟩ := hagree query _ hfind
  obtain ⟨before, after, hds, -, -, hdelete, himage⟩ := hfirst _ _ rfl
  refine ⟨hfind, hone, ⟨before, after, hds, hdelete⟩, by decide +kernel, ?_⟩
  have hrefused : (Document.update (photo "b" 2) update).toOption.isNone = true := by
    decide +kernel
  have houtcome := (hupdate query update).1
  rw [himage] at houtcome
  cases hu : Document.update (photo "b" 2) update with
  | ok image => rw [hu] at hrefused; cases hrefused
  | error fault =>
    rw [hu] at houtcome
    exact ⟨fault, houtcome⟩

end Collection

end DocumentStore
