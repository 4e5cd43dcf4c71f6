import DocumentStore.Proofs.Entity.Written
import DocumentStore.Proofs.Service.Identity
import DocumentStore.Proofs.Service.Listing

/-! What the removal of many entities answers and leaves. It finds the documents before it takes
them out, and among identifiers that are distinct both go by the same ones. -/

namespace DocumentStore

namespace Document

theorem hasIdIn_congr {named others : List ObjectId} (h : ∀ id, id ∈ named ↔ id ∈ others)
    (d : Document) : d.hasIdIn named = d.hasIdIn others := by
  have hcontains : named.contains = others.contains := by
    funext id
    simp only [List.contains_eq_mem, h id]
  rw [hasIdIn, hasIdIn, hcontains]

end Document

namespace Model

variable {β δ : Type} (m : Model β δ)

/-- The documents of a collection are read as these entities. -/
def Stores (c : Collection) (entities : List (Entity β)) : Prop :=
  List.Forall₂ (fun d e => m.decode d = .ok e) c.documents entities

variable {m}
variable {c : Collection} {ids : List ObjectId} {entities : List (Entity β)}

/-- The identifier that is read is the one that the document is found by. -/
theorem Stores.with_ids (hs : m.Stores c entities) (h : c.HasIds ids) :
    List.Forall₂ (fun d e => d.id? = .ok e.id ∧ m.decode d = .ok e) c.documents entities := by
  have hids : ∀ d ∈ c.documents, ∃ id, d.id? = .ok id := by
    intro d hd
    obtain ⟨id, -, hid⟩ := h.exists_id hd
    exact ⟨id, hid⟩
  refine ((List.forall₂_and_left _ _).mpr ⟨hids, hs⟩).imp ?_
  rintro d e ⟨⟨id, hid⟩, he⟩
  rw [m.id_of_decode he hid]
  exact ⟨hid, he⟩

theorem Stores.ids_eq (hs : m.Stores c entities) (h : c.HasIds ids) :
    entities.map Entity.id = ids := by
  have hdocuments : c.documents.map Document.id? = (entities.map Entity.id).map .ok := by
    rw [← List.forall₂_eq_eq_eq, List.map_map, List.forall₂_map_left_iff,
      List.forall₂_map_right_iff]
    exact (hs.with_ids h).imp fun d e he => he.1
  have hinj : Function.Injective (Except.ok : ObjectId → Except QueryFault ObjectId) :=
    fun _ _ => Except.ok.inj
  exact List.map_injective_iff.mpr hinj (hdocuments.symm.trans h)

/-- Documents picked by their identifiers are read as the entities with these. -/
theorem Stores.filter (hs : m.Stores c entities) (h : c.HasIds ids) (named : List ObjectId) :
    m.Stores { c with documents := c.documents.filter (fun d => d.hasIdIn named) }
        (entities.filter (fun e => e.id ∈ named)) ∧
      m.Stores { c with documents := c.documents.filter (fun d => !d.hasIdIn named) }
        (entities.filter (fun e => e.id ∉ named)) := by
  have hnamed : ∀ d (e : Entity β), d.id? = .ok e.id ∧ m.decode d = .ok e →
      d.hasIdIn named = decide (e.id ∈ named) := by
    intro d e he
    rw [Document.hasIdIn_of_id? named he.1, List.contains_eq_mem]
  constructor
  · refine (List.rel_filter ?_ (hs.with_ids h)).imp fun d e he => he.2
    intro d e he
    dsimp only
    rw [hnamed d e he]
  · refine (List.rel_filter ?_ (hs.with_ids h)).imp fun d e he => he.2
    intro d e he
    dsimp only
    rw [hnamed d e he, decide_not]

/-- The removal of many entities answers those that are named, each once and in the order in which
they are stored, and takes out their documents alone. It goes by which identifiers are named: it
skips unknown ones, and neither their order nor how often they are named matters. -/
theorem deleteMany_exact (h : c.HasIds ids) (hn : ids.Nodup) (hs : m.Stores c entities)
    (named : List ObjectId) :
    m.deleteMany c named = (.ok (entities.filter (fun e => e.id ∈ named)),
        { c with documents := c.documents.filter (fun d => !d.hasIdIn named) }) ∧
      ((entities.filter (fun e => e.id ∈ named)).map Entity.id).Nodup ∧
      m.Stores (m.deleteMany c named).2 (entities.filter (fun e => e.id ∉ named)) ∧
      ∀ others, (∀ id, id ∈ others ↔ id ∈ named) →
        m.deleteMany c others = m.deleteMany c named := by
  obtain ⟨hfound, hkept⟩ := hs.filter h named
  have hanswer : (c.documents.filter (fun d => d.hasIdIn named)).mapM m.decodeStored =
      .ok (entities.filter (fun e => e.id ∈ named)) :=
    Traversal.mapM_eq_ok_iff.mpr (hfound.imp fun d e he => m.decodeStored_ok_iff.mpr he)
  refine ⟨?_, ?_, ?_, ?_⟩
  · rw [m.deleteMany_of_hasIds h, hanswer]
  · rw [← hs.ids_eq h] at hn
    exact hn.sublist (List.filter_sublist.map Entity.id)
  · rw [m.deleteMany_of_hasIds h]
    exact hkept
  · intro others hsame
    simp only [m.deleteMany_of_hasIds h, Document.hasIdIn_congr hsame]

end Model

/-- Of three photos the first and the last are named, the last twice, beside one that is not
stored. -/
theorem Record.deleteMany_exact_photos :
    let id (n : UInt8) : ObjectId := ⟨List.replicate 12 n, List.length_replicate⟩
    let photo (n : UInt8) : Record := ⟨id n, .embedded "photo" (.int32 7), 0, 0⟩
    let c : Collection := ⟨"records", [photo 1, photo 2, photo 3].map model.encode⟩
    model.deleteMany c [id 3, id 9, id 1, id 3] =
        (.ok [photo 1, photo 3], ⟨"records", [model.encode (photo 2)]⟩) ∧
      model.deleteMany c [id 1, id 9, id 3] = model.deleteMany c [id 3, id 9, id 1, id 3] := by
  intro id photo c
  have hids : c.HasIds [id 1, id 2, id 3] := rfl
  have hread (n : UInt8) : model.decode (model.encode (photo n)) = .ok (photo n) := by rfl
  have hstored : model.Stores c [photo 1, photo 2, photo 3] :=
    .cons (hread 1) (.cons (hread 2) (.cons (hread 3) .nil))
  obtain ⟨hanswer, -, -, hcongr⟩ :=
    Model.deleteMany_exact hids (by decide) hstored [id 3, id 9, id 1, id 3]
  refine ⟨hanswer.trans rfl, hcongr _ fun other => ?_⟩
  simp only [List.mem_cons, List.not_mem_nil, or_false]
  constructor
  · rintro (h | h | h) <;> simp [h]
  · rintro (h | h | h | h) <;> simp [h]

end DocumentStore
