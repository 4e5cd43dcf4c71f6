import DocumentStore.Proofs.Service.Listing

/-! The pages of a listing one after another. Counted from one, they are what the filters keep, cut
into pieces of one size, and each says whether there is something on the next. -/

namespace DocumentStore

section Slices

variable {α : Type}

/-- What is on a page, counted from one. -/
def onPage (xs : List α) (number size : Nat) : List α :=
  (xs.drop ((number - 1) * size)).take size

theorem flatMap_onPage (xs : List α) (size count : Nat) :
    (List.range count).flatMap (fun i => onPage xs (i + 1) size) = xs.take (count * size) := by
  induction count with
  | zero => simp
  | succ count ih =>
    rw [List.range_succ, List.flatMap_append, ih, Nat.succ_mul, List.take_add]
    simp [onPage]

theorem onPage_ne_nil_iff {xs : List α} {number size : Nat} (hsize : 0 < size) :
    onPage xs number size ≠ [] ↔ (number - 1) * size < xs.length := by
  rw [onPage, ← List.length_pos_iff, List.length_take, List.length_drop]
  omega

/-- What is skipped may end at any number that the list does not reach. -/
theorem drop_min {xs : List α} {bound : Nat} (h : xs.length ≤ bound) (n : Nat) :
    xs.drop (min n bound) = xs.drop n := by
  by_cases hn : n ≤ bound
  · rw [Nat.min_eq_left hn]
  · rw [List.drop_eq_nil_of_le (by omega), List.drop_eq_nil_of_le (by omega)]

end Slices

theorem Pagination.page_of_pos {size : UInt64} (h : 0 < size) (number : UInt64) :
    ∃ page, Pagination.page number size = .ok page ∧
      page.skip.toNat = min ((number.toNat - 1) * size.toNat) maxCount ∧ page.limit = size := by
  have hskip : min ((number.toNat - 1) * size.toNat) maxCount < UInt64.size := by
    have hmax : maxCount < UInt64.size := by decide
    omega
  exact ⟨⟨_, size, h⟩, dif_pos h, UInt64.toNat_ofNat_of_lt hskip, rfl⟩

namespace Model

variable {β δ : Type} (m : Model β δ) {c : Collection} {s : FilterSet} {plan : MatchPlan}
  {found : List Document} {size : UInt64}

/-- No more can be skipped than the largest count, and nothing is left beyond it. -/
theorem filteredDocuments_page (hsize : c.size < 2 ^ 31)
    (hplan : MatchPlan.ofFilterSet s = .ok plan)
    (hrun : Pipeline.run (Pipeline.ofStages plan.stages) c.documents = .ok found)
    (hpos : 0 < size) (number : UInt64) :
    ∃ listing, (∃ page, Pagination.page number size = .ok page ∧
        m.filteredDocuments c s page .full = .ok listing) ∧
      listing.results = onPage found number.toNat size.toNat ∧
      (1 ≤ number → (listing.hasNext = true ↔ number.toNat * size.toNat < found.length)) := by
  obtain ⟨page, hpage, hskip, hlimit⟩ := Pagination.page_of_pos hpos number
  obtain ⟨total, htotal, hdocuments⟩ := m.filteredDocuments_ok page .full hsize hplan hrun
  have hlength : found.length ≤ maxCount := by
    have hfound := (Pipeline.sublist_of_run_stages hrun).length_le
    have hmax : 2 ^ 31 ≤ maxCount := by decide
    have hc : c.size = c.documents.length := rfl
    omega
  have hresults : ((found.drop page.skip.toNat).take page.limit.toNat).map
      (Projection.full.view m.bulkField) = onPage found number.toNat size.toNat := by
    have hview : Projection.full.view m.bulkField = id := rfl
    rw [hview, List.map_id, hskip, hlimit, drop_min hlength, onPage]
  rw [hresults] at hdocuments
  refine ⟨_, ⟨page, hpage, hdocuments⟩, rfl, fun hnumber => ?_⟩
  have hone : 1 ≤ number.toNat := hnumber
  obtain ⟨before, hbefore⟩ : ∃ before, number.toNat = before + 1 := ⟨number.toNat - 1, by omega⟩
  have hpos' : 0 < size.toNat := hpos
  simp only [Listing.hasNext, decide_eq_true_eq, htotal, hskip, onPage, List.length_take,
    List.length_drop, hbefore, Nat.add_sub_cancel, Nat.succ_mul]
  omega

/-- The first pages together are the beginning of what the filters keep, in its order, and a page
says that there is a next one exactly if this is not empty. Pages are counted from one. -/
theorem pages_tile (hsize : c.size < 2 ^ 31) (hplan : MatchPlan.ofFilterSet s = .ok plan)
    (hrun : Pipeline.run (Pipeline.ofStages plan.stages) c.documents = .ok found)
    (hpos : 0 < size) :
    ∃ listing : UInt64 → Listing Document,
      (∀ number, ∃ page, Pagination.page number size = .ok page ∧
        m.filteredDocuments c s page .full = .ok (listing number)) ∧
      (∀ k : UInt64, (List.range k.toNat).flatMap
          (fun i => (listing (UInt64.ofNat (i + 1))).results) =
        found.take (min (k.toNat * size.toNat) found.length)) ∧
      ∀ k : UInt64, 1 ≤ k → k.toNat < maxCount →
        ((listing k).hasNext = true ↔ (listing (k + 1)).results ≠ []) := by
  choose listing hlisting hresults hnext using
    m.filteredDocuments_page hsize hplan hrun hpos
  refine ⟨listing, hlisting, ?_, ?_⟩
  · intro k
    have hpages : (List.range k.toNat).map (fun i => (listing (UInt64.ofNat (i + 1))).results) =
        (List.range k.toNat).map (fun i => onPage found (i + 1) size.toNat) := by
      refine List.map_congr_left fun i hi => ?_
      have hk := k.toNat_lt
      have hbound : i + 1 < UInt64.size := by
        have hsize : UInt64.size = 2 ^ 64 := rfl
        have hik := List.mem_range.mp hi
        omega
      rw [hresults, UInt64.toNat_ofNat_of_lt' hbound]
    rw [List.flatMap_def, hpages, ← List.flatMap_def, flatMap_onPage, List.take_eq_take_iff]
    omega
  · intro k hk hmax
    have hsum : (k + 1).toNat = k.toNat + 1 := by
      have hsize : maxCount = 2 ^ 64 - 1 := rfl
      have hone : (1 : UInt64).toNat = 1 := rfl
      rw [UInt64.toNat_add, hone, Nat.mod_eq_of_lt (by omega)]
    have hpos' : 0 < size.toNat := hpos
    rw [hnext k hk, hresults, onPage_ne_nil_iff hpos', hsum, Nat.add_sub_cancel]

end Model

namespace Record

/-- Of three photos two are tagged, so that the last of three pages is empty. -/
theorem pages_tile_photos :
    let s : FilterSet := ⟨[.leaf ⟨.ofString "tags", false, .equals "sea"⟩]⟩
    let photo (title tag : String) : Document :=
      [("title", .string title), ("tags", textsValue [tag])]
    let c : Collection := ⟨"records", [photo "a" "sea", photo "b" "sun", photo "c" "sea"]⟩
    ∃ listing : UInt64 → Listing Document,
      (∀ number, ∃ page, Pagination.page number 1 = .ok page ∧
        model.filteredDocuments c s page .full = .ok (listing number)) ∧
      (listing 1).results ++ ((listing 2).results ++ (listing 3).results) =
        [photo "a" "sea", photo "c" "sea"] ∧
      ((listing 2).hasNext = true ↔ (listing 3).results ≠ []) := by
  intro s photo c
  have hsize : c.size < 2 ^ 31 := by decide
  have hplan : MatchPlan.ofFilterSet s = .ok ⟨s.entries.map FilterEntry.query⟩ :=
    MatchPlan.ofFilterSet_of_isCompilable (by decide +kernel)
  have hrun : Pipeline.run
      (Pipeline.ofStages (MatchPlan.mk (s.entries.map FilterEntry.query)).stages) c.documents =
        .ok [photo "a" "sea", photo "c" "sea"] := by
    cbv
  obtain ⟨listing, hlisting, htile, hnext⟩ :=
    model.pages_tile hsize hplan hrun (show (0 : UInt64) < 1 by decide)
  have hpages := htile 3
  have hrange : List.range (3 : UInt64).toNat = [0, 1, 2] := by decide
  rw [hrange] at hpages
  simp only [List.flatMap_cons, List.flatMap_nil, List.append_nil] at hpages
  exact ⟨listing, hlisting, hpages, hnext 2 (by decide) (by decide)⟩

/-- The page before the first is the first, which nothing follows, although it is not empty. -/
theorem zeroth_page_is_first :
    let photo : Document := [("title", .string "a")]
    let c : Collection := ⟨"records", [photo]⟩
    ∃ plan zeroth first listing listing', c.size < 2 ^ 31 ∧
      MatchPlan.ofFilterSet .empty = .ok plan ∧
      Pipeline.run (Pipeline.ofStages plan.stages) c.documents = .ok [photo] ∧
      Pagination.page 0 1 = .ok zeroth ∧ Pagination.page (0 + 1) 1 = .ok first ∧
      model.filteredDocuments c .empty zeroth .full = .ok listing ∧
      model.filteredDocuments c .empty first .full = .ok listing' ∧
      listing.hasNext = false ∧ listing'.results ≠ [] := by
  intro photo c
  let page : Pagination := ⟨0, 1, by decide⟩
  have hsize : c.size < 2 ^ 31 := by decide
  have hplan : MatchPlan.ofFilterSet .empty = .ok ⟨[]⟩ := rfl
  have hrun : Pipeline.run (Pipeline.ofStages (MatchPlan.mk []).stages) c.documents =
      .ok [photo] := rfl
  obtain ⟨total, htotal, hdocuments⟩ :=
    model.filteredDocuments_ok page .full hsize hplan hrun
  have hnext : (Listing.mk 0 1 total [photo]).hasNext = false := by
    simp [Listing.hasNext, htotal]
  exact ⟨_, page, page, _, _, hsize, hplan, hrun, rfl, rfl, hdocuments, hdocuments, hnext,
    List.cons_ne_nil photo []⟩

end Record

end DocumentStore
