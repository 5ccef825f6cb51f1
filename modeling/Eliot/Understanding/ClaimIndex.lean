import Eliot.Understanding.Claims

namespace Understanding
open Relational List Table

def ClaimStore.Indexed (store : ClaimStore) : Prop :=
  Shows store.claimFts store.claims.rows store.entry

namespace ClaimStore

variable {store : ClaimStore}

theorem entry_keyed (store : ClaimStore) (claim : Claim) (shown : ClaimFts)
    (found : store.entry claim = some shown) : shown.claimId = claim.id := by
  unfold entry at found
  split at found
  · cases found
    rfl
  · cases found

theorem entry_congr {other : ClaimStore} {claim : Claim}
    (same : other.revisions.find claim.sourceRevisionId =
      store.revisions.find claim.sourceRevisionId) : other.entry claim = store.entry claim := by
  unfold entry visible
  rw [same]

theorem Indexed.rewrite (indexed : store.Indexed) {claims : Table Claim Uuid (·.id)} {new : Claim}
    (found : claims.find new.id = some new)
    (others : claims.rows.filter (fun row => row.id ≠ new.id) =
      store.claims.rows.filter fun row => row.id ≠ new.id) :
    Indexed { store with
      claims, claimFts := store.claimFts.filter (·.claimId ≠ new.id) ++ (store.entry new).toList } := by
  have own := claims.filter_key new.id
  rw [found] at own
  simp only [ne_eq, decide_not] at others
  have refreshed := indexed.refresh (fun id => decide (id = new.id)) store.entry_keyed
    (congrArg (List.filterMap store.entry) others)
  have single : [new].filterMap store.entry = (store.entry new).toList := by
    cases entry : store.entry new <;> simp [entry]
  rw [own, Option.toList_some, single] at refreshed
  simp only [ne_eq, decide_not]
  exact refreshed

theorem Indexed.insert (indexed : store.Indexed) {claims : Table Claim Uuid (·.id)} {new : Claim}
    (inserted : store.claims.insert new = some claims) :
    ({ store with claims }.claimFtsInsert new).Indexed := by
  obtain ⟨fresh, rows⟩ := insert_some inserted
  have absent := find_none.mp fresh
  have found : claims.find new.id = some new := by rw [find_insert inserted, if_pos rfl]
  have whole : store.claimFts.filter (·.claimId ≠ new.id) = store.claimFts := by
    rw [filter_eq_self]
    intro shown member
    obtain ⟨claim, present, entry⟩ := indexed.mem.mp member
    rw [store.entry_keyed claim shown entry]
    exact decide_eq_true (absent claim present)
  have others : claims.rows.filter (fun row => row.id ≠ new.id) =
      store.claims.rows.filter fun row => row.id ≠ new.id := by
    rw [rows, filter_append, filter_singleton]
    simp
  have rewritten := indexed.rewrite found others
  rwa [whole] at rewritten

theorem Indexed.update (indexed : store.Indexed) {old : Claim} (new : Claim) (stored : old ∈ store.claims)
    (same : new.id = old.id) : ({ store with
      claims := store.claims.update (·.id = old.id) fun row => { new with id := row.id }
    }.claimFtsUpdate old new).Indexed := by
  have found : (store.claims.update (·.id = old.id) fun row => { new with id := row.id }).find new.id =
      some new := by
    rw [find_update, same, find_some.mpr ⟨stored, rfl⟩]
    simp [← same]
  have others : ∀ rows : List Claim,
      (rows.map fun row => if row.id = old.id then { new with id := row.id } else row).filter
        (fun row => row.id ≠ new.id) = rows.filter fun row => row.id ≠ new.id := by
    intro rows
    induction rows with
    | nil => rfl
    | cons row rows ih =>
      by_cases own : row.id = old.id
      · simpa [own, same] using ih
      · simpa [own, same] using ih
  have rewritten := indexed.rewrite found (by simpa [Table.update] using others store.claims.rows)
  rwa [same] at rewritten

theorem Indexed.head (indexed : store.Indexed) {revisions : Table Revision Uuid (·.id)}
    {new : Revision} (found : revisions.find new.id = some new)
    (others : ∀ id, id ≠ new.id → revisions.find id = store.revisions.find id) :
    ({ store with revisions }.claimFtsHead new).Indexed := by
  let own := store.claims.rows.filter (·.sourceRevisionId = new.id)
  let changed : ClaimStore := { store with revisions }
  have stale : ∀ claim ∈ store.claims,
      (own.map (·.id)).contains claim.id = decide (claim.sourceRevisionId = new.id) := by
    intro claim present
    rw [Bool.eq_iff_iff, contains_iff_mem, mem_map, decide_eq_true_iff]
    constructor
    · rintro ⟨other, member, equal⟩
      obtain ⟨stored, mine⟩ := mem_filter.mp member
      rw [← eq_of_key stored present equal]
      exact of_decide_eq_true mine
    · exact fun mine => ⟨claim, mem_filter.mpr ⟨present, decide_eq_true mine⟩, rfl⟩
  have kept : (store.claims.rows.filter fun claim => !(own.map (·.id)).contains claim.id).filterMap
      changed.entry = (store.claims.rows.filter fun claim =>
        !(own.map (·.id)).contains claim.id).filterMap store.entry := by
    apply filterMap_congr
    intro claim member
    obtain ⟨stored, foreign⟩ := mem_filter.mp member
    rw [stale claim stored, Bool.not_eq_true', decide_eq_false_iff_not] at foreign
    exact entry_congr (others _ foreign)
  have refreshed := indexed.refresh (fun id => (own.map (·.id)).contains id) store.entry_keyed kept
  have mine : store.claims.rows.filter (fun claim => (own.map (·.id)).contains claim.id) = own :=
    filter_congr stale
  have shown : own.filterMap changed.entry = (own.filter (·.ordinal < new.claimCount)).map (·.indexed) := by
    have each : ∀ claim ∈ own, changed.entry claim =
        if claim.ordinal < new.claimCount then some claim.indexed else none := by
      intro claim member
      have of : claim.sourceRevisionId = new.id := of_decide_eq_true (mem_filter.mp member).2
      simp [entry, visible, changed, of, found]
    rw [filterMap_congr each, ← filterMap_eq_map]
    generalize own = rows
    rw [filterMap_filter]
    simp
  rw [mine, shown] at refreshed
  exact refreshed

end ClaimStore

theorem Statement.indexed {store after : ClaimStore} (statement : Statement)
    (ran : statement.run store = some after) (indexed : store.Indexed) : after.Indexed := by
  cases statement with
  | upsert allowed claim =>
    simp only [Statement.run, ClaimStore.upsertClaim] at ran
    split at ran
    · cases ran
      exact indexed
    · split at ran
      · rename_i old found
        cases ran
        exact indexed.update { claim with id := old.id } (mem_of_find?_eq_some found) rfl
      · obtain ⟨claims, inserted, rfl⟩ := Option.map_eq_some_iff.mp ran
        exact indexed.insert inserted
  | head id test change keeps =>
    simp only [Statement.run, ClaimStore.updateHead, Option.some.injEq] at ran
    subst ran
    split
    · exact indexed
    · rename_i old found
      split
      · have same : (change old).id = id := (keeps old).trans (find_some.mp found).2
        apply indexed.head
        · rw [same, find_update, found]
          simp [(find_some.mp found).2]
        · intro other apart
          rw [same] at apart
          rw [find_update]
          cases stored : store.revisions.find other with
          | none => rfl
          | some row => simp [(find_some.mp stored).2, apart]
      · exact indexed
  | revisions test change keeps =>
    simp only [Statement.run, ClaimStore.updateRevisions, Option.some.injEq] at ran
    subst ran
    have same : ∀ claim, (store.updateRevisions test change fun row => (keeps row).1).entry claim =
        store.entry claim := by
      intro claim
      unfold ClaimStore.entry ClaimStore.visible ClaimStore.updateRevisions
      rw [find_update]
      cases store.revisions.find claim.sourceRevisionId with
      | none => rfl
      | some row =>
        simp only [Option.map_some, Option.any_some]
        split <;> simp [(keeps row).2]
    show Shows store.claimFts store.claims.rows
      (store.updateRevisions test change fun row => (keeps row).1).entry
    rw [funext same]
    exact indexed

theorem ClaimStore.batch_indexed {store : ClaimStore} (statements : List Statement)
    (indexed : store.Indexed) : (store.batch statements).Indexed := by
  unfold ClaimStore.batch
  cases ran : statements.foldlM Statement.run store with
  | none => exact indexed
  | some after =>
    simp only [Option.getD_some]
    induction statements generalizing store with
    | nil =>
      cases ran
      exact indexed
    | cons statement statements ih =>
      obtain ⟨middle, first, rest⟩ := Option.bind_eq_some_iff.mp ran
      exact ih (statement.indexed first indexed) rest

theorem ClaimStore.migrated_indexed (revisions : Table Revision Uuid (·.id))
    (claims : Table Claim Uuid (·.id)) : (ClaimStore.migrated revisions claims).Indexed := by
  let store : ClaimStore := ⟨revisions, claims, []⟩
  have listed : (claims.rows.filter store.visible).map (·.indexed) =
      claims.rows.filterMap store.entry := by
    rw [← filterMap_eq_map, filterMap_filter]
    rfl
  show List.Perm ((claims.rows.filter store.visible).map (·.indexed)) (claims.rows.filterMap store.entry)
  rw [listed]

/-- After any batches of claim upserts, count updates and other updates of revisions the index
    holds exactly the claims below the count of their revision, each once, with the text that
    they have now. -/
theorem claimFts_agrees (revisions : Table Revision Uuid (·.id)) (claims : Table Claim Uuid (·.id))
    (batches : List (List Statement)) :
    let store := batches.foldl ClaimStore.batch (.migrated revisions claims)
    (∀ row, row ∈ store.claimFts ↔ ∃ claim ∈ store.claims,
      (∃ revision, store.revisions.find claim.sourceRevisionId = some revision ∧
        claim.ordinal < revision.claimCount) ∧ row = claim.indexed) ∧
    (store.claimFts.map (·.claimId)).Nodup := by
  have indexed : ∀ store : ClaimStore, store.Indexed →
      (batches.foldl ClaimStore.batch store).Indexed := by
    induction batches with
    | nil => exact fun _ indexed => indexed
    | cons batch batches ih =>
      exact fun store indexed => ih _ (ClaimStore.batch_indexed batch indexed)
  have shows := indexed _ (ClaimStore.migrated_indexed revisions claims)
  refine ⟨fun row => ?_, shows.nodup (ClaimStore.entry_keyed _) (Table.unique _)⟩
  rw [shows.mem]
  apply exists_congr
  intro claim
  apply and_congr Iff.rfl
  simp only [ClaimStore.entry, ClaimStore.visible, Option.ite_none_right_eq_some,
    Option.any_eq_true, decide_eq_true_eq, Option.some.injEq]
  exact and_congr Iff.rfl eq_comm

end Understanding
