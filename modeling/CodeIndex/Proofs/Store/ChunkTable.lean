import Std.Data.TreeMap.Lemmas
import Std.Data.TreeSet.Lemmas
import CodeIndex.Store.Memory

/-!
# Tables of chunks

What the tables of the store in memory hold after each of their changes.  `ChunkTable.Holds` says
that a chunk belongs to a key, and `ChunkTable.Exact` that a table sorts the chunks of a map by one
of their fields: this is the invariant that writing, replacing and removing a chunk maintain.

## Main results

* `ChunkTable.exact_attach`, `ChunkTable.exact_replace` and `ChunkTable.exact_detach`: a table stays
  exact while its map changes.
* `ChunkTable.mem_idsOf` and `ChunkTable.ascending_idsOf`: what is listed for a key.
-/

namespace CodeIndex

/-- Texts are ordered alike by comparison and by the relation. -/
theorem compare_eq_lt_iff_lt {a b : String} : compare a b = .lt ↔ a < b :=
  compareOfLessAndEq_eq_lt

/-- The values of a map stand in the order of its list. -/
theorem values_eq_map_toList {α : Type} (map : Std.TreeMap String α) :
    map.values = map.toList.map Prod.snd := by
  have hfold : map.values = map.foldr (fun _ value values => value :: values) [] := rfl
  rw [hfold, Std.TreeMap.foldr_eq_foldr_toList]
  induction map.toList with
  | nil => rfl
  | cons entry rest ih => simp [ih]

namespace ChunkTable

variable {table : ChunkTable}

/-- A chunk belongs to a key. -/
def Holds (table : ChunkTable) (key chunkId : String) : Prop :=
  ∃ ids, table[key]? = some ids ∧ chunkId ∈ ids

theorem not_holds_empty (key chunkId : String) : ¬ Holds ∅ key chunkId := by
  rintro ⟨ids, hids, -⟩
  simp at hids

theorem holds_attach {key chunkId key' chunkId' : String} :
    (table.attach key chunkId).Holds key' chunkId' ↔
      (key' = key ∧ chunkId' = chunkId) ∨ table.Holds key' chunkId' := by
  unfold Holds attach
  rw [Std.TreeMap.getElem?_insert]
  by_cases hkey : key = key'
  · subst hkey
    cases hold : table[key]? <;>
      simp [Std.TreeMap.getD_eq_getD_getElem?, hold, Std.TreeSet.mem_insert,
        Std.LawfulEqCmp.compare_eq_iff_eq, @eq_comm _ chunkId']
  · simp [Std.LawfulEqCmp.compare_eq_iff_eq, hkey, Ne.symm hkey]

theorem holds_detach {key chunkId key' chunkId' : String} :
    (table.detach key chunkId).Holds key' chunkId' ↔
      table.Holds key' chunkId' ∧ ¬ (key' = key ∧ chunkId' = chunkId) := by
  unfold Holds detach
  cases hold : table[key]? with
  | none =>
    -- Without an entry nothing changes, and nothing belonged to the key.
    refine ⟨?_, And.left⟩
    rintro ⟨ids, hids, hmem⟩
    refine ⟨⟨ids, hids, hmem⟩, ?_⟩
    rintro ⟨rfl, rfl⟩
    simp [hold] at hids
  | some ids =>
    by_cases hkey : key = key'
    · subst hkey
      by_cases hrest : (ids.erase chunkId).isEmpty
      · have hnone : ∀ id, ¬ id ∈ ids.erase chunkId :=
          fun id => Std.TreeSet.isEmpty_iff_forall_not_mem.1 hrest id
        simp only [Std.TreeSet.mem_erase] at hnone
        simp [hrest, hold]
        grind
      · simp [hrest, hold, Std.TreeSet.mem_erase, Std.LawfulEqCmp.compare_eq_iff_eq]
        grind
    · have hframe : (if (ids.erase chunkId).isEmpty then table.erase key
          else table.insert key (ids.erase chunkId))[key']? = table[key']? := by
        split <;> simp [Std.TreeMap.getElem?_erase, Std.TreeMap.getElem?_insert,
          Std.LawfulEqCmp.compare_eq_iff_eq, hkey]
      simp only [hframe]
      simp [Ne.symm hkey]

theorem mem_idsOf {key chunkId : String} :
    chunkId ∈ table.idsOf key ↔ table.Holds key chunkId := by
  unfold Holds idsOf
  cases hold : table[key]? with
  | none => simp
  | some ids => simp

theorem ascending_idsOf (table : ChunkTable) (key : String) :
    (table.idsOf key).Pairwise (· < ·) := by
  unfold idsOf
  split
  · exact List.Pairwise.nil
  · next ids _ => exact (Std.TreeSet.ordered_toList).imp compare_eq_lt_iff_lt.1

/-! ## Tables that follow a map -/

/-- The table sorts the chunks of a map by one of their fields. -/
def Exact (table : ChunkTable) (field : ChunkRecord → String)
    (chunks : Std.TreeMap String ChunkRecord) : Prop :=
  ∀ key chunkId, table.Holds key chunkId ↔
    ∃ chunk, chunks[chunkId]? = some chunk ∧ field chunk = key

variable {field : ChunkRecord → String} {chunks : Std.TreeMap String ChunkRecord}

theorem exact_empty (field : ChunkRecord → String) : Exact ∅ field ∅ := by
  intro key chunkId
  simp [not_holds_empty]

theorem exact_attach (h : table.Exact field chunks) {chunk : ChunkRecord}
    (hnew : chunks[chunk.chunkId]? = none) :
    (table.attach (field chunk) chunk.chunkId).Exact field (chunks.insert chunk.chunkId chunk) := by
  intro key chunkId
  rw [holds_attach, h key chunkId, Std.TreeMap.getElem?_insert]
  by_cases hid : chunk.chunkId = chunkId
  · subst hid
    simp [hnew, eq_comm]
  · simp [Std.LawfulEqCmp.compare_eq_iff_eq, hid, Ne.symm hid]

/-- A chunk that replaces one with another value of the field has to be taken out where it stood. -/
theorem exact_replace (h : table.Exact field chunks) {chunk previous : ChunkRecord}
    (hold : chunks[chunk.chunkId]? = some previous) :
    (if field chunk ≠ field previous then
        (table.attach (field chunk) chunk.chunkId).detach (field previous) chunk.chunkId
      else table.attach (field chunk) chunk.chunkId).Exact field
        (chunks.insert chunk.chunkId chunk) := by
  intro key chunkId
  have hbefore := h key chunkId
  split <;> rename_i hfield
  · rw [holds_detach, holds_attach, hbefore, Std.TreeMap.getElem?_insert]
    by_cases hid : chunk.chunkId = chunkId
    · subst hid
      simp [hold]
      grind
    · simp [Std.LawfulEqCmp.compare_eq_iff_eq, hid, Ne.symm hid]
  · rw [holds_attach, hbefore, Std.TreeMap.getElem?_insert]
    by_cases hid : chunk.chunkId = chunkId
    · subst hid
      simp [hold]
      grind
    · simp [Std.LawfulEqCmp.compare_eq_iff_eq, hid, Ne.symm hid]

theorem exact_detach (h : table.Exact field chunks) {chunk : ChunkRecord} {id : String}
    (hold : chunks[id]? = some chunk) :
    (table.detach (field chunk) id).Exact field (chunks.erase id) := by
  intro key chunkId
  rw [holds_detach, h key chunkId, Std.TreeMap.getElem?_erase]
  by_cases hid : id = chunkId
  · subst hid
    simp [hold, eq_comm]
  · simp [Std.LawfulEqCmp.compare_eq_iff_eq, hid, Ne.symm hid]

end ChunkTable

end CodeIndex
