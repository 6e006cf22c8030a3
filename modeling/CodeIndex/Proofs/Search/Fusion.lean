import Mathlib.Data.List.Sort
import Mathlib.Data.String.Basic
import CodeIndex.Search.RankFusion

/-!
# What rank fusion computes

Fusion goes through the lists hit by hit and keeps an entry for every chunk that it has met.  What
comes out can be said without the loop: each chunk that some list holds has one entry, which is
read off the lists by `Fused.ofLists`, and the entries stand in a strict order, so that the order in
which they were collected does not matter.

## Main definitions

* `Hit.rankIn` and `Hit.scoreIn` are the rank and the raw score of a chunk in a list.
* `Fused.ofLists` is the entry of a chunk, and `Fused.Outranks` the order of the entries.
* `Collects` says that entries are those of all chunks that some lists hold; it is what
  `enterHit` keeps when one hit is added to the lists.

## Main results

* `collects_accumulate`: the entries that are collected are those of the lists.
* `fuse_eq_declared`: the fused list is the ordered list of these entries.
-/

namespace CodeIndex

open FusionArithmetic

/-! ## The definition without the loop -/

namespace Hit

/-- The rank of a chunk in a list: one more than the index of its first hit, and zero without a
hit. -/
def rankIn (hits : List Hit) (id : String) : Nat :=
  match hits.findIdx? (·.chunkId == id) with
  | some index => index + 1
  | none => 0

/-- The raw score of the first hit of a chunk in a list. -/
def scoreIn (hits : List Hit) (id : String) : Float32 :=
  match hits.find? (·.chunkId == id) with
  | some hit => hit.score
  | none => 0

variable {hits : List Hit} {hit : Hit} {id : String}

theorem rankIn_eq_zero : rankIn hits id = 0 ↔ ∀ hit ∈ hits, hit.chunkId ≠ id := by
  unfold rankIn
  split
  · next index hindex =>
    obtain ⟨hlt, hfound, -⟩ := List.findIdx?_eq_some_iff_getElem.1 hindex
    rw [beq_iff_eq] at hfound
    simp only [Nat.add_eq_zero_iff, Nat.one_ne_zero, and_false, false_iff, not_forall]
    exact ⟨hits[index], List.getElem_mem hlt, not_not.2 hfound⟩
  · next hnone => simpa using hnone

/-- A hit at the end of a list counts if the list did not hold its chunk before. -/
theorem rankIn_append_self :
    rankIn (hits ++ [hit]) hit.chunkId =
      if rankIn hits hit.chunkId = 0 then hits.length + 1 else rankIn hits hit.chunkId := by
  split
  · next hzero =>
    rw [rankIn_eq_zero] at hzero
    have hnone : hits.findIdx? (·.chunkId == hit.chunkId) = none := by simpa using hzero
    simp [rankIn, List.findIdx?_append, hnone]
  · next hranked =>
    unfold rankIn at hranked ⊢
    cases hfound : hits.findIdx? (·.chunkId == hit.chunkId) with
    | none => simp [hfound] at hranked
    | some index => simp [List.findIdx?_append, hfound]

theorem scoreIn_append_self :
    scoreIn (hits ++ [hit]) hit.chunkId =
      if rankIn hits hit.chunkId = 0 then hit.score else scoreIn hits hit.chunkId := by
  split
  · next hzero =>
    rw [rankIn_eq_zero] at hzero
    have hnone : hits.find? (·.chunkId == hit.chunkId) = none := by simpa using hzero
    simp [scoreIn, List.find?_append, hnone]
  · next hranked =>
    cases hfound : hits.find? (·.chunkId == hit.chunkId) with
    | none => exact absurd (rankIn_eq_zero.2 (by simpa using hfound)) hranked
    | some first => simp [scoreIn, List.find?_append, hfound]

theorem rankIn_append_of_ne (h : hit.chunkId ≠ id) :
    rankIn (hits ++ [hit]) id = rankIn hits id := by
  have hne : (hit.chunkId == id) = false := by simpa using h
  simp [rankIn, List.findIdx?_append, hne]

theorem scoreIn_append_of_ne (h : hit.chunkId ≠ id) :
    scoreIn (hits ++ [hit]) id = scoreIn hits id := by
  have hne : (hit.chunkId == id) = false := by simpa using h
  simp [scoreIn, List.find?_append, hne]

end Hit

variable {α : Type} [FusionArithmetic α]

/-- The sum of the terms of the lists that rank a chunk, in the order of the lists. -/
def totalOf (k : Nat) (weight : Nat → α) (ranks : List Nat) : α :=
  (ranks.zipIdx.filter fun (rank, _) => rank ≠ 0).foldl
    (fun sum (rank, source) => add sum (div (weight source) (add (ofNat k) (ofNat rank)))) zero

/-- The entry of a chunk: its ranks, its raw scores, and the sum of its terms. -/
def Fused.ofLists (k : Nat) (weight : Nat → α) (lists : List (List Hit)) (id : String) :
    Fused α where
  chunkId := id
  ranks := lists.map (Hit.rankIn · id)
  scores := lists.map (Hit.scoreIn · id)
  total := totalOf k weight (lists.map (Hit.rankIn · id))

/-- One entry stands before another: its sum is greater, or the sums are equal and its identifier
is smaller. -/
def Fused.Outranks (a b : Fused α) : Prop :=
  key b.total < key a.total ∨ key a.total = key b.total ∧ a.chunkId < b.chunkId

/-- Some list holds a chunk. -/
def Holding (lists : List (List Hit)) (id : String) : Prop :=
  ∃ hits ∈ lists, ∃ hit ∈ hits, hit.chunkId = id

/-! ## Adding a hit to the lists -/

section Step

variable {k : Nat} {weight : Nat → α} {earlier later : List (List Hit)} {hits : List Hit}
  {hit : Hit} {id : String}

/-- Lists that rank nothing add nothing to the sum. -/
theorem totalOf_append_zeros (ranks : List Nat) (count : Nat) :
    totalOf k weight (ranks ++ List.replicate count 0) = totalOf k weight ranks := by
  have hzeros : ((List.replicate count 0).zipIdx ranks.length).filter
      (fun (rank, _) => rank ≠ 0) = [] := by
    simp only [List.filter_eq_nil_iff, Prod.forall]
    intro rank source hmem
    obtain ⟨-, -, hrank⟩ := List.mem_zipIdx hmem
    simp [hrank]
  rw [totalOf, List.zipIdx_append, List.filter_append, Nat.zero_add, hzeros, List.append_nil,
    totalOf]

/-- A list that ranks the chunk adds one term at the end. -/
theorem totalOf_append_rank (ranks : List Nat) {rank : Nat} (hrank : rank ≠ 0) (count : Nat) :
    totalOf k weight (ranks ++ rank :: List.replicate count 0) =
      add (totalOf k weight ranks) (contribution k (weight ranks.length) rank) := by
  have hcons : ranks ++ rank :: List.replicate count 0 =
      (ranks ++ [rank]) ++ List.replicate count 0 := by simp
  rw [hcons, totalOf_append_zeros, totalOf, List.zipIdx_append, List.filter_append,
    List.foldl_append, Nat.zero_add]
  simp [hrank, totalOf, contribution]

/-- A hit of another chunk does not change the entry. -/
theorem Fused.ofLists_append_of_ne (h : hit.chunkId ≠ id) :
    ofLists k weight (earlier ++ (hits ++ [hit]) :: later) id =
      ofLists k weight (earlier ++ hits :: later) id := by
  simp only [ofLists, List.map_append, List.map_cons, Hit.rankIn_append_of_ne h,
    Hit.scoreIn_append_of_ne h]

theorem map_rankIn_of_forall_nil (hlater : ∀ hits ∈ later, hits = []) :
    later.map (Hit.rankIn · id) = List.replicate later.length 0 := by
  rw [List.map_eq_replicate_iff]
  intro hits hhits
  rw [hlater hits hhits]
  rfl

/-- Entering a hit into the entry of its chunk. -/
theorem Fused.enter_ofLists (hlater : ∀ hits ∈ later, hits = []) :
    Fused.enter k earlier.length (weight earlier.length) (hits.length + 1) hit.score
        (ofLists k weight (earlier ++ hits :: later) hit.chunkId) =
      ofLists k weight (earlier ++ (hits ++ [hit]) :: later) hit.chunkId := by
  have hrank : (ofLists k weight (earlier ++ hits :: later) hit.chunkId).rank earlier.length =
      Hit.rankIn hits hit.chunkId := by
    simp [rank, ofLists]
  rw [enter, hrank]
  by_cases hzero : Hit.rankIn hits hit.chunkId = 0
  · have hlength : (earlier.map (Hit.rankIn · hit.chunkId)).length = earlier.length :=
      List.length_map _
    have hbefore : totalOf k weight (earlier.map (Hit.rankIn · hit.chunkId) ++
        0 :: List.replicate later.length 0) =
        totalOf k weight (earlier.map (Hit.rankIn · hit.chunkId)) :=
      totalOf_append_zeros _ (later.length + 1)
    have hafter : totalOf k weight (earlier.map (Hit.rankIn · hit.chunkId) ++
        (hits.length + 1) :: List.replicate later.length 0) =
        add (totalOf k weight (earlier.map (Hit.rankIn · hit.chunkId)))
          (contribution k (weight earlier.length) (hits.length + 1)) := by
      rw [totalOf_append_rank _ (Nat.succ_ne_zero hits.length), hlength]
    simp [ofLists, hzero, Hit.rankIn_append_self, Hit.scoreIn_append_self,
      map_rankIn_of_forall_nil hlater, hbefore, hafter]
  · simp [ofLists, hzero, Hit.rankIn_append_self, Hit.scoreIn_append_self]

/-- The entry of a chunk that no list holds. -/
theorem Fused.ofLists_eq_blank {lists : List (List Hit)} (h : ¬ Holding lists id) :
    (ofLists k weight lists id : Fused α) = Fused.blank lists.length id := by
  have hranks : lists.map (Hit.rankIn · id) = List.replicate lists.length 0 := by
    rw [List.map_eq_replicate_iff]
    exact fun hits hhits => Hit.rankIn_eq_zero.2 fun hit hhit hid => h ⟨hits, hhits, hit, hhit, hid⟩
  have hscores : lists.map (Hit.scoreIn · id) = List.replicate lists.length 0 := by
    rw [List.map_eq_replicate_iff]
    intro hits hhits
    have hnone : hits.find? (·.chunkId == id) = none := by
      simpa using fun hit hhit hid => h ⟨hits, hhits, hit, hhit, hid⟩
    simp [Hit.scoreIn, hnone]
  have htotal : totalOf k weight (List.replicate lists.length 0) = zero :=
    totalOf_append_zeros [] lists.length
  rw [ofLists, hranks, hscores, htotal, blank]

theorem holding_append_iff :
    Holding (earlier ++ (hits ++ [hit]) :: later) id ↔
      Holding (earlier ++ hits :: later) id ∨ hit.chunkId = id := by
  simp only [Holding, List.mem_append, List.mem_cons]
  grind

end Step

/-! ## Collecting the entries -/

/-- The entries are those of the chunks that some lists hold, one for each. -/
structure Collects (k : Nat) (weight : Nat → α) (lists : List (List Hit))
    (entries : List (Fused α)) : Prop where
  nodup : (entries.map (·.chunkId)).Nodup
  mem_iff : ∀ id, id ∈ entries.map (·.chunkId) ↔ Holding lists id
  eq_ofLists : ∀ entry ∈ entries, entry = Fused.ofLists k weight lists entry.chunkId

section Collect

variable {k : Nat} {weight : Nat → α} {earlier later : List (List Hit)} {hits : List Hit}
  {entries : List (Fused α)}

@[simp] theorem Fused.chunkId_enter (k source : Nat) (weight : α) (rank : Nat) (score : Float32)
    (entry : Fused α) : (entry.enter k source weight rank score).chunkId = entry.chunkId := by
  unfold Fused.enter
  split <;> rfl

/-- A hit is entered: the entries are those of the lists with the hit. -/
theorem Collects.enterHit (h : Collects k weight (earlier ++ hits :: later) entries)
    (hlater : ∀ hits ∈ later, hits = []) (hit : Hit) :
    Collects k weight (earlier ++ (hits ++ [hit]) :: later)
      (enterHit (earlier ++ hits :: later).length k earlier.length (weight earlier.length) entries
        hit (hits.length + 1)) := by
  unfold CodeIndex.enterHit
  dsimp only
  split
  · next hany =>
    rw [List.any_eq_true] at hany
    obtain ⟨known, hknown, hid⟩ := hany
    rw [beq_iff_eq] at hid
    have hids : (entries.map fun entry => if entry.chunkId == hit.chunkId then
        entry.enter k earlier.length (weight earlier.length) (hits.length + 1) hit.score
        else entry).map (·.chunkId) = entries.map (·.chunkId) := by
      rw [List.map_map]
      refine List.map_congr_left fun entry _ => ?_
      dsimp only [Function.comp_apply]
      split <;> simp
    refine ⟨hids ▸ h.nodup, fun id => ?_, fun entry hentry => ?_⟩
    · rw [hids, h.mem_iff, holding_append_iff, or_iff_left_of_imp]
      rintro rfl
      exact (h.mem_iff _).1 (hid ▸ List.mem_map_of_mem hknown)
    · obtain ⟨old, hold, rfl⟩ := List.mem_map.1 hentry
      have hentries := h.eq_ofLists old hold
      by_cases hsame : old.chunkId = hit.chunkId
      · rw [if_pos (beq_iff_eq.2 hsame), Fused.chunkId_enter]
        rw [hsame] at hentries ⊢
        rw [hentries, Fused.enter_ofLists hlater]
      · rw [if_neg (by simpa using hsame), Fused.ofLists_append_of_ne (Ne.symm hsame)]
        exact hentries
  · next hany =>
    have hnew : hit.chunkId ∉ entries.map (·.chunkId) := by
      intro hmem
      obtain ⟨known, hknown, hid⟩ := List.mem_map.1 hmem
      exact hany (List.any_eq_true.2 ⟨known, hknown, beq_iff_eq.2 hid⟩)
    have hblank : Fused.enter k earlier.length (weight earlier.length) (hits.length + 1) hit.score
        (.blank (earlier ++ hits :: later).length hit.chunkId) =
        Fused.ofLists k weight (earlier ++ (hits ++ [hit]) :: later) hit.chunkId := by
      rw [← Fused.ofLists_eq_blank fun hholding => hnew ((h.mem_iff _).2 hholding),
        Fused.enter_ofLists hlater]
    rw [hblank]
    refine ⟨?_, fun id => ?_, fun entry hentry => ?_⟩
    · rw [List.map_append, List.map_singleton, ← List.concat_eq_append]
      exact h.nodup.concat hnew
    · rw [List.map_append, List.mem_append, h.mem_iff, holding_append_iff, List.map_singleton,
        List.mem_singleton]
      exact or_congr_right eq_comm
    · obtain hold | rfl := (List.mem_append.1 hentry).imp_right List.mem_singleton.1
      · rw [Fused.ofLists_append_of_ne fun hsame => hnew (hsame ▸ List.mem_map_of_mem hold)]
        exact h.eq_ofLists entry hold
      · rfl

/-- The hits of one list are entered. -/
theorem Collects.enterList (rest : List Hit)
    (h : Collects k weight (earlier ++ hits :: later) entries)
    (hlater : ∀ hits ∈ later, hits = []) :
    Collects k weight (earlier ++ (hits ++ rest) :: later)
      (enterList (earlier ++ hits :: later).length k earlier.length (weight earlier.length) entries
        (hits.length + 1) rest) := by
  induction rest generalizing hits entries with
  | nil => rwa [List.append_nil, CodeIndex.enterList]
  | cons hit rest ih =>
    have hentered := ih (h.enterHit hlater hit)
    rw [List.append_assoc, List.singleton_append] at hentered
    simpa [CodeIndex.enterList] using hentered

/-- The weight of a list: as given if that is a weight, an equal share if none is given, and zero
otherwise. -/
def declaredWeight (weights : List α) (sources source : Nat) : α :=
  if h : source < weights.length then
    if isWeight weights[source] then weights[source] else zero
  else div (ofNat 1) (ofNat sources)

theorem usedWeight_eq (weights : List α) (sources : Nat) :
    usedWeight weights sources = declaredWeight weights sources := by
  funext source
  unfold usedWeight declaredWeight
  split
  · next hnone => rw [dif_neg (Nat.not_lt.2 (List.getElem?_eq_none_iff.1 hnone))]
  · next w hsome =>
    obtain ⟨hlt, rfl⟩ := List.getElem?_eq_some_iff.1 hsome
    rw [dif_pos hlt]

/-- All lists are entered. -/
theorem Collects.accumulate (weights : List α) {sources : Nat} (rest : List (List Hit))
    (hsources : sources = earlier.length + rest.length)
    (h : Collects k (declaredWeight weights sources)
      (earlier ++ List.replicate rest.length []) entries) :
    Collects k (declaredWeight weights sources) (earlier ++ rest)
      (accumulate sources k weights entries earlier.length rest) := by
  induction rest generalizing earlier entries with
  | nil => simpa [CodeIndex.accumulate] using h
  | cons hits rest ih =>
    rw [List.length_cons, List.replicate_succ] at h
    have hlength : (earlier ++ [] :: List.replicate rest.length []).length = sources := by
      simp [hsources]
    have hentered := h.enterList hits (by simp)
    rw [hlength, List.nil_append, List.append_cons] at hentered
    have hcount : sources = (earlier ++ [hits]).length + rest.length := by
      simp [hsources]
      omega
    simpa [CodeIndex.accumulate, usedWeight_eq] using ih hcount hentered

/-- The entries that are collected from lists are those of the lists. -/
theorem collects_accumulate (weights : List α) (lists : List (List Hit)) :
    Collects k (declaredWeight weights lists.length) lists
      (accumulate lists.length k weights [] 0 lists) := by
  have hempty : Collects k (declaredWeight weights lists.length)
      ([] ++ List.replicate lists.length []) [] := by
    refine ⟨List.nodup_nil, fun id => ?_, by simp⟩
    simp [Holding, List.mem_replicate]
  simpa using hempty.accumulate weights lists (by simp)

end Collect

/-! ## The order of the entries -/

theorem Fused.precedes_iff {a b : Fused α} :
    a.precedes b = true ↔ a.Outranks b ∨ key a.total = key b.total ∧ a.chunkId = b.chunkId := by
  simp only [precedes, Outranks, Bool.or_eq_true, decide_eq_true_eq, Bool.and_eq_true, beq_iff_eq,
    le_iff_lt_or_eq]
  tauto

theorem Fused.Outranks.trans {a b c : Fused α} (hab : a.Outranks b) (hbc : b.Outranks c) :
    a.Outranks c := by
  rcases hab with hab | ⟨hab, hids⟩ <;> rcases hbc with hbc | ⟨hbc, hids'⟩
  · exact .inl (hbc.trans hab)
  · exact .inl (hbc ▸ hab)
  · exact .inl (hab.symm ▸ hbc)
  · exact .inr ⟨hab.trans hbc, hids.trans hids'⟩

theorem Fused.Outranks.asymm {a b : Fused α} (hab : a.Outranks b) : ¬ b.Outranks a := by
  rintro (hba | ⟨hba, hids⟩) <;> rcases hab with hab | ⟨hab, hids'⟩
  · exact lt_asymm hab hba
  · exact absurd hab hba.ne
  · exact absurd hba hab.ne
  · exact lt_asymm hids hids'

/-- The order is total: any two entries with different identifiers are in one order or the other. -/
theorem Fused.Outranks.total {a b : Fused α} (h : a.chunkId ≠ b.chunkId) :
    a.Outranks b ∨ b.Outranks a := by
  rcases lt_trichotomy (key a.total) (key b.total) with hkey | hkey | hkey
  · exact .inr (.inl hkey)
  · exact (lt_or_gt_of_ne h).imp (fun hid => .inr ⟨hkey, hid⟩) fun hid => .inr ⟨hkey.symm, hid⟩
  · exact .inl (.inl hkey)

theorem Fused.precedes_trans (a b c : Fused α) (hab : a.precedes b = true)
    (hbc : b.precedes c = true) : a.precedes c = true := by
  rw [precedes_iff] at hab hbc ⊢
  rcases hab with hab | ⟨hab, hids⟩ <;> rcases hbc with hbc | ⟨hbc, hids'⟩
  · exact .inl (hab.trans hbc)
  · refine .inl ?_
    rwa [Outranks, ← hbc, ← hids']
  · refine .inl ?_
    rwa [Outranks, hab, hids]
  · exact .inr ⟨hab.trans hbc, hids.trans hids'⟩

theorem Fused.precedes_total (a b : Fused α) : (a.precedes b || b.precedes a) = true := by
  rw [Bool.or_eq_true, precedes_iff, precedes_iff]
  by_cases hid : a.chunkId = b.chunkId
  · rcases lt_trichotomy (key a.total) (key b.total) with hkey | hkey | hkey
    · exact .inr (.inl (.inl hkey))
    · exact .inl (.inr ⟨hkey, hid⟩)
    · exact .inl (.inl (.inl hkey))
  · exact (Outranks.total hid).imp .inl .inl

/-- Entries with different identifiers are sorted strictly. -/
theorem pairwise_outranks_mergeSort {entries : List (Fused α)}
    (h : (entries.map (·.chunkId)).Nodup) :
    (entries.mergeSort Fused.precedes).Pairwise Fused.Outranks := by
  have hsorted := List.pairwise_mergeSort Fused.precedes_trans Fused.precedes_total entries
  have hids : (entries.mergeSort Fused.precedes).Pairwise (·.chunkId ≠ ·.chunkId) := by
    rw [← List.pairwise_map]
    exact ((List.mergeSort_perm entries _).map _).nodup_iff.2 h
  refine (hsorted.and hids).imp fun ⟨hprecedes, hne⟩ => ?_
  exact (Fused.precedes_iff.1 hprecedes).resolve_right fun hsame => hne hsame.2

/-- Entries with different identifiers can be sorted in one way only. -/
theorem mergeSort_eq_of_perm {entries entries' : List (Fused α)} (hperm : entries'.Perm entries)
    (h : (entries.map (·.chunkId)).Nodup) :
    entries'.mergeSort Fused.precedes = entries.mergeSort Fused.precedes := by
  have hall : (entries'.mergeSort Fused.precedes).Perm (entries.mergeSort Fused.precedes) :=
    ((List.mergeSort_perm ..).trans hperm).trans (List.mergeSort_perm ..).symm
  refine hall.eq_of_pairwise (fun a b _ _ hab hba => absurd hba hab.asymm)
    (pairwise_outranks_mergeSort ((hperm.map _).nodup_iff.2 h)) (pairwise_outranks_mergeSort h)

/-- The fused list has one entry for each chunk that some list holds, and no other.  The entry has
the ranks and the raw scores of the first hits, and the sum of the terms of the lists that rank the
chunk.  The entries stand in a strict order, by which they are sorted in the same way however they
were collected. -/
theorem fuse_eq_declared (lists : List (List Hit)) (weights : List α) (k : Nat) :
    (∀ result, result ∈ fuse lists weights k ↔ ∃ id, Holding lists id ∧
      result = Fused.ofLists (if k = 0 then 60 else k) (declaredWeight weights lists.length) lists
        id) ∧
    ((fuse lists weights k).map (·.chunkId)).Nodup ∧
    (fuse lists weights k).Pairwise Fused.Outranks ∧
    ∀ entries : List (Fused α),
      entries.Perm (accumulate lists.length (rankConstant k) weights [] 0 lists) →
      entries.mergeSort Fused.precedes = fuse lists weights k := by
  have hconstant : rankConstant k = if k = 0 then 60 else k := rfl
  have hcollects := collects_accumulate (k := rankConstant k) weights lists
  have hperm : (fuse lists weights k).Perm
      (accumulate lists.length (rankConstant k) weights [] 0 lists) := List.mergeSort_perm ..
  refine ⟨fun result => ?_, (hperm.map _).nodup_iff.2 hcollects.nodup,
    pairwise_outranks_mergeSort hcollects.nodup,
    fun entries hentries => mergeSort_eq_of_perm hentries hcollects.nodup⟩
  rw [hperm.mem_iff, ← hconstant]
  constructor
  · intro hresult
    exact ⟨_, (hcollects.mem_iff _).1 (List.mem_map_of_mem hresult),
      hcollects.eq_ofLists result hresult⟩
  · rintro ⟨id, hholding, rfl⟩
    obtain ⟨entry, hentry, rfl⟩ := List.mem_map.1 ((hcollects.mem_iff id).2 hholding)
    rwa [← hcollects.eq_ofLists entry hentry]

/-- Two lists, the first of which holds a chunk twice. -/
def fusionSample : List (List Hit) :=
  [[⟨"a", 3⟩, ⟨"b", 2⟩, ⟨"a", 1⟩], [⟨"b", 9⟩, ⟨"c", 8⟩]]

theorem fuse_eq_declared_sample :
    (∃ result ∈ fuse fusionSample [(0.7 : Float)] 0, result.chunkId = "b" ∧ result.ranks = [2, 1]) ∧
    (accumulate 2 60 [(0.7 : Float)] [] 0 fusionSample).reverse.mergeSort Fused.precedes =
      fuse fusionSample [0.7] 0 := by
  obtain ⟨hmem, -, -, hsorted⟩ := fuse_eq_declared fusionSample [(0.7 : Float)] 0
  refine ⟨⟨_, (hmem _).2 ⟨"b", ?_, rfl⟩, rfl, by decide⟩, hsorted _ (List.reverse_perm _)⟩
  exact ⟨_, List.mem_cons_self, ⟨"b", 2⟩, by simp, rfl⟩

end CodeIndex
