import CodeIndex.Proofs.Number.FloatOrder
import CodeIndex.Proofs.Search.Fusion

/-!
# Dominance in rank fusion

If one chunk is at least as good as another in every list that holds the other, it must not stand
behind it in the fused list.  The two sums are made of different terms and are rounded after each
step, so the proof goes through the lists one by one: both sums stay unsigned numbers, a list that
holds only the better chunk adds to its sum, and a list that holds both adds at least as much to
the sum of the better one.

## Main definitions

* `Dominates` compares two chunks list by list.
* `UsableWeight` are the weights that fusion uses: finite and not below zero, so that the negative
  zero is one of them.

## Main results

* `bits_totalOf_mono`: the sums of two chunks are in the order of the chunks.
* `fuse_respects_dominance`: so are the places in the fused list, up to equal sums.
-/

namespace CodeIndex

open Binary64

/-- Every list that holds the chunk `b` holds the chunk `a` as well, and no later. -/
def Dominates (lists : List (List Hit)) (a b : String) : Prop :=
  ∀ hits ∈ lists, Hit.rankIn hits b ≠ 0 →
    Hit.rankIn hits a ≠ 0 ∧ Hit.rankIn hits a ≤ Hit.rankIn hits b

instance (lists : List (List Hit)) (a b : String) : Decidable (Dominates lists a b) :=
  inferInstanceAs (Decidable (∀ hits ∈ lists, _))

/-! ## The terms of a sum -/

/-- A finite number that is not below zero, as a weight. -/
def UsableWeight (w : Float) : Prop := bits w < infinityBits ∨ w.toModel.unpack = .zero .negative

section Term

variable {k rank rank' : Nat} {w x x' : Float}

theorem unsigned_divisor (k rank : Nat) : Unsigned (Float.ofNat k + Float.ofNat rank) :=
  unsigned_add (unsigned_ofNat k) (unsigned_ofNat rank)

theorem bits_divisor_pos (k : Nat) (h : rank ≠ 0) : 0 < bits (Float.ofNat k + Float.ofNat rank) :=
  calc 0 < bits (Float.ofNat rank) := bits_ofNat_pos (Nat.pos_of_ne_zero h)
    _ ≤ bits (Float.ofNat k + Float.ofNat rank) :=
      bits_le_add_left (unsigned_ofNat k) (unsigned_ofNat rank)

/-- A term keeps a sum unsigned, and does not decrease it. -/
theorem bits_le_add_contribution (hw : UsableWeight w) (hx : Unsigned x) (hrank : rank ≠ 0) :
    Unsigned (x + contribution k w rank) ∧ bits x ≤ bits (x + contribution k w rank) := by
  have hpos := bits_divisor_pos k hrank
  have hd := unsigned_divisor k rank
  obtain hlt | hzero := hw
  · have hterm : Unsigned (contribution k w rank) := unsigned_div hlt hpos hd
    exact ⟨unsigned_add hx hterm, bits_le_add hx hterm⟩
  · have hsame : x + contribution k w rank = x := add_div_eq_self hx hzero hpos hd
    rw [hsame]
    exact ⟨hx, le_rfl⟩

/-- A better rank adds at least as much to a sum that is at least as large. -/
theorem bits_add_contribution_mono (hw : UsableWeight w) (hx' : Unsigned x') (hx : bits x ≤ bits x')
    (hrank' : rank' ≠ 0) (h : rank' ≤ rank) :
    bits (x + contribution k w rank) ≤ bits (x' + contribution k w rank') := by
  have hrank : rank ≠ 0 := by omega
  have hpos := bits_divisor_pos k hrank
  have hpos' := bits_divisor_pos k hrank'
  obtain hlt | hzero := hw
  · refine bits_add_mono hx' (unsigned_div hlt hpos' (unsigned_divisor k rank')) hx ?_
    exact bits_div_anti hlt hpos' (unsigned_divisor k rank)
      (bits_add_mono (unsigned_ofNat k) (unsigned_ofNat rank) le_rfl (bits_ofNat_mono h))
  · have hsame : x + contribution k w rank = x :=
      add_div_eq_self (hx.trans hx') hzero hpos (unsigned_divisor k rank)
    have hsame' : x' + contribution k w rank' = x' :=
      add_div_eq_self hx' hzero hpos' (unsigned_divisor k rank')
    rwa [hsame, hsame']

end Term

/-! ## The sums -/

section Total

variable {k : Nat} {weight : Nat → Float} {lists : List (List Hit)} {a b : String}

theorem bits_zero : bits (FusionArithmetic.zero : Float) = 0 := by decide +kernel

/-- The sum over one list more. -/
theorem totalOf_concat (ranks : List Nat) (rank : Nat) :
    totalOf k weight (ranks ++ [rank]) =
      if rank = 0 then totalOf k weight ranks
      else totalOf k weight ranks + contribution k (weight ranks.length) rank := by
  split_ifs with hzero
  · rw [hzero]
    exact totalOf_append_zeros ranks 1
  · exact totalOf_append_rank ranks hzero 0

/-- A sum is an unsigned number. -/
theorem unsigned_totalOf (ranks : List Nat)
    (hweight : ∀ source < ranks.length, UsableWeight (weight source)) :
    Unsigned (totalOf k weight ranks) := by
  induction ranks using List.reverseRecOn with
  | nil => exact bits_zero.trans_le (Nat.zero_le _)
  | append_singleton ranks rank ih =>
    rw [List.length_append, List.length_singleton] at hweight
    have hbefore := ih fun source hsource => hweight source (Nat.lt_succ_of_lt hsource)
    rw [totalOf_concat]
    split_ifs with hzero
    · exact hbefore
    · exact (bits_le_add_contribution (hweight _ (Nat.lt_succ_self _)) hbefore hzero).1

/-- The sum of a chunk that dominates another is not the smaller one. -/
theorem bits_totalOf_mono (hweight : ∀ source < lists.length, UsableWeight (weight source))
    (h : Dominates lists a b) :
    bits (totalOf k weight (lists.map (Hit.rankIn · b))) ≤
      bits (totalOf k weight (lists.map (Hit.rankIn · a))) := by
  induction lists using List.reverseRecOn with
  | nil => exact le_rfl
  | append_singleton lists hits ih =>
    rw [List.length_append, List.length_singleton] at hweight
    have husable' := hweight lists.length (Nat.lt_succ_self _)
    have hbefore := ih (fun source hsource => hweight source (Nat.lt_succ_of_lt hsource))
      fun hits hhits => h hits (List.mem_append_left _ hhits)
    have hunsigned : Unsigned (totalOf k weight (lists.map (Hit.rankIn · a))) :=
      unsigned_totalOf _ fun source hsource => by
        rw [List.length_map] at hsource
        exact hweight source (Nat.lt_succ_of_lt hsource)
    have hhere := h hits (by simp)
    rw [List.map_append, List.map_append, List.map_singleton, List.map_singleton, totalOf_concat,
      totalOf_concat, List.length_map, List.length_map]
    split_ifs with hb ha ha
    · exact hbefore
    · exact hbefore.trans (bits_le_add_contribution husable' hunsigned ha).2
    · exact absurd ha (hhere hb).1
    · exact bits_add_contribution_mono husable' hunsigned hbefore ha (hhere hb).2

end Total

/-- The weights in use are finite and not below zero. -/
theorem usableWeight_declaredWeight (weights : List Float) {sources source : Nat}
    (h : source < sources) : UsableWeight (declaredWeight weights sources source) := by
  unfold declaredWeight
  split_ifs with hgiven husable
  · obtain ⟨hfinite, hle⟩ := Bool.and_eq_true_iff.1 husable
    exact bits_lt_or_unpack_eq hfinite (of_decide_eq_true hle)
  · exact .inl (bits_zero.trans_lt (by decide))
  · exact .inl (bits_share_lt (by omega))

/-! ## The fused list -/

section Fuse

variable {lists : List (List Hit)} {weights : List Float} {k : Nat}

theorem mem_fuse {result : Fused Float} (h : result ∈ fuse lists weights k) :
    result = Fused.ofLists (rankConstant k) (declaredWeight weights lists.length) lists
      result.chunkId :=
  (collects_accumulate weights lists).eq_ofLists result (List.mem_mergeSort.1 h)

theorem exists_mem_fuse {id : String} (h : Holding lists id) :
    ∃ result ∈ fuse lists weights k, result.chunkId = id := by
  have hid := ((collects_accumulate (k := rankConstant k) weights lists).mem_iff id).2 h
  obtain ⟨result, hresult, rfl⟩ := List.mem_map.1 hid
  exact ⟨result, List.mem_mergeSort.2 hresult, rfl⟩

theorem unsigned_total {result : Fused Float} (h : result ∈ fuse lists weights k) :
    Unsigned result.total := by
  rw [mem_fuse h]
  refine unsigned_totalOf _ fun source hsource => usableWeight_declaredWeight weights ?_
  rwa [List.length_map] at hsource

/-- For unsigned numbers, the total order of all numbers is the order of the bits. -/
theorem totalOrderKey_of_unsigned {x : Float} (h : Unsigned x) : totalOrderKey x = bits x := by
  unfold Unsigned infinityBits at h
  unfold totalOrderKey bits at *
  dsimp only
  rw [if_pos (by omega)]

/-- No sum is negative.  If a chunk dominates another, its sum is at least as great, and it stands
before the other unless the sums are equal and its identifier is not the smaller one. -/
theorem fuse_respects_dominance (lists : List (List Hit)) (weights : List Float) (k : Nat)
    {a b : String} (ha : Holding lists a) (hb : Holding lists b) (h : Dominates lists a b) :
    (∀ result ∈ fuse lists weights k, 0.0 ≤ result.total) ∧
    (∃ result ∈ fuse lists weights k, result.chunkId = a) ∧
    (∃ result ∈ fuse lists weights k, result.chunkId = b) ∧
    ∀ first ∈ fuse lists weights k, ∀ second ∈ fuse lists weights k,
      first.chunkId = a → second.chunkId = b →
      second.total ≤ first.total ∧
      ([second, first].Sublist (fuse lists weights k) → first.total = second.total ∧ b < a) := by
  refine ⟨fun result hresult => ?_, exists_mem_fuse ha, exists_mem_fuse hb, ?_⟩
  · exact le_of_bits_le (unsigned_total hresult) (bits_zero.trans_le (Nat.zero_le _))
  · rintro first hfirst second hsecond rfl rfl
    have hunsigned := unsigned_total hfirst
    have hunsigned' := unsigned_total hsecond
    have hbits : bits second.total ≤ bits first.total := by
      rw [mem_fuse hfirst, mem_fuse hsecond]
      exact bits_totalOf_mono (fun source hsource => usableWeight_declaredWeight weights hsource) h
    refine ⟨le_of_bits_le hunsigned hbits, fun hbefore => ?_⟩
    have hordered := (pairwise_outranks_mergeSort
      (collects_accumulate (k := rankConstant k) weights lists).nodup).sublist hbefore
    have houtranks : second.Outranks first := (List.pairwise_pair).1 hordered
    have hkey : FusionArithmetic.key first.total = (bits first.total : Int) :=
      totalOrderKey_of_unsigned hunsigned
    have hkey' : FusionArithmetic.key second.total = (bits second.total : Int) :=
      totalOrderKey_of_unsigned hunsigned'
    unfold Fused.Outranks at houtranks
    rw [hkey, hkey'] at houtranks
    obtain hgreater | ⟨hequal, hid⟩ := houtranks
    · omega
    · exact ⟨bits_injective (by omega), hid⟩

/-- In the second list of the sample, the chunk `b` stands before the chunk `c`, which the first
list does not hold. -/
theorem fuse_respects_dominance_sample :
    Dominates fusionSample "b" "c" ∧
      ∀ first ∈ fuse fusionSample [(0.7 : Float)] 0, ∀ second ∈ fuse fusionSample [0.7] 0,
        first.chunkId = "b" → second.chunkId = "c" → second.total ≤ first.total := by
  have hb : Holding fusionSample "b" :=
    ⟨[⟨"b", 9⟩, ⟨"c", 8⟩], by simp [fusionSample], ⟨"b", 9⟩, by simp, rfl⟩
  have hc : Holding fusionSample "c" :=
    ⟨[⟨"b", 9⟩, ⟨"c", 8⟩], by simp [fusionSample], ⟨"c", 8⟩, by simp, rfl⟩
  have hdominates : Dominates fusionSample "b" "c" := by decide
  obtain ⟨-, -, -, horder⟩ :=
    fuse_respects_dominance fusionSample [(0.7 : Float)] 0 hb hc hdominates
  exact ⟨hdominates, fun first hfirst second hsecond hfirstId hsecondId =>
    (horder first hfirst second hsecond hfirstId hsecondId).1⟩

end Fuse

end CodeIndex
