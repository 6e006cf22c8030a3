import CodeIndex.Embedding.Hashing
import CodeIndex.Proofs.Number.Single
import CodeIndex.Proofs.Text.MaximalRuns

/-!
# When hashed tokens cancel out

A token adds one to the coordinate that its hash chooses, or takes one away.  So the coordinates are
counts in single precision, and the vector of a text is zero exactly if every count comes back to
zero: nothing is lost by scaling the vector to length one, neither by an underflow nor by an
overflow of the length.  A text with tokens can have the zero vector, since two of its tokens may choose the
same coordinate with different signs.

## Main definitions

* `tokenSign` is what a token adds, and `signsIn` lists the signs in one coordinate.
* `counted` adds signs up as single precision does.
* `Vanishes` says that a vector is the zero vector.

## Main results

* `counting_tokenSums`: the coordinates before scaling are the counts.
* `denotes_sum_squares`: the squares of counts add up without an overflow.
* `CountVector.normalized`: scaling keeps which coordinates are zero.
* `embedding_vanishes_iff`: which texts have the zero vector.
-/

namespace CodeIndex.Embedding

open Binary32 (Denotes saturate)

/-! ## Signs -/

/-- What a token adds to its coordinate. -/
def tokenSign (token : List Char) : ℤ := if (tokenHash token).getD 8 0 &&& 1 == 0 then 1 else -1

/-- The signs of the tokens that choose a coordinate, in the order of the tokens. -/
def signsIn (dimension coordinate : Nat) (tokens : List (List Char)) : List ℤ :=
  (tokens.filter fun token => bucketOf dimension (tokenHash token) = coordinate).map tokenSign

/-- Signs added up one by one from a count on. -/
def countedFrom (start : ℤ) (signs : List ℤ) : ℤ := signs.foldl (fun n s => saturate (n + s)) start

/-- Signs added up one by one: a count stays between `-2 ^ 24` and `2 ^ 24`. -/
def counted (signs : List ℤ) : ℤ := countedFrom 0 signs

/-- All coordinates of a vector are zero. -/
def Vanishes (vector : Vector32) : Prop := ∀ x ∈ vector, (x == 0) = true

theorem abs_tokenSign (token : List Char) : |tokenSign token| = 1 := by
  unfold tokenSign
  split <;> rfl

theorem denotes_signOf (token : List Char) :
    Denotes (signOf (tokenHash token)) (tokenSign token) := by
  unfold signOf tokenSign
  split
  · exact_mod_cast Binary32.denotes_one
  · exact_mod_cast Binary32.denotes_neg_one

theorem abs_countedFrom_le {start : ℤ} (h : |start| ≤ 2 ^ 24) (signs : List ℤ) :
    |countedFrom start signs| ≤ 2 ^ 24 := by
  induction signs generalizing start with
  | nil => exact h
  | cons s signs ih => exact ih (Binary32.abs_saturate_le _)

/-- Few signs are added up exactly. -/
theorem countedFrom_eq_sum {signs : List ℤ} (hsigns : ∀ s ∈ signs, |s| = 1) {start : ℤ}
    (h : |start| + signs.length ≤ 2 ^ 24) : countedFrom start signs = start + signs.sum := by
  induction signs generalizing start with
  | nil => simp [countedFrom]
  | cons s signs ih =>
    obtain ⟨hs, hsigns⟩ := List.forall_mem_cons.1 hsigns
    have hstep : |start + s| ≤ |start| + 1 := hs ▸ abs_add_le start s
    rw [List.length_cons] at h
    push_cast at h
    have hexact : saturate (start + s) = start + s := Binary32.saturate_of_abs_le (by omega)
    have hrest := @ih hsigns (start + s) (by omega)
    rw [List.sum_cons, ← add_assoc, ← hrest]
    simp only [countedFrom, List.foldl_cons, hexact]

theorem abs_of_mem_signsIn {dimension coordinate : Nat} {tokens : List (List Char)} {s : ℤ}
    (h : s ∈ signsIn dimension coordinate tokens) : |s| = 1 := by
  obtain ⟨token, -, rfl⟩ := List.mem_map.1 h
  exact abs_tokenSign token

/-- Signs add up to zero if there are as many of one kind as of the other. -/
theorem sum_eq_count_sub {signs : List ℤ} (hsigns : ∀ s ∈ signs, |s| = 1) :
    signs.sum = signs.count 1 - signs.count (-1) := by
  induction signs with
  | nil => rfl
  | cons s signs ih =>
    obtain ⟨hs, hrest⟩ := List.forall_mem_cons.1 hsigns
    obtain rfl | rfl := eq_or_eq_neg_of_abs_eq hs <;>
      rw [List.sum_cons, ih hrest, List.count_cons, List.count_cons] <;> simp <;> ring

theorem length_signsIn_le (dimension coordinate : Nat) (tokens : List (List Char)) :
    (signsIn dimension coordinate tokens).length ≤ tokens.length := by
  rw [signsIn, List.length_map]
  exact List.length_filter_le _ _

/-! ## Sums -/

theorem countedFrom_append (start : ℤ) (signs signs' : List ℤ) :
    countedFrom start (signs ++ signs') = countedFrom (countedFrom start signs) signs' :=
  List.foldl_append

theorem signsIn_cons (dimension coordinate : Nat) (token : List Char) (tokens : List (List Char)) :
    signsIn dimension coordinate (token :: tokens) =
      signsIn dimension coordinate [token] ++ signsIn dimension coordinate tokens := by
  rw [← List.singleton_append, signsIn, List.filter_append, List.map_append]
  rfl

@[simp] theorem size_addToken (sums : Array Float32) (token : List Char) :
    (addToken sums token).size = sums.size := by
  simp [addToken]

/-- The coordinates are counts. -/
def Counting (sums : Array Float32) (counts : Nat → ℤ) : Prop :=
  ∀ i (hi : i < sums.size), Denotes sums[i] (counts i) ∧ |counts i| ≤ 2 ^ 24

/-- Adding a token is a step of counting. -/
theorem Counting.addToken {sums : Array Float32} {counts : Nat → ℤ} (h : Counting sums counts)
    (token : List Char) :
    Counting (addToken sums token)
      fun i => countedFrom (counts i) (signsIn sums.size i [token]) := by
  intro i hadded
  have hi : i < sums.size := by rwa [size_addToken] at hadded
  obtain ⟨hdenotes, hbound⟩ := h i hi
  refine ⟨?_, abs_countedFrom_le hbound _⟩
  have hget : (Embedding.addToken sums token)[i] =
      if bucketOf sums.size (tokenHash token) = i then sums[i] + signOf (tokenHash token)
      else sums[i] := by
    simp [Embedding.addToken, Array.getElem_modify]
  dsimp only
  by_cases hchosen : bucketOf sums.size (tokenHash token) = i
  · have hsigns : signsIn sums.size i [token] = [tokenSign token] := by simp [signsIn, hchosen]
    rw [hget, if_pos hchosen, hsigns]
    exact hdenotes.count hbound (denotes_signOf token) (abs_tokenSign token)
  · have hsigns : signsIn sums.size i [token] = [] := by simp [signsIn, hchosen]
    rw [hget, if_neg hchosen, hsigns]
    exact hdenotes

theorem Counting.foldl {sums : Array Float32} {counts : Nat → ℤ} (h : Counting sums counts)
    (tokens : List (List Char)) :
    Counting (tokens.foldl Embedding.addToken sums)
      fun i => countedFrom (counts i) (signsIn sums.size i tokens) := by
  induction tokens generalizing sums counts with
  | nil => exact h
  | cons token tokens ih =>
    have hrest := ih (h.addToken token)
    simp only [← countedFrom_append, size_addToken, ← signsIn_cons] at hrest
    exact hrest

@[simp] theorem size_tokenSums (dimension : Nat) (tokens : List (List Char)) :
    (tokenSums dimension tokens).size = dimension := by
  suffices hfold : ∀ sums : Array Float32, (tokens.foldl addToken sums).size = sums.size by
    rw [tokenSums, hfold, Array.size_replicate]
  induction tokens with
  | nil => exact fun _ => rfl
  | cons token tokens ih => exact fun sums => (ih _).trans (size_addToken sums token)

/-- The coordinates before scaling are the counts of the signs. -/
theorem counting_tokenSums (dimension : Nat) (tokens : List (List Char)) :
    Counting (tokenSums dimension tokens) fun i => counted (signsIn dimension i tokens) := by
  have hstart : Counting (Array.replicate dimension 0) fun _ => 0 := by
    intro i hi
    rw [Array.getElem_replicate]
    exact ⟨by exact_mod_cast Binary32.denotes_zero, by norm_num⟩
  have hfold := hstart.foldl tokens
  rwa [Array.size_replicate] at hfold

/-! ## Scaling -/

section Scaling

variable {vector : List Float32} {counts : List ℤ}

/-- A vector of counts. -/
def CountVector : List Float32 → List ℤ → Prop :=
  List.Forall₂ fun x n => Denotes x n ∧ |n| ≤ 2 ^ 24

/-- The squares of counts add up to a number that is not too great, and to zero only if all counts
are zero. -/
theorem denotes_sum_squares (h : CountVector vector counts) {x : Float32} {v : ℚ}
    (hx : Denotes x v) (hv : Binary32.Moderate 72 v) :
    ∃ u, Denotes ((vector.map fun x => x * x).foldl (· + ·) x) u ∧ Binary32.Moderate 72 u ∧
      (u = 0 ↔ v = 0 ∧ ∀ n ∈ counts, n = 0) := by
  induction h generalizing x v with
  | nil => exact ⟨v, hx, hv, by simp⟩
  | @cons y n vector counts hhead htail ih =>
    obtain ⟨hy, hn⟩ := hhead
    obtain ⟨q, hsquare, hmoderate, hq⟩ := hy.square hn
    obtain ⟨u, hsum, hsmall, hu⟩ := hx.add_square hv hsquare hmoderate
    obtain ⟨t, htotal, htotalSmall, ht⟩ := ih hsum hsmall
    refine ⟨t, htotal, htotalSmall, ?_⟩
    rw [ht, hu, hq, List.forall_mem_cons, and_assoc]

/-- The length of a vector of counts. -/
theorem denotes_norm (h : CountVector vector counts) :
    ∃ w, Denotes (norm vector) w ∧
      (w = 0 ∧ (∀ n ∈ counts, n = 0) ∨ 1 ≤ w ∧ w ≤ 2 ^ (37 : ℤ)) := by
  obtain ⟨u, hsum, hmoderate, hu⟩ := denotes_sum_squares h Binary32.denotes_zero (.inl rfl)
  obtain rfl | ⟨hone, hle⟩ := hmoderate
  · exact ⟨0, hsum.sqrt_zero, .inl ⟨rfl, (hu.1 rfl).2⟩⟩
  · obtain ⟨w, hroot, hbounds⟩ := hsum.sqrt hone hle
    exact ⟨w, hroot, .inr hbounds⟩

/-- A vector of numbers that are zero where the counts are. -/
def ScaledVector : List Float32 → List ℤ → Prop :=
  List.Forall₂ fun x n => ∃ z, Denotes x z ∧ (z = 0 ↔ n = 0)

theorem ScaledVector.vanishes_iff (h : ScaledVector vector counts) :
    Vanishes vector ↔ ∀ n ∈ counts, n = 0 := by
  induction h with
  | nil => simp [Vanishes]
  | cons hhead _ ih =>
    obtain ⟨z, hdenotes, hzero⟩ := hhead
    rw [Vanishes, List.forall_mem_cons, List.forall_mem_cons, hdenotes.beq_zero, hzero]
    exact and_congr_right' ih

theorem ScaledVector.isFinite (h : ScaledVector vector counts) :
    ∀ x ∈ vector, x.isFinite = true := by
  induction h with
  | nil => simp
  | cons hhead _ ih =>
    obtain ⟨z, hdenotes, -⟩ := hhead
    exact List.forall_mem_cons.2 ⟨hdenotes.isFinite, ih⟩

/-- Scaling keeps which coordinates are zero. -/
theorem CountVector.normalized (h : CountVector vector counts) :
    ScaledVector (Embedding.normalized vector) counts := by
  obtain ⟨w, hnorm, hzero | ⟨hone, hle⟩⟩ := denotes_norm h
  · obtain ⟨rfl, -⟩ := hzero
    have hnot : ¬ norm vector > 0 := fun hpos => (hnorm.zero_lt le_rfl).1 hpos rfl
    simp only [Embedding.normalized, if_neg hnot]
    exact h.imp fun x n hx => ⟨n, hx.1, Int.cast_eq_zero⟩
  · have hpos : norm vector > 0 := (hnorm.zero_lt (by linarith)).2 (by linarith)
    simp only [ScaledVector, Embedding.normalized, if_pos hpos, List.forall₂_map_left_iff]
    exact h.imp fun x n hx => hx.1.div_length hx.2 hnorm hone hle

end Scaling

/-! ## The vector of a text -/

theorem countVector_tokenSums (dimension : Nat) (tokens : List (List Char)) :
    CountVector (tokenSums dimension tokens).toList
      ((List.range dimension).map fun i => counted (signsIn dimension i tokens)) := by
  refine List.forall₂_iff_get.2 ⟨by simp, fun i hi hi' => ?_⟩
  have hsize : i < (tokenSums dimension tokens).size := by simpa using hi
  simpa using counting_tokenSums dimension tokens i hsize

theorem scaledVector_embedText (dimension : Nat) (text : String) :
    ScaledVector (embedText dimension text)
      ((List.range dimension).map fun i => counted (signsIn dimension i (tokens text))) :=
  (countVector_tokenSums dimension (tokens text)).normalized

@[simp] theorem length_embedText (dimension : Nat) (text : String) :
    (embedText dimension text).length = dimension := by
  simpa using (scaledVector_embedText dimension text).length_eq

theorem vanishes_embedText_iff (dimension : Nat) (text : String) :
    Vanishes (embedText dimension text) ↔
      ∀ coordinate < dimension, counted (signsIn dimension coordinate (tokens text)) = 0 := by
  rw [(scaledVector_embedText dimension text).vanishes_iff]
  simp

end CodeIndex.Embedding
