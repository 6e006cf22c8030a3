import CodeIndex.Proofs.Path.Steps

/-!
# The text behind the first steps of a path

A path starts with a slash, with a dot that is a step, or with neither; that start and the text
behind it are read apart.  So everything about the text behind some steps has two cases: no step is
gone, and the start is still there, or the start is gone with the first of them.

## Main definitions

* `IsPlain` says that a path starts with neither a slash nor a dot that is a step.

## Main results

* `components_append`: a path and a text that meet at a slash have their steps together.
* `exists_textAfter_append`: what stands behind some steps of the path stands in front of what
  stands behind the same steps of both, and again they meet at a slash.
* `bodyComponents_textAfter`, `splitStart_textAfter_zero`: the text behind some steps has the other
  steps.
-/

namespace CodeIndex.Path

variable {a b d t body path : List Char} {k : Nat}

/-! ### Starts -/

/-- A path that starts with neither a slash nor a dot that is a step. -/
def IsPlain (path : List Char) : Prop :=
  path.head? ≠ some '/' ∧ ∀ body, path = '.' :: body → body ≠ [] ∧ body.head? ≠ some '/'

theorem isPlain_nil : IsPlain [] :=
  ⟨by simp, fun _ h => nomatch h⟩

theorem IsPlain.append (h : IsPlain a) (ha : a ≠ []) (b : List Char) : IsPlain (a ++ b) := by
  obtain ⟨c, a, rfl⟩ := List.exists_cons_of_ne_nil ha
  refine ⟨h.1, fun body heq => ?_⟩
  obtain ⟨rfl, rfl⟩ := List.cons.inj heq
  obtain ⟨hne, hhead⟩ := h.2 a rfl
  obtain ⟨e, a, rfl⟩ := List.exists_cons_of_ne_nil hne
  exact ⟨List.cons_ne_nil _ _, hhead⟩

theorem splitStart_dot (h : body = [] ∨ body.head? = some '/') :
    splitStart ('.' :: body) = (some .current, body) := by
  obtain rfl | h := h
  · rfl
  · obtain ⟨rest, rfl⟩ := List.head?_eq_some_iff.1 h
    rfl

theorem IsPlain.splitStart_eq (h : IsPlain path) : splitStart path = (none, path) := by
  unfold splitStart
  split
  · exact absurd rfl h.1
  · exact absurd rfl (h.2 [] rfl).1
  · exact absurd rfl (h.2 _ rfl).2
  · rfl

theorem splitStart_cases (path : List Char) :
    (∃ body, path = '/' :: body) ∨
      (∃ body, path = '.' :: body ∧ (body = [] ∨ body.head? = some '/')) ∨ IsPlain path := by
  by_cases hslash : path.head? = some '/'
  · exact .inl (List.head?_eq_some_iff.1 hslash)
  · by_cases hdot : ∃ body, path = '.' :: body ∧ (body = [] ∨ body.head? = some '/')
    · exact .inr (.inl hdot)
    · refine .inr (.inr ⟨hslash, fun body heq => ?_⟩)
      exact not_or.1 fun hbody => hdot ⟨body, heq, hbody⟩

/-- A text that meets the path at a slash does not change its start. -/
theorem splitStart_append (h : Abuts d t) (hplain : d = [] → IsPlain t) :
    splitStart (d ++ t) = ((splitStart d).1, (splitStart d).2 ++ t) := by
  obtain ⟨body, rfl⟩ | ⟨body, rfl, hbody⟩ | hd := splitStart_cases d
  · rfl
  · have hbody' : body ++ t = [] ∨ (body ++ t).head? = some '/' := by
      obtain rfl | hhead := hbody
      · obtain h | h | h | h := h
        · cases h
        · exact .inl h
        · cases h
        · exact .inr h
      · obtain ⟨rest, rfl⟩ := List.head?_eq_some_iff.1 hhead
        exact .inr rfl
    rw [splitStart_dot hbody, List.cons_append, splitStart_dot hbody']
  · rw [hd.splitStart_eq]
    obtain rfl | hne := eq_or_ne d []
    · exact (hplain rfl).splitStart_eq
    · exact (hd.append hne t).splitStart_eq

/-- The text that a start is written as. -/
def startText : Option Component → List Char
  | none => []
  | some .root => ['/']
  | some _ => ['.']

theorem bodyComponents_startText (start : Option Component) :
    bodyComponents (startText start) = [] := by
  unfold startText
  split <;> rfl

/-- A path is its start and, at a slash, the text behind it. -/
theorem startText_append (path : List Char) :
    startText (splitStart path).1 ++ (splitStart path).2 = path ∧
      Abuts (startText (splitStart path).1) (splitStart path).2 := by
  obtain ⟨body, rfl⟩ | ⟨body, rfl, hbody⟩ | hplain := splitStart_cases path
  · exact ⟨rfl, .inr (.inr (.inl rfl))⟩
  · rw [splitStart_dot hbody]
    exact ⟨rfl, .inr (hbody.imp_right .inr)⟩
  · rw [hplain.splitStart_eq]
    exact ⟨rfl, .inl rfl⟩

theorem splitStart_snd_suffix (path : List Char) : (splitStart path).2 <:+ path :=
  ⟨_, (startText_append path).1⟩

/-- A start is no step of the text that it stands in. -/
theorem bodyComponents_splitStart (path : List Char) :
    bodyComponents (splitStart path).2 = bodyComponents path := by
  obtain ⟨heq, habuts⟩ := startText_append path
  conv_rhs => rw [← heq, bodyComponents_append habuts, bodyComponents_startText, List.nil_append]

theorem components_eq (path : List Char) :
    components path = (splitStart path).1.toList ++ bodyComponents (splitStart path).2 := rfl

/-- A path and a text that meet at a slash have their steps together. -/
theorem components_append (h : Abuts d t) (hplain : d = [] → IsPlain t) :
    components (d ++ t) = components d ++ bodyComponents t := by
  rw [components_eq, splitStart_append h hplain, components_eq, List.append_assoc,
    bodyComponents_append (h.of_suffix (splitStart_snd_suffix d))]

/-- A path starts with a dot if that is its first step. -/
theorem prefix_components_dot_iff (path : List Char) :
    components ['.'] <+: components path ↔ (splitStart path).1 = some .current := by
  have hdot : components ['.'] = [.current] := rfl
  rw [hdot, components_eq]
  cases hstart : (splitStart path).1 with
  | some start => simp [eq_comm]
  | none =>
    refine iff_of_false (fun hfront => ?_) fun h => nomatch h
    exact current_notMem_bodyComponents _ (hfront.mem List.mem_cons_self)

/-! ### The text behind some steps -/

theorem textAfter_zero (path : List Char) :
    textAfter path 0 = startText (splitStart path).1 ++ trimBack (splitStart path).2 := by
  rw [textAfter]
  cases splitStart path with
  | mk start body =>
    cases start with
    | none => rfl
    | some step => cases step <;> rfl

theorem textAfter_pos (path : List Char) (hk : 0 < k) :
    textAfter path k = trimBack (trimFront
      (Nat.repeat dropStep (k - (splitStart path).1.toList.length) (splitStart path).2)) := by
  obtain ⟨k, rfl⟩ := Nat.exists_eq_succ_of_ne_zero hk.ne'
  rw [textAfter]
  cases splitStart path with
  | mk start body => cases start <;> rfl

theorem bodyComponents_textAfter (path : List Char) (hk : 0 < k) :
    bodyComponents (textAfter path k) = (components path).drop k := by
  rw [textAfter_pos path hk, bodyComponents_trimBack, bodyComponents_trimFront,
    bodyComponents_repeat_dropStep, components_eq]
  cases (splitStart path).1 with
  | none => rfl
  | some start =>
    obtain ⟨k, rfl⟩ := Nat.exists_eq_succ_of_ne_zero hk.ne'
    rfl

theorem IsPlain.trimBack (h : IsPlain path) : IsPlain (trimBack path) := by
  obtain ⟨back, -, heq, habuts⟩ := exists_eq_trimBack_append path
  generalize hfront : Path.trimBack path = front at heq habuts
  subst heq
  cases front with
  | nil => exact isPlain_nil
  | cons c front =>
    refine ⟨h.1, fun body heq => ?_⟩
    obtain ⟨rfl, rfl⟩ := List.cons.inj heq
    obtain ⟨hne, hhead⟩ := h.2 _ rfl
    cases front with
    | cons e front => exact ⟨List.cons_ne_nil _ _, hhead⟩
    | nil =>
      obtain habuts | habuts | habuts | habuts := habuts
      · cases habuts
      · exact absurd habuts hne
      · cases habuts
      · exact absurd habuts hhead

theorem splitStart_textAfter_zero (path : List Char) :
    splitStart (textAfter path 0) = ((splitStart path).1, trimBack (splitStart path).2) := by
  rw [textAfter_zero]
  obtain ⟨body, rfl⟩ | ⟨body, rfl, hbody⟩ | hplain := splitStart_cases path
  · rfl
  · rw [splitStart_dot hbody]
    refine splitStart_dot ?_
    obtain ⟨back, -, heq, -⟩ := exists_eq_trimBack_append body
    obtain hnil | hne := eq_or_ne (trimBack body) []
    · exact .inl hnil
    · refine .inr ?_
      rw [heq, List.head?_append_of_ne_nil _ hne] at hbody
      exact hbody.resolve_left (List.append_ne_nil_of_left_ne_nil hne _)
  · rw [hplain.splitStart_eq]
    exact hplain.trimBack.splitStart_eq

/-- Where no step is gone, the steps are those of the path. -/
theorem components_textAfter_zero (path : List Char) :
    components (textAfter path 0) = components path := by
  rw [components_eq, splitStart_textAfter_zero, bodyComponents_trimBack, ← components_eq]

theorem mem_of_mem_trimBack {c : Char} (h : c ∈ trimBack body) : c ∈ body := by
  obtain ⟨back, -, heq, -⟩ := exists_eq_trimBack_append body
  rw [heq]
  exact List.mem_append_left _ h

/-- The text behind some steps has the characters of the path only. -/
theorem mem_of_mem_textAfter {c : Char} (h : c ∈ textAfter path k) : c ∈ path := by
  obtain rfl | hpos := Nat.eq_zero_or_pos k
  · rw [textAfter_zero] at h
    rw [← (startText_append path).1]
    exact List.mem_append.2 ((List.mem_append.1 h).imp_right mem_of_mem_trimBack)
  · rw [textAfter_pos path hpos] at h
    exact (((trimFront_suffix _).trans (repeat_dropStep_suffix _ _)).trans
      (splitStart_snd_suffix path)).mem (mem_of_mem_trimBack h)

/-! ### Two texts -/

theorem abuts_startText_append (h : Abuts d t) :
    Abuts (startText (splitStart d).1) ((splitStart d).2 ++ t) := by
  obtain ⟨heq, habuts⟩ := startText_append d
  obtain hnil | hne := eq_or_ne (splitStart d).2 []
  · rw [hnil, List.append_nil] at heq
    rwa [hnil, heq]
  · exact habuts.append_right hne t

/-- What a text loses at its end stands in front of what is put behind it. -/
theorem exists_trimBack_append (h : Abuts a t) (ht : trimBack t = t) (hne : t ≠ []) :
    ∃ back, trimBack (a ++ t) = trimBack a ++ (back ++ t) ∧ a = trimBack a ++ back ∧
      Abuts (trimBack a) (back ++ t) := by
  obtain ⟨back, -, heq, habuts⟩ := exists_eq_trimBack_append a
  refine ⟨back, ?_, heq, ?_⟩
  · rw [trimBack_append h, ht, if_neg hne, ← List.append_assoc, ← heq]
  · obtain rfl | hback := eq_or_ne back []
    · rw [List.append_nil] at heq
      rwa [← heq]
    · exact habuts.append_right hback t

/-- What stands behind some steps of a path stands in front of what stands behind the same steps of
a longer one. -/
theorem exists_textAfter_append (h : Abuts d t) (hplain : d = [] → IsPlain t)
    (ht : trimBack t = t) (hk : k ≤ (components d).length) :
    ∃ back, textAfter (d ++ t) k = textAfter d k ++ back ∧ Abuts (textAfter d k) back := by
  obtain rfl | hne := eq_or_ne t []
  · exact ⟨[], by rw [List.append_nil, List.append_nil], .inr (.inl rfl)⟩
  have hbody : Abuts (splitStart d).2 t := h.of_suffix (splitStart_snd_suffix d)
  -- with no step gone the start stands in front, and may be all that is left of the path
  obtain rfl | hpos := Nat.eq_zero_or_pos k
  · obtain ⟨back, htrim, heq, habuts⟩ := exists_trimBack_append hbody ht hne
    refine ⟨back ++ t, ?_, ?_⟩
    · rw [textAfter_zero, splitStart_append h hplain, textAfter_zero, htrim, List.append_assoc]
    · rw [textAfter_zero]
      obtain hnil | hsome := eq_or_ne (trimBack (splitStart d).2) []
      · rw [hnil, List.nil_append] at heq
        rw [hnil, List.append_nil, ← heq]
        exact abuts_startText_append h
      · exact habuts.append_left hsome _
  · set j := k - (splitStart d).1.toList.length with hj
    have hle : j ≤ (bodyComponents (splitStart d).2).length := by
      rw [components_eq, List.length_append] at hk
      omega
    rw [textAfter_pos _ hpos, textAfter_pos _ hpos, splitStart_append h hplain, ← hj,
      repeat_dropStep_append hbody hle]
    have hsuffix := repeat_dropStep_suffix j (splitStart d).2
    rw [trimFront_append (hbody.of_suffix hsuffix)]
    split
    · next hnil =>
      rw [hnil, trimBack_nil]
      exact ⟨_, rfl, .inl rfl⟩
    · obtain ⟨back, htrim, -, habuts⟩ :=
        exists_trimBack_append (hbody.of_suffix ((trimFront_suffix _).trans hsuffix)) ht hne
      exact ⟨back ++ t, htrim, habuts⟩

/-- Behind all steps of a path and some more stands what stands behind those in the text put
there. -/
theorem textAfter_append_add (h : Abuts d t) (hplain : d = [] → IsPlain t) (hk : 0 < k) :
    textAfter (d ++ t) ((components d).length + k) =
      trimBack (trimFront (Nat.repeat dropStep k t)) := by
  have hcount : (components d).length + k - (splitStart d).1.toList.length =
      (bodyComponents (splitStart d).2).length + k := by
    rw [components_eq, List.length_append]
    omega
  rw [textAfter_pos _ (by omega), splitStart_append h hplain, hcount,
    trimFront_repeat_dropStep_append (h.of_suffix (splitStart_snd_suffix d))]

end CodeIndex.Path
