import CodeIndex.Grammar.Parser
import CodeIndex.Proofs.Text.Slices

/-!
# The places of nodes

A cursor counts the bytes and the newlines that it has gone over, so wherever it has got to, what it
has counted is what lies before it in the source.  A grammar's machine makes its nodes from cursors
that have been moved on from the start of the source, and whatever it does, each of them stays a
place of the source.

## Main definitions

* `Cursor.Placed` says that a cursor is a place of a source.
* `Node.Placed`, `Gap.Placed`, `State.Placed` and `Machine.Placed` say it of all cursors in a node,
  a gap, a state and a machine.

## Main results

* `Machine.Placed.step`: a step of the machine goes from places to places.
* `Machine.Placed.run`: so does a run.
* `nodeOf?_placed`: the nodes that a grammar makes lie in the source.
-/

namespace CodeIndex.Grammar

variable {ρ : Type} {source : List Char} {grammar : Grammar ρ} {extras : Extras}

/-! ### Cursors and nodes -/

/-- The cursor has gone over the characters before it, and counted their bytes and newlines. -/
def Cursor.Placed (source : List Char) (c : Cursor) : Prop :=
  ∃ before, source = before ++ c.rest ∧ c.byte = Text.byteLength before ∧
    c.row = before.count '\n'

namespace Cursor

theorem placed_start (source : List Char) : Placed source { rest := source } :=
  ⟨[], rfl, rfl, rfl⟩

theorem Placed.step {c : Cursor} (h : c.Placed source) : c.step.Placed source := by
  obtain ⟨before, hsource, hbyte, hrow⟩ := h
  unfold Cursor.step
  split
  · exact ⟨before, hsource, hbyte, hrow⟩
  · next x rest hrest =>
    refine ⟨before ++ [x], by simp [hsource, hrest], ?_, ?_⟩
    · simp [Text.byteLength_append, hbyte]
    · by_cases hx : x = '\n' <;> simp [hx, hrow]

theorem Placed.advance {c : Cursor} (h : c.Placed source) (count : Nat) :
    (c.advance count).Placed source := by
  induction count generalizing c with
  | zero => exact h
  | succ count ih => exact ih h.step

end Cursor

/-- A node starts and ends at places of the source, and so do the nodes in it. -/
inductive Node.Placed (source : List Char) : Node → Prop where
  | mk {node : Node} (start : node.start.Placed source) (stop : node.stop.Placed source)
    (children : ∀ child ∈ node.children, Node.Placed source child) : Node.Placed source node

namespace Node.Placed

variable {node : Node}

theorem start (h : node.Placed source) : node.start.Placed source := by
  cases h
  assumption

theorem stop (h : node.Placed source) : node.stop.Placed source := by
  cases h
  assumption

theorem children (h : node.Placed source) : ∀ child ∈ node.children, child.Placed source := by
  cases h
  assumption

/-- The role of a node is of no account. -/
theorem withRole (h : node.Placed source) (role : Option String) :
    Node.Placed source { node with role } :=
  .mk h.start h.stop h.children

end Node.Placed

/-- Each of some nodes is placed. -/
def AllPlaced (source : List Char) (nodes : List Node) : Prop :=
  ∀ node ∈ nodes, node.Placed source

namespace AllPlaced

variable {node : Node} {nodes earlier : List Node}

theorem nil : AllPlaced source [] := List.forall_mem_nil _

theorem cons (hnode : node.Placed source) (h : AllPlaced source nodes) :
    AllPlaced source (node :: nodes) :=
  List.forall_mem_cons.2 ⟨hnode, h⟩

theorem append (h : AllPlaced source nodes) (hearlier : AllPlaced source earlier) :
    AllPlaced source (nodes ++ earlier) :=
  List.forall_mem_append.2 ⟨h, hearlier⟩

theorem setRole (h : AllPlaced source nodes) (role : String) (count : Nat) :
    AllPlaced source (State.setRole role count nodes) := by
  induction count generalizing nodes with
  | zero => exact h
  | succ count ih =>
    cases nodes with
    | nil => exact nil
    | cons node nodes =>
      obtain ⟨hnode, hnodes⟩ := List.forall_mem_cons.1 h
      refine cons ?_ (ih hnodes)
      split
      · exact hnode
      · exact hnode.withRole _

end AllPlaced

/-! ### Gaps -/

theorem commentNode_placed {start : Cursor} (h : start.Placed source) (form : CommentForm)
    (length : Nat) : (commentNode form start length).Placed source := by
  refine .mk h (h.advance length) fun child hchild => ?_
  obtain ⟨⟨kind, from_, to_⟩, -, rfl⟩ := List.mem_map.1 hchild
  exact .mk (h.advance from_) (h.advance to_) (by simp)

/-- The next token and the comments before it are placed. -/
structure Gap.Placed (source : List Char) (gap : Gap) : Prop where
  next : gap.next.Placed source
  remarks : ∀ remark ∈ gap.remarks, remark.node.Placed source

section Gaps

variable {gap : Gap}

theorem Gap.Placed.comments (h : gap.Placed source) : AllPlaced source gap.comments :=
  List.forall_mem_map.2 h.remarks

theorem Gap.Placed.over (h : gap.Placed source) (length : Nat) (startsLine : Bool) :
    (gap.over length startsLine).Placed source :=
  ⟨h.next.advance length, h.remarks⟩

theorem Gap.Placed.overComment (h : gap.Placed source) (form : CommentForm) (length : Nat) :
    (gap.overComment form length).Placed source :=
  ⟨h.next.advance length,
    List.forall_mem_cons.2 ⟨commentNode_placed h.next form length, h.remarks⟩⟩

theorem Gap.Placed.extend (h : gap.Placed source) : (extras.extend gap).Placed source := by
  fun_induction Extras.extend extras gap with
  | case1 gap hrest => exact h
  | case2 gap blank x rest hrest hblank ih => exact ih (h.over blank true)
  | case3 gap blank joint x rest hrest hblank hjoint ih => exact ih (h.over joint false)
  | case4 gap blank joint x rest hrest hblank hjoint hnone => exact h
  | case5 gap blank joint x rest hrest hblank hjoint form hcomment => exact h
  | case6 gap blank joint x rest hrest hblank hjoint form length hcomment hlength ih =>
    exact ih (h.overComment form length)

end Gaps

theorem gapAt_placed {here : Cursor} (h : here.Placed source) :
    (extras.gapAt here).Placed source :=
  Gap.Placed.extend ⟨h, by simp⟩

/-! ### States -/

/-- The nodes of an open node, and its start if it has one, are placed. -/
structure Context.Placed (source : List Char) (context : Context) : Prop where
  nodes : AllPlaced source context.nodes
  start : ∀ start ∈ context.start, start.Placed source

/-- Whatever a state holds of the source is placed. -/
structure State.Placed (source : List Char) (s : State) : Prop where
  here : s.here.Placed source
  gap : s.gap.Placed source
  current : s.current.Placed source
  outer : ∀ context ∈ s.outer, context.Placed source

theorem Context.placed_empty : Context.Placed source {} :=
  ⟨.nil, by simp⟩

theorem forall_mem_or {α : Type*} {P : α → Prop} {first second : Option α}
    (hfirst : ∀ x ∈ first, P x) (hsecond : ∀ x ∈ second, P x) : ∀ x ∈ first.or second, P x := by
  cases first with
  | none => simpa using hsecond
  | some x => simpa using hfirst

namespace State.Placed

variable {s : State} {context : Context} {gap : Gap}

theorem placeComments {comments : List Node} {current : Context} {outer : List Context}
    (hcomments : AllPlaced source comments) (hcurrent : current.Placed source)
    (houter : ∀ context ∈ outer, context.Placed source) :
    (State.placeComments comments current outer).1.Placed source ∧
      ∀ context ∈ (State.placeComments comments current outer).2, context.Placed source := by
  have hjoined : Context.Placed source { current with nodes := comments ++ current.nodes } :=
    ⟨hcomments.append hcurrent.nodes, hcurrent.start⟩
  induction outer generalizing current with
  | nil => exact ⟨hjoined, by simp [State.placeComments]⟩
  | cons next outer ih =>
    obtain ⟨hnext, hrest⟩ := List.forall_mem_cons.1 houter
    rw [State.placeComments]
    split
    · exact ⟨hjoined, houter⟩
    · obtain ⟨hnext', hrest'⟩ :=
        ih hnext hrest ⟨hcomments.append hnext.nodes, hnext.start⟩
      exact ⟨hcurrent, List.forall_mem_cons.2 ⟨hnext', hrest'⟩⟩

theorem take (h : s.Placed source) (hgap : gap.Placed source) (kind : Option String)
    (length : Nat) : (s.take extras kind length gap).Placed source := by
  have hstop : (gap.next.advance length).Placed source := hgap.next.advance length
  have hplaced : ∀ placed : Context × List Context,
      placed = (if gap.remarks.isEmpty then (s.current, s.outer)
        else State.placeComments gap.comments s.current s.outer) →
      placed.1.Placed source ∧ ∀ context ∈ placed.2, context.Placed source := by
    rintro _ rfl
    split
    · exact ⟨h.current, h.outer⟩
    · exact placeComments hgap.comments h.current h.outer
  obtain ⟨hcurrent, houter⟩ := hplaced _ rfl
  refine ⟨hstop, gapAt_placed hstop, ⟨?_, ?_⟩, houter⟩
  · cases kind with
    | none => exact hcurrent.nodes
    | some kind => exact .cons (.mk hgap.next hstop (by simp)) hcurrent.nodes
  · exact forall_mem_or hcurrent.start (by simpa using hgap.next)

theorem takeRemarks (h : s.Placed source) (test : Remark → Bool) :
    (s.takeRemarks extras test).Placed source := by
  have hall : ∀ remark ∈ (s.gap.remarks.reverse.takeWhile test).reverse,
      remark.node.Placed source := by
    intro remark hremark
    refine h.gap.remarks remark (List.mem_reverse.1 ?_)
    exact (List.takeWhile_prefix test).subset (List.mem_reverse.1 hremark)
  unfold State.takeRemarks
  split
  · exact h
  · next last earlier hremarks =>
    rw [hremarks] at hall
    have hstop := (hall last List.mem_cons_self).stop
    refine ⟨hstop, gapAt_placed hstop, ⟨?_, h.current.start⟩, h.outer⟩
    exact AllPlaced.append (List.forall_mem_map.2 hall) h.current.nodes

theorem «open» (h : s.Placed source) (hcontext : context.Placed source) :
    (s.open context).Placed source :=
  ⟨h.here, h.gap, hcontext, List.forall_mem_cons.2 ⟨h.current, h.outer⟩⟩

theorem close (h : s.Placed source) (kind : String) : (s.close kind).Placed source := by
  have hstart : (s.current.start.getD s.here).Placed source := by
    cases hstart : s.current.start with
    | none => exact h.here
    | some start => exact h.current.start start hstart
  have hnode : Node.Placed source {
      kind := s.current.kind.getD kind
      start := s.current.start.getD s.here
      stop := s.here
      children := s.current.nodes.reverse } :=
    .mk hstart h.here fun child hchild => h.current.nodes child (List.mem_reverse.1 hchild)
  unfold State.close
  split
  · exact ⟨h.here, h.gap, ⟨.cons hnode .nil, h.current.start⟩, h.outer⟩
  · next context outer houter =>
    obtain ⟨hcontext, hrest⟩ := List.forall_mem_cons.1 (houter ▸ h.outer)
    exact ⟨h.here, h.gap, ⟨.cons hnode hcontext.nodes,
      forall_mem_or hcontext.start h.current.start⟩, hrest⟩

end State.Placed

/-! ### The machine -/

mutual

/-- The states that a thing still to be done may go back to are placed. -/
inductive Frame.Placed (source : List Char) : Frame ρ → Prop where
  | run (pattern : Pattern ρ) : Frame.Placed source (.run pattern)
  | again (pattern : Pattern ρ) (byte : Nat) : Frame.Placed source (.again pattern byte)
  | commit {choices : List (Choice ρ)} (h : ∀ choice ∈ choices, Choice.Placed source choice) :
    Frame.Placed source (.commit choices)
  | close (kind : String) : Frame.Placed source (.close kind)
  | role (name : String) (count : Nat) : Frame.Placed source (.role name count)
  | restore (indentation : Nat) (spanning : Bool) :
    Frame.Placed source (.restore indentation spanning)
  | resume {state : State} {choices : List (Choice ρ)} (hstate : state.Placed source)
    (h : ∀ choice ∈ choices, Choice.Placed source choice) :
    Frame.Placed source (.resume state choices)
  | refuse {choices : List (Choice ρ)} (h : ∀ choice ∈ choices, Choice.Placed source choice) :
    Frame.Placed source (.refuse choices)

/-- The state of an alternative, and those that it may go back to, are placed. -/
inductive Choice.Placed (source : List Char) : Choice ρ → Prop where
  | mk {frames : List (Frame ρ)} {state : State}
    (hframes : ∀ frame ∈ frames, Frame.Placed source frame) (hstate : state.Placed source) :
    Choice.Placed source (.mk frames state)

end

/-- Each of some frames is placed. -/
def FramesPlaced (source : List Char) (frames : List (Frame ρ)) : Prop :=
  ∀ frame ∈ frames, frame.Placed source

/-- Each of some alternatives is placed. -/
def ChoicesPlaced (source : List Char) (choices : List (Choice ρ)) : Prop :=
  ∀ choice ∈ choices, choice.Placed source

/-- The state of a machine, and all states that it may go back to, are placed. -/
structure Machine.Placed (source : List Char) (m : Machine ρ) : Prop where
  frames : FramesPlaced source m.frames
  state : m.state.Placed source
  choices : ChoicesPlaced source m.choices

/-- What a step leads to is placed. -/
def Progress.Placed (source : List Char) : Progress ρ → Prop
  | .running m => m.Placed source
  | .matched s => s.Placed source
  | .failed => True

section Step

variable {frames : List (Frame ρ)} {frame : Frame ρ} {choices : List (Choice ρ)}
  {choice : Choice ρ} {s : State} {m : Machine ρ}

theorem FramesPlaced.cons (hframe : frame.Placed source) (h : FramesPlaced source frames) :
    FramesPlaced source (frame :: frames) :=
  List.forall_mem_cons.2 ⟨hframe, h⟩

theorem ChoicesPlaced.cons (hchoice : choice.Placed source) (h : ChoicesPlaced source choices) :
    ChoicesPlaced source (choice :: choices) :=
  List.forall_mem_cons.2 ⟨hchoice, h⟩

namespace Machine

theorem backtrack_placed (h : ChoicesPlaced source choices) :
    (backtrack choices).Placed source := by
  cases choices with
  | nil => trivial
  | cons choice choices =>
    obtain ⟨hchoice, hrest⟩ := List.forall_mem_cons.1 h
    cases hchoice with
    | mk hframes hstate => exact ⟨hframes, hstate, hrest⟩

theorem token_placed (hframes : FramesPlaced source frames) (hs : s.Placed source)
    (hchoices : ChoicesPlaced source choices) (kind : Option String) (attached : Bool)
    (scan : Scan) : (token extras kind attached scan frames s choices).Placed source := by
  have hgap : (if attached then ({ next := s.here, isFresh := false } : Gap)
      else s.gap).Placed source := by
    split
    · exact ⟨hs.here, by simp⟩
    · exact hs.gap
  unfold token
  generalize (if attached then ({ next := s.here, isFresh := false } : Gap) else s.gap) = gap
    at hgap ⊢
  simp only
  split
  · exact backtrack_placed hchoices
  · split
    · exact backtrack_placed hchoices
    · exact ⟨hframes, hs.take hgap kind _, hchoices⟩

/-- Starting to match a pattern keeps to places of the source, whatever the pattern is. -/
theorem start_placed (hframes : FramesPlaced source frames) (hs : s.Placed source)
    (hchoices : ChoicesPlaced source choices) (pattern : Pattern ρ) :
    (start grammar pattern frames s choices).Placed source := by
  have hmode : ∀ indentation spanning fresh,
      State.Placed source { s with indentation, spanning, fresh } :=
    fun _ _ _ => ⟨hs.here, hs.gap, hs.current, hs.outer⟩
  unfold start
  split
  case h_1 kind attached scan => exact token_placed hframes hs hchoices kind attached scan
  case h_2 name => exact ⟨.cons (.run _) hframes, hs, hchoices⟩
  case h_3 parts =>
    refine ⟨List.forall_mem_append.2 ⟨List.forall_mem_map.2 fun part _ => .run part, hframes⟩, hs,
      hchoices⟩
  case h_4 => exact backtrack_placed hchoices
  case h_5 part => exact ⟨.cons (.run _) hframes, hs, hchoices⟩
  case h_6 part rest _ =>
    exact ⟨.cons (.run _) (.cons (.commit hchoices) hframes), hs,
      .cons (.mk (FramesPlaced.cons (.run _) hframes) hs) hchoices⟩
  case h_7 part =>
    exact ⟨.cons (.run _) (.cons (.commit hchoices) (.cons (.again _ _) hframes)), hs,
      .cons (.mk hframes hs) hchoices⟩
  case h_8 kind part =>
    exact ⟨.cons (.run _) (.cons (.close _) hframes), hs.open Context.placed_empty, hchoices⟩
  case h_9 kind =>
    exact ⟨hframes, ⟨hs.here, hs.gap, ⟨hs.current.nodes, hs.current.start⟩, hs.outer⟩, hchoices⟩
  case h_10 name part => exact ⟨.cons (.run _) (.cons (.role _ _) hframes), hs, hchoices⟩
  case h_11 kind role part =>
    split
    · exact backtrack_placed hchoices
    · next node nodes hnodes =>
      obtain ⟨hnode, hrest⟩ := List.forall_mem_cons.1 (hnodes ▸ hs.current.nodes)
      have hs' : State.Placed source { s with current := { s.current with nodes } } :=
        ⟨hs.here, hs.gap, ⟨hrest, hs.current.start⟩, hs.outer⟩
      refine ⟨.cons (.run _) (.cons (.close _) hframes), hs'.open ⟨?_, ?_⟩, hchoices⟩
      · exact .cons (hnode.withRole role) .nil
      · simpa using hnode.start
  case h_12 part => exact ⟨.cons (.run _) (.cons (.resume hs hchoices) hframes), hs, hchoices⟩
  case h_13 part =>
    exact ⟨.cons (.run _) (.cons (.refuse hchoices) (List.forall_mem_nil _)), hs,
      .cons (.mk hframes hs) hchoices⟩
  case h_14 test => exact ⟨hframes, hs.takeRemarks _, hchoices⟩
  case h_15 test =>
    split
    · exact ⟨hframes, hs, hchoices⟩
    · exact backtrack_placed hchoices
  case h_16 allowed part =>
    exact ⟨.cons (.run _) (.cons (.restore _ _) hframes), hmode _ _ _, hchoices⟩
  case h_17 part =>
    simp only
    split
    · exact ⟨.cons (.run _) (.cons (.restore _ _) hframes), hmode _ _ _, hchoices⟩
    · exact backtrack_placed hchoices
  case h_18 =>
    simp only
    split
    · exact ⟨hframes, hmode _ _ _, hchoices⟩
    · exact backtrack_placed hchoices

/-- A step goes from places of the source to places of the source. -/
theorem Placed.step (h : m.Placed source) : (m.step grammar).Placed source := by
  obtain ⟨frames, s, choices⟩ := m
  obtain ⟨hframes, hs, hchoices⟩ := h
  cases frames with
  | nil => exact hs
  | cons frame frames =>
    obtain ⟨hframe, hrest⟩ := List.forall_mem_cons.1 hframes
    cases hframe with
    | run pattern => exact start_placed hrest hs hchoices pattern
    | again pattern byte =>
      simp only [Machine.step]
      split
      · exact ⟨hrest, hs, hchoices⟩
      · exact ⟨.cons (.run _) hrest, hs, hchoices⟩
    | commit hearlier => exact ⟨hrest, hs, hearlier⟩
    | close kind => exact ⟨hrest, hs.close kind, hchoices⟩
    | role name count =>
      exact ⟨hrest, ⟨hs.here, hs.gap, ⟨hs.current.nodes.setRole _ _, hs.current.start⟩,
        hs.outer⟩, hchoices⟩
    | restore indentation spanning =>
      exact ⟨hrest, ⟨hs.here, hs.gap, hs.current, hs.outer⟩, hchoices⟩
    | resume hstate hearlier => exact ⟨hrest, hstate, hearlier⟩
    | refuse hearlier => exact backtrack_placed hearlier

/-- The state in which a pattern matches is placed if the machine was. -/
theorem Placed.run (h : m.Placed source) {steps : Nat} {state : State}
    (hrun : run grammar steps m = some state) : state.Placed source := by
  induction steps generalizing m with
  | zero => cases hrun
  | succ steps ih =>
    have hstep : (m.step grammar).Placed source := h.step
    rw [Machine.run] at hrun
    generalize m.step grammar = progress at hrun hstep
    cases progress with
    | running m => exact ih hstep hrun
    | matched state => exact Option.some.inj hrun ▸ hstep
    | failed => cases hrun

end Machine

end Step

/-! ### Sources -/

/-- Reading items goes from a place of the source to a place of the source. -/
theorem items_placed {steps fuel : Nat} {context : Context} {here : Cursor}
    (hcontext : context.Placed source) (hhere : here.Placed source) :
    (items grammar steps fuel context here).1.Placed source ∧
      (items grammar steps fuel context here).2.Placed source := by
  induction fuel generalizing context here with
  | zero =>
    rw [items]
    exact ⟨hcontext, hhere⟩
  | succ fuel ih =>
    have hgap : (grammar.extras.gapAt here).Placed source := gapAt_placed hhere
    have hskip : (items.skip grammar steps fuel (grammar.extras.gapAt here) context).1.Placed
        source ∧ (items.skip grammar steps fuel (grammar.extras.gapAt here) context).2.Placed
        source := by
      rw [items.skip]
      have hstop := hgap.next.advance (errorLength (grammar.extras.gapAt here).next.rest)
      refine ih ⟨?_, ?_⟩ hstop
      · exact .cons (.mk hgap.next hstop (by simp)) (hgap.comments.append hcontext.nodes)
      · exact forall_mem_or hcontext.start (by simpa using hgap.next)
    rw [items]
    split
    · refine ⟨⟨hgap.comments.append hcontext.nodes, ?_⟩, hgap.next⟩
      refine forall_mem_or hcontext.start fun start hstart => ?_
      obtain ⟨comment, hlast, rfl⟩ := Option.map_eq_some_iff.1 hstart
      exact (hgap.comments comment (List.mem_of_getLast? hlast)).start
    · split
      · next state hrun =>
        split
        · have hstart : Machine.Placed source ⟨[.run grammar.item],
              { here, gap := grammar.extras.gapAt here, current := context,
                spanning := grammar.spanning }, []⟩ :=
            ⟨.cons (.run _) (List.forall_mem_nil _), ⟨hhere, hgap, hcontext, by simp⟩,
              List.forall_mem_nil _⟩
          have hstate := hstart.run hrun
          exact ih hstate.current hstate.here
        · exact hskip
      · exact hskip

/-- The nodes that a grammar makes of a source lie in it. -/
theorem parse_placed (grammar : Grammar ρ) (source : List Char) :
    (parse grammar source).Placed source := by
  have hread := @items_placed ρ source grammar (stepLimit source.length) (source.length + 1) {}
    { rest := source } Context.placed_empty (Cursor.placed_start source)
  simp only [parse]
  generalize items grammar (stepLimit source.length) (source.length + 1) {} { rest := source } =
    read at hread ⊢
  obtain ⟨context, stop⟩ := read
  obtain ⟨hcontext, hstop⟩ := hread
  have hchildren : AllPlaced source context.nodes.reverse :=
    fun child hchild => hcontext.nodes child (List.mem_reverse.1 hchild)
  have hstart : (context.start.getD stop).Placed source := by
    cases h : context.start with
    | none => exact hstop
    | some start => exact hcontext.start start h
  refine .mk ?_ hstop hchildren
  dsimp only
  split
  · next first rest hfirst =>
    split
    · exact (hchildren first (hfirst ▸ List.mem_cons_self)).start
    · exact hstart
  · exact hstart

/-- Whatever the language, the nodes of a source lie in it. -/
theorem nodeOf?_placed {language : Language} {root : Node}
    (h : nodeOf? language source = some root) : root.Placed source := by
  unfold nodeOf? at h
  split at h <;> cases h <;> exact parse_placed _ _

end CodeIndex.Grammar
