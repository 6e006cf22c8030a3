import CodeIndex.Grammar.Pattern

/-!
# Running a grammar

A pattern is matched by a machine that keeps everything in lists: what is still to be done, the
nodes that are open, and the alternatives that are left.  Its steps are small and do not recur, so a
source may be nested as deeply as it is long.

A comment belongs to the innermost open node that has a token before it; a node starts with its
first token and ends with its last one.

## Main definitions

* `State` is what matching has reached, and `Frame` what is still to be done.
* `Machine.step` makes one step and `Machine.run` makes a number of them.
* `Grammar.parse` reads a source item by item; text that no item starts with becomes an error node.
-/

namespace CodeIndex.Grammar

/-! ## Gaps -/

/-- The width of a tabulator. -/
def tabWidth : Nat := 8

/-- The column behind a character. -/
def columnAfter (column : Nat) (c : Char) : Nat :=
  if c = '\n' then 0 else if c = '\t' then column + tabWidth else column + 1

/-- The column behind some characters. -/
def columnAfterAll (column : Nat) (text : List Char) : Nat := text.foldl columnAfter column

/-- The node of a comment. -/
def commentNode (form : CommentForm) (start : Cursor) (length : Nat) : Node :=
  { kind := form.kind
    start
    stop := start.advance length
    children := (form.parts (start.rest.take length)).map fun (kind, from_, to_) =>
      { kind, start := start.advance from_, stop := start.advance to_ }
    isComment := true }

/-- The first form of comments that a text starts with, and the length of the comment. -/
def commentAt? (forms : List CommentForm) (text : List Char) : Option (CommentForm × Nat) :=
  forms.findSome? fun form => (form.scan text).map (form, ·)

/-- Extend a gap by some characters at the next place, which may start a line. -/
def Gap.over (gap : Gap) (length : Nat) (startsLine : Bool) : Gap :=
  let passed := gap.next.rest.take length
  { gap with
    next := gap.next.advance length
    isFresh := gap.isFresh || (startsLine && passed.contains '\n')
    column := columnAfterAll gap.column passed }

/-- Extend a gap by a comment at the next place. -/
def Gap.overComment (gap : Gap) (form : CommentForm) (length : Nat) : Gap :=
  let remark := ⟨commentNode form gap.next length, gap.isFresh, gap.column⟩
  { gap.over length (!form.joinsLines) with remarks := remark :: gap.remarks }

/-- What a gap goes over is taken off the text. -/
theorem Gap.length_over (gap : Gap) (length : Nat) (startsLine : Bool) :
    (gap.over length startsLine).next.rest.length = gap.next.rest.length - length := by
  simp [Gap.over, Cursor.rest_advance]

/-- What a comment covers is taken off the text. -/
theorem Gap.length_overComment (gap : Gap) (form : CommentForm) (length : Nat) :
    (gap.overComment form length).next.rest.length = gap.next.rest.length - length :=
  Gap.length_over gap length (!form.joinsLines)

/-- The nodes of the comments in a gap, the last one first. -/
def Gap.comments (gap : Gap) : List Node := gap.remarks.map (·.node)

/-- Extend a gap as far as possible. -/
def Extras.extend (extras : Extras) (gap : Gap) : Gap :=
  let blank := (extras.blank gap.next.rest).getD 0
  let joint := (extras.joint gap.next.rest).getD 0
  match _h : gap.next.rest with
  | [] => gap
  | _ :: _ =>
    if blank ≠ 0 then extras.extend (gap.over blank true)
    else if joint ≠ 0 then extras.extend (gap.over joint false)
    else
      match commentAt? extras.comments gap.next.rest with
      | none => gap
      | some (form, length) =>
        if length = 0 then gap
        else extras.extend (gap.overComment form length)
termination_by gap.next.rest.length
decreasing_by
  all_goals
    have := congrArg List.length _h
    rw [List.length_cons] at this
    simp only [Gap.length_over, Gap.length_overComment]
    omega

/-- The gap behind a place. -/
def Extras.gapAt (extras : Extras) (here : Cursor) : Gap :=
  extras.extend { next := here, isFresh := here.byte == 0 }

/-! ## States -/

/-- A node that is open: the nodes in it so far, the last one first, and where it starts, if it has
a token. -/
structure Context where
  nodes : List Node := []
  start : Option Cursor := none
  /-- The kind that the node turned out to be of. -/
  kind : Option String := none

/-- What matching has reached. -/
structure State where
  /-- The place behind the last token. -/
  here : Cursor
  /-- What lies before the next token. -/
  gap : Gap
  current : Context := {}
  /-- The nodes around the current one, the innermost first. -/
  outer : List Context := []
  /-- The column that lines start at. -/
  indentation : Nat := 0
  /-- Whether tokens may stand on other lines. -/
  spanning : Bool := true
  /-- Whether the next token may, because it starts a line. -/
  fresh : Bool := false

namespace State

/-- Put comments into the innermost context that has a token, or else into the outermost. -/
def placeComments (comments : List Node) (current : Context) :
    (outer : List Context) → Context × List Context
  | [] => ({ current with nodes := comments ++ current.nodes }, [])
  | next :: outer =>
    if current.start.isSome then
      ({ current with nodes := comments ++ current.nodes }, next :: outer)
    else
      let (next, outer) := placeComments comments next outer
      (current, next :: outer)

/-- Take some characters as a token, behind a gap. -/
def take (extras : Extras) (kind : Option String) (length : Nat) (gap : Gap) (s : State) : State :=
  let stop := gap.next.advance length
  let (current, outer) :=
    if gap.remarks.isEmpty then (s.current, s.outer)
    else placeComments gap.comments s.current s.outer
  let nodes := match kind with
    | none => current.nodes
    | some kind => { kind, start := gap.next, stop } :: current.nodes
  { s with
    here := stop
    gap := extras.gapAt stop
    current := { current with nodes, start := current.start.or (some gap.next) }
    outer
    fresh := false }

/-- Take the comments before the next token that pass a test, up to the first that does not. -/
def takeRemarks (extras : Extras) (test : Remark → Bool) (s : State) : State :=
  match (s.gap.remarks.reverse.takeWhile test).reverse with
  | [] => s
  | last :: earlier =>
    { s with
      here := last.node.stop
      gap := extras.gapAt last.node.stop
      current :=
        { s.current with nodes := (last :: earlier).map (·.node) ++ s.current.nodes } }

/-- Open a node. -/
def «open» (context : Context) (s : State) : State :=
  { s with current := context, outer := s.current :: s.outer }

/-- Close the current node. -/
def close (kind : String) (s : State) : State :=
  let node : Node := {
    kind := s.current.kind.getD kind
    start := s.current.start.getD s.here
    stop := s.here
    children := s.current.nodes.reverse }
  match s.outer with
  | [] => { s with current := { s.current with nodes := [node] } }
  | context :: outer =>
    { s with
      current :=
        { context with nodes := node :: context.nodes, start := context.start.or s.current.start }
      outer }

/-- Give the last nodes a role, those that have none. -/
def setRole (role : String) : (count : Nat) → List Node → List Node
  | 0, nodes => nodes
  | _, [] => []
  | count + 1, node :: nodes =>
    (if node.isComment || node.role.isSome then node else { node with role := some role }) ::
      setRole role count nodes

end State

/-! ## The machine -/

mutual

/-- A thing that is still to be done. -/
inductive Frame (ρ : Type) where
  | run (pattern : Pattern ρ)
  /-- Match a pattern again, unless it took nothing since a place. -/
  | again (pattern : Pattern ρ) (byte : Nat)
  /-- Forget the alternatives that have come up since. -/
  | commit (choices : List (Choice ρ))
  | close (kind : String)
  /-- Give a role to the nodes behind the first ones. -/
  | role (name : String) (count : Nat)
  /-- Go back to an earlier mode. -/
  | restore (indentation : Nat) (spanning : Bool)
  /-- Go back to an earlier state: a pattern that was to match has matched. -/
  | resume (state : State) (choices : List (Choice ρ))
  /-- Fail: a pattern that was not to match has matched. -/
  | refuse (choices : List (Choice ρ))

/-- An alternative that is left. -/
inductive Choice (ρ : Type) where
  | mk (frames : List (Frame ρ)) (state : State)

end

/-- A machine at work. -/
structure Machine (ρ : Type) where
  frames : List (Frame ρ)
  state : State
  choices : List (Choice ρ) := []

/-- What a step leads to. -/
inductive Progress (ρ : Type) where
  | running (machine : Machine ρ)
  | matched (state : State)
  | failed

variable {ρ : Type}

namespace Machine

/-- Try the last alternative that is left. -/
def backtrack : List (Choice ρ) → Progress ρ
  | [] => .failed
  | .mk frames state :: choices => .running ⟨frames, state, choices⟩

/-- Match a token. -/
def token (extras : Extras) (kind : Option String) (attached : Bool) (scan : Scan)
    (frames : List (Frame ρ)) (s : State) (choices : List (Choice ρ)) : Progress ρ :=
  let gap : Gap := if attached then { next := s.here, isFresh := false } else s.gap
  if gap.isFresh && !s.spanning && !s.fresh then backtrack choices
  else
    match scan gap.next.rest with
    | none => backtrack choices
    | some length => .running ⟨frames, s.take extras kind length gap, choices⟩

/-- Start to match a pattern. -/
def start (grammar : Grammar ρ) (pattern : Pattern ρ) (frames : List (Frame ρ)) (s : State)
    (choices : List (Choice ρ)) : Progress ρ :=
  match pattern with
  | .token kind attached scan => token grammar.extras kind attached scan frames s choices
  | .rule name => .running ⟨.run (grammar.rules name) :: frames, s, choices⟩
  | .seq parts => .running ⟨parts.map .run ++ frames, s, choices⟩
  | .alt [] => backtrack choices
  | .alt [part] => .running ⟨.run part :: frames, s, choices⟩
  | .alt (part :: rest) =>
    .running ⟨.run part :: .commit choices :: frames, s,
      .mk (.run (.alt rest) :: frames) s :: choices⟩
  | .many part =>
    .running ⟨.run part :: .commit choices :: .again part s.here.byte :: frames, s,
      .mk frames s :: choices⟩
  | .node kind part => .running ⟨.run part :: .close kind :: frames, s.open {}, choices⟩
  | .becomes kind =>
    .running ⟨frames, { s with current := { s.current with kind := some kind } }, choices⟩
  | .role name part =>
    .running ⟨.run part :: .role name s.current.nodes.length :: frames, s, choices⟩
  | .around kind role part =>
    match s.current.nodes with
    | [] => backtrack choices
    | node :: nodes =>
      let s := { s with current := { s.current with nodes } }
      .running ⟨.run part :: .close kind :: frames,
        s.open { nodes := [{ node with role }], start := some node.start }, choices⟩
  | .ahead part => .running ⟨[.run part, .resume s choices] ++ frames, s, choices⟩
  | .absent part => .running ⟨[.run part, .refuse choices], s, .mk frames s :: choices⟩
  | .remarks test =>
    .running ⟨frames, s.takeRemarks grammar.extras (test s.indentation), choices⟩
  | .gap test =>
    if test s.gap then .running ⟨frames, s, choices⟩ else backtrack choices
  | .spanning allowed part =>
    .running ⟨.run part :: .restore s.indentation s.spanning :: frames,
      { s with spanning := allowed }, choices⟩
  | .indented part =>
    let gap := s.gap
    if gap.isFresh && s.indentation < gap.column && !gap.next.rest.isEmpty then
      .running ⟨.run part :: .restore s.indentation s.spanning :: frames,
        { s with indentation := gap.column }, choices⟩
    else backtrack choices
  | .aligned =>
    let gap := s.gap
    if gap.isFresh && gap.column == s.indentation && !gap.next.rest.isEmpty then
      .running ⟨frames, { s with fresh := true }, choices⟩
    else backtrack choices

/-- Make one step. -/
def step (grammar : Grammar ρ) (m : Machine ρ) : Progress ρ :=
  let s := m.state
  match m.frames with
  | [] => .matched s
  | .run pattern :: frames => start grammar pattern frames s m.choices
  | .again part byte :: frames =>
    if s.here.byte = byte then .running ⟨frames, s, m.choices⟩
    else .running ⟨.run (.many part) :: frames, s, m.choices⟩
  | .commit choices :: frames => .running ⟨frames, s, choices⟩
  | .close kind :: frames => .running ⟨frames, s.close kind, m.choices⟩
  | .role name count :: frames =>
    let nodes := State.setRole name (s.current.nodes.length - count) s.current.nodes
    .running ⟨frames, { s with current := { s.current with nodes } }, m.choices⟩
  | .restore indentation spanning :: frames =>
    .running ⟨frames, { s with indentation, spanning }, m.choices⟩
  | .resume state choices :: frames => .running ⟨frames, state, choices⟩
  | .refuse choices :: _ => backtrack choices

/-- Make at most `steps` steps; the state in which the pattern matches, if there is one. -/
def run (grammar : Grammar ρ) : (steps : Nat) → Machine ρ → Option State
  | 0, _ => none
  | steps + 1, m =>
    match m.step grammar with
    | .running m => run grammar steps m
    | .matched state => some state
    | .failed => none

end Machine

/-! ## Sources -/

/-- The kind of the node of text that no item starts with. -/
def errorKind : String := "ERROR"

/-- The length of the text that is passed over at once: a word, or a single character. -/
def errorLength (text : List Char) : Nat :=
  max 1 (text.takeWhile Char.isAlphanum).length

/-- Read items from a place on, added to those of a context. -/
def items (grammar : Grammar ρ) (steps : Nat) : (fuel : Nat) → Context → Cursor → Context × Cursor
  | 0, context, here => (context, here)
  | fuel + 1, context, here =>
    let gap := grammar.extras.gapAt here
    let s : State := { here, gap, current := context, spanning := grammar.spanning }
    if gap.next.rest.isEmpty then
      ({ context with
        nodes := gap.comments ++ context.nodes
        start := context.start.or (gap.comments.getLast?.map (·.start)) }, gap.next)
    else
      match Machine.run grammar steps ⟨[.run grammar.item], s, []⟩ with
      | some state =>
        if here.byte < state.here.byte then items grammar steps fuel state.current state.here
        else skip fuel gap context
      | none => skip fuel gap context
where
  /-- Pass over text that no item starts with. -/
  skip (fuel : Nat) (gap : Gap) (context : Context) : Context × Cursor :=
    let stop := gap.next.advance (errorLength gap.next.rest)
    let error : Node := { kind := errorKind, start := gap.next, stop }
    let nodes := error :: (gap.comments ++ context.nodes)
    items grammar steps fuel
      { context with nodes, start := context.start.or (some gap.next) } stop

/-- The number of steps that an item may take. -/
def stepLimit (length : Nat) : Nat := 1000000 + 10000 * length

/-- Read a source. -/
def parse (grammar : Grammar ρ) (source : List Char) : Node :=
  let length := source.length
  let (context, stop) := items grammar (stepLimit length) (length + 1) {} { rest := source }
  let children := context.nodes.reverse
  let start := match children with
    | first :: _ => if first.start.byte < (context.start.getD stop).byte then first.start
        else context.start.getD stop
    | [] => context.start.getD stop
  { kind := grammar.root, start, stop, children }

end CodeIndex.Grammar
