import CodeIndex.Text.Utf8

/-!
# Glob patterns

The patterns of ignore files.  A pattern is matched against a whole path, octet by octet: a question
mark stands for any octet but the slash, a star for any number of such octets, and two stars that
are a step of their own for any number of steps.  Brackets enclose a choice of octets, braces a
choice of patterns, and a backslash takes the meaning off the character behind it.

## Main definitions

* `expand?` resolves the braces, `Glob.ofText?` reads what is left as a sequence of `GlobToken`s.
* `Glob.covers` matches a pattern: each token is a function from what the rest accepts to what the
  token and the rest accept.
-/

namespace CodeIndex

/-- A part of a pattern. -/
inductive GlobToken where
  | octet (b : UInt8)
  /-- One octet but the slash. -/
  | any
  /-- Any number of octets but the slash. -/
  | star
  /-- One of some ranges of octets, or none of them. -/
  | choice (negated : Bool) (ranges : List (UInt8 × UInt8))
  /-- Any number of steps at the start of the path. -/
  | leading
  /-- Any number of steps, at least one, at the end of the path. -/
  | trailing
  /-- Any number of steps between two others. -/
  | between
deriving DecidableEq, Repr

/-- A pattern: it matches what one of its alternatives matches. -/
structure Glob where
  alternatives : List (List GlobToken)

namespace Glob

/-- The slash. -/
def slash : UInt8 := 0x2F

/-- Whether some end of the path, from anywhere on, is accepted, the part before having no slash. -/
def afterStar (next : List UInt8 → Bool) : List UInt8 → Bool
  | [] => next []
  | b :: rest => next (b :: rest) || (b != slash && afterStar next rest)

/-- Whether the rest behind some slash is accepted. -/
def afterSlash (next : List UInt8 → Bool) : List UInt8 → Bool
  | [] => false
  | b :: rest => (b == slash && next rest) || afterSlash next rest

/-- Whether some end of the path is accepted. -/
def someEnd (next : List UInt8 → Bool) : List UInt8 → Bool
  | [] => next []
  | b :: rest => next (b :: rest) || someEnd next rest

/-- Whether the first octet has a property and the rest is accepted. -/
def first (p : UInt8 → Bool) (next : List UInt8 → Bool) : List UInt8 → Bool
  | [] => false
  | b :: rest => p b && next rest

/-- Whether an octet lies in one of some ranges. -/
def inRanges (ranges : List (UInt8 × UInt8)) (b : UInt8) : Bool :=
  ranges.any fun range => range.1 ≤ b && b ≤ range.2

/-- What a token and the rest of a pattern accept. -/
def accepts (token : GlobToken) (next : List UInt8 → Bool) : List UInt8 → Bool :=
  match token with
  | .octet b => first (· == b) next
  | .any => first (· != slash) next
  | .star => afterStar next
  | .choice negated ranges => first (fun b => inRanges ranges b != negated) next
  | .leading => fun path => next path || afterSlash next path
  | .trailing => first (· == slash) (someEnd next)
  | .between => first (· == slash) fun path => next path || afterSlash next path

/-- Whether the pattern matches a path. -/
def covers (glob : Glob) (path : List UInt8) : Bool :=
  glob.alternatives.any fun tokens => tokens.foldr accepts List.isEmpty path

/-- Take the characters between brackets off the front of a text that starts behind the opening one,
if there is a closing one.  A closing bracket that comes first has no meaning. -/
def bracketed? (text : List Char) : Option (List Char × List Char) :=
  let start := match text with
    | '!' :: _ => 1
    | '^' :: _ => 1
    | _ => 0
  let first := start + (if text[start]? = some ']' then 1 else 0)
  let inside := text.take first ++ (text.drop first).takeWhile (· != ']')
  match text.drop inside.length with
  | ']' :: rest => some (inside, rest)
  | _ => none

/-- Put a text before each of some texts. -/
def before (text : List Char) (texts : List (List Char)) : List (List Char) := texts.map (text ++ ·)

mutual

/-- The patterns without braces that a pattern stands for, up to the end of the alternative that it
is part of, and what follows. -/
def expandFrom? (nested : Bool) : (fuel : Nat) → List Char → Option (List (List Char) × List Char)
  | 0, _ => none
  | _ + 1, [] => some ([[]], [])
  | fuel + 1, '\\' :: c :: rest =>
    (expandFrom? nested fuel rest).map fun (ends, rest) => (before ['\\', c] ends, rest)
  | fuel + 1, '[' :: rest =>
    match bracketed? rest with
    | some (inside, rest) =>
      (expandFrom? nested fuel rest).map fun (ends, rest) =>
        (before ('[' :: inside ++ [']']) ends, rest)
    | none => (expandFrom? nested fuel rest).map fun (ends, rest) => (before ['\\', '['] ends, rest)
  | fuel + 1, c :: rest =>
    if c = '\x7b' then
      match alternatives? fuel rest with
      | none => none
      | some (choices, rest) =>
        (expandFrom? nested fuel rest).map fun (ends, rest) =>
          (choices.flatMap fun choice => before choice ends, rest)
    else if c = '\x7d' then if nested then some ([[]], c :: rest) else none
    else if c = ',' ∧ nested then some ([[]], c :: rest)
    else (expandFrom? nested fuel rest).map fun (ends, rest) => (before [c] ends, rest)

/-- The patterns between braces, from behind the opening one or a comma. -/
def alternatives? : (fuel : Nat) → List Char → Option (List (List Char) × List Char)
  | 0, _ => none
  | fuel + 1, text =>
    match expandFrom? true fuel text with
    | some (choices, ',' :: rest) =>
      (alternatives? fuel rest).map fun (more, rest) => (choices ++ more, rest)
    | some (choices, _ :: rest) => some (choices, rest)
    | _ => none

end

/-- The patterns without braces that a pattern stands for. -/
def expand? (text : List Char) : Option (List (List Char)) :=
  (expandFrom? false (2 * text.length + 2) text).map (·.1)

/-- The octets of a character as tokens, the last one first. -/
def octetTokens (c : Char) : List GlobToken :=
  ((Text.Utf8.encode [c]).map GlobToken.octet).reverse

/-- The ranges that the characters from one to another amount to. -/
def octetRanges (c d : Char) : List (UInt8 × UInt8) :=
  let low := Text.Utf8.encode [c]
  let high := Text.Utf8.encode [d]
  if c = d then low.map fun b => (b, b)
  else
    low.dropLast.map (fun b => (b, b)) ++ [(low.getLastD 0, high.headD 0)] ++
      (high.drop 1).map fun b => (b, b)

/-- Read the ranges between brackets. -/
def ranges? : List Char → Option (List (UInt8 × UInt8))
  | [] => some []
  | c :: '-' :: d :: rest =>
    if c ≤ d then (ranges? rest).map fun more => octetRanges c d ++ more else none
  | c :: rest => (ranges? rest).map fun more => octetRanges c c ++ more

/-- Read what stands between brackets. -/
def choice? (inside : List Char) : Option GlobToken :=
  match inside with
  | '!' :: rest => (ranges? rest).map (.choice true)
  | '^' :: rest => (ranges? rest).map (.choice true)
  | rest => (ranges? rest).map (.choice false)

/-- The token for two stars that follow a slash, which takes the place of the token before. -/
def stepsAfter (last : GlobToken) (new : GlobToken) : GlobToken :=
  match last with
  | .leading => .leading
  | .trailing => .trailing
  | _ => new

/-- Read a pattern without braces; `read` holds the tokens before, in reverse, and `last` is the
character before. -/
def tokensFrom? : (fuel : Nat) → (read : List GlobToken) → (last : Option Char) → List Char →
    Option (List GlobToken)
  | 0, _, _, _ => none
  | _ + 1, read, _, [] => some read.reverse
  | fuel + 1, read, last, '*' :: '*' :: rest =>
    match read, rest with
    | [], [] => some [.leading]
    | [], '/' :: rest => tokensFrom? fuel [.leading] (some '/') rest
    | token :: earlier, [] =>
      if last = some '/' then some (stepsAfter token .trailing :: earlier).reverse
      else some (.star :: .star :: read).reverse
    | token :: earlier, '/' :: rest =>
      if last = some '/' then
        tokensFrom? fuel (stepsAfter token .between :: earlier) (some '/') rest
      else tokensFrom? fuel (.star :: .star :: read) (some '*') ('/' :: rest)
    | _, rest => tokensFrom? fuel (.star :: .star :: read) (some '*') rest
  | fuel + 1, read, _, '*' :: rest => tokensFrom? fuel (.star :: read) (some '*') rest
  | fuel + 1, read, _, '?' :: rest => tokensFrom? fuel (.any :: read) (some '?') rest
  | _ + 1, _, _, ['\\'] => none
  | fuel + 1, read, _, '\\' :: c :: rest =>
    tokensFrom? fuel (octetTokens c ++ read) (some c) rest
  | fuel + 1, read, _, '[' :: rest =>
    match bracketed? rest with
    | none => none
    | some (inside, rest) =>
      (choice? inside).bind fun token => tokensFrom? fuel (token :: read) (some ']') rest
  | fuel + 1, read, _, c :: rest => tokensFrom? fuel (octetTokens c ++ read) (some c) rest

/-- Read a pattern. -/
def ofText? (text : List Char) : Option Glob :=
  ((expand? text).bind fun texts =>
    texts.mapM fun t => tokensFrom? (t.length + 1) [] none t).map Glob.mk

end Glob

end CodeIndex
