/-!
# Addresses of services

Which texts are accepted as the address of a vector service: a host with an optional port, or a
scheme, such a host and a path.  Nothing is asked of the address but its form.

## Main definitions

* `isAuthority` is the form of the part with the host, `isPath` that of what follows it.
* `isAddress` is the form of an address.
-/

namespace CodeIndex.ServiceAddress

/-- Whether a character is an ASCII letter or digit. -/
def isPlain (c : Char) : Bool := c.isAlphanum

/-- The characters of addresses that are not letters or digits. -/
def isSign (c : Char) : Bool := "!#$&'()*+,-./:;=?@[]_~".toList.contains c

/-- The characters that end the part with the host. -/
def endsAuthority (c : Char) : Bool := c == '/' || c == '?' || c == '#'

/-- The greatest number of colons in the part with the host. -/
def maxColons : Nat := 8

/-- What has been seen of the part with the host. -/
structure Seen where
  colons : Nat := 0
  opened : Bool := false
  closed : Bool := false
  percent : Bool := false
  /-- Whether the last character was an at sign. -/
  lastAt : Bool := false

/-- Read one character of the part with the host. -/
def Seen.step? (seen : Seen) (c : Char) : Option Seen :=
  let seen := { seen with lastAt := c == '@' }
  if c = ':' then
    if maxColons ≤ seen.colons then none else some { seen with colons := seen.colons + 1 }
  else if c = '[' then
    if seen.percent || seen.opened then none else some { seen with opened := true }
  else if c = ']' then
    if !seen.opened || seen.closed then none
    else some { seen with closed := true, colons := 0, percent := false }
  else if c = '@' then some { seen with colons := 0, percent := false }
  else if c = '%' then some { seen with percent := true }
  else if isPlain c || isSign c then some seen
  else none

/-- Whether a text has the form of a host, with an optional port and user. -/
def isAuthority (text : List Char) : Bool :=
  match text.foldlM Seen.step? {} with
  | none => false
  | some seen => seen.opened == seen.closed && seen.colons ≤ 1 && !seen.lastAt && !seen.percent

/-- The characters of a path behind the host. -/
def isPathChar (c : Char) : Bool :=
  let n := c.toNat
  n == 0x21 || (0x24 ≤ n && n ≤ 0x3B) || n == 0x3D || (0x40 ≤ n && n ≤ 0x5F) ||
    (0x61 ≤ n && n ≤ 0x7A) || n == 0x7C || 0x7E ≤ n || n == 0x22 || n == 0x7B || n == 0x7D

/-- The characters of a query behind the path. -/
def isQueryChar (c : Char) : Bool :=
  let n := c.toNat
  n == 0x21 || (0x24 ≤ n && n ≤ 0x3B) || n == 0x3D || 0x3F ≤ n

/-- Whether a text has the form of a path with an optional query; what follows a number sign does
not matter. -/
def isPath (text : List Char) : Bool :=
  let text := text.takeWhile (· != '#')
  let path := text.takeWhile (· != '?')
  path.all isPathChar && (text.drop (path.length + 1)).all isQueryChar

/-- The characters of schemes. -/
def isSchemeChar (c : Char) : Bool := isPlain c || c == '+' || c == '-' || c == '.'

/-- The greatest number of characters of a scheme. -/
def maxScheme : Nat := 64

/-- Whether a text has the form of an address. -/
def isAddress (text : List Char) : Bool :=
  match text with
  | [] => false
  | ['*'] => true
  | '/' :: _ => isPath text
  | _ =>
    let scheme := text.takeWhile isSchemeChar
    match text.drop scheme.length with
    | ':' :: '/' :: '/' :: rest =>
      let host := rest.takeWhile (!endsAuthority ·)
      decide (scheme.length ≤ maxScheme) && !host.isEmpty && isAuthority host &&
        isPath (rest.drop host.length)
    | _ => text.all (!endsAuthority ·) && isAuthority text

end CodeIndex.ServiceAddress
