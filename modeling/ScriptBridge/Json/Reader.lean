import ScriptBridge.Json.Raw

/-!
# Reading JSON text

A reader takes a value off the front of the text and gives what is left. White space between tokens
is space, tab, line feed and carriage return, and nothing else.

`readValue` counts down on its way into nested values and along lists. Every step but the one into a
list takes a character, so twice the length of the text is enough, and `Raw.parse?` starts with
that.
-/

namespace ScriptBridge

namespace Json

/-- White space between tokens. -/
def isBlank (c : Char) : Bool := c == ' ' || c == '\t' || c == '\n' || c == '\x0d'

/-- The text behind leading white space. -/
def skipBlanks (cs : List Char) : List Char := cs.dropWhile isBlank

/-! ## Numbers -/

/-- The leading decimal digits. -/
def readDigits (cs : List Char) : List Nat × List Char :=
  ((cs.takeWhile Char.isDigit).map (·.toNat - 48), cs.dropWhile Char.isDigit)

/-- A point and the digits behind it, of which there is at least one. -/
def readFraction : List Char → Option (Option (List Nat) × List Char)
  | '.' :: cs =>
    match readDigits cs with
    | ([], _) => none
    | (digits, rest) => some (some digits, rest)
  | cs => some (none, cs)

/-- The sign of an exponent. -/
def readExponentSign : List Char → Bool × List Char
  | '+' :: cs => (false, cs)
  | '-' :: cs => (true, cs)
  | cs => (false, cs)

/-- An exponent with at least one digit. -/
def readExponent : List Char → Option (Option (Bool × List Nat) × List Char)
  | c :: cs =>
    if c == 'e' || c == 'E' then
      let (isNegative, cs) := readExponentSign cs
      match readDigits cs with
      | ([], _) => none
      | (digits, rest) => some (some (isNegative, digits), rest)
    else some (none, c :: cs)
  | [] => some (none, [])

/-- The digits before the point: a single zero, or a number that does not start with zero. -/
def readWhole (cs : List Char) : Option (List Nat × List Char) :=
  match readDigits cs with
  | ([], _) => none
  | (0 :: _ :: _, _) => none
  | (digits, rest) => some (digits, rest)

/-- A number behind its sign. -/
def readUnsigned (negative : Bool) (cs : List Char) : Option (Numeral × List Char) := do
  let (whole, cs) ← readWhole cs
  let (fraction, cs) ← readFraction cs
  let (exponent, cs) ← readExponent cs
  return ({ negative, whole, fraction, exponent }, cs)

/-- A number. -/
def readNumeral : List Char → Option (Numeral × List Char)
  | '-' :: cs => readUnsigned true cs
  | cs => readUnsigned false cs

/-! ## Strings -/

/-- What a backslash and one more character stand for. -/
def shortEscape? : Char → Option Char
  | '"' => some '"'
  | '\\' => some '\\'
  | '/' => some '/'
  | 'b' => some '\x08'
  | 'f' => some '\x0c'
  | 'n' => some '\n'
  | 'r' => some '\x0d'
  | 't' => some '\t'
  | _ => none

/-- The pieces of a string up to the closing quote. Control characters have to be escaped. -/
def readPieces : List Char → Option (List Piece × List Char)
  | [] => none
  | '"' :: rest => some ([], rest)
  | '\\' :: 'u' :: a :: b :: c :: d :: rest => do
    let n ← Hexadecimal.ofDigits? [a, b, c, d]
    let (pieces, rest) ← readPieces rest
    return (.unit n :: pieces, rest)
  | '\\' :: c :: rest => do
    let c ← shortEscape? c
    let (pieces, rest) ← readPieces rest
    return (.char c :: pieces, rest)
  | c :: rest =>
    if c.toNat < 32 || c == '\\' then none
    else do
      let (pieces, rest) ← readPieces rest
      return (.char c :: pieces, rest)

/-! ## Documents -/

mutual

/-- A value behind white space. -/
def readValue : Nat → List Char → Option (Raw × List Char)
  | 0, _ => none
  | more + 1, cs =>
    match skipBlanks cs with
    | 'n' :: 'u' :: 'l' :: 'l' :: rest => some (.null, rest)
    | 't' :: 'r' :: 'u' :: 'e' :: rest => some (.bool true, rest)
    | 'f' :: 'a' :: 'l' :: 's' :: 'e' :: rest => some (.bool false, rest)
    | '"' :: rest => do
      let (pieces, rest) ← readPieces rest
      return (.string pieces, rest)
    | '[' :: rest =>
      match skipBlanks rest with
      | ']' :: rest => some (.array [], rest)
      | rest => do
        let (items, rest) ← readItems more rest
        return (.array items, rest)
    | '\x7b' :: rest =>
      match skipBlanks rest with
      | '\x7d' :: rest => some (.object [], rest)
      | rest => do
        let (members, rest) ← readMembers more rest
        return (.object members, rest)
    | rest => do
      let (n, rest) ← readNumeral rest
      return (.number n, rest)

/-- The items of an array up to the closing bracket, at least one. -/
def readItems : Nat → List Char → Option (List Raw × List Char)
  | 0, _ => none
  | more + 1, cs => do
    let (item, rest) ← readValue more cs
    match skipBlanks rest with
    | ']' :: rest => return ([item], rest)
    | ',' :: rest =>
      let (items, rest) ← readItems more rest
      return (item :: items, rest)
    | _ => none

/-- The members of an object up to the closing brace, at least one. -/
def readMembers : Nat → List Char → Option (List (List Piece × Raw) × List Char)
  | 0, _ => none
  | more + 1, cs =>
    match skipBlanks cs with
    | '"' :: rest => do
      let (key, rest) ← readPieces rest
      match skipBlanks rest with
      | ':' :: rest =>
        let (value, rest) ← readValue more rest
        match skipBlanks rest with
        | '\x7d' :: rest => return ([(key, value)], rest)
        | ',' :: rest =>
          let (members, rest) ← readMembers more rest
          return ((key, value) :: members, rest)
        | _ => none
      | _ => none
    | _ => none

end

/-- The document that a text holds. Nothing but white space may follow it. -/
def Raw.parse? (text : String) : Option Raw :=
  let cs := text.toList
  match readValue (2 * cs.length + 2) cs with
  | some (raw, rest) => if skipBlanks rest = [] then some raw else none
  | none => none

end Json

end ScriptBridge
