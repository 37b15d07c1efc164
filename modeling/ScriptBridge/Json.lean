import ScriptBridge.Binary64.Text
import ScriptBridge.Hexadecimal

/-!
# JSON documents and their compact text

The documents this library writes: diagnostic views of script values, and the stored forms of
configurations and geometry. The text has no blanks; members are written in the order they are
listed in.

Numbers are finite, since JSON has no text for the others: `Json.ofNumber` gives `null` for those.
-/

namespace ScriptBridge

/-- A JSON document to be written. -/
inductive Json where
  | null
  | bool (b : Bool)
  | natural (n : Nat)
  | number (x : Binary64)
  | string (s : String)
  | array (items : List Json)
  | object (members : List (String × Json))

namespace Json

/-- The document of a number, `null` when it is not finite. -/
def ofNumber (x : Binary64) : Json := if x.isFinite then number x else null

/-! ## Text of numbers and strings -/

/-- Numbers are written positionally from `0.00001` up to sixteen digits before the point, and
always with a fraction or an exponent. -/
def numberLayout : NumberLayout :=
  { positionalFrom := some (-5), positionalBelow := some 16, wholeEnding := ['.', '0'] }

/-- How a character stands inside a quoted string. Quotes, backslashes and control characters are
escaped, all others stand for themselves. -/
def escape (c : Char) : List Char :=
  match c with
  | '"' => ['\\', '"']
  | '\\' => ['\\', '\\']
  | '\x08' => ['\\', 'b']
  | '\x0c' => ['\\', 'f']
  | '\n' => ['\\', 'n']
  | '\x0d' => ['\\', 'r']
  | '\t' => ['\\', 't']
  | c =>
    if c.toNat < 32 then '\\' :: 'u' :: Hexadecimal.digits 4 c.toNat else [c]

/-- The quoted text of a string. -/
def quote (s : String) : List Char := '"' :: (s.toList.flatMap escape ++ ['"'])

/-! ## Text of documents -/

mutual

/-- The compact text of a document. -/
def text : Json → List Char
  | null => ['n', 'u', 'l', 'l']
  | bool true => ['t', 'r', 'u', 'e']
  | bool false => ['f', 'a', 'l', 's', 'e']
  | natural n => Nat.toDigits 10 n
  | number x => x.finiteText numberLayout
  | string s => quote s
  | array items => '[' :: itemsText items
  | object members => '{' :: membersText members

/-- The items of an array with the closing bracket. -/
def itemsText : List Json → List Char
  | [] => [']']
  | item :: rest => item.text ++ laterItemsText rest

/-- The items after the first, each behind a comma, with the closing bracket. -/
def laterItemsText : List Json → List Char
  | [] => [']']
  | item :: rest => ',' :: (item.text ++ laterItemsText rest)

/-- The members of an object with the closing brace. -/
def membersText : List (String × Json) → List Char
  | [] => ['\x7d']
  | (key, value) :: rest => quote key ++ ':' :: (value.text ++ laterMembersText rest)

/-- The members after the first, each behind a comma, with the closing brace. -/
def laterMembersText : List (String × Json) → List Char
  | [] => ['\x7d']
  | (key, value) :: rest => ',' :: (quote key ++ ':' :: (value.text ++ laterMembersText rest))

end

/-- The compact text of a document as a string. -/
def render (json : Json) : String := String.ofList json.text

end Json

end ScriptBridge
