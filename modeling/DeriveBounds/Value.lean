import DeriveBounds.Text.Decimal
import DeriveBounds.Text.Layout
import DeriveBounds.Text.Quoted

/-!
Loosely typed data: the values of log fields and of arguments that have not been checked yet.
-/
namespace DeriveBounds

inductive Value
  | null
  | bool (value : Bool)
  | int (value : Int)
  | decimal (value : Float)
  | text (value : String)
  | list (items : List Value)
  | dict (entries : List (String × Value))
  deriving Inhabited

namespace Value

def ofOption : Option String → Value
  | none => null
  | some value => text value

def texts (values : List String) : Value :=
  list (values.map text)

def text? : Value → Option String
  | text value => some value
  | _ => none

/-- The name of the type of a value, for messages. -/
def typeName : Value → String
  | null => "NoneType"
  | bool _ => "bool"
  | int _ => "int"
  | decimal _ => "float"
  | text _ => "str"
  | list _ => "list"
  | dict _ => "dict"

/-- Whether a value switches a flag on: zero and whatever is empty do not. -/
def isTruthy : Value → Bool
  | null => false
  | bool value => value
  | int value => value != 0
  | decimal value => value != 0
  | text value => value != ""
  | list items => !items.isEmpty
  | dict entries => !entries.isEmpty

mutual

/-- A value as it is shown in messages. -/
def shown : Value → String
  | null => "None"
  | bool true => "True"
  | bool false => "False"
  | int value => toString value
  | decimal value => Text.decimal "inf" "nan" value
  | text value => Text.quoted value
  | list items => "[" ++ Text.join ", " (shownItems items) ++ "]"
  | dict entries => "\x7b" ++ Text.join ", " (shownEntries entries) ++ "\x7d"

def shownItems : List Value → List String
  | [] => []
  | item :: rest => item.shown :: shownItems rest

def shownEntries : List (String × Value) → List String
  | [] => []
  | (key, value) :: rest => (Text.quoted key ++ ": " ++ value.shown) :: shownEntries rest

end

private def hex4 (n : Nat) : List Char :=
  let digits := Nat.toDigits 16 n
  List.replicate (4 - digits.length) '0' ++ digits

/-- A character in a JSON string; outside ASCII it is written as one or two UTF-16 units. -/
def jsonChar (c : Char) : List Char :=
  let n := c.toNat
  if c = '"' then ['\\', '"']
  else if c = '\\' then ['\\', '\\']
  else if c = '\n' then ['\\', 'n']
  else if c = '\r' then ['\\', 'r']
  else if c = '\t' then ['\\', 't']
  else if n = 8 then ['\\', 'b']
  else if n = 12 then ['\\', 'f']
  else if 0x20 ≤ n ∧ n < 0x7f then [c]
  else if n < 0x10000 then '\\' :: 'u' :: hex4 n
  else
    let high := 0xd800 + (n - 0x10000) / 0x400
    let low := 0xdc00 + (n - 0x10000) % 0x400
    '\\' :: 'u' :: hex4 high ++ '\\' :: 'u' :: hex4 low

def jsonText (value : String) : String :=
  String.ofList ('"' :: value.toList.flatMap jsonChar ++ ['"'])

mutual

/-- A value as JSON, with a space behind each comma and colon. -/
def json : Value → String
  | null => "null"
  | bool true => "true"
  | bool false => "false"
  | int value => toString value
  | decimal value => Text.decimal "Infinity" "NaN" value
  | text value => jsonText value
  | list items => "[" ++ Text.join ", " (jsonItems items) ++ "]"
  | dict entries => "\x7b" ++ Text.join ", " (jsonEntries entries) ++ "\x7d"

def jsonItems : List Value → List String
  | [] => []
  | item :: rest => item.json :: jsonItems rest

def jsonEntries : List (String × Value) → List String
  | [] => []
  | (key, value) :: rest => (jsonText key ++ ": " ++ value.json) :: jsonEntries rest

end

end Value

end DeriveBounds
