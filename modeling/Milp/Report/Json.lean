import Milp.Num.Text

/-!
Answers as JSON values, and their text. Doubles are written as JSON numbers with their
shortest digits, except four values that JSON numbers cannot carry, which are written as the
strings `"inf"`, `"-inf"`, `"nan"` and `"-0"`.
-/
namespace Milp

/-- A JSON value. A number is kept as its text. -/
inductive Json where
  | null
  | bool (b : Bool)
  | num (text : String)
  | str (s : String)
  | arr (items : List Json)
  | obj (fields : List (String × Json))
deriving Inhabited

namespace Json

/-- A natural number. -/
def nat (n : Nat) : Json := .num (toString n)

/-- A double: its shortest digits, or a string for the values a JSON number cannot carry. -/
def float (x : Float) : Json :=
  match Num.Kind.ofFloat x with
  | .nan => .str "nan"
  | .infinite negative => .str (if negative then "-inf" else "inf")
  | .finite b =>
    if b.significand = 0 ∧ b.negative then .str "-0"
    else .num (Num.Layout.standard.render x)

/-- Four hex digits of a code below `2^16`. -/
def hex4 (n : Nat) : String :=
  let digit (d : Nat) : Char := if d < 10 then Char.ofNat (48 + d) else Char.ofNat (87 + d)
  String.ofList [digit (n / 4096 % 16), digit (n / 256 % 16), digit (n / 16 % 16), digit (n % 16)]

/-- A character inside a JSON string: quote, backslash and control characters escaped. -/
def escapeChar (c : Char) : String :=
  if c = '"' then "\\\""
  else if c = '\\' then "\\\\"
  else if c = '\n' then "\\n"
  else if c = '\r' then "\\r"
  else if c = '\t' then "\\t"
  else if c.toNat < 32 then "\\u" ++ hex4 c.toNat
  else c.toString

/-- A JSON string literal. -/
def quote (s : String) : String := "\"" ++ String.join (s.toList.map escapeChar) ++ "\""

mutual

/-- The compact text of a value. -/
def render : Json → String
  | null => "null"
  | bool b => if b then "true" else "false"
  | num t => t
  | str s => quote s
  | arr items => "[" ++ renderItems items ++ "]"
  | obj fields => "\x7b" ++ renderFields fields ++ "\x7d"

/-- The texts of array items, separated by commas. -/
def renderItems : List Json → String
  | [] => ""
  | [x] => render x
  | x :: rest => render x ++ "," ++ renderItems rest

/-- The texts of object fields, separated by commas. -/
def renderFields : List (String × Json) → String
  | [] => ""
  | [(k, v)] => quote k ++ ":" ++ render v
  | (k, v) :: rest => quote k ++ ":" ++ render v ++ "," ++ renderFields rest

end

end Json

end Milp
