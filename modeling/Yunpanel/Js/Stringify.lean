/-
`JSON.stringify`: the one text of a value, with no blanks in it.
-/
import Yunpanel.Js.Value

namespace Yunpanel.Json

/-- Four hexadecimal digits. -/
def hex4 (n : Nat) : List Char :=
  let digits := Nat.toDigits 16 n
  List.replicate (4 - digits.length) '0' ++ digits

/-- A character inside a text. -/
def escapeChar (c : Char) : List Char :=
  if c = '"' then ['\\', '"']
  else if c = '\\' then ['\\', '\\']
  else if c.toNat = 8 then ['\\', 'b']
  else if c.toNat = 9 then ['\\', 't']
  else if c.toNat = 10 then ['\\', 'n']
  else if c.toNat = 12 then ['\\', 'f']
  else if c.toNat = 13 then ['\\', 'r']
  else if c.toNat < 32 then '\\' :: 'u' :: hex4 c.toNat
  else [c]

def quoted (s : String) : List Char :=
  '"' :: s.toList.flatMap escapeChar ++ ['"']

mutual

def stringify : Json → List Char
  | null => "null".toList
  | bool b => if b then "true".toList else "false".toList
  | num n => (toString n).toList
  | str s => quoted s
  | arr items => '[' :: stringifyItems items ++ [']']
  | obj fields => '\x7b' :: stringifyFields fields ++ ['\x7d']

def stringifyItems : List Json → List Char
  | [] => []
  | [item] => stringify item
  | item :: items => stringify item ++ ',' :: stringifyItems items

def stringifyFields : List (String × Json) → List Char
  | [] => []
  | [(key, value)] => quoted key ++ ':' :: stringify value
  | (key, value) :: fields =>
      quoted key ++ ':' :: stringify value ++ ',' :: stringifyFields fields

end

example : String.ofList (stringify (.obj [("a", .arr [.num 1, .null]),
    ("b", .str "x\"y")])) = "\x7b\"a\":[1,null],\"b\":\"x\\\"y\"\x7d" := by
  decide +kernel

end Yunpanel.Json
