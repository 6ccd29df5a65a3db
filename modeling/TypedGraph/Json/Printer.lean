import TypedGraph.Json.Basic
import TypedGraph.Text.Hexadecimal

/-!
# Compact JSON Text

The text of a JSON value without blanks. Strings are escaped minimally; numbers that are not
integers are written with the fewest digits that read back.
-/

namespace TypedGraph.Json

/-- One character inside a JSON string: quote, backslash and control characters are escaped. -/
def escapeChar (c : Char) : List Char :=
  if c = '"' then ['\\', '"']
  else if c = '\\' then ['\\', '\\']
  else if c = '\x08' then ['\\', 'b']
  else if c = '\x0c' then ['\\', 'f']
  else if c = '\n' then ['\\', 'n']
  else if c = '\r' then ['\\', 'r']
  else if c = '\t' then ['\\', 't']
  else if c.toNat < 0x20 then '\\' :: 'u' :: Hexadecimal.fourDigits c.toNat
  else [c]

/-- The text of a string between its quotes. -/
def stringChars (s : String) : List Char :=
  '"' :: s.toList.flatMap escapeChar ++ ['"']

/-- Numbers are written in place while the exponent of the first digit is from -5 to 15. -/
def numberStyle : DecimalStyle := ⟨-5, 15⟩

/-- The text of a binary64 number; it always has a point or an exponent. -/
def floatChars (x : Binary64) : List Char :=
  let magnitude := if x.isZero then ['0', '.', '0'] else numberStyle.write x.shortest
  if x.negative then '-' :: magnitude else magnitude

/-- The decimal numeral of an integer. -/
def intChars : Int → List Char
  | .ofNat n => Decimal.digits n
  | .negSucc n => '-' :: Decimal.digits (n + 1)

/-- The text of a number. -/
def numberChars : Number → List Char
  | .int i => intChars i
  | .float x => floatChars x

mutual

/-- The compact text of a value. -/
def chars : Json → List Char
  | null => ['n', 'u', 'l', 'l']
  | bool true => ['t', 'r', 'u', 'e']
  | bool false => ['f', 'a', 'l', 's', 'e']
  | num n => numberChars n
  | str s => stringChars s
  | arr items => '[' :: itemChars items ++ [']']
  | obj members => '\x7b' :: memberChars members ++ ['\x7d']

/-- The items of an array with commas between them. -/
def itemChars : List Json → List Char
  | [] => []
  | v :: rest => chars v ++ itemCharsAfter rest

/-- Further items of an array, each after a comma. -/
def itemCharsAfter : List Json → List Char
  | [] => []
  | v :: rest => ',' :: chars v ++ itemCharsAfter rest

/-- The members of an object with commas between them. -/
def memberChars : List (String × Json) → List Char
  | [] => []
  | (k, v) :: rest => stringChars k ++ ':' :: chars v ++ memberCharsAfter rest

/-- Further members of an object, each after a comma. -/
def memberCharsAfter : List (String × Json) → List Char
  | [] => []
  | (k, v) :: rest => ',' :: stringChars k ++ ':' :: chars v ++ memberCharsAfter rest

end

/-- The compact text of a value. -/
def text (v : Json) : String := String.ofList v.chars

end TypedGraph.Json
