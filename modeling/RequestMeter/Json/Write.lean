import RequestMeter.Json.Basic
import RequestMeter.Numeral

/-! # Writing JSON

Values are written without blanks, fields in their order, other characters than controls, quote and
backslash as they are.
-/
namespace RequestMeter.Json

def escape (c : Char) : List Char :=
  if c = '"' then ['\\', '"']
  else if c = '\\' then ['\\', '\\']
  else if c = '\x08' then ['\\', 'b']
  else if c = '\t' then ['\\', 't']
  else if c = '\n' then ['\\', 'n']
  else if c = '\x0c' then ['\\', 'f']
  else if c = '\r' then ['\\', 'r']
  else if c.toNat < 0x20 then '\\' :: 'u' :: Numeral.hexadecimalPadded 4 c.toNat
  else [c]

/-- A string literal; one without text is written as half of a surrogate pair. -/
def writeText : Text → List Char
  | some s => '"' :: s.toList.flatMap escape ++ ['"']
  | none => ['"', '\\', 'u', 'd', '8', '0', '0', '"']

/-- A number literal: the exponent mark is `e`, and its sign is always written. -/
def writeNumber (n : Number) : List Char :=
  (if n.negative then ['-'] else []) ++ Numeral.decimal n.whole ++
    (if n.fraction = [] then [] else '.' :: n.fraction.map Numeral.charOf) ++
    match n.exponent with
    | none => []
    | some e => 'e' :: (if e < 0 then '-' else '+') :: Numeral.decimal e.natAbs

mutual

def write : Json → List Char
  | null => ['n', 'u', 'l', 'l']
  | bool true => ['t', 'r', 'u', 'e']
  | bool false => ['f', 'a', 'l', 's', 'e']
  | number n => writeNumber n
  | string s => writeText s
  | array items => '[' :: writeItems items ++ [']']
  | object fields => '\x7b' :: writeFields fields ++ ['\x7d']

def writeItems : List Json → List Char
  | [] => []
  | [j] => write j
  | j :: js => write j ++ ',' :: writeItems js

def writeFields : List (Text × Json) → List Char
  | [] => []
  | [(k, j)] => writeText k ++ ':' :: write j
  | (k, j) :: fs => writeText k ++ ':' :: write j ++ ',' :: writeFields fs

end

/-! ## Pieces

A value is not written at once: every mark, number, word and escape is a piece of its own, and so is
every run of characters that stand for themselves.
-/

def isPlain (c : Char) : Bool := escape c = [c]

def textPieces : Text → List (List Char)
  | some s =>
    ['"'] :: (s.toList.splitBy fun a b => isPlain a && isPlain b).map (·.flatMap escape) ++ [['"']]
  | none => [writeText none]

mutual

def pieces : Json → List (List Char)
  | null => [write null]
  | bool b => [write (bool b)]
  | number n => [writeNumber n]
  | string s => textPieces s
  | array items => ['['] :: itemPieces items ++ [[']']]
  | object fields => ['\x7b'] :: fieldPieces fields ++ [['\x7d']]

def itemPieces : List Json → List (List Char)
  | [] => []
  | [j] => pieces j
  | j :: js => pieces j ++ [','] :: itemPieces js

def fieldPieces : List (Text × Json) → List (List Char)
  | [] => []
  | [(k, j)] => textPieces k ++ [':'] :: pieces j
  | (k, j) :: fs => textPieces k ++ [':'] :: pieces j ++ [','] :: fieldPieces fs

end

def compact (j : Json) : String := String.ofList j.write

end RequestMeter.Json
