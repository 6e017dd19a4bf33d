/-! # HTTP tokens

The words that methods, media types and their parameters are made of.
-/
namespace RequestMeter.Http

def isAlphanumeric (c : Char) : Bool :=
  ('0' ≤ c && c ≤ '9') || ('a' ≤ c && c ≤ 'z') || ('A' ≤ c && c ≤ 'Z')

def isTokenChar (c : Char) : Bool :=
  isAlphanumeric c || "!#$%&'*+-.^_`|~".toList.contains c

def isToken (cs : List Char) : Bool := cs ≠ [] && cs.all isTokenChar

end RequestMeter.Http
