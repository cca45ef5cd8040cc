import Asapo.PercentEncoding

namespace Asapo.UrlQuery

open PercentEncoding

abbrev ampersand : UInt8 := '&'.toUInt8
abbrev equals : UInt8 := '='.toUInt8
abbrev semicolon : UInt8 := ';'.toUInt8
abbrev plus : UInt8 := '+'.toUInt8
abbrev space : UInt8 := ' '.toUInt8

/-- A component of a query: a plus sign stands for a space. -/
def queryUnescape (s : List UInt8) : Option (List UInt8) :=
  decode (s.map (fun b => if b = plus then space else b))

/-- The key and the value of one part of a query. A part that cannot be read is left out. -/
def parsePair (s : List UInt8) : Option (List UInt8 × List UInt8) :=
  if semicolon ∈ s ∨ s = [] then none
  else
    (queryUnescape (s.takeWhile (· ≠ equals))).bind (fun key =>
      (queryUnescape (s.dropWhile (· ≠ equals)).tail).map (fun value => (key, value)))

def parseQuery (s : List UInt8) : List (List UInt8 × List UInt8) := (s.splitOn ampersand).filterMap parsePair

def get (query : List (List UInt8 × List UInt8)) (key : List UInt8) : List UInt8 :=
  ((query.find? (fun p => p.1 = key)).map Prod.snd).getD []

variable {escape : List UInt8 → List UInt8}

def pair (escape : List UInt8 → List UInt8) (x : List UInt8 × List UInt8) : List UInt8 :=
  escape x.1 ++ equals :: escape x.2

def params (escape : List UInt8 → List UInt8) (xs : List (List UInt8 × List UInt8)) : List UInt8 :=
  xs.flatMap (fun x => ampersand :: pair escape x)

@[simp] theorem get_nil (key : List UInt8) : get [] key = [] := rfl

end Asapo.UrlQuery
