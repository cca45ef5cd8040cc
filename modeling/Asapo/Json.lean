import Mathlib

namespace Asapo.JsonText

/-- A JSON value. A number with a fraction or an exponent is not an integer, whatever its
value is. The members of an object are in the order of the text, and a name may occur more
than once. -/
inductive Value where
  | null
  | bool (b : Bool)
  | integer (z : ℤ)
  | number (q : ℚ)
  | string (s : List Char)
  | array (elements : List Value)
  | object (members : List (List Char × Value))

namespace Value

mutual

def beq : Value → Value → Bool
  | .null, .null => true
  | .bool a, .bool b => a = b
  | .integer x, .integer y => x = y
  | .number p, .number q => p = q
  | .string s, .string t => s = t
  | .array xs, .array ys => beqElements xs ys
  | .object xs, .object ys => beqMembers xs ys
  | _, _ => false

def beqElements : List Value → List Value → Bool
  | [], [] => true
  | x :: xs, y :: ys => beq x y && beqElements xs ys
  | _, _ => false

def beqMembers : List (List Char × Value) → List (List Char × Value) → Bool
  | [], [] => true
  | (a, x) :: xs, (b, y) :: ys => a = b && beq x y && beqMembers xs ys
  | _, _ => false

end

mutual

theorem beq_iff : ∀ x y : Value, beq x y = true ↔ x = y
  | .null, y => by cases y <;> simp [beq]
  | .bool _, y => by cases y <;> simp [beq]
  | .integer _, y => by cases y <;> simp [beq]
  | .number _, y => by cases y <;> simp [beq]
  | .string _, y => by cases y <;> simp [beq]
  | .array xs, y => by
    cases y with
    | array ys => simp [beq, beqElements_iff xs ys]
    | _ => simp [beq]
  | .object xs, y => by
    cases y with
    | object ys => simp [beq, beqMembers_iff xs ys]
    | _ => simp [beq]

theorem beqElements_iff : ∀ xs ys : List Value, beqElements xs ys = true ↔ xs = ys
  | [], ys => by cases ys <;> simp [beqElements]
  | x :: xs, ys => by
    cases ys with
    | nil => simp [beqElements]
    | cons y ys => simp [beqElements, beq_iff x y, beqElements_iff xs ys]

theorem beqMembers_iff : ∀ xs ys : List (List Char × Value), beqMembers xs ys = true ↔ xs = ys
  | [], ys => by cases ys <;> simp [beqMembers]
  | (a, x) :: xs, ys => by
    cases ys with
    | nil => simp [beqMembers]
    | cons y ys => simp [beqMembers, beq_iff x y.2, beqMembers_iff xs ys, Prod.ext_iff]

end

instance : DecidableEq Value := fun x y => decidable_of_iff _ (beq_iff x y)

/-- The value of the first member with that name. -/
def get (name : List Char) : Value → Option Value
  | .object members => (members.find? (fun m => m.1 = name)).map Prod.snd
  | _ => none

end Value

def isSpace (c : Char) : Bool := c = ' ' || c = '\t' || c = '\n' || c = '\r'

def skip (t : List Char) : List Char := t.dropWhile isSpace

/-- A part of a string literal: a character, or a code unit that is written with digits. -/
inductive Part where
  | char (c : Char)
  | codeUnit (u : ℕ)
  deriving DecidableEq, Repr

def hexValue (c : Char) : Option ℕ :=
  if '0' ≤ c ∧ c ≤ '9' then some (c.toNat - 48)
  else if 'a' ≤ c ∧ c ≤ 'f' then some (c.toNat - 87)
  else if 'A' ≤ c ∧ c ≤ 'F' then some (c.toNat - 55)
  else none

def escaped (c : Char) : Option Char :=
  if c = '"' ∨ c = '\\' ∨ c = '/' then some c
  else if c = 'b' then some '\x08'
  else if c = 'f' then some '\x0c'
  else if c = 'n' then some '\n'
  else if c = 'r' then some '\r'
  else if c = 't' then some '\t'
  else none

def parts : List Char → Option (List Part × List Char)
  | [] => none
  | c :: rest =>
    if c = '"' then some ([], rest)
    else if c = '\\' then
      match rest with
      | [] => none
      | e :: rest =>
        if e = 'u' then
          match rest with
          | a :: b :: x :: y :: rest =>
            (hexValue a).bind (fun a => (hexValue b).bind (fun b => (hexValue x).bind (fun x =>
              (hexValue y).bind (fun y => (parts rest).map (fun p =>
                (.codeUnit (((a * 16 + b) * 16 + x) * 16 + y) :: p.1, p.2))))))
          | _ => none
        else (escaped e).bind (fun c => (parts rest).map (fun p => (.char c :: p.1, p.2)))
    else if c.toNat < 32 then none
    else (parts rest).map (fun p => (.char c :: p.1, p.2))

def isHigh (u : ℕ) : Bool := 0xD800 ≤ u && u < 0xDC00

def isLow (u : ℕ) : Bool := 0xDC00 ≤ u && u < 0xE000

/-- What a parser makes strings of. In a string of characters a surrogate that stands alone is
replaced. A string of bytes, as characters below 256, has the encoding of every code unit, but a
high surrogate has to be followed by a low one. -/
inductive Encoding where
  | characters
  | bytes
  deriving DecidableEq, Repr

/-- The bytes of a code point in UTF-8. -/
def utf8Bytes (n : ℕ) : List Char :=
  if n < 0x80 then [Char.ofNat n]
  else if n < 0x800 then [Char.ofNat (0xC0 + n / 64), Char.ofNat (0x80 + n % 64)]
  else if n < 0x10000 then
    [Char.ofNat (0xE0 + n / 4096), Char.ofNat (0x80 + n / 64 % 64), Char.ofNat (0x80 + n % 64)]
  else [Char.ofNat (0xF0 + n / 262144), Char.ofNat (0x80 + n / 4096 % 64), Char.ofNat (0x80 + n / 64 % 64),
    Char.ofNat (0x80 + n % 64)]

section Strings

variable (enc : Encoding)

def codePoint (n : ℕ) : List Char :=
  match enc with
  | .characters => [Char.ofNat n]
  | .bytes => utf8Bytes n

def unit (u : ℕ) : Option (List Char) :=
  match enc with
  | .characters => some (if isHigh u || isLow u then ['\uFFFD'] else [Char.ofNat u])
  | .bytes => if isHigh u then none else some (utf8Bytes u)

/-- Two surrogates make one character. -/
def assemble : List Part → Option (List Char)
  | [] => some []
  | .char c :: ps => (assemble ps).map (c :: ·)
  | .codeUnit u :: .codeUnit l :: ps =>
    if isHigh u && isLow l then
      (assemble ps).map (codePoint enc (0x10000 + (u - 0xD800) * 0x400 + (l - 0xDC00)) ++ ·)
    else (unit enc u).bind (fun s => (assemble (.codeUnit l :: ps)).map (s ++ ·))
  | .codeUnit u :: ps => (unit enc u).bind (fun s => (assemble ps).map (s ++ ·))

def string (t : List Char) : Option (List Char × List Char) :=
  (parts t).bind (fun p => (assemble enc p.1).map (fun s => (s, p.2)))

end Strings

def natOf (digits : List Char) : ℕ := digits.foldl (fun n c => 10 * n + (c.toNat - 48)) 0

def digits (t : List Char) : Option (List Char × List Char) :=
  match t.span Char.isDigit with
  | ([], _) => none
  | (ds, rest) => some (ds, rest)

def sign (t : List Char) : Bool × List Char :=
  match t with
  | [] => (false, [])
  | c :: rest => if c = '-' then (true, rest) else if c = '+' then (false, rest) else (false, t)

def fraction (t : List Char) : Option (List Char × List Char) :=
  if t.head? = some '.' then digits t.tail else some ([], t)

def exponent (t : List Char) : Option (ℤ × List Char) :=
  if t.head? = some 'e' ∨ t.head? = some 'E' then
    (digits (sign t.tail).2).map (fun d =>
      ((if (sign t.tail).1 then -1 else 1) * (natOf d.1 : ℤ), d.2))
  else some (0, t)

def decimal (mantissa exponent : ℤ) : ℚ :=
  if 0 ≤ exponent then (mantissa * 10 ^ exponent.toNat : ℤ) else mkRat mantissa (10 ^ (-exponent).toNat)

def isFractional (t : List Char) : Bool := t.head? = some '.' || t.head? = some 'e' || t.head? = some 'E'

def number (t : List Char) : Option (Value × List Char) :=
  let negative := t.head? = some '-'
  (digits (if negative then t.tail else t)).bind (fun int =>
    if int.1.head? = some '0' ∧ int.1 ≠ ['0'] then none
    else if isFractional int.2 then
      (fraction int.2).bind (fun frac => (exponent frac.2).map (fun exp =>
        let mantissa : ℤ := natOf (int.1 ++ frac.1)
        (.number (decimal (if negative then -mantissa else mantissa) (exp.1 - frac.1.length)), exp.2)))
    else some (.integer (if negative then -natOf int.1 else natOf int.1), int.2))

def word (w : List Char) (v : Value) (t : List Char) : Option (Value × List Char) :=
  if w.isPrefixOf t then some (v, t.drop w.length) else none

section Values

variable (enc : Encoding)

mutual

def value : ℕ → List Char → Option (Value × List Char)
  | 0, _ => none
  | fuel + 1, t =>
    match skip t with
    | [] => none
    | c :: rest =>
      if c = '"' then (string enc rest).map (fun s => (.string s.1, s.2))
      else if c = '[' then
        if (skip rest).head? = some ']' then some (.array [], (skip rest).tail)
        else (elements fuel rest).map (fun e => (.array e.1, e.2))
      else if c = '\x7b' then
        if (skip rest).head? = some '\x7d' then some (.object [], (skip rest).tail)
        else (members fuel rest).map (fun m => (.object m.1, m.2))
      else if c = 't' then word "true".toList (.bool true) (c :: rest)
      else if c = 'f' then word "false".toList (.bool false) (c :: rest)
      else if c = 'n' then word "null".toList .null (c :: rest)
      else number (c :: rest)

def elements : ℕ → List Char → Option (List Value × List Char)
  | 0, _ => none
  | fuel + 1, t =>
    (value fuel t).bind (fun v =>
      match skip v.2 with
      | [] => none
      | c :: rest =>
        if c = ',' then (elements fuel rest).map (fun e => (v.1 :: e.1, e.2))
        else if c = ']' then some ([v.1], rest)
        else none)

def members : ℕ → List Char → Option (List (List Char × Value) × List Char)
  | 0, _ => none
  | fuel + 1, t =>
    match skip t with
    | [] => none
    | q :: name =>
      if q ≠ '"' then none
      else
        (string enc name).bind (fun k =>
          match skip k.2 with
          | [] => none
          | colon :: rest =>
            if colon ≠ ':' then none
            else
              (value fuel rest).bind (fun v =>
                match skip v.2 with
                | [] => none
                | c :: rest =>
                  if c = ',' then (members fuel rest).map (fun m => ((k.1, v.1) :: m.1, m.2))
                  else if c = '\x7d' then some ([(k.1, v.1)], rest)
                  else none))

end

/-- The value that a whole text stands for. Every call takes a character. -/
def parse (t : List Char) : Option Value :=
  (value enc (t.length + 1) t).bind (fun v => if skip v.2 = [] then some v.1 else none)

end Values

example : parse .bytes "\x7b\"a\": [1.50, -2e1, -3], \"b\\u0041\" : null\x7d".toList =
    some (.object [("a".toList, .array [.number (3 / 2), .number (-20), .integer (-3)]), ("bA".toList, .null)]) := by
  decide +kernel

example : parse .characters "\"\\ud800\"".toList = some (.string ['�']) ∧
    parse .bytes "\"\\ud800\"".toList = none := by
  decide +kernel

end Asapo.JsonText
