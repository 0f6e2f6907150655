import NexusSdk.Lib.Dict
import Mathlib.Data.List.TakeDrop

/-! JSON documents as Python's `json` module writes and reads them.  A string is the list of its
UTF-16 code units: the reader joins the surrogates of a pair, so its strings are determined by their
units.  The conversion of floats from and to literals is a parameter. -/

namespace Lib

/-- A JSON value; `F` is the type of floats.  The keys of an object are in the order in which they
were first set. -/
inductive Json (F : Type)
  | null
  | bool (b : Bool)
  | int (i : Int)
  | float (f : F)
  | str (s : List UInt16)
  | arr (l : List (Json F))
  | obj (members : List (List UInt16 × Json F))

namespace Json

/-! ### Numbers -/

/-- A number as it is written; `fraction` is without the point, `exponent` with its letter. -/
structure NumberLiteral where
  negative : Bool
  whole : List Char
  fraction : List Char
  exponent : List Char
  deriving DecidableEq

namespace NumberLiteral

def isInt (l : NumberLiteral) : Bool := l.fraction.isEmpty && l.exponent.isEmpty

def toInt (l : NumberLiteral) : Int :=
  let n : Int := Nat.ofDigitChars 10 l.whole 0
  if l.negative then -n else n

def sign (l : NumberLiteral) : List Char := if l.negative then ['-'] else []

def point (l : NumberLiteral) : List Char := if l.fraction = [] then [] else '.' :: l.fraction

def render (l : NumberLiteral) : List Char := l.sign ++ (l.whole ++ (l.point ++ l.exponent))

def allDigits (l : List Char) : Bool := l.all Char.isDigit

def validWhole (whole : List Char) : Bool :=
  whole = ['0'] || allDigits whole && whole.head?.any (· ≠ '0')

/-- An exponent is absent, or a letter, a sign or none, and digits. -/
def validExponent : List Char → Bool
  | [] => true
  | letter :: rest =>
    (letter = 'e' || letter = 'E') &&
      let digits := if rest.head? = some '+' ∨ rest.head? = some '-' then rest.tail else rest
      !digits.isEmpty && allDigits digits

def valid (l : NumberLiteral) : Bool :=
  validWhole l.whole && allDigits l.fraction && validExponent l.exponent

end NumberLiteral

/-- How a float is written. -/
inductive FloatText
  | nan
  | infinity
  | negInfinity
  | literal (l : NumberLiteral)
  deriving DecidableEq

/-- The literal is that of a float: it has a fraction or an exponent. -/
def FloatText.valid : FloatText → Bool
  | literal l => l.valid && !l.isInt
  | _ => true

/-- Floats with their texts, from which they are read back. -/
structure FloatFormat (F : Type) where
  ofText : FloatText → F
  text : F → FloatText
  valid_text : ∀ f, (text f).valid = true
  ofText_text : ∀ f, ofText (text f) = f

variable {F : Type}

/-! ### `dumps`, with the default separators and `ensure_ascii` -/

/-- `'{0:04x}'.format(n)`, for four digits. -/
def hex4 (n : Nat) : List Char :=
  [n / 4096 % 16, n / 256 % 16, n / 16 % 16, n % 16].map Nat.digitChar

/-- The characters that follow the backslash of a short escape. -/
def shortEscapes : List (Char × Nat) :=
  [('"', 34), ('\\', 92), ('n', 10), ('r', 13), ('t', 9), ('f', 12), ('b', 8)]

def escape (u : UInt16) : List Char :=
  match shortEscapes.find? fun e => e.2 = u.toNat with
  | some e => ['\\', e.1]
  | none =>
    if 32 ≤ u.toNat ∧ u.toNat ≤ 126 then [Char.ofNat u.toNat] else '\\' :: 'u' :: hex4 u.toNat

def dumpString (s : List UInt16) : List Char := '"' :: (s.flatMap escape ++ ['"'])

def intLiteral (i : Int) : NumberLiteral := ⟨i < 0, Nat.toDigits 10 i.natAbs, [], []⟩

def FloatText.chars : FloatText → List Char
  | nan => ['N', 'a', 'N']
  | infinity => ['I', 'n', 'f', 'i', 'n', 'i', 't', 'y']
  | negInfinity => ['-', 'I', 'n', 'f', 'i', 'n', 'i', 't', 'y']
  | literal l => l.render

section Dumps

variable (fmt : FloatFormat F)

mutual

def dumps : Json F → List Char
  | null => ['n', 'u', 'l', 'l']
  | bool true => ['t', 'r', 'u', 'e']
  | bool false => ['f', 'a', 'l', 's', 'e']
  | int i => (intLiteral i).render
  | float f => (fmt.text f).chars
  | str s => dumpString s
  | arr [] => ['[', ']']
  | arr (v :: rest) => '[' :: (dumps v ++ dumpElements rest)
  | obj [] => ['{', '}']
  | obj ((k, v) :: rest) => '{' :: (dumpString k ++ (':' :: ' ' :: (dumps v ++ dumpMembers rest)))

/-- The elements after the first, and the end of the array. -/
def dumpElements : List (Json F) → List Char
  | [] => [']']
  | v :: rest => ',' :: ' ' :: (dumps v ++ dumpElements rest)

/-- The members after the first, and the end of the object. -/
def dumpMembers : List (List UInt16 × Json F) → List Char
  | [] => ['}']
  | (k, v) :: rest =>
    ',' :: ' ' :: (dumpString k ++ (':' :: ' ' :: (dumps v ++ dumpMembers rest)))

end

end Dumps

/-! ### `loads` -/

def isWhitespace (c : Char) : Bool := c = ' ' || c = '\t' || c = '\n' || c = '\r'

def skipWhitespace (l : List Char) : List Char := l.dropWhile isWhitespace

/-- The digits at the start of the text, and what follows them. -/
def scanDigits (l : List Char) : List Char × List Char :=
  (l.takeWhile Char.isDigit, l.dropWhile Char.isDigit)

def scanWhole : List Char → Option (List Char × List Char)
  | [] => none
  | c :: r =>
    if c = '0' then some (['0'], r)
    else if c.isDigit then some (scanDigits (c :: r)) else none

/-- A point without digits after it does not belong to the number. -/
def scanFraction (l : List Char) : List Char × List Char :=
  match l with
  | '.' :: r => if (scanDigits r).1 = [] then ([], l) else scanDigits r
  | _ => ([], l)

/-- Nor does a letter without digits after it. -/
def scanExponent (l : List Char) : List Char × List Char :=
  match l with
  | [] => ([], [])
  | letter :: r =>
    if letter = 'e' ∨ letter = 'E' then
      let sign := if r.head? = some '+' ∨ r.head? = some '-' then r.take 1 else []
      let digits := scanDigits (r.drop sign.length)
      if digits.1 = [] then ([], l) else (letter :: (sign ++ digits.1), digits.2)
    else ([], l)

/-- `_match_number`. -/
def scanNumber (l : List Char) : Option (NumberLiteral × List Char) :=
  let negative := l.head? = some '-'
  (scanWhole (if negative then l.tail else l)).map fun (whole, r) =>
    let (fraction, r) := scanFraction r
    let (exponent, r) := scanExponent r
    (⟨negative, whole, fraction, exponent⟩, r)

def hexValue (c : Char) : Option Nat :=
  if '0' ≤ c ∧ c ≤ '9' then some (c.toNat - '0'.toNat)
  else if 'a' ≤ c ∧ c ≤ 'f' then some (c.toNat - 'a'.toNat + 10)
  else if 'A' ≤ c ∧ c ≤ 'F' then some (c.toNat - 'A'.toNat + 10)
  else none

/-- `_decode_uXXXX`. -/
def unitOfHex (a b c d : Char) : Option UInt16 := do
  let a ← hexValue a
  let b ← hexValue b
  let c ← hexValue c
  let d ← hexValue d
  return UInt16.ofNat (4096 * a + 256 * b + 16 * c + d)

/-- `BACKSLASH`. -/
def unescape (c : Char) : Option UInt16 :=
  ((('/', 47) :: shortEscapes).find? fun e => e.1 = c).map fun e => UInt16.ofNat e.2

def utf16 (c : Char) : List UInt16 :=
  if c.toNat < 65536 then [UInt16.ofNat c.toNat]
  else
    let n := c.toNat - 65536
    [UInt16.ofNat (55296 + n / 1024), UInt16.ofNat (56320 + n % 1024)]

/-- The units of a text. -/
def units (s : String) : List UInt16 := s.toList.flatMap utf16

def ofString (s : String) : Json F := str (units s)

/-- The characters of the units; `none` if a surrogate is not in a pair. -/
def decodeUtf16 : List UInt16 → Option (List Char)
  | [] => some []
  | u :: rest =>
    if u.toNat < 55296 ∨ 57344 ≤ u.toNat then
      (decodeUtf16 rest).map fun l => Char.ofNat u.toNat :: l
    else match rest with
      | [] => none
      | low :: rest =>
        if u.toNat < 56320 ∧ 56320 ≤ low.toNat ∧ low.toNat < 57344 then
          (decodeUtf16 rest).map fun l =>
            Char.ofNat (65536 + 1024 * (u.toNat - 55296) + (low.toNat - 56320)) :: l
        else none

/-- `scanstring`, after the opening quote; control characters are invalid. -/
def scanString : List Char → Option (List UInt16 × List Char)
  | [] => none
  | '"' :: r => some ([], r)
  | '\\' :: 'u' :: a :: b :: c :: d :: r =>
    match unitOfHex a b c d with
    | some u => (scanString r).map fun (s, r) => (u :: s, r)
    | none => none
  | '\\' :: e :: r =>
    match unescape e with
    | some u => (scanString r).map fun (s, r) => (u :: s, r)
    | none => none
  | c :: r =>
    if c = '\\' ∨ c.toNat < 32 then none
    else (scanString r).map fun (s, r) => (utf16 c ++ s, r)

section Loads

variable (fmt : FloatFormat F)

def constants : List (List Char × Json F) :=
  [(['n', 'u', 'l', 'l'], null), (['t', 'r', 'u', 'e'], bool true),
    (['f', 'a', 'l', 's', 'e'], bool false)] ++
    [FloatText.nan, .infinity, .negInfinity].map fun t => (t.chars, float (fmt.ofText t))

def scanConstant (l : List Char) : Option (Json F × List Char) :=
  (constants fmt).findSome? fun (name, v) => (name.isPrefixOf? l).map fun r => (v, r)

def numberValue (l : NumberLiteral) : Json F :=
  if l.isInt then int l.toInt else float (fmt.ofText (.literal l))

/-- The dictionary of the pairs: a later value for a key replaces an earlier one. -/
def ofPairs (pairs : List (List UInt16 × Json F)) : Json F := obj (Dict.ofList pairs).items

mutual

/-- `scan_once`; every call takes one unit of fuel. -/
def scanValue : Nat → List Char → Option (Json F × List Char)
  | 0, _ => none
  | n + 1, l =>
    match l with
    | '"' :: r => (scanString r).map fun (s, r) => (str s, r)
    | '{' :: r =>
      match skipWhitespace r with
      | '}' :: r => some (obj [], r)
      | r => (scanMembers n r).map fun (pairs, r) => (ofPairs pairs, r)
    | '[' :: r =>
      match skipWhitespace r with
      | ']' :: r => some (arr [], r)
      | r => (scanElements n r).map fun (l, r) => (arr l, r)
    | l =>
      match scanConstant fmt l with
      | some result => some result
      | none => (scanNumber l).map fun (literal, r) => (numberValue fmt literal, r)

/-- The elements of an array and its end. -/
def scanElements : Nat → List Char → Option (List (Json F) × List Char)
  | 0, _ => none
  | n + 1, l =>
    match scanValue n l with
    | none => none
    | some (v, r) =>
      match skipWhitespace r with
      | ']' :: r => some ([v], r)
      | ',' :: r => (scanElements n (skipWhitespace r)).map fun (rest, r) => (v :: rest, r)
      | _ => none

/-- The members of an object and its end. -/
def scanMembers : Nat → List Char → Option (List (List UInt16 × Json F) × List Char)
  | 0, _ => none
  | n + 1, l =>
    match l with
    | '"' :: r =>
      match scanString r with
      | none => none
      | some (k, r) =>
        match skipWhitespace r with
        | ':' :: r =>
          match scanValue n (skipWhitespace r) with
          | none => none
          | some (v, r) =>
            match skipWhitespace r with
            | '}' :: r => some ([(k, v)], r)
            | ',' :: r =>
              (scanMembers n (skipWhitespace r)).map fun (rest, r) => ((k, v) :: rest, r)
            | _ => none
        | _ => none
    | _ => none

end

/-- `loads`: the value of a document, if it is one; no value needs more fuel. -/
def loads (text : List Char) : Option (Json F) :=
  match scanValue fmt (2 * text.length + 1) (skipWhitespace text) with
  | some (v, r) => if skipWhitespace r = [] then some v else none
  | none => none

end Loads

end Json

end Lib
