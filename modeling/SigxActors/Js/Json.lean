/-
  Js/Json.lean --- `JSON.stringify` and `JSON.parse`.

  A value is what JSON can carry.  An object lists its own properties in the order in
  which the language enumerates them: array indices ascending, then the other keys as
  they were created.  What a number prints as, and what a number token stands for, is
  the number type's.

  The module names nothing of the runtime.
-/
import Mathlib.Algebra.Group.Nat.Defs
import SigxActors.Js.Text

set_option autoImplicit false

namespace SigxActors.Js

/-- A value that JSON can carry. -/
inductive Json (N : Type) where
  | null
  | bool (b : Bool)
  | num (n : N)
  | str (s : Text)
  | arr (elements : List (Json N))
  | obj (members : List (Text × Json N))

/-! ## Number tokens -/

def isDigit (u : UInt16) : Bool := 0x30 ≤ u.toNat && u.toNat ≤ 0x39

/-- One digit or more, and what comes behind them. -/
def digits : Text → Option Text
  | u :: rest => if isDigit u then some (rest.dropWhile isDigit) else none
  | [] => none

/-- Digits without a leading zero, or a zero. -/
def integer : Text → Option Text
  | u :: rest => if u = 0x30 then some rest else digits (u :: rest)
  | [] => none

/-- A point and digits, if there is a point. -/
def fraction : Text → Option Text
  | u :: rest => if u = 0x2E then digits rest else some (u :: rest)
  | [] => some []

/-- A sign, if there is one. -/
def dropSign : Text → Text
  | u :: rest => if u = 0x2B ∨ u = 0x2D then rest else u :: rest
  | [] => []

/-- An exponent, if there is one. -/
def exponent : Text → Option Text
  | u :: rest => if u = 0x65 ∨ u = 0x45 then digits (dropSign rest) else some (u :: rest)
  | [] => some []

/-- A minus, if there is one. -/
def dropMinus : Text → Text
  | u :: rest => if u = 0x2D then rest else u :: rest
  | [] => []

/-- The text is a number of the JSON grammar. -/
def isNumberToken (text : Text) : Bool :=
  (integer (dropMinus text)).bind (fun t => (fraction t).bind exponent) == some []

/-- It may stand in a number. -/
def isNumberUnit (u : UInt16) : Bool :=
  isDigit u || u == 0x2B || u == 0x2D || u == 0x2E || u == 0x45 || u == 0x65

/-- The numbers of the language. -/
class JsNumber (N : Type) where
  /-- `Number::toString`, for the numbers that are finite. -/
  toText : N → Option Text
  /-- The number that a token stands for. -/
  ofText : Text → N
  /-- A finite number prints as a token. -/
  token : ∀ {n : N} {text : Text}, toText n = some text → isNumberToken text = true

/-! ## Printing -/

def nullText : Text := [0x6E, 0x75, 0x6C, 0x6C]

def trueText : Text := [0x74, 0x72, 0x75, 0x65]

def falseText : Text := [0x66, 0x61, 0x6C, 0x73, 0x65]

/-- A digit of base sixteen, in lower case. -/
def hexDigit (n : Nat) : UInt16 := UInt16.ofNat (if n < 10 then 0x30 + n else 0x57 + n)

/-- `\uXXXX`. -/
def unicodeEscape (u : UInt16) : Text :=
  [0x5C, 0x75, hexDigit (u.toNat / 0x1000), hexDigit (u.toNat / 0x100 % 0x10),
    hexDigit (u.toNat / 0x10 % 0x10), hexDigit (u.toNat % 0x10)]

/-- A code unit within quotes, that is no lead surrogate of a pair. -/
def quoteUnit (u : UInt16) : Text :=
  if u = 0x22 then [0x5C, 0x22]
  else if u = 0x5C then [0x5C, 0x5C]
  else if u = 0x08 then [0x5C, 0x62]
  else if u = 0x0C then [0x5C, 0x66]
  else if u = 0x0A then [0x5C, 0x6E]
  else if u = 0x0D then [0x5C, 0x72]
  else if u = 0x09 then [0x5C, 0x74]
  else if u.toNat < 0x20 ∨ isLead u ∨ isTrail u then unicodeEscape u
  else [u]

/-- What stands between the quotes: a surrogate stays with its partner, and alone is escaped. -/
def quoteUnits : Text → Text
  | [] => []
  | u :: rest =>
      if isLead u then
        match rest with
        | v :: rest' =>
            if isTrail v then u :: v :: quoteUnits rest'
            else quoteUnit u ++ quoteUnits (v :: rest')
        | [] => quoteUnit u
      else quoteUnit u ++ quoteUnits rest

/-- `QuoteJSONString`. -/
def quote (s : Text) : Text := 0x22 :: (quoteUnits s ++ [0x22])

section

variable {N : Type} [JsNumber N]

mutual

/-- `JSON.stringify`. -/
def stringify : Json N → Text
  | .null => nullText
  | .bool true => trueText
  | .bool false => falseText
  | .num n => (JsNumber.toText n).getD nullText
  | .str s => quote s
  | .arr elements => 0x5B :: (stringifyElements elements ++ [0x5D])
  | .obj members => 0x7B :: (stringifyMembers members ++ [0x7D])

/-- The elements of an array. -/
def stringifyElements : List (Json N) → Text
  | [] => []
  | [v] => stringify v
  | v :: w :: rest => stringify v ++ 0x2C :: stringifyElements (w :: rest)

/-- The members of an object. -/
def stringifyMembers : List (Text × Json N) → Text
  | [] => []
  | [(key, v)] => quote key ++ 0x3A :: stringify v
  | (key, v) :: m :: rest =>
      quote key ++ 0x3A :: (stringify v ++ 0x2C :: stringifyMembers (m :: rest))

end

end

/-! ## Parsing -/

def isSpace (u : UInt16) : Bool := u == 0x09 || u == 0x0A || u == 0x0D || u == 0x20

def skipSpace (text : Text) : Text := text.dropWhile isSpace

/-- The value of a digit of base sixteen, in either case. -/
def hexValue (u : UInt16) : Option Nat :=
  if 0x30 ≤ u.toNat ∧ u.toNat ≤ 0x39 then some (u.toNat - 0x30)
  else if 0x61 ≤ u.toNat ∧ u.toNat ≤ 0x66 then some (u.toNat - 0x57)
  else if 0x41 ≤ u.toNat ∧ u.toNat ≤ 0x46 then some (u.toNat - 0x37)
  else none

/-- The code unit of four digits. -/
def hexUnit (a b c d : UInt16) : Option UInt16 :=
  (hexValue a).bind fun a => (hexValue b).bind fun b => (hexValue c).bind fun c =>
    (hexValue d).map fun d => UInt16.ofNat (a * 0x1000 + b * 0x100 + c * 0x10 + d)

/-- What a backslash and a letter stand for. -/
def simpleEscape (u : UInt16) : Option UInt16 :=
  if u = 0x22 ∨ u = 0x5C ∨ u = 0x2F then some u
  else if u = 0x62 then some 0x08
  else if u = 0x66 then some 0x0C
  else if u = 0x6E then some 0x0A
  else if u = 0x72 then some 0x0D
  else if u = 0x74 then some 0x09
  else none

/-- A unit, read before what is read behind it. -/
def prepend (u : UInt16) (p : Text × Text) : Text × Text := (u :: p.1, p.2)

/-- A string from behind its opening quote, and what comes behind its closing one. -/
def scanString : Text → Option (Text × Text)
  | [] => none
  | u :: rest =>
      if u = 0x22 then some ([], rest)
      else if u = 0x5C then
        match rest with
        | e :: rest =>
            if e = 0x75 then
              match rest with
              | a :: b :: c :: d :: rest =>
                  (hexUnit a b c d).bind fun u => (scanString rest).map (prepend u)
              | _ => none
            else (simpleEscape e).bind fun u => (scanString rest).map (prepend u)
        | [] => none
      else if u.toNat < 0x20 then none
      else (scanString rest).map (prepend u)

/-- The array index that a key is, if it is one. -/
def indexOf (key : Text) : Option Nat :=
  if key ≠ [] ∧ key.all isDigit ∧ (key = [0x30] ∨ key.head? ≠ some 0x30) then
    let n := key.foldl (fun n u => n * 10 + (u.toNat - 0x30)) 0
    if n < 2 ^ 32 - 1 then some n else none
  else none

/-- The key is enumerated before the other, whichever was created first. -/
def comesBefore (key other : Text) : Bool :=
  match indexOf key, indexOf other with
  | some n, some m => decide (n < m)
  | some _, none => true
  | none, _ => false

/-- `object[key] = value`, as an own property. -/
def putMember {α : Type} (key : Text) (value : α) : List (Text × α) → List (Text × α)
  | [] => [(key, value)]
  | (k, v) :: rest =>
      if k = key then (key, value) :: rest
      else if comesBefore key k then (key, value) :: (k, v) :: rest
      else (k, v) :: putMember key value rest

/-- The object that has been given the members one by one. -/
def objectOf {α : Type} (members : List (Text × α)) : List (Text × α) :=
  members.foldl (fun own m => putMember m.1 m.2 own) []

/-- What comes behind a text that is expected. -/
def expect (expected text : Text) : Option Text :=
  if expected.isPrefixOf text then some (text.drop expected.length) else none

section

variable {N : Type} [JsNumber N]

mutual

/-- A value and what comes behind it.  A unit is read for two calls. -/
def parseValue : Nat → Text → Option (Json N × Text)
  | 0, _ => none
  | fuel + 1, text =>
      match skipSpace text with
      | [] => none
      | u :: rest =>
          if u = 0x22 then (scanString rest).map fun p => (.str p.1, p.2)
          else if u = 0x5B then
            match skipSpace rest with
            | [] => none
            | v :: rest' =>
                if v = 0x5D then some (.arr [], rest')
                else (parseElements fuel rest).map fun p => (.arr p.1, p.2)
          else if u = 0x7B then
            match skipSpace rest with
            | [] => none
            | v :: rest' =>
                if v = 0x7D then some (.obj [], rest')
                else (parseMembers fuel rest).map fun p => (.obj (objectOf p.1), p.2)
          else if u = 0x2D ∨ isDigit u then
            if isNumberToken ((u :: rest).takeWhile isNumberUnit) then
              some (.num (JsNumber.ofText ((u :: rest).takeWhile isNumberUnit)),
                (u :: rest).dropWhile isNumberUnit)
            else none
          else
            ((expect nullText (u :: rest)).map fun t => (.null, t)).or
              (((expect trueText (u :: rest)).map fun t => (.bool true, t)).or
                ((expect falseText (u :: rest)).map fun t => (.bool false, t)))

/-- The elements of an array and what comes behind its bracket. -/
def parseElements : Nat → Text → Option (List (Json N) × Text)
  | 0, _ => none
  | fuel + 1, text =>
      (parseValue fuel text).bind fun p =>
        match skipSpace p.2 with
        | [] => none
        | u :: rest =>
            if u = 0x5D then some ([p.1], rest)
            else if u = 0x2C then (parseElements fuel rest).map fun q => (p.1 :: q.1, q.2)
            else none

/-- The members of an object, as they are written, and what comes behind its brace. -/
def parseMembers : Nat → Text → Option (List (Text × Json N) × Text)
  | 0, _ => none
  | fuel + 1, text =>
      match skipSpace text with
      | [] => none
      | u :: rest =>
          if u = 0x22 then
            (scanString rest).bind fun k =>
              match skipSpace k.2 with
              | [] => none
              | u :: rest =>
                  if u = 0x3A then
                    (parseValue fuel rest).bind fun p =>
                      match skipSpace p.2 with
                      | [] => none
                      | u :: rest =>
                          if u = 0x7D then some ([(k.1, p.1)], rest)
                          else if u = 0x2C then
                            (parseMembers fuel rest).map fun q => ((k.1, p.1) :: q.1, q.2)
                          else none
                  else none
          else none

end

/-- `JSON.parse(text)`, none where it throws. -/
def parseJson (text : Text) : Option (Json N) :=
  (parseValue (2 * text.length + 2) text).bind fun p =>
    if skipSpace p.2 = [] then some p.1 else none

end

end SigxActors.Js
