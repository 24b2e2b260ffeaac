/-
  Codec/WirePath.lean --- a call as a path, and a path as a call.

  Source: `packages/actors/src/wire-url.ts`, `packages/actors/src/wire-symbol.ts`,
  `packages/actors/src/route.ts`, and the checks of a type in
  `packages/actors/src/define.ts`.

  The client writes a symbol segment by segment, behind a marker and a routing token
  where it has one.  The server drops the two from what the URL left of the path, and
  reads the symbol of the rest.
-/
import Mathlib.Data.Nat.Digits.Defs
import SigxActors.Codec.WireParse
import SigxActors.Js.Uri
import SigxActors.Js.UrlPath

set_option autoImplicit false

namespace SigxActors.Codec

open SigxActors.Js

/-- `#`. -/
def hash : UInt16 := 0x23

/-- `text.lastIndexOf(c)`: what stands in front of it and behind it. -/
def splitLast (c : UInt16) : Text → Option (Text × Text)
  | [] => none
  | u :: rest =>
      match splitLast c rest with
      | some (before, behind) => some (u :: before, behind)
      | none => if u = c then some ([], rest) else none

/-- `text.indexOf(c)`: what stands behind it. -/
def behindFirst (c : UInt16) : Text → Option Text
  | [] => none
  | u :: rest => if u = c then some rest else behindFirst c rest

/-! ## Writing -/

/-- `RESTORE`. -/
def restorable (h l : UInt16) : Option UInt16 :=
  if h = 0x34 ∧ l = 0x30 then some 0x40
  else if h = 0x32 ∧ l = 0x34 then some 0x24
  else if h = 0x33 ∧ l = 0x41 then some 0x3A
  else none

/-- `text.replace(RESTORABLE, …)`. -/
def restore : Text → Text
  | [] => []
  | u :: rest =>
      if u = 0x25 then
        match rest with
        | h :: l :: rest' =>
            match restorable h l with
            | some c => c :: restore rest'
            | none => u :: restore (h :: l :: rest')
        | rest => u :: rest
      else u :: restore rest

/-- `encodeSegment`, none where it throws. -/
def encodeSegment (segment : Text) : Option Text := (encodeURIComponent segment).map restore

/-- `encodeSymbolPath`, none where it throws. -/
def encodeSymbolPath (symbol : Text) : Option Text :=
  match splitLast hash symbol with
  | none => encodeSegment symbol
  | some (type, method) =>
      if slash ∈ method then none
      else
        ((segmentsOf type).mapM encodeSegment).bind fun segments =>
          (encodeSegment method).map fun method => joinSegments segments ++ slash :: method

/-- `ACTOR_ROUTE_SEGMENT`. -/
def actorRouteSegment : Text := spell ['r']

/-- The base without the slash at its end. -/
def trimmed (base : Text) : Text := if base.getLast? = some slash then base.dropLast else base

/-- `routePath`, none where it throws. -/
def routePath (base : Text) (token : Option Text) (symbol : Text) : Option Text :=
  (encodeSymbolPath symbol).bind fun encoded =>
    match token with
    | none => some (trimmed base ++ slash :: encoded)
    | some token =>
        (encodeURIComponent token).map fun token =>
          trimmed base ++ slash :: actorRouteSegment ++ slash :: token ++ slash :: encoded

/-! ## Tokens -/

/-- `fnv1a`. -/
def fnv1aText (input : Text) : UInt32 :=
  input.foldl (fun hash u => (hash ^^^ u.toUInt32) * 0x01000193) 0x811c9dc5

/-- `Number.prototype.toString(36)`, one digit of it. -/
def digit36 (n : Nat) : UInt16 := if n < 10 then UInt16.ofNat (0x30 + n) else UInt16.ofNat (0x57 + n)

/-- `text.padStart(width, c)`. -/
def padStart (width : Nat) (c : UInt16) (text : Text) : Text :=
  List.replicate (width - text.length) c ++ text

/-- `hashRouteToken`. -/
def hashRouteToken (type key : Text) : Text :=
  padStart 7 0x30 ((Nat.digits 36 (fnv1aText (type ++ 0 :: key)).toNat).reverse.map digit36)

/-- `ActorRouteToken`. -/
inductive ActorRouteToken where
  | hash
  | key
  | none
  | custom (f : Text → Text → Option Text)

/-- `routeTokenFor`. -/
def routeTokenFor (route : ActorRouteToken) (type key : Text) : Option Text :=
  match route with
  | .none => none
  | .hash => if type.head? = some 0x24 then none else some (hashRouteToken type key)
  | .key => if type.head? = some 0x24 ∨ key = [] then none else some key
  | .custom f => if type.head? = some 0x24 then none else (f type key).filter (· ≠ [])

/-! ## Reading -/

/-- The base with a slash at its end. -/
def prefixOf (base : Text) : Text := if base.getLast? = some slash then base else base ++ [slash]

/-- `stripRoutePath`. -/
def stripRoutePath (pathname base : Text) : Option Text :=
  if (prefixOf base).isPrefixOf pathname then
    let rest := pathname.drop (prefixOf base).length
    let marker := actorRouteSegment ++ [slash]
    if marker.isPrefixOf rest then
      (behindFirst slash (rest.drop marker.length)).map (prefixOf base ++ ·)
    else none
  else none

/-- `canonicalSymbol`. -/
def canonicalSymbol (wire : Text) : Text :=
  match splitLast hash wire with
  | some (before, behind) => if before = [] ∨ behind = [] then [] else wire
  | none =>
      match splitLast slash wire with
      | some (before, behind) =>
          if before = [] ∨ behind = [] then [] else before ++ hash :: behind
      | none => []

/-- `symbolFromPathname`, none where it throws. -/
def symbolFromPathname (pathname base : Text) : Option Text :=
  if (prefixOf base).isPrefixOf pathname then
    ((segmentsOf (pathname.drop (prefixOf base).length)).mapM decodeURIComponent).map fun segments =>
      let wire := joinSegments segments
      if hash ∉ wire ∧ segments.any (fun segment => slash ∈ segment) then []
      else canonicalSymbol wire
  else some []

/-- What the server makes of a request for a path. -/
def receivedSymbol (base path : Text) : Option Text :=
  let pathname := pathnameOf path
  symbolFromPathname ((stripRoutePath pathname base).getD pathname) base

/-! ## Symbols -/

/-- `defineActor` takes the type. -/
structure Accepted (type : Text) : Prop where
  nonempty : type ≠ []
  hash : hash ∉ type
  nul : (0 : UInt16) ∉ type
  segments : ∀ s ∈ segmentsOf type, s ≠ [] ∧ s ≠ [0x2E] ∧ s ≠ [0x2E, 0x2E]
  reserved : type.head? ≠ some 0x24 ∧ type.head? ≠ some 0x40

/-- The symbol of a method. -/
def symbolOf (type method : Text) : Text := type ++ hash :: method

end SigxActors.Codec
