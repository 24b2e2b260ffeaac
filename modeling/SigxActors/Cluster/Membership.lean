/-
  Cluster/Membership.lean --- hosts, and what a host sees of the others.

  Source: `packages/actors/src/cluster/types.ts`.

  `D` is what a descriptor holds besides its host's id and status; no provider looks at it.
-/
import Mathlib
import SigxActors.Cluster.TcpTransport

set_option autoImplicit false

namespace SigxActors.Cluster

inductive HostStatus where
  | joining
  | active
  | leaving
  deriving DecidableEq, Repr

/-- The status as it is written. -/
def HostStatus.text : HostStatus → String
  | .joining => "joining"
  | .active => "active"
  | .leaving => "leaving"

structure HostDescriptor (D : Type) where
  hostId : String
  status : HostStatus
  rest : D
  deriving DecidableEq, Repr

structure MembershipView (D : Type) where
  version : Int
  hosts : List (HostDescriptor D)
  deriving DecidableEq, Repr

/-- A string goes where `sort()` puts it. -/
def insertText (text : String) : List String → List String
  | [] => [text]
  | head :: tail =>
      if codeUnits text ≤ codeUnits head then text :: head :: tail
      else head :: insertText text tail

/-- `sort()` of strings. -/
def sortTexts : List String → List String
  | [] => []
  | text :: texts => insertText text (sortTexts texts)

end SigxActors.Cluster
