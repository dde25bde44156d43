import Unf.Revision

/-!
# Egress ownership

The owners of egress intents and the providers of egress addresses. Records are ordered
field by field, in the order of their declaration.
-/

namespace Unf.Egress

open Unf.Lib

/-- Where an intent is declared. -/
inductive EgressIntentScope where
  | cluster
  | «namespace» (name : String)
  deriving DecidableEq, Repr

namespace EgressIntentScope

/-- The cluster scope comes before every namespace. -/
def sortKey : EgressIntentScope → WithBot String
  | cluster => ⊥
  | «namespace» name => (name : WithBot String)

instance : LinearOrder EgressIntentScope :=
  LinearOrder.lift' sortKey <| by
    intro left right
    cases left <;> cases right <;> simp [sortKey]

end EgressIntentScope

/-- The object that an intent is from. -/
structure EgressIntentOwner where
  scope : EgressIntentScope
  name : String
  uid : String
  deriving DecidableEq, Repr

namespace EgressIntentOwner

def sortKey (owner : EgressIntentOwner) :=
  toLex (owner.scope, toLex (owner.name, owner.uid))

instance : LinearOrder EgressIntentOwner :=
  LinearOrder.lift' sortKey <| by
    rintro ⟨⟩ ⟨⟩ equal
    simpa [sortKey] using equal

end EgressIntentOwner

/-- Who provides addresses. -/
structure EgressProviderRef where
  name : String
  «instance» : String
  deriving DecidableEq, Repr

namespace EgressProviderRef

def sortKey (provider : EgressProviderRef) :=
  toLex (provider.name, provider.«instance»)

instance : LinearOrder EgressProviderRef :=
  LinearOrder.lift' sortKey <| by
    rintro ⟨⟩ ⟨⟩ equal
    simpa [sortKey] using equal

end EgressProviderRef

/-- Names are bounded by the length of a DNS name. -/
def validName (value : String) : Bool :=
  !value.isEmpty && decide (value.utf8ByteSize ≤ 253)

def validUid (value : String) : Bool :=
  !value.isEmpty && decide (value.utf8ByteSize ≤ 128)

end Unf.Egress
