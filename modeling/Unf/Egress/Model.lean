import Unf.Egress.Fqdn
import Unf.Egress.Internet

/-!
# Pools and intents of the egress model

An intent says which workloads may leave the cluster for which destinations, and under
which addresses. Pools are where addresses come from. Both are put into canonical form
before anything else looks at them.
-/

namespace Unf.Egress

open Std (ExtTreeMap ExtTreeSet)
open Unf.Lib

/-! ## Limits -/

/-- The most pools of one model. -/
def maxEgressPools : Nat := 64

/-- The most prefixes of one pool. -/
def maxEgressPoolPrefixes : Nat := 256

/-- The most intents of one model. -/
def maxEgressIntents : Nat := 4096

/-- The most networks that one intent lists. -/
def maxEgressDestinations : Nat := 256

/-- The most addresses of one intent, in each family. -/
def maxEgressAddressesPerIntent : Nat := 16

/-- The most labels of one selector. -/
def maxEgressLabels : Nat := 64

/-- The most expressions of one selector. -/
def maxEgressExpressions : Nat := 64

/-- The most values of one expression. -/
def maxEgressExpressionValues : Nat := 64

/-- The most service accounts of one source. -/
def maxEgressServiceAccounts : Nat := 64

/-! ## Selectors -/

/-- How an expression compares the value of a label. -/
inductive LabelExpressionOperator where
  | «in»
  | notIn
  | «exists»
  | doesNotExist
  deriving DecidableEq, Repr

namespace LabelExpressionOperator

/-- The place of an operator in its declaration. -/
def rank : LabelExpressionOperator → Nat
  | «in» => 0
  | notIn => 1
  | «exists» => 2
  | doesNotExist => 3

instance : LinearOrder LabelExpressionOperator :=
  LinearOrder.lift' rank <| by
    intro left right
    cases left <;> cases right <;> decide

end LabelExpressionOperator

/-- A condition on one label. -/
structure LabelExpression where
  key : String
  operator : LabelExpressionOperator
  values : ExtTreeSet String
  deriving DecidableEq

namespace LabelExpression

def sortKey (expression : LabelExpression) :=
  toLex (expression.key, toLex (expression.operator, expression.values.toList))

instance : LinearOrder LabelExpression :=
  LinearOrder.lift' sortKey <| by
    rintro ⟨key, operator, values⟩ ⟨key', operator', values'⟩ equal
    simp only [sortKey, EmbeddingLike.apply_eq_iff_eq, Prod.mk.injEq] at equal
    obtain ⟨rfl, rfl, same⟩ := equal
    rw [toList_set_injective same]

end LabelExpression

/-- Labels and expressions that all have to match. -/
structure LabelSelector where
  matchLabels : ExtTreeMap String String
  matchExpressions : List LabelExpression
  deriving DecidableEq

/-- The workloads that an intent is about. -/
structure EgressSourceSelector where
  «namespace» : LabelSelector
  workload : LabelSelector
  serviceAccounts : ExtTreeSet String
  deriving DecidableEq

/-! ## Pools -/

/-- A provider's prefixes, under one name. -/
structure EgressAddressPool where
  name : String
  uid : String
  provider : EgressProviderRef
  prefixes : List IpPrefix
  deriving DecidableEq, Repr

namespace EgressAddressPool

def sortKey (pool : EgressAddressPool) :=
  toLex (pool.name, toLex (pool.uid, toLex (pool.provider, pool.prefixes)))

instance : LinearOrder EgressAddressPool :=
  LinearOrder.lift' sortKey <| by
    rintro ⟨⟩ ⟨⟩ equal
    simpa [sortKey] using equal

end EgressAddressPool

/-! ## Intents -/

/-- The addresses that an intent asks for. -/
inductive EgressAddressRequest where
  | pool (name : String) (families : List AddressFamily) (addressesPerFamily : UInt16)
  | explicit (addresses : List IpAddr)
  deriving DecidableEq, Repr

/-- Where the workloads of an intent may go. -/
inductive EgressDestinations (Digest : Type) where
  | denyAll
  | any
  | networks (networks : List IpPrefix)
  | fqdn (snapshot : EgressFqdnSnapshot Digest)
  | internet (snapshot : EgressInternetSnapshot Digest)
  deriving DecidableEq

/-- Which workloads may leave, for where and under which addresses. -/
structure EgressIntent (Digest : Type) where
  owner : EgressIntentOwner
  priority : UInt32
  source : EgressSourceSelector
  destinations : EgressDestinations Digest
  fqdn : Option EgressFqdnDestinationSpec
  internet : Option EgressInternetDestinationSpec
  addresses : EgressAddressRequest
  deriving DecidableEq

/-- Why a model is rejected. -/
inductive EgressModelError where
  | tooManyPools (actual limit : Nat)
  | tooManyIntents (actual limit : Nat)
  | invalidPool (pool reason : String)
  | duplicatePoolName (name : String)
  | duplicatePoolUid (uid : String)
  | overlappingPools (left right : String) (leftPrefix rightPrefix : IpPrefix)
  | invalidIntent (intent reason : String)
  | duplicateIntentOwner (owner : EgressIntentOwner)
  | duplicateIntentUid (uid : String)
  | unknownPool (intent pool : String)
  | missingPoolFamily (intent pool : String) (family : AddressFamily)
  | invalidSelector (intent selector reason : String)
  deriving DecidableEq, Repr

abbrev ModelResult := Except EgressModelError

/-! ## Validation of pools -/

/-- Names, bounds and prefixes of one pool. -/
def validatePool (pool : EgressAddressPool) : ModelResult Unit := do
  failIf (!validName pool.name || !validUid pool.uid)
    (.invalidPool pool.name "name and UID must be nonempty and bounded")
  failIf (!validName pool.provider.name || !validUid pool.provider.«instance»)
    (.invalidPool pool.name "provider name and instance must be nonempty and bounded")
  failIf (pool.prefixes.isEmpty || decide (maxEgressPoolPrefixes < pool.prefixes.length))
    (.invalidPool pool.name "prefix set must be nonempty and bounded")
  failIf (pool.prefixes.any fun range => !range.isCanonical)
    (.invalidPool pool.name "prefixes must be family-valid and canonical")
  failIf ((ExtTreeSet.ofList pool.prefixes).size != pool.prefixes.length)
    (.invalidPool pool.name "duplicate prefixes are forbidden")
  failIf ((orderedPairs pool.prefixes).any fun pair => pair.1.overlaps pair.2)
    (.invalidPool pool.name "prefixes within a pool must not overlap")

/-- A valid pool with its prefixes in order. -/
def normalizePool (pool : EgressAddressPool) : ModelResult EgressAddressPool := do
  validatePool pool
  return { pool with prefixes := sort pool.prefixes }

/-- The names and UIDs so far, with those of one more pool. -/
def addPoolIdentity (seen : ExtTreeSet String × ExtTreeSet String) (pool : EgressAddressPool) :
    ModelResult (ExtTreeSet String × ExtTreeSet String) := do
  failIf (seen.1.contains pool.name) (.duplicatePoolName pool.name)
  failIf (seen.2.contains pool.uid) (.duplicatePoolUid pool.uid)
  return (seen.1.insert pool.name, seen.2.insert pool.uid)

/-- No address is in two pools. -/
def checkPoolPair (pair : EgressAddressPool × EgressAddressPool) : ModelResult Unit :=
  pair.1.prefixes.forM fun left =>
    match pair.2.prefixes.find? fun candidate => left.overlaps candidate with
    | none => .ok ⟨⟩
    | some right => .error (.overlappingPools pair.1.name pair.2.name left right)

/-- Valid pools by name, of which no two meet. -/
def normalizePools (pools : List EgressAddressPool) : ModelResult (List EgressAddressPool) := do
  failIf (decide (maxEgressPools < pools.length)) (.tooManyPools pools.length maxEgressPools)
  let pools := sortByKey EgressAddressPool.name (← pools.mapM normalizePool)
  let _ ← pools.foldlM addPoolIdentity (∅, ∅)
  (orderedPairs pools).forM checkPoolPair
  return pools

/-! ## Validation of intents -/

/-- An owner with a name, a UID and a scope. -/
def validateOwner (owner : EgressIntentOwner) : ModelResult Unit := do
  failIf (!validName owner.name || !validUid owner.uid)
    (.invalidIntent owner.name "owner name and UID must be nonempty and bounded")
  failIf (match owner.scope with
      | .cluster => false
      | .namespace name => !validName name)
    (.invalidIntent owner.name "owner namespace must be nonempty and bounded")

/-- A character that a label name may have inside. -/
def isLabelNameChar (character : Char) : Bool :=
  character.isAlphanum || character == '-' || character == '_' || character == '.'

/-- Letters and digits at both ends. -/
def validLabelName (value : List Char) : Bool :=
  decide (value.length ≤ 63) && value.head?.any Char.isAlphanum &&
    value.getLast?.any Char.isAlphanum && value.all isLabelNameChar

/-- Nothing, or what a label name may be. -/
def validLabelValue (value : String) : Bool :=
  value.isEmpty || validLabelName value.toList

/-- A part of a DNS name, as the source reads one. -/
def validSubdomainLabel (label : List Char) : Bool :=
  decide (label.length ≤ 63) && label.head?.any Char.isAlphanum &&
    label.getLast?.any Char.isAlphanum &&
    label.all fun character => character.isLower || character.isDigit || character == '-'

/-- Parts with dots between them. -/
def validDnsSubdomain (value : List Char) : Bool :=
  !value.isEmpty && decide (value.length ≤ 253) && (value.splitOn '.').all validSubdomainLabel

/-- A name, or a domain and a name with a slash between them. -/
def validLabelKey (value : String) : Bool :=
  match value.toList.span (· != '/') with
  | (_, []) => validLabelName value.toList
  | (domain, _ :: name) => !domain.contains '/' && validDnsSubdomain domain && validLabelName name

/-- An operator that compares with values. -/
def LabelExpressionOperator.takesValues : LabelExpressionOperator → Bool
  | .in | .notIn => true
  | .exists | .doesNotExist => false

/-- A key, and values as its operator wants them. -/
def validateExpression (invalid : String → EgressModelError) (expression : LabelExpression) :
    ModelResult Unit := do
  failIf (!validLabelKey expression.key ||
      decide (maxEgressExpressionValues < expression.values.size))
    (invalid "expression key or values are invalid or unbounded")
  failIf (expression.operator.takesValues == expression.values.isEmpty ||
      expression.values.toList.any fun value => !validLabelValue value)
    (invalid "expression operator has invalid value cardinality")

/-- A bounded selector with its expressions in order. -/
def validateSelector (intent selectorName : String) (selector : LabelSelector) :
    ModelResult LabelSelector := do
  let invalid := EgressModelError.invalidSelector intent selectorName
  failIf (decide (maxEgressLabels < selector.matchLabels.size) ||
      selector.matchLabels.toList.any fun label =>
        !validLabelKey label.1 || !validLabelValue label.2)
    (invalid "matchLabels is invalid or exceeds its bound")
  failIf (decide (maxEgressExpressions < selector.matchExpressions.length))
    (invalid "matchExpressions exceeds its bound")
  selector.matchExpressions.forM (validateExpression invalid)
  let expressions := sort selector.matchExpressions
  failIf (hasAdjacentRepeat expressions) (invalid "duplicate matchExpressions are forbidden")
  return { selector with matchExpressions := expressions }

/-- A bounded request with its families or addresses in order. -/
def normalizeAddressRequest (intent : String) (request : EgressAddressRequest) :
    ModelResult EgressAddressRequest :=
  let invalid := EgressModelError.invalidIntent intent
  match request with
  | .pool name families addressesPerFamily => do
      failIf (!validName name) (invalid "pool reference must be nonempty and bounded")
      let families := sortDedup families
      failIf families.isEmpty (invalid "at least one address family is required")
      failIf (addressesPerFamily == 0 ||
          decide (maxEgressAddressesPerIntent < addressesPerFamily.toNat))
        (invalid "address count is zero or exceeds its bound")
      return .pool name families addressesPerFamily
  | .explicit addresses => do
      failIf (addresses.isEmpty || decide (maxEgressAddressesPerIntent < addresses.length))
        (invalid "explicit address set must be nonempty and bounded")
      let addresses := sort addresses
      failIf (hasAdjacentRepeat addresses) (invalid "duplicate explicit addresses are forbidden")
      failIf (addresses.any IpAddr.isUnspecified)
        (invalid "unspecified explicit addresses are forbidden")
      return .explicit addresses

section Digest

variable {Digest : Type} [DecidableEq Digest]

/-- The digests of everything an intent may have been materialized from. -/
structure EgressDigests (Digest : Type) where
  fqdnSnapshot : FqdnSnapshotMaterial → Digest
  internet : InternetDigests Digest

/-- Networks in order; the other destinations as they are. -/
def normalizeDestinations (intent : String) (destinations : EgressDestinations Digest) :
    ModelResult (EgressDestinations Digest) :=
  let invalid := EgressModelError.invalidIntent intent
  match destinations with
  | .networks networks => do
      failIf (networks.isEmpty || decide (maxEgressDestinations < networks.length))
        (invalid "destination network set must be nonempty and bounded")
      failIf (networks.any fun range => !range.isCanonical)
        (invalid "destination prefixes must be family-valid and canonical")
      let networks := sort networks
      failIf (hasAdjacentRepeat networks) (invalid "duplicate destination prefixes are forbidden")
      return .networks networks
  | destinations => return destinations

variable (digests : EgressDigests Digest)

variable (owner : EgressIntentOwner) (destinations : EgressDestinations Digest)

/-- A specification of names, and what it has been materialized to. -/
def normalizeFqdnIntent (fqdn : EgressFqdnDestinationSpec) :
    ModelResult EgressFqdnDestinationSpec := do
  let invalid := EgressModelError.invalidIntent owner.name
  let fqdn ← (normalizeEgressFqdnDestinationSpec fqdn).mapError fun _ =>
    invalid "FQDN destination specification is invalid"
  match destinations with
  | .any | .networks _ | .internet _ =>
    .error (invalid "FQDN destinations cannot be combined with network destinations")
  | .denyAll => return fqdn
  | .fqdn snapshot => do
      let verified ← (verifyEgressFqdnSnapshot digests.fqdnSnapshot snapshot).mapError fun _ =>
        invalid "materialized FQDN snapshot is invalid"
      failIf (verified.snapshot.policy.owner != owner ||
          verified.snapshot.policy.toEgressFqdnDestinationSpec != fqdn)
        (invalid "materialized FQDN snapshot does not match its intent")
      return fqdn

/-- A specification of internet destinations, and what it has been materialized to. -/
def normalizeInternetIntent (internet : EgressInternetDestinationSpec) :
    ModelResult EgressInternetDestinationSpec := do
  let invalid := EgressModelError.invalidIntent owner.name
  let internet ← (normalizeEgressInternetDestinationSpec internet).mapError fun _ =>
    invalid "internet destination specification is invalid"
  match destinations with
  | .any | .networks _ | .fqdn _ =>
    .error (invalid "internet destinations cannot be combined with other destinations")
  | .denyAll => return internet
  | .internet snapshot => do
      let verified ← (verifyEgressInternetSnapshot digests.internet snapshot).mapError fun _ =>
        invalid "materialized internet snapshot is invalid"
      failIf (verified.snapshot.policy.owner != owner ||
          verified.snapshot.policy.toEgressInternetDestinationSpec != internet)
        (invalid "materialized internet snapshot does not match its intent")
      return internet

/-- The specification that an intent may have next to its destinations. -/
def normalizeDynamic (fqdn : Option EgressFqdnDestinationSpec)
    (internet : Option EgressInternetDestinationSpec) :
    ModelResult (Option EgressFqdnDestinationSpec × Option EgressInternetDestinationSpec) :=
  let invalid := EgressModelError.invalidIntent owner.name
  match fqdn, internet with
  | some _, some _ => .error (invalid "FQDN and internet destinations are mutually exclusive")
  | some fqdn, none => do
      return (some (← normalizeFqdnIntent digests owner destinations fqdn), none)
  | none, some internet => do
      return (none, some (← normalizeInternetIntent digests owner destinations internet))
  | none, none => do
      failIf (destinations == .denyAll) (invalid
        "deny-all destination requires an unresolved dynamic destination specification")
      return (none, none)

/-- An intent in canonical form, or what is wrong with it. -/
def normalizeIntent (intent : EgressIntent Digest) : ModelResult (EgressIntent Digest) := do
  validateOwner intent.owner
  let invalid := EgressModelError.invalidIntent intent.owner.name
  failIf (intent.priority == 0) (invalid "priority zero is reserved")
  let namespaces ← validateSelector intent.owner.name "namespace" intent.source.«namespace»
  let workload ← validateSelector intent.owner.name "workload" intent.source.workload
  failIf (decide (maxEgressServiceAccounts < intent.source.serviceAccounts.size) ||
      intent.source.serviceAccounts.toList.any fun name => !validName name)
    (invalid "service-account selector is invalid or exceeds its bound")
  let destinations ← normalizeDestinations intent.owner.name intent.destinations
  let (fqdn, internet) ← normalizeDynamic digests intent.owner destinations intent.fqdn
    intent.internet
  let addresses ← normalizeAddressRequest intent.owner.name intent.addresses
  return {
    owner := intent.owner
    priority := intent.priority
    source := ⟨namespaces, workload, intent.source.serviceAccounts⟩
    destinations := destinations
    fqdn := fqdn
    internet := internet
    addresses := addresses }

end Digest

end Unf.Egress
