import Unf.Topology.History

/-!
# The topology under watch

Four watches keep the objects of the topology. Each change of an object advances the revision of
the topology and captures its state in the history, but not while a watch is listing: the listings
that were begun and not finished are counted, and the last one to finish captures.

What the controller reads off an object is left to `Sources`. The watches differ in it only, and
in that a Pod needs an identity.
-/

namespace Unf.Topology

open Unf.Lib
open Std (ExtTreeMap)
open Unf.Service (Revision)

/-! ## Watched objects -/

/-- What a watch delivers. -/
inductive WatchEvent (Object : Type) where
  | init
  | initApply (object : Object)
  | initDone
  | apply (object : Object)
  | delete (object : Object)

/-- How the objects of one watch are kept: under their names, each with its record, beside an
index that may refuse an object. -/
structure ObjectKind where
  Object : Type
  Record : Type
  Index : Type
  initialIndex : Index
  name : Object → String
  isTerminal : Object → Bool
  admission : Index → Object → Option (Record × Index)
  removeFromIndex : String → Index → Index
  clearIndex : Index → Index
  sameRecord : Record → Record → Bool

/-- The listed objects of a kind. -/
structure ObjectStore (kind : ObjectKind) where
  records : ExtTreeMap String kind.Record
  index : kind.Index

namespace ObjectStore

variable {kind : ObjectKind}

def empty : ObjectStore kind :=
  ⟨∅, kind.initialIndex⟩

/-- The store without an object, and whether the topology changes. -/
def remove (name : String) (store : ObjectStore kind) : ObjectStore kind × Bool :=
  (⟨store.records.erase name, kind.removeFromIndex name store.index⟩, store.records.contains name)

/-- The store with an object, unless it is refused. -/
def upsert (object : kind.Object) (store : ObjectStore kind) : ObjectStore kind × Bool :=
  match kind.admission store.index object with
  | none => (store, false)
  | some (record, index) =>
    (⟨store.records.insert (kind.name object) record, index⟩,
      !(store.records[kind.name object]?.any fun previous => kind.sameRecord previous record))

def clear (store : ObjectStore kind) : ObjectStore kind × Bool :=
  (⟨∅, kind.clearIndex store.index⟩, !store.records.isEmpty)

/-- The store after an event, and whether the topology changes. -/
def handle (event : WatchEvent kind.Object) (store : ObjectStore kind) :
    ObjectStore kind × Bool :=
  match event with
  | .init => store.clear
  | .initDone => (store, false)
  | .initApply object | .apply object =>
    if kind.isTerminal object then store.remove (kind.name object) else store.upsert object
  | .delete object => store.remove (kind.name object)

end ObjectStore

/-- The watched kinds. -/
inductive Watch where
  | pods
  | nodes
  | services
  | endpointSlices
  deriving DecidableEq, Repr

/-- What the controller reads off the objects. -/
structure Sources where
  Pod : Type
  PodRecord : Type
  Identities : Type
  podRecordEq : DecidableEq PodRecord
  podKey : Pod → String
  podIsTerminal : Pod → Bool
  podRecord : Pod → Option PodRecord
  noIdentities : Identities
  admitPod : Identities → Pod → Option Identities
  removePod : String → Identities → Identities
  clearIdentities : Identities → Identities
  Node : Type
  TopologyNode : Type
  topologyNodeEq : DecidableEq TopologyNode
  nodeName : Node → String
  topologyNode : Node → TopologyNode
  Service : Type
  ServiceRecord : Type
  serviceKey : Service → String
  serviceRecord : Service → Option ServiceRecord
  serviceRecordSemanticsEqual : ServiceRecord → ServiceRecord → Bool
  EndpointSlice : Type
  EndpointSliceRecord : Type
  endpointSliceRecordEq : DecidableEq EndpointSliceRecord
  endpointSliceKey : EndpointSlice → String
  endpointSliceRecord : EndpointSlice → Option EndpointSliceRecord

namespace Sources

variable (sources : Sources)

/-- A Pod that has come to its end is removed. A Pod is refused for its named ports or by the
registry of identities. -/
def podKind : ObjectKind where
  Object := sources.Pod
  Record := sources.PodRecord
  Index := sources.Identities
  initialIndex := sources.noIdentities
  name := sources.podKey
  isTerminal := sources.podIsTerminal
  admission identities pod := do
    let record ← sources.podRecord pod
    let identities ← sources.admitPod identities pod
    pure (record, identities)
  removeFromIndex := sources.removePod
  clearIndex := sources.clearIdentities
  sameRecord previous record := haveI := sources.podRecordEq; previous == record

/-- Objects without an index, of which some may be refused. -/
def plainKind (Object Record : Type) (name : Object → String) (record : Object → Option Record)
    (sameRecord : Record → Record → Bool) : ObjectKind where
  Object := Object
  Record := Record
  Index := Unit
  initialIndex := ()
  name := name
  isTerminal _ := false
  admission _ object := (record object).map fun record => (record, ())
  removeFromIndex _ := id
  clearIndex := id
  sameRecord := sameRecord

def nodeKind : ObjectKind :=
  plainKind sources.Node sources.TopologyNode sources.nodeName
    (fun node => some (sources.topologyNode node))
    fun previous record => haveI := sources.topologyNodeEq; previous == record

def serviceKind : ObjectKind :=
  plainKind sources.Service sources.ServiceRecord sources.serviceKey sources.serviceRecord
    sources.serviceRecordSemanticsEqual

def endpointSliceKind : ObjectKind :=
  plainKind sources.EndpointSlice sources.EndpointSliceRecord sources.endpointSliceKey
    sources.endpointSliceRecord
    fun previous record => haveI := sources.endpointSliceRecordEq; previous == record

def kind : Watch → ObjectKind
  | .pods => sources.podKind
  | .nodes => sources.nodeKind
  | .services => sources.serviceKind
  | .endpointSlices => sources.endpointSliceKind

end Sources

/-! ## The controller -/

/-- A controller. -/
structure Controller (sources : Sources) where
  identityEpoch : UInt64
  stores : (watch : Watch) → ObjectStore (sources.kind watch)
  revision : Revision
  topologyInitializations : UInt64
  history : TopologyHistoryStore
  historyDirty : Bool

namespace Controller

variable {sources : Sources}

variable (now : UInt64) (controller : Controller sources)

def topologySnapshot : TopologyStateSnapshot where
  schemaVersion := topologySnapshotSchemaVersion
  sourceEpoch := controller.identityEpoch
  revision := controller.revision

def captureTopologyHistory : Controller sources :=
  if controller.topologyInitializations ≠ 0 then controller
  else
    { controller with
      history := controller.history.record controller.topologySnapshot now
      historyDirty := true }

def bumpTopologyRevision : Controller sources :=
  captureTopologyHistory now { controller with revision := controller.revision.next }

def beginTopologyInitialization : Controller sources :=
  { controller with topologyInitializations := controller.topologyInitializations + 1 }

def finishTopologyInitialization : Controller sources :=
  if controller.topologyInitializations = 0 then controller
  else
    let finished :=
      { controller with topologyInitializations := controller.topologyInitializations - 1 }
    if controller.topologyInitializations = 1 then finished.captureTopologyHistory now
    else finished

/-- The event of a watch is applied to its store, and a change advances the revision. -/
def handle (watch : Watch) (event : WatchEvent (sources.kind watch).Object) (now : UInt64)
    (controller : Controller sources) : Controller sources :=
  let outcome := (controller.stores watch).handle event
  let handled := { controller with stores := Function.update controller.stores watch outcome.1 }
  if outcome.2 then handled.bumpTopologyRevision now else handled

/-- One event of a watch. -/
def apply (watch : Watch) (event : WatchEvent (sources.kind watch).Object) (now : UInt64)
    (controller : Controller sources) : Controller sources :=
  match event with
  | .init => controller.beginTopologyInitialization.handle watch .init now
  | .initDone => (controller.handle watch .initDone now).finishTopologyInitialization now
  | other => controller.handle watch other now

end Controller

/-! ## Restarts -/

inductive RestoreError where
  | futureEntry
  | checkpoint (error : TopologyHistoryCheckpointError)
  deriving DecidableEq, Repr

def topologyHistoryMaxFutureSkewMillis : UInt64 := 60000

def restoreTopologyHistory (persisted : Option TopologyHistoryCheckpoint) (now : UInt64) :
    Except RestoreError TopologyHistoryStore :=
  match persisted with
  | none => .ok (.withCapacity topologyHistoryCapacity)
  | some checkpoint => do
      failIf (checkpoint.entries.any fun entry =>
        saturatingAdd now topologyHistoryMaxFutureSkewMillis < entry.capturedAtUnixMs) .futureEntry
      (fromCheckpoint checkpoint topologyHistoryCapacity).mapError .checkpoint

/-- The checkpoint that was persisted last, and the controller, unless it could not start. -/
structure World (sources : Sources) where
  persisted : Option TopologyHistoryCheckpoint
  controller : Option (Controller sources)

/-- What happens to the controller. The checkpoint that is persisted has as many entries as fit,
by halving their number. A controller that starts draws its epoch from its clock and process. -/
inductive ControllerEvent (sources : Sources) where
  | watch (watch : Watch) (event : WatchEvent (sources.kind watch).Object) (now : UInt64)
  | persist (halvings : Nat)
  | restart (epoch now : UInt64)

namespace World

variable {sources : Sources}

def initial : World sources :=
  ⟨none, none⟩

def persist (halvings : Nat) (world : World sources) : World sources :=
  match world.controller with
  | some controller =>
    if controller.historyDirty then
      { world with
        persisted := some (controller.history.checkpoint (topologyHistoryCapacity / 2 ^ halvings))
        controller := some { controller with historyDirty := false } }
    else world
  | none => world

def restart (epoch now : UInt64) (world : World sources) : World sources :=
  { world with
    controller :=
      match restoreTopologyHistory world.persisted now with
      | .error _ => none
      | .ok history => some
          { identityEpoch := epoch
            stores := fun _ => .empty
            revision := history.latestRevision
            topologyInitializations := 0
            history := history
            historyDirty := false } }

/-- One event of the controller. -/
def step (world : World sources) : ControllerEvent sources → World sources
  | .watch watch event now =>
    { world with controller := world.controller.map fun controller =>
        controller.apply watch event now }
  | .persist halvings => world.persist halvings
  | .restart epoch now => world.restart epoch now

end World

end Unf.Topology
