import Unf.Policy.OrderIndependence
import Unf.Policy.NetworkPolicyCorrect
import Unf.Policy.Abi
import Unf.Policy.EgressRefinement
import Unf.Policy.UncoveredAddress
import Unf.Egress.AllocationHistory
import Unf.Egress.FqdnFailure
import Unf.Egress.FqdnPattern
import Unf.Egress.DnsAttribution
import Unf.LoadBalancer.AllocationRestore
import Unf.Service.CompileLossless
import Unf.Service.Migration
import Unf.Encryption.PacketRun
import Unf.Encryption.Refinement
import Unf.Encryption.KeyRun
import Unf.Topology.Run
import Unf.Cni.DeferredRun
import Unf.Controller.Readiness
import Unf.Identity.Registry
import Unf.SnatPort
