import Unf.Policy.KubernetesSemantics

/-!
# Correctness of compiled selectors and ports

Label selectors, peers and ports of an accepted object compile to selectors and
ports that match what the object's own semantics says, with two exceptions: a
peer that selects every Pod of every namespace becomes an unconstrained selector
and also matches endpoints outside the cluster, and the port range from 1 to
65535 becomes a port that also matches zero.
-/

namespace Unf.Policy

open Std (ExtTreeMap ExtTreeSet)
open Unf.Lib IdentitySelector PeerAddress DestinationPort LabelExpression Std.ExtTreeMap
open Option Except

/-! ## Label selectors -/

theorem matchesAllLabels_iff (required labels : Labels) : matchesAllLabels required labels = true ↔
      ∀ key value : String, required[key]? = some value → labels[key]? = some value := by
  simp only [matchesAllLabels, List.all_eq_true, Prod.forall,
    mem_toList_iff_getElem?_eq_some, beq_iff_eq]

@[simp] theorem matchesAllLabels_empty (labels : Labels) : matchesAllLabels ∅ labels = true := by
  rw [matchesAllLabels_iff]
  simp

variable {field : String} {expressions : List LabelExpression} {result : NamespaceIdentitySelector}
  {peerIndex : Nat} {peer : NetworkPolicyPeer} {policyNamespace : String} {port : NetworkPolicyPort}
  {portIndex : Nat} {selector : LabelSelector} {width : Nat}

theorem labelExpression_ok {requirement : LabelSelectorRequirement} {expression : LabelExpression}
    (compiled : labelExpression field requirement = .ok expression) (labels : Labels) :
    expression.matchesLabels labels = true ↔ requirement.Holds labels := by
  simp only [labelExpression, eq_ok_iffs] at compiled
  obtain ⟨operator, operatorComputed, rfl⟩ := compiled
  simp only [LabelSelectorRequirement.Holds]
  rw [expressionOperator] at operatorComputed
  split_ifs at operatorComputed with isIn notIn isPresent isAbsent
  all_goals cases ok.inj operatorComputed
  · obtain ⟨name, -⟩ : requirement.operator = "In" ∧ _ := by simpa using isIn
    cases found : labels[requirement.key]? <;>
      simp [matchesLabels, name, found]
  · obtain ⟨name, -⟩ : requirement.operator = "NotIn" ∧ _ := by simpa using notIn
    cases found : labels[requirement.key]? <;>
      simp [matchesLabels, name, found, List.forall_mem_ne]
  · obtain ⟨name, -⟩ : requirement.operator = "Exists" ∧ _ := by simpa using isPresent
    simp [matchesLabels, name]
  · obtain ⟨name, -⟩ : requirement.operator = "DoesNotExist" ∧ _ := by
      simpa using isAbsent
    have absent : labels.contains requirement.key = false ↔ requirement.key ∉ labels := by
      rw [← contains_iff_mem, Bool.not_eq_true]
    simp [matchesLabels, name, absent]

variable (compiled : labelExpressions field selector = .ok expressions)

include compiled

/-- The compiled expressions of a selector hold together exactly when its
requirements do, and there are none exactly when there is no requirement. -/
theorem labelExpressions_ok :
    (∀ labels, (∀ expression ∈ expressions, expression.matchesLabels labels = true) ↔
      ∀ requirement ∈ selector.matchExpressions.getD [], requirement.Holds labels) ∧
    (expressions = [] ↔ selector.matchExpressions.getD [] = []) := by
  simp only [labelExpressions, eq_ok_iffs] at compiled
  obtain ⟨parsed, parsedComputed, rfl⟩ := compiled
  constructor
  · intro labels
    have failing := exists_mem_mapM_iff (fun requirement _ expression computed =>
        not_congr (labelExpression_ok computed labels)) parsedComputed
    rw [← not_iff_not]
    push Not
    simpa using failing
  · have nonempty : (∃ expression ∈ parsed, True) ↔
        ∃ requirement ∈ selector.matchExpressions.getD [], True :=
      exists_mem_mapM_iff (fun _ _ _ _ => Iff.rfl) parsedComputed
    rw [List.eq_nil_iff_forall_not_mem, List.eq_nil_iff_forall_not_mem]
    simpa using not_congr nonempty

theorem selects_iff (labels : Labels) :
    matchesAllLabels (selector.matchLabels.getD ∅) labels = true ∧
        (expressions.all fun expression => expression.matchesLabels labels) = true ↔
      selector.Selects labels := by
  rw [matchesAllLabels_iff, List.all_eq_true, (labelExpressions_ok compiled).1 labels]
  rfl

omit compiled

/-- The namespace part of a peer selects a Pod through the labels of its
namespace, with the name label compared to the namespace itself. -/
theorem namespaceIdentitySelector_ok
    (compiled : namespaceIdentitySelector selector = .ok result) (pod : Pod) :
    (result.namespace.all (fun expected => expected == pod.endpoint.namespace) = true ∧
        matchesAllLabels result.matchLabels pod.endpoint.namespaceLabels = true ∧
        (result.matchExpressions.all fun expression =>
          expression.matchesLabels pod.endpoint.namespaceLabels) = true) ↔
      selector.Selects pod.endpoint.namespaceLabels := by
  simp only [namespaceIdentitySelector, eq_ok_iffs] at compiled
  obtain ⟨expressions, expressionsCompiled, rfl⟩ := compiled
  rw [← selects_iff expressionsCompiled, ← and_assoc]
  refine and_congr_left fun _ => ?_
  rw [matchesAllLabels_iff, matchesAllLabels_iff]
  simp only [getElem?_erase, compare_eq_iff_eq]
  constructor
  · rintro ⟨name, others⟩ key value required
    by_cases named : namespaceNameLabel = key
    · subst named
      rw [required] at name
      have equal : value = pod.endpoint.namespace := by simpa using name
      rw [equal]
      exact pod.namespaceNamed
    · exact others key value (by rw [if_neg named]; exact required)
  · intro all
    constructor
    · cases required : (selector.matchLabels.getD ∅)[namespaceNameLabel]? with
      | none => rfl
      | some value =>
        have equal := (all _ _ required).symm.trans pod.namespaceNamed
        simpa using equal
    · intro key value required
      split at required
      · simp at required
      · exact all key value required

/-! ## Peers -/

theorem Block.contains_iff (block : Block width) (address : BitVec width) :
    block.contains address = true ↔ block.cidr.contains address = true ∧
      ∀ excluded ∈ block.except, ¬excluded.contains address = true := by
  simp [Block.contains]

variable {ruleIndex : Nat} {selector : IdentitySelector} {ipBlock : IpBlock} {value : Int}

/-- A parsed block contains the addresses of its text's prefix that no text of
an exception contains. -/
private theorem parsedBlock_contains_iff {parse : String → Option (Cidr width)}
    {cidr : Cidr width} {except : List (Cidr width)} (parsed : parse ipBlock.cidr = some cidr)
    (exceptions : parseExceptions parse cidr ipBlock.cidr ipBlock.except ruleIndex
      peerIndex = .ok except) (address : BitVec width) :
    (Block.mk cidr except).contains address = true ↔
      (∃ other, parse ipBlock.cidr = some other ∧ other.contains address = true) ∧
        ∀ text ∈ ipBlock.except.getD [],
          ¬∃ other, parse text = some other ∧ other.contains address = true := by
  rw [Block.contains_iff, parsed]
  simp only [some_inj, exists_eq_left', (parseExceptions_ok exceptions).1]
  refine and_congr_right fun _ => ?_
  constructor
  · rintro free text member ⟨other, otherParsed, contained⟩
    exact free other ⟨text, member, otherParsed⟩ contained
  · rintro free other ⟨text, member, otherParsed⟩ contained
    exact free text member ⟨other, otherParsed, contained⟩

theorem ipBlockSelector_matches
    (compiled : ipBlockSelector ipBlock ruleIndex peerIndex = .ok selector) (endpoint : Endpoint)
    (address : PeerAddress) :
    selector.matchesAddressed endpoint address.toIpv4 address.toIpv6 = true ↔
      ipBlock.Contains address := by
  rcases ipBlockSelector_ok compiled with
    ⟨cidr, except, parsed, exceptions, rfl⟩ | ⟨cidr, except, parsed, exceptions, -, rfl⟩
  · cases address with
    | ipv4 address =>
      have otherFamily : parseIpv4Cidr ipBlock.cidr = none := by
        by_contra both
        obtain ⟨other, otherParsed⟩ := ne_none_iff_exists'.mp both
        simp [parseIpv6Cidr_eq_none otherParsed] at parsed
      simp [matchesAddressed, matchesAddresses,
        toIpv4, toIpv6, IpBlock.Contains, TextContains, otherFamily]
    | ipv6 address =>
      refine Iff.trans ?_ (parsedBlock_contains_iff parsed exceptions address)
      simp [matchesAddressed, matchesEndpoint, matchesAddresses, unconstrained, toIpv4, toIpv6]
  · cases address with
    | ipv4 address =>
      refine Iff.trans ?_ (parsedBlock_contains_iff parsed exceptions address)
      simp [matchesAddressed, matchesEndpoint, matchesAddresses, unconstrained, toIpv4, toIpv6]
    | ipv6 address =>
      simp [matchesAddressed, matchesAddresses, toIpv4, toIpv6, IpBlock.Contains, TextContains,
        parseIpv6Cidr_eq_none parsed]

private theorem peerPodSelector_ok {result : IdentitySelector}
    (compiled : peerPodSelector peer = .ok result) : ∃ matchLabels matchExpressions,
      result = { unconstrained with matchLabels, matchExpressions } ∧
      (∀ labels, matchesAllLabels matchLabels labels = true ∧
          (matchExpressions.all fun expression => expression.matchesLabels labels) = true ↔
        ∀ selector ∈ peer.podSelector, selector.Selects labels) ∧
      (matchLabels = ∅ ∧ matchExpressions = [] ↔
        ∀ selector ∈ peer.podSelector, selector.IsEmpty) := by
  rw [peerPodSelector] at compiled
  split at compiled
  next selector given =>
    simp only [podIdentitySelector, eq_ok_iffs] at compiled
    obtain ⟨expressions, expressionsCompiled, rfl⟩ := compiled
    refine ⟨selector.matchLabels.getD ∅, expressions, rfl, fun labels => ?_, ?_⟩
    · rw [selects_iff expressionsCompiled]
      simp [given]
    · rw [(labelExpressions_ok expressionsCompiled).2]
      simp [given, LabelSelector.IsEmpty]
  next absent =>
    obtain rfl := ok.inj compiled
    exact ⟨∅, [], rfl, by simp [absent], by simp [absent]⟩

private theorem erase_eq_empty_iff (labels : Labels) (key : String) :
    labels[key]? = none ∧ labels.erase key = ∅ ↔ labels = ∅ := by
  constructor
  · rintro ⟨absent, empty⟩
    apply ext_getElem?
    intro other
    by_cases same : key = other
    · simpa [← same] using absent
    · have erased := congrArg (fun labels : Labels => labels[other]?) empty
      simpa [getElem?_erase, same] using erased
  · rintro rfl
    simp

private theorem peerNamespaceSelector_ok
    (compiled : peerNamespaceSelector peer policyNamespace = .ok result) : (∀ pod : Pod,
      (result.namespace.all (fun expected => expected == pod.endpoint.namespace) = true ∧
        matchesAllLabels result.matchLabels pod.endpoint.namespaceLabels = true ∧
        (result.matchExpressions.all fun expression =>
          expression.matchesLabels pod.endpoint.namespaceLabels) = true) ↔
      peer.namespaceSelector = none ∧ peer.podSelector = none ∨ match peer.namespaceSelector with
        | some selector => selector.Selects pod.endpoint.namespaceLabels
        | none => pod.endpoint.namespace = policyNamespace) ∧
    (result.namespace = none ∧ result.matchLabels = ∅ ∧ result.matchExpressions = [] ↔
      peer.namespaceSelector = none ∧ peer.podSelector = none ∨
        ∃ selector, peer.namespaceSelector = some selector ∧ selector.IsEmpty) := by
  rw [peerNamespaceSelector] at compiled
  split at compiled
  next selector given =>
    refine ⟨fun pod => ?_, ?_⟩
    · rw [namespaceIdentitySelector_ok compiled]
      simp [given]
    · simp only [namespaceIdentitySelector, eq_ok_iffs] at compiled
      obtain ⟨expressions, expressionsCompiled, rfl⟩ := compiled
      rw [(labelExpressions_ok expressionsCompiled).2, ← and_assoc, erase_eq_empty_iff]
      simp [given, LabelSelector.IsEmpty]
  next absent =>
    obtain rfl := ok.inj compiled
    cases given : peer.podSelector with
    | none => simp [absent]
    | some selector =>
      simp only [isSome_some, if_true, all_some, beq_iff_eq, absent]
      simp [eq_comm]

/-- Without address blocks a selector looks at the endpoint alone, and selects
endpoints outside the cluster only when it constrains nothing. -/
theorem matchesAddressed_of_no_blocks (noIpv4 : selector.ipv4Blocks = [])
    (noIpv6 : selector.ipv6Blocks = []) (endpoint : Endpoint) (address : Option PeerAddress) :
    selector.matchesAddressed endpoint (address.bind toIpv4) (address.bind toIpv6) = true ↔
      (endpoint.identity.get ≠ 0 ∨ selector.isUnconstrained = true) ∧
        selector.matchesEndpoint endpoint = true := by
  rcases address with _ | _ | _ <;>
    simp [matchesAddressed, matchesAddresses, toIpv4, toIpv6, noIpv4, noIpv6]

theorem matchesEndpoint_of_isUnconstrained (unconstrained : selector.isUnconstrained = true)
    (endpoint : Endpoint) : selector.matchesEndpoint endpoint = true := by
  simp only [isUnconstrained, Bool.and_eq_true, isNone_iff_eq_none,
    List.isEmpty_iff, ExtTreeMap.isEmpty_iff] at unconstrained
  simp [matchesEndpoint, unconstrained]

theorem matchesEndpoint_iff (noAccount : selector.serviceAccount = none)
    (noApplication : selector.application = none) (endpoint : Endpoint) :
    selector.matchesEndpoint endpoint = true ↔
      (selector.namespace.all (fun expected => expected == endpoint.namespace) = true ∧
        matchesAllLabels selector.namespaceMatchLabels endpoint.namespaceLabels = true ∧
        (selector.namespaceMatchExpressions.all fun expression =>
          expression.matchesLabels endpoint.namespaceLabels) = true) ∧
      matchesAllLabels selector.matchLabels endpoint.labels = true ∧
        (selector.matchExpressions.all fun expression =>
          expression.matchesLabels endpoint.labels) = true := by
  simp only [matchesEndpoint, noAccount, noApplication, all_none,
    Bool.and_true, Bool.and_eq_true, and_assoc]

private theorem isUnconstrained_iff (noAccount : selector.serviceAccount = none)
    (noApplication : selector.application = none) : selector.isUnconstrained = true ↔
      (selector.namespace = none ∧ selector.namespaceMatchLabels = ∅ ∧
        selector.namespaceMatchExpressions = []) ∧
      selector.matchLabels = ∅ ∧ selector.matchExpressions = [] := by
  simp only [isUnconstrained, noAccount, noApplication, isNone_none, Bool.and_true,
    Bool.and_eq_true, isNone_iff_eq_none, ExtTreeMap.isEmpty_iff, List.isEmpty_iff, and_assoc]

/-- A compiled peer matches what the peer means, and the outside of the cluster
as well when it selects every Pod of every namespace. -/
theorem peerSelector_matches
    (compiled : peerSelector policyNamespace ruleIndex (peer, peerIndex) = .ok selector)
    (other : OtherEnd) (address : PeerAddress) :
    selector.matchesAddressed other.endpoint address.toIpv4 address.toIpv6 = true ↔
      peer.Matches policyNamespace other address ∨
        other = .external ∧ peer.SelectsEveryNamespace := by
  simp only [peerSelector] at compiled
  split at compiled
  next ipBlock given =>
    rw [failIf_bind_eq_ok] at compiled
    rw [ipBlockSelector_matches compiled.2]
    simp [NetworkPolicyPeer.Matches, NetworkPolicyPeer.SelectsEveryNamespace, given]
  next noBlock =>
    simp only [eq_ok_iffs] at compiled
    obtain ⟨namespaceSelector, namespaceCompiled, podSelector, podCompiled, rfl⟩ := compiled
    obtain ⟨matchLabels, matchExpressions, rfl, selectsPod, selectsAll⟩ :=
      peerPodSelector_ok podCompiled
    obtain ⟨selectsNamespace, selectsEvery⟩ := peerNamespaceSelector_ok namespaceCompiled
    refine (matchesAddressed_of_no_blocks rfl rfl other.endpoint (some address)).trans ?_
    simp only [NetworkPolicyPeer.Matches, noBlock,
      NetworkPolicyPeer.SelectsEveryNamespace, true_and]
    cases other with
    | pod pod =>
      refine (and_iff_right (.inl pod.identified)).trans
        ((matchesEndpoint_iff rfl rfl pod.endpoint).trans
          ((and_congr (selectsNamespace pod) (selectsPod pod.endpoint.labels)).trans ?_))
      constructor
      · rintro ⟨empty | selects, selectsLabels⟩
        · exact .inl (.inl empty)
        · exact .inl (.inr ⟨pod, rfl, selects, selectsLabels⟩)
      · rintro ((empty | ⟨other, same, selects, selectsLabels⟩) | ⟨⟨⟩, -⟩)
        · exact ⟨.inl empty, by simp [empty.2]⟩
        · cases same
          exact ⟨.inr selects, selectsLabels⟩
    | external =>
      have outside : ∀ selector : IdentitySelector,
          (externalEndpoint.identity.get ≠ 0 ∨ selector.isUnconstrained = true) ∧
            selector.matchesEndpoint externalEndpoint = true ↔
          selector.isUnconstrained = true := by
        intro selector
        refine ⟨?_, fun holds => ⟨.inr holds, matchesEndpoint_of_isUnconstrained holds _⟩⟩
        rintro ⟨external | unconstrained, -⟩
        · exact absurd rfl external
        · exact unconstrained
      refine (outside _).trans ((isUnconstrained_iff rfl rfl).trans
        ((and_congr selectsEvery selectsAll).trans ?_))
      constructor
      · rintro ⟨empty | every, all⟩
        · exact .inl (.inl empty)
        · exact .inr ⟨rfl, every, all⟩
      · rintro ((empty | ⟨pod, ⟨⟩, -⟩) | ⟨-, every, all⟩)
        · exact ⟨.inl empty, by simp [empty.2]⟩
        · exact ⟨.inr every, all⟩

/-! ## Ports -/

theorem resolveNamedPort_eq (endpoint : Endpoint) (name : String) (protocol : Protocol) :
    endpoint.resolveNamedPort name protocol = endpoint.namedPorts[NamedPort.mk name protocol]? := by
  have key : ∀ entry : NamedPort × UInt16,
      (entry.1.name == name && entry.1.protocol == protocol) = true ↔
        entry.1 = ⟨name, protocol⟩ := by
    rintro ⟨⟨otherName, otherProtocol⟩, port⟩
    simp
  rw [Endpoint.resolveNamedPort]
  cases found : endpoint.namedPorts.toList.find? fun entry =>
      entry.1.name == name && entry.1.protocol == protocol with
  | none =>
    rw [List.find?_eq_none] at found
    symm
    rw [map_none, eq_none_iff_forall_ne_some]
    intro port stored
    refine found (⟨name, protocol⟩, port) ?_ ((key _).mpr rfl)
    rwa [mem_toList_iff_getElem?_eq_some]
  | some entry =>
    have matching := List.find?_some found
    have same := (key entry).mp matching
    have stored := List.mem_of_find?_eq_some found
    rw [← same]
    exact (mem_toList_iff_getElem?_eq_some.mp stored).symm

private theorem portNumber_eq_some {number : UInt16}
    (parsed : portNumber value = some number) : (number.toNat : Int) = value := by
  rw [portNumber] at parsed
  split at parsed
  next bounds =>
    obtain rfl := some.inj parsed
    rw [UInt16.toNat_ofNat']
    omega
  next => simp at parsed

private theorem portProtocol_ok {compiledProtocol : Protocol}
    (compiled : portProtocol port ruleIndex portIndex = .ok compiledProtocol)
    (protocol : Protocol) :
    compiledProtocol = protocol ↔ port.protocol.getD "TCP" = protocolName protocol := by
  simp only [portProtocol] at compiled
  split_ifs at compiled with tcp udp sctp
  all_goals obtain rfl := ok.inj compiled
  · rw [beq_iff_eq.mp tcp]
    cases protocol <;> decide
  · rw [beq_iff_eq.mp udp]
    cases protocol <;> decide
  · rw [beq_iff_eq.mp sctp]
    cases protocol <;> decide

private theorem numericPort_ok {endPort : Option Int} {compiledPort : DestinationPort}
    (compiled : numericPort value endPort ruleIndex portIndex = .ok compiledPort)
    (destination : Endpoint) (protocol : Protocol) (number : UInt16) :
    compiledPort.matchesPort destination protocol number = true ↔
      NumberMatches number value endPort ∨ value = 1 ∧ endPort = some 65535 ∧ number = 0 := by
  simp only [numericPort, eq_ok_iffs] at compiled
  obtain ⟨start, startParsed, nonzero, compiled⟩ := compiled
  have startValue := portNumber_eq_some startParsed
  cases endPort with
  | none =>
    obtain rfl := ok.inj compiled
    simp only [matchesPort, beq_iff_eq, NumberMatches, ← startValue]
    constructor
    · rintro rfl
      exact .inl rfl
    · rintro (equal | ⟨-, absent, -⟩)
      · exact UInt16.toNat_inj.mp (by omega)
      · simp at absent
  | some endValue =>
    simp only [eq_ok_iffs] at compiled
    obtain ⟨finish, finishParsed, ordered, compiled⟩ := compiled
    have finishValue := portNumber_eq_some finishParsed
    have bound := number.toNat_lt
    have zero : number = 0 ↔ number.toNat = 0 := by
      rw [← UInt16.toNat_inj]
      rfl
    have one : (1 : UInt16).toNat = 1 := rfl
    have last : (65535 : UInt16).toNat = 65535 := rfl
    simp only [NumberMatches, some.injEq, zero]
    split at compiled
    next full =>
      obtain rfl := ok.inj compiled
      obtain ⟨rfl, rfl⟩ : start = 1 ∧ finish = 65535 := by simpa using full
      simp only [matchesPort, true_iff]
      omega
    next partialRange =>
      obtain ⟨-, returned⟩ := failIf_bind_eq_ok.mp compiled
      obtain rfl := ok.inj returned
      have notFull : ¬((start.toNat : Int) = 1 ∧ (finish.toNat : Int) = 65535) := by
        rintro ⟨startOne, finishLast⟩
        have startEq : start = 1 := UInt16.toNat_inj.mp (by omega)
        have finishEq : finish = 65535 := UInt16.toNat_inj.mp (by omega)
        simp [startEq, finishEq] at partialRange
      split
      next single =>
        obtain rfl := beq_iff_eq.mp single
        simp only [matchesPort, beq_iff_eq, ← UInt16.toNat_inj]
        omega
      next =>
        simp only [matchesPort, Bool.and_eq_true, decide_eq_true_eq, UInt16.le_iff_toNat_le]
        omega

/-- A compiled port matches what the port means, and port zero as well when it
spells out all ports. -/
theorem portTuple_matches {tuple : PortTuple}
    (compiled : portTuple ruleIndex (port, portIndex) = .ok tuple) (destination : Endpoint)
    (protocol : Protocol) (number : UInt16) : tuple.1.all (fun value => value == protocol) = true ∧
        tuple.2.matchesPort destination protocol number = true ↔
      port.Matches destination protocol number ∨ port.IsFullRange protocol ∧ number = 0 := by
  simp only [portTuple, eq_ok_iffs] at compiled
  obtain ⟨compiledProtocol, protocolCompiled, compiledPort, portCompiled, rfl⟩ := compiled
  have sameProtocol := portProtocol_ok protocolCompiled protocol
  simp only [all_some, beq_iff_eq, sameProtocol, NetworkPolicyPort.Matches,
    NetworkPolicyPort.IsFullRange, and_assoc, ← and_or_left]
  rw [destinationPort] at portCompiled
  simp only [NetworkPolicyPort.MatchesNumber]
  split at portCompiled
  next value given =>
    rw [numericPort_ok portCompiled]
    simp [given]
  next name given =>
    simp only [eq_ok_iffs] at portCompiled
    obtain ⟨-, -, rfl⟩ := portCompiled
    rw [given, matchesPort, resolveNamedPort_eq]
    cases found : destination.namedPorts[NamedPort.mk name protocol]? <;> simp [found]
  next given =>
    obtain ⟨-, returned⟩ := failIf_bind_eq_ok.mp portCompiled
    obtain rfl := ok.inj returned
    simp [given, matchesPort]

end Unf.Policy
