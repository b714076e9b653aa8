import Netconf.Handshake
import Netconf.Proofs.Negotiation.Hello

/-!
# The two sides of a handshake agree

A server and a client that get each other's hello come to the same verdict (`Handshake.agree`): both
refuse, or both go on with the same framing, the same session number, the same common capabilities,
and EXI on both sides or on neither. They go on if and only if they share a version of the protocol.
-/

namespace Netconf

namespace CapabilitySet

variable {s t : CapabilitySet} {uri : String}

/-- A set that contains a URI is not empty. -/
lemma isEmpty_of_contains (has : s.contains uri = true) : s.isEmpty = false := by
  rw [contains_iff] at has
  obtain ⟨c, mem, -⟩ := List.mem_map.mp has
  exact List.isEmpty_eq_false_iff.mpr (List.ne_nil_of_mem mem)

end CapabilitySet

namespace Handshake

open CapabilitySet

/-- Both sets have the protocol in one of its versions. -/
def SharesBase (s t : CapabilitySet) : Prop :=
  ∃ base ∈ [Capability.base10, Capability.base11], s.contains base = true ∧ t.contains base = true

/-- Sharing a version of the protocol does not depend on which side is asked. -/
lemma SharesBase.symm {s t : CapabilitySet} (shares : SharesBase s t) : SharesBase t s := by
  obtain ⟨base, mem, first, second⟩ := shares
  exact ⟨base, mem, second, first⟩

/-- What the offers of the two sides come to, for the side that offers `s`. -/
def outcome (s t : CapabilitySet) (sessionId : Nat) (localHello remoteHello : Node) :
    Preferences :=
  let chunked := (s.intersect t).contains Capability.base11
  { localHello := localHello
    remoteHello := remoteHello
    remoteCapabilities := t
    capabilities := s.intersect t
    framing := if chunked then .chunked else .endOfMessage
    sessionId := sessionId
    exiStart :=
      if chunked && (s.intersect t).contains Capability.exi then some Operation.startExi else none }

section

variable {role : Role} {s t : CapabilitySet} {announced : Option Nat} {sessionId : Nat}
  {localHello remoteHello : Node}

/-- Two sets share a version of the protocol if one is in their intersection. -/
lemma sharesBase_iff (sound : s.Sound) :
    SharesBase s t ↔ (s.intersect t).contains Capability.base10 = true ∨
      (s.intersect t).contains Capability.base11 = true := by
  simp [SharesBase, sound.contains_intersect]

/-- Sides that share a version of the protocol go on. -/
lemma negotiate_of_shares (sound : s.Sound) (read : Hello.ofNode remoteHello = .ok ⟨t, announced⟩)
    (agreed : agreedId role announced = .ok sessionId) (shares : SharesBase s t) :
    negotiate role s localHello remoteHello =
      .ok (outcome s t sessionId localHello remoteHello) := by
  have base := (sharesBase_iff sound).mp shares
  have common : (s.intersect t).isEmpty = false := base.elim isEmpty_of_contains isEmpty_of_contains
  have some : (!(s.intersect t).contains Capability.base10 &&
      !(s.intersect t).contains Capability.base11) = false := by
    rcases base with has | has <;> simp [has]
  simp only [negotiate, read, Bool.false_eq_true, if_false, bind, Except.bind, agreed, common, some]
  rfl

/-- Sides that share no version of the protocol refuse. -/
lemma negotiate_of_not_shares (sound : s.Sound)
    (read : Hello.ofNode remoteHello = .ok ⟨t, announced⟩)
    (agreed : agreedId role announced = .ok sessionId) (shares : ¬SharesBase s t) :
    ∃ e, negotiate role s localHello remoteHello = .error e := by
  rw [sharesBase_iff sound, not_or, Bool.not_eq_true, Bool.not_eq_true] at shares
  simp only [negotiate, read, bind, Except.bind, agreed, shares.1, shares.2, Bool.not_false,
    Bool.and_self, if_true]
  split
  · exact ⟨_, rfl⟩
  · exact ⟨_, rfl⟩

/-- A side that goes on hands out what the offers come to. -/
lemma receiveHello_of_shares (first : s.Sound) (second : t.Sound)
    (valid : ∀ i ∈ announced, 0 < i ∧ i < UInt32.size)
    (agreed : agreedId role announced = .ok sessionId) (shares : SharesBase s t) :
    let remoteHello := Hello.toNode ⟨t, announced⟩
    let answer := (new role s).start.2.receiveHello remoteHello
    let p := outcome s t sessionId (Hello.toNode ⟨s, role.announced⟩) remoteHello
    answer.1 = .ok p ∧ answer.2.establish.1 = .ok p := by
  intro remoteHello answer p
  have offers : t.isEmpty = false := by
    obtain ⟨base, -, -, has⟩ := shares
    exact isEmpty_of_contains has
  have read : Hello.ofNode remoteHello = .ok ⟨t, announced⟩ := by
    rw [Hello.ofNode_toNode second valid, offers, if_neg Bool.false_ne_true]
  have eq : answer = (.ok p, ⟨role, s, .negotiated p⟩) := by
    simp only [answer, start, new, receiveHello, p, negotiate_of_shares first read agreed shares]
  rw [eq]
  exact ⟨rfl, rfl⟩

/-- A side that shares no version of the protocol with the other refuses its hello. -/
lemma receiveHello_of_not_shares (first : s.Sound) (second : t.Sound)
    (valid : ∀ i ∈ announced, 0 < i ∧ i < UInt32.size)
    (agreed : agreedId role announced = .ok sessionId) (shares : ¬SharesBase s t) :
    ∃ e, ((new role s).start.2.receiveHello (Hello.toNode ⟨t, announced⟩)).1 = .error e := by
  have understood := @Hello.ofNode_toNode t announced second valid
  obtain ⟨e, eq⟩ : ∃ e, negotiate role s (Hello.toNode ⟨s, role.announced⟩)
      (Hello.toNode ⟨t, announced⟩) = .error e := by
    -- A side that offers nothing is refused for that.
    split at understood
    · exact ⟨_, by rw [negotiate, understood]; rfl⟩
    · exact negotiate_of_not_shares first understood agreed shares
  refine ⟨e, ?_⟩
  simp only [start, new, receiveHello, eq]

end

/-- What a server that offers `s` and a client that offers `c` agree on. -/
structure Agreement (id : Nat) (s c : CapabilitySet) (server client : Preferences) : Prop where
  framing : server.framing = client.framing
  serverId : server.sessionId = id
  clientId : client.sessionId = id
  serverSame : (server.capabilities == client.capabilities) = true
  clientSame : (client.capabilities == server.capabilities) = true
  /-- Each side keeps its own parameters. -/
  serverItems : server.capabilities.items = s.items.filter fun o => c.contains o.identity
  clientItems : client.capabilities.items = c.items.filter fun o => s.contains o.identity
  exiStart : server.exiStart = client.exiStart
  serverRemote : server.remoteCapabilities = c
  clientRemote : client.remoteCapabilities = s

/-- What the offers come to for the one side and for the other agrees. -/
lemma agreement_outcome {s c : CapabilitySet} (server : s.Sound) (client : c.Sound) (id : Nat)
    (serverHello clientHello : Node) :
    Agreement id s c (outcome s c id serverHello clientHello)
      (outcome c s id clientHello serverHello) := by
  have common (uri : String) : (s.intersect c).contains uri = (c.intersect s).contains uri := by
    rw [server.contains_intersect, client.contains_intersect, Bool.and_comm]
  refine ⟨?_, rfl, rfl, server.same_intersect client, client.same_intersect server,
    server.items_intersect c, client.items_intersect s, ?_, rfl, rfl⟩
  · simp only [outcome, common]
  · simp only [outcome, common]

/-- When a server and a client begin, and each gets the other's hello from its bytes, both refuse
because they share no version of the protocol, or both go on and agree. -/
theorem agree {s c : CapabilitySet} {id : Nat} (server : s.Sound) (client : c.Sound)
    (serverChars : ∀ uri ∈ s.uris, Xml.IsXmlText uri)
    (clientChars : ∀ uri ∈ c.uris, Xml.IsXmlText uri) (pos : 1 ≤ id) (lt : id < UInt32.size) :
    let serverSide := (new (.server id) s).start
    let clientSide := (new .client c).start
    ∃ serverHello clientHello serverRead clientRead,
      serverSide.1 = .ok serverHello ∧ clientSide.1 = .ok clientHello ∧
      Node.decode? serverHello.encode = .ok serverRead ∧
      Node.decode? clientHello.encode = .ok clientRead ∧
      let serverSide := serverSide.2.receiveHello clientRead
      let clientSide := clientSide.2.receiveHello serverRead
      ((¬SharesBase s c ∧ (∃ e, serverSide.1 = .error e) ∧ ∃ e, clientSide.1 = .error e) ∨
        (SharesBase s c ∧ ∃ p q, serverSide.1 = .ok p ∧ clientSide.1 = .ok q ∧
          serverSide.2.establish.1 = .ok p ∧ clientSide.2.establish.1 = .ok q ∧
          Agreement id s c p q)) := by
  intro serverSide clientSide
  have announced : ∀ i ∈ (Role.server id).announced, 0 < i ∧ i < UInt32.size := by
    intro i mem
    cases mem
    exact ⟨pos, lt⟩
  have silent : ∀ i ∈ Role.client.announced, 0 < i ∧ i < UInt32.size := nofun
  have serverId : agreedId (.server id) Role.client.announced = .ok id := rfl
  have clientId : agreedId .client (Role.server id).announced = .ok id := rfl
  refine ⟨_, _, _, _, rfl, rfl, Hello.decode?_toNode serverChars _,
    Hello.decode?_toNode clientChars _, ?_⟩
  by_cases shares : SharesBase s c
  · obtain ⟨received, established⟩ := receiveHello_of_shares server client silent serverId shares
    obtain ⟨received', established'⟩ :=
      receiveHello_of_shares client server announced clientId shares.symm
    exact .inr ⟨shares, _, _, received, received', established, established',
      agreement_outcome server client id _ _⟩
  · exact .inl ⟨shares, receiveHello_of_not_shares server client silent serverId shares,
      receiveHello_of_not_shares client server announced clientId (mt SharesBase.symm shares)⟩

/-- The offer of a server, with a parameter and a blank end. -/
def serverOffer : CapabilitySet :=
  .ofUris ["urn:a?x=<1>", Capability.base11 ++ "\n"]

/-- The offer of a client, in another order and with another parameter. -/
def clientOffer : CapabilitySet :=
  .ofUris [Capability.base11, "urn:b", "urn:a?x=2"]

/-- The two offers share a version of the protocol, and both sides go on and agree on them. -/
theorem agree_offers :
    serverOffer.Sound ∧ clientOffer.Sound ∧ (∀ uri ∈ serverOffer.uris, Xml.IsXmlText uri) ∧
      (∀ uri ∈ clientOffer.uris, Xml.IsXmlText uri) ∧ 1 ≤ 7 ∧ 7 < UInt32.size ∧
      ∃ serverRead clientRead p q,
        ((new (.server 7) serverOffer).start.2.receiveHello clientRead).1 = .ok p ∧
        ((new .client clientOffer).start.2.receiveHello serverRead).1 = .ok q ∧
        Agreement 7 serverOffer clientOffer p q := by
  have server : serverOffer.Sound := sound_ofUris _
  have client : clientOffer.Sound := sound_ofUris _
  have serverChars : ∀ uri ∈ serverOffer.uris, Xml.IsXmlText uri := by decide +kernel
  have clientChars : ∀ uri ∈ clientOffer.uris, Xml.IsXmlText uri := by decide +kernel
  have shares : SharesBase serverOffer clientOffer :=
    ⟨Capability.base11, by decide, by decide +kernel, by decide +kernel⟩
  refine ⟨server, client, serverChars, clientChars, by decide, by decide, ?_⟩
  obtain ⟨_, _, serverRead, clientRead, -, -, -, -, verdict⟩ :=
    agree server client serverChars clientChars (by decide : 1 ≤ 7) (by decide)
  obtain ⟨-, p, q, received, received', -, -, agreement⟩ :=
    verdict.resolve_left fun refused => refused.1 shares
  exact ⟨serverRead, clientRead, p, q, received, received', agreement⟩

end Handshake

end Netconf
