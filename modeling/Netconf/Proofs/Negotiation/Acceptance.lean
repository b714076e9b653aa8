import Netconf.Proofs.Negotiation.Agreement
import Netconf.Proofs.Text.Number

/-!
# Hellos that are accepted

A side that has sent its hello accepts any node as the other side's that is a hello, offers
capabilities, says what its role has to say of the session number, and shares a version of the
protocol. What the two sides agree on then follows from what is in the node
(`Handshake.receiveHello_accepts`).
-/

namespace Netconf

namespace Hello

variable {n : Node} {identity : String}

/-! ## Offers -/

/-- The first element with capabilities has one with the text, which is not blank. -/
def Lists (n : Node) (text : String) : Prop :=
  ∃ listing, n.child? "capabilities" = some listing ∧ ∃ c ∈ listing.children,
    c.localName = "capability" ∧ c.text = some text ∧ Text.allBlank text = false

/-- A capability with the identity is offered. -/
def Offers (n : Node) (identity : String) : Prop :=
  ∃ text, Lists n text ∧ identityOf (Text.trim text) = identity

/-- The set that is read from a hello's listing has the identities that the hello offers. -/
lemma mem_identities_listed {listing : Node} (here : n.child? "capabilities" = some listing) :
    identity ∈ (listed listing).identities ↔ Offers n identity := by
  rw [listed, CapabilitySet.mem_identities_ofUris]
  constructor
  · rintro ⟨text, mem, some, eq⟩
    obtain ⟨c, mem, hasText⟩ := List.mem_filterMap.mp mem
    obtain ⟨mem, named⟩ := List.mem_filter.mp mem
    have solid : Text.allBlank text = false := by
      rwa [← Bool.not_eq_true, ← Text.trim_eq_empty_iff]
    exact ⟨text, ⟨listing, here, c, mem, beq_iff_eq.mp named, hasText, solid⟩, eq⟩
  · rintro ⟨text, ⟨listing', here', c, mem, named, hasText, solid⟩, eq⟩
    cases here.symm.trans here'
    have some : Text.trim text ≠ "" := by
      rwa [Ne, Text.trim_eq_empty_iff, Bool.not_eq_true]
    refine ⟨text, List.mem_filterMap.mpr ⟨c, ?_, hasText⟩, some, eq⟩
    exact List.mem_filter.mpr ⟨mem, beq_iff_eq.mpr named⟩

/-! ## Session numbers -/

/-- A text gives a session number: a positive number of 32 bits, with blank ends or not. -/
structure Gives (text : String) (id : Nat) : Prop where
  numeral : Text.Numeral (Text.trim text).toList id
  pos : 1 ≤ id
  lt : id < 2 ^ 32

/-- The session number that is said: that of a client is in the server's hello, and there is none in
a client's hello to a server, which knows its own. -/
inductive Numbers (n : Node) : Role → Nat → Prop where
  | client {node text number} :
    n.child? "session-id" = some node → node.text = some text → Gives text number →
    Numbers n .client number
  | server {own} :
    n.child? "session-id" = none →
    Numbers n (.server own) own

/-- A session number is read from a text that gives it, and from no other. -/
lemma sessionIdOf?_eq_some_iff {text : String} {id : Nat} :
    sessionIdOf? text = some id ↔ Gives text id := by
  have pos : 0 < UInt32.size := by decide
  rw [sessionIdOf?, Option.filter_eq_some_iff, Text.number?_eq_some_iff pos, decide_eq_true_iff]
  constructor
  · rintro ⟨⟨numeral, lt⟩, pos⟩
    exact ⟨numeral, pos, lt⟩
  · rintro ⟨numeral, pos, lt⟩
    exact ⟨⟨numeral, lt⟩, pos⟩

/-- The session number is what a hello says and what the role makes of it. -/
lemma agreedId_iff {role : Role} {id : Nat} :
    (∃ said, sessionIdIn n = .ok said ∧ Handshake.agreedId role said = .ok id) ↔
      Numbers n role id := by
  constructor
  · rintro ⟨said, read, agreed⟩
    rw [sessionIdIn] at read
    -- A client needs the number that is said, and a server refuses any.
    cases here : n.child? "session-id" with
    | none =>
      simp only [here] at read
      cases read
      cases role with
      | client => cases agreed
      | server => cases agreed; exact .server here
    | some node =>
      simp only [here] at read
      cases given : node.text.bind sessionIdOf? with
      | none => simp only [given] at read; cases read
      | some number =>
        simp only [given] at read
        cases read
        cases role with
        | client =>
          cases agreed
          obtain ⟨text, hasText, given⟩ := Option.bind_eq_some_iff.mp given
          exact .client here hasText (sessionIdOf?_eq_some_iff.mp given)
        | server => cases agreed
  · intro numbers
    cases numbers with
    | client here hasText gives =>
      refine ⟨some id, ?_, rfl⟩
      have given := sessionIdOf?_eq_some_iff.mpr gives
      simp only [sessionIdIn, here, hasText, Option.bind_some, given]
    | server none =>
      refine ⟨.none, ?_, rfl⟩
      simp only [sessionIdIn, none]

/-! ## Hellos that are understood -/

/-- A node is a hello by its name, in the base namespace or in none. -/
lemma messageKind_eq_hello_iff :
    n.messageKind = .hello ↔ n.localName = "hello" ∧ (n.uri = "" ∨ n.uri = baseUri) := by
  have named : n.isNamed baseUri "hello" = true ↔
      n.localName = "hello" ∧ (n.uri = "" ∨ n.uri = baseUri) := by
    simp [Node.isNamed]
  rw [← named, Node.messageKind]
  split
  · next here => exact iff_of_true rfl here
  · next other =>
    refine iff_of_false ?_ other
    split
    · exact nofun
    · split
      · exact nofun
      · split <;> exact nofun

/-- The set that is read from a hello's listing is empty unless the hello lists some text that is
not blank. -/
lemma isEmpty_listed {listing : Node} (here : n.child? "capabilities" = some listing) :
    (listed listing).isEmpty = false ↔ ∃ text, Lists n text := by
  rw [CapabilitySet.isEmpty, List.isEmpty_eq_false_iff_exists_mem]
  constructor
  · rintro ⟨c, mem⟩
    obtain ⟨text, lists, -⟩ := (mem_identities_listed here).mp (List.mem_map_of_mem mem)
    exact ⟨text, lists⟩
  · rintro ⟨text, lists⟩
    have offers : Offers n (identityOf (Text.trim text)) := ⟨text, lists, rfl⟩
    obtain ⟨c, mem, -⟩ := List.mem_map.mp ((mem_identities_listed here).mpr offers)
    exact ⟨c, mem⟩

/-- A hello is understood if it is one, lists capabilities, and says nothing wrong of the session
number. -/
lemma ofNode_eq_ok_iff {h : Hello} :
    ofNode n = .ok h ↔ (n.localName = "hello" ∧ (n.uri = "" ∨ n.uri = baseUri)) ∧
      (∃ text, Lists n text) ∧ sessionIdIn n = .ok h.sessionId ∧
      ∃ listing, n.child? "capabilities" = some listing ∧ h.capabilities = listed listing := by
  rw [← messageKind_eq_hello_iff, ofNode]
  split
  · next other =>
    constructor
    · intro eq
      cases eq
    · rintro ⟨hello, -⟩
      exact absurd hello other
  next hello =>
  rw [Ne, not_not] at hello
  cases here : n.child? "capabilities" with
  | none =>
    constructor
    · intro eq
      cases eq
    · rintro ⟨-, ⟨_, _, eq, -⟩, -⟩
      cases here.symm.trans eq
  | some listing =>
    rw [← isEmpty_listed here]
    obtain ⟨capabilities, sessionId⟩ := h
    cases empty : (listed listing).isEmpty with
    | true => simp [empty]
    | false =>
      cases read : sessionIdIn n with
      | error e => simp [empty, Except.map]
      | ok said => simp [empty, Except.map, hello, and_comm, eq_comm]

end Hello

namespace Handshake

open CapabilitySet

/-- Both the set and the hello offer a capability with the identity. -/
def Common (offered : CapabilitySet) (n : Node) (identity : String) : Prop :=
  identity ∈ offered.identities ∧ Hello.Offers n identity

/-- A side of the role that offers the set can go on with the node as the other side's hello. -/
structure Acceptable (role : Role) (offered : CapabilitySet) (n : Node) : Prop where
  hello : n.localName = "hello" ∧ (n.uri = "" ∨ n.uri = baseUri)
  lists : ∃ text, Hello.Lists n text
  numbered : ∃ id, Hello.Numbers n role id
  base : Common offered n Capability.base10 ∨ Common offered n Capability.base11

/-- What the preferences of a side are to be that goes on with the node. -/
structure Settled (role : Role) (offered : CapabilitySet) (n : Node) (p : Preferences) : Prop where
  sessionId : Hello.Numbers n role p.sessionId
  /-- The common capabilities are those of this side, in its order. -/
  order : p.capabilities.items.Sublist offered.items
  capabilities : ∀ c, c ∈ p.capabilities.items ↔ c ∈ offered.items ∧ Hello.Offers n c.identity
  framing : p.framing = .chunked ↔ Common offered n Capability.base11
  exiStart : p.exiStart = some Operation.startExi ↔
    Common offered n Capability.base11 ∧ Common offered n Capability.exi
  noExi : p.exiStart = none ↔
    ¬(Common offered n Capability.base11 ∧ Common offered n Capability.exi)

section

variable {role : Role} {s : CapabilitySet} {n localHello : Node} {p : Preferences}
  {remote : Hello} {id : Nat} {identity : String}

/-- A side goes on if it understands the hello, agrees on a session number, and shares a version of
the protocol. -/
lemma negotiate_eq_ok_iff (sound : s.Sound) :
    negotiate role s localHello n = .ok p ↔ ∃ remote id, Hello.ofNode n = .ok remote ∧
      agreedId role remote.sessionId = .ok id ∧ SharesBase s remote.capabilities ∧
      outcome s remote.capabilities id localHello n = p := by
  constructor
  · intro eq
    cases read : Hello.ofNode n with
    | error => rw [negotiate, read] at eq; cases eq
    | ok remote =>
      cases agreed : agreedId role remote.sessionId with
      | error => simp only [negotiate, read, agreed, bind, Except.bind] at eq; cases eq
      | ok id =>
        have shares : SharesBase s remote.capabilities := by
          by_contra shares
          obtain ⟨e, refused⟩ := negotiate_of_not_shares sound read agreed shares
          cases eq.symm.trans refused
        rw [negotiate_of_shares sound read agreed shares] at eq
        exact ⟨remote, id, rfl, agreed, shares, Except.ok.inj eq⟩
  · rintro ⟨remote, id, read, agreed, shares, rfl⟩
    exact negotiate_of_shares sound read agreed shares

/-- A hello that is understood has the identities that it offers. -/
lemma mem_identities_of_read (read : Hello.ofNode n = .ok remote) :
    identity ∈ remote.capabilities.identities ↔ Hello.Offers n identity := by
  obtain ⟨-, -, -, listing, here, eq⟩ := Hello.ofNode_eq_ok_iff.mp read
  rw [eq, Hello.mem_identities_listed here]

/-- What a set and a hello have in common under a bare identity is in their intersection. -/
lemma contains_intersect_iff (sound : s.Sound) (read : Hello.ofNode n = .ok remote)
    (bare : identityOf identity = identity) :
    (s.intersect remote.capabilities).contains identity = true ↔ Common s n identity := by
  rw [contains_iff, sound.mem_identities_intersect, bare, mem_identities_of_read read, Common]

/-- Both sides have the protocol in one of its versions if both offer one of them. -/
lemma sharesBase_iff_common (sound : s.Sound) (read : Hello.ofNode n = .ok remote) :
    SharesBase s remote.capabilities ↔
      Common s n Capability.base10 ∨ Common s n Capability.base11 := by
  rw [sharesBase_iff sound, contains_intersect_iff sound read Capability.identityOf_base10,
    contains_intersect_iff sound read Capability.identityOf_base11]

/-- Nodes with which a side can go on are those that it goes on with. -/
lemma exists_negotiate_iff (sound : s.Sound) :
    (∃ p, negotiate role s localHello n = .ok p) ↔ Acceptable role s n := by
  constructor
  · rintro ⟨p, eq⟩
    obtain ⟨remote, id, read, agreed, shares, -⟩ := (negotiate_eq_ok_iff sound).mp eq
    obtain ⟨hello, lists, said, -⟩ := Hello.ofNode_eq_ok_iff.mp read
    exact ⟨hello, lists, ⟨id, Hello.agreedId_iff.mp ⟨_, said, agreed⟩⟩,
      (sharesBase_iff_common sound read).mp shares⟩
  · rintro ⟨hello, lists, ⟨id, numbers⟩, base⟩
    obtain ⟨said, eq, agreed⟩ := Hello.agreedId_iff.mpr numbers
    have ⟨_, listing, here, _⟩ := lists
    have read : Hello.ofNode n = .ok ⟨Hello.listed listing, said⟩ :=
      Hello.ofNode_eq_ok_iff.mpr ⟨hello, lists, eq, listing, here, rfl⟩
    have shares := (sharesBase_iff_common sound read).mpr base
    exact ⟨_, (negotiate_eq_ok_iff sound).mpr ⟨_, id, read, agreed, shares, rfl⟩⟩

/-- What the two hellos come to is what is in them. -/
lemma settled_outcome (sound : s.Sound) (read : Hello.ofNode n = .ok remote)
    (agreed : agreedId role remote.sessionId = .ok id) :
    Settled role s n (outcome s remote.capabilities id localHello n) := by
  obtain ⟨-, -, said, -⟩ := Hello.ofNode_eq_ok_iff.mp read
  have items := sound.items_intersect remote.capabilities
  have eleven := contains_intersect_iff sound read Capability.identityOf_base11
  have exi := contains_intersect_iff sound read Capability.identityOf_exi
  refine ⟨Hello.agreedId_iff.mp ⟨_, said, agreed⟩, ?order, ?capabilities, ?framing, ?exiStart,
    ?noExi⟩
  case order => exact items ▸ List.filter_sublist
  case capabilities =>
    intro c
    change c ∈ (s.intersect remote.capabilities).items ↔ _
    rw [items, List.mem_filter, contains_identity, mem_identities_of_read read]
  case framing =>
    rw [← eleven, outcome]
    exact ⟨fun eq => by_contra fun not => by simp [not] at eq, fun has => if_pos has⟩
  case exiStart =>
    rw [← eleven, ← exi, outcome, ← Bool.and_eq_true]
    exact ⟨fun eq => by_contra fun not => by simp [not] at eq, fun has => if_pos has⟩
  case noExi =>
    rw [← eleven, ← exi, outcome, ← Bool.and_eq_true]
    exact ⟨fun eq has => by simp [has] at eq, fun not => if_neg not⟩

end

/-- A side that has sent its hello accepts what is a hello that lists capabilities, says of the
session number what its role has to say, and shares a version of the protocol, and nothing else. The
preferences are then what the two hellos say. -/
theorem receiveHello_accepts {h : Handshake} {hello : Node} (sent : h.stage = .helloSent hello)
    (sound : h.offered.Sound) (n : Node) :
    ((∃ p, (h.receiveHello n).1 = .ok p) ↔ Acceptable h.role h.offered n) ∧
      ∀ p, (h.receiveHello n).1 = .ok p → Settled h.role h.offered n p := by
  have same (p : Preferences) :
      (h.receiveHello n).1 = .ok p ↔ negotiate h.role h.offered hello n = .ok p := by
    rw [receiveHello, sent]
    cases eq : negotiate h.role h.offered hello n with
    | ok q => simp only [eq]
    | error => simp only [eq]
  simp only [same]
  refine ⟨exists_negotiate_iff sound, fun p eq => ?_⟩
  obtain ⟨remote, id, read, agreed, -, rfl⟩ := (negotiate_eq_ok_iff sound).mp eq
  exact settled_outcome sound read agreed

/-- A server's hello in no namespace, with a blank capability, parameters that are not known here,
and a session number with a sign, zeros and blank ends. -/
def oddHello : Node :=
  .ofChildren ⟨"", "hello"⟩ []
    [.ofText ⟨"", "session-id"⟩ " +007\n",
      .ofChildren ⟨"", "capabilities"⟩ []
        [.ofText ⟨"", "capability"⟩ " ", .ofText ⟨"", "capability"⟩ (Capability.base11 ++ "?y "),
          .ofText ⟨"", "capability"⟩ "urn:a"]]

/-- A client goes on with the odd hello, in chunked framing, with the number in it and without
compression. -/
theorem receiveHello_accepts_oddHello :
    let h := (new .client serverOffer).start.2
    (∃ hello, h.stage = .helloSent hello) ∧ h.offered.Sound ∧
      ∃ p, (h.receiveHello oddHello).1 = .ok p ∧ p.framing = .chunked ∧
        Hello.Numbers oddHello .client p.sessionId ∧ p.exiStart = none := by
  intro h
  have sound : serverOffer.Sound := sound_ofUris _
  have blank : Text.allBlank (Capability.base11 ++ "?y ") = false := by decide +kernel
  have lists : Hello.Lists oddHello (Capability.base11 ++ "?y ") :=
    ⟨_, rfl, _, List.mem_cons_of_mem _ List.mem_cons_self, rfl, rfl, blank⟩
  have number : Hello.sessionIdOf? " +007\n" = some 7 := by decide +kernel
  have numbers : Hello.Numbers oddHello .client 7 :=
    .client rfl rfl (Hello.sessionIdOf?_eq_some_iff.mp number)
  have base : Common serverOffer oddHello Capability.base11 :=
    ⟨by decide +kernel, _, lists, by decide +kernel⟩
  obtain ⟨accepts, settled⟩ :=
    receiveHello_accepts (rfl : h.stage = .helloSent _) sound oddHello
  obtain ⟨p, eq⟩ := accepts.mpr ⟨⟨rfl, .inl rfl⟩, ⟨_, lists⟩, ⟨7, numbers⟩, .inr base⟩
  have all := settled p eq
  have unknown : ¬Common serverOffer oddHello Capability.exi :=
    fun both => absurd both.1 (by decide +kernel)
  exact ⟨⟨_, rfl⟩, sound, p, eq, all.framing.mpr base, all.sessionId,
    all.noExi.mpr fun both => unknown both.2⟩

end Handshake

end Netconf
