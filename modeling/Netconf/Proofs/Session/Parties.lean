import Netconf.Proofs.Negotiation.Agreement
import Netconf.Proofs.Session.Link
import Netconf.Proofs.Session.Working

/-!
# Parties that keep to each other

Two offers suit each other if sessions can be established from them. A party whose offer suits that
of the other then keeps to it (`Party.Keeps`): it exchanges hellos or is at work, and has heard the
first of the messages that the other has posted, in the framing that both agree on. It does so
whatever happens to it (`Keeps.act`), and whatever pieces arrive of what the other says
(`Keeps.read`).
-/

namespace Netconf

open Framing

/-! ## Terms -/

/-- A session can be established from this offer and the other, and chunks of this side are not
beyond what the other takes. -/
structure Offer.Suits (mine theirs : Offer) : Prop where
  valid : mine.config.validate = .ok ()
  top : mine.config.maxChunkSize ≤ absoluteMaxChunkSize
  sound : mine.capabilities.Sound
  chars : ∀ uri ∈ mine.capabilities.uris, Xml.IsXmlText uri
  shares : Handshake.SharesBase mine.capabilities theirs.capabilities
  fits : mine.config.outboundChunkSize ≤ theirs.config.maxChunkSize

/-- An offer, with the leased number of a server. -/
structure Terms extends Offer where
  lease : Option Nat

namespace Terms

/-- What a party with these terms greets with. -/
def hello (t : Terms) : Node :=
  Hello.toNode ⟨t.capabilities, t.lease⟩

/-- The framing on which parties with these terms agree. -/
def framing (mine theirs : Terms) : Mode :=
  if (mine.capabilities.intersect theirs.capabilities).contains Capability.base11 then .chunked
  else .endOfMessage

/-- A party with these terms can go on with one with the others. -/
structure Meets (mine theirs : Terms) : Prop where
  suits : mine.toOffer.Suits theirs.toOffer
  lease : ∀ i ∈ mine.lease, 0 < i ∧ i < UInt32.size
  agreed : ∃ id, Handshake.agreedId (Opening.roleOf mine.lease) theirs.lease = .ok id

variable {mine theirs : Terms}

/-- The hello of a party can stand in a document. -/
lemma kept_hello (meets : mine.Meets theirs) : mine.hello.Everywhere Node.Kept :=
  Hello.kept_toNode meets.suits.chars

/-- In a configuration that can be used chunks are not empty. -/
lemma pos_outboundChunkSize (meets : mine.Meets theirs) : 0 < mine.config.outboundChunkSize := by
  have valid := meets.suits.valid
  rw [Config.validate] at valid
  split at valid
  · cases valid
  · next none =>
    have fine := List.find?_eq_none.mp none .outboundChunkSize (by decide)
    simpa [Config.Field.isPositive, Config.get, Nat.pos_iff_ne_zero] using fine

/-- Both parties agree on one framing. -/
lemma framing_comm (meets : mine.Meets theirs) (meets' : theirs.Meets mine) :
    mine.framing theirs = theirs.framing mine := by
  rw [framing, framing, meets.suits.sound.contains_intersect, meets'.suits.sound.contains_intersect,
    Bool.and_comm]

/-- A role announces the number that was leased for it. -/
lemma announced_roleOf (lease : Option Nat) : (Opening.roleOf lease).announced = lease := by
  cases lease <;> rfl

/-- The hello of the other is understood as the framing on which both agree. -/
lemma negotiate_hello (meets : mine.Meets theirs) (meets' : theirs.Meets mine) {o : Opening}
    (handshake : o.handshake =
      (Handshake.new (Opening.roleOf mine.lease) mine.capabilities).start.2) :
    ∃ p, o.negotiate theirs.hello.encode = .ok p ∧ p.framing = mine.framing theirs := by
  obtain ⟨id, agreed⟩ := meets.agreed
  obtain ⟨received, established⟩ := Handshake.receiveHello_of_shares meets.suits.sound
    meets'.suits.sound meets'.lease agreed meets.suits.shares
  have decoded := Node.decode?_of_kept (kept_hello meets')
  refine ⟨Handshake.outcome mine.capabilities theirs.capabilities id
    (Hello.toNode ⟨mine.capabilities, (Opening.roleOf mine.lease).announced⟩) theirs.hello, ?_, rfl⟩
  rw [Opening.negotiate, decoded, handshake]
  simp only [hello, Except.mapError, bind, Except.bind, received, established]
  rfl

end Terms

/-! ## Parties -/

namespace Party

open Correlator Session

variable {σ : Type}

/-- The party has read the bytes, which are those of the first payload and of the messages that it
has heard, and it has done all that follows from that. -/
inductive Keeps (mine theirs : Terms) (first : Delimited) (bytes : Bytes) :
    List Node → Party σ → Prop where
  | opening {o ids unwritten written} :
    o.config = mine.config → o.lease = mine.lease →
    o.handshake = (Handshake.new (Opening.roleOf mine.lease) mine.capabilities).start.2 →
    Decoder.Scanned mine.config.maxChunkSize bytes [] o.reader.decoder → o.reader.ended = false →
    written ++ unwritten.flatten = mine.hello.wire .endOfMessage mine.config.outboundChunkSize →
    (∀ slice ∈ unwritten, slice ≠ []) →
    Keeps mine theirs first bytes [] (.opening o ids unwritten written)
  | awaiting {o ids written} :
    o.config = mine.config → o.lease = mine.lease →
    o.handshake = (Handshake.new (Opening.roleOf mine.lease) mine.capabilities).start.2 →
    Decoder.Scanned mine.config.maxChunkSize bytes [] o.reader.decoder → o.reader.ended = false →
    written = mine.hello.wire .endOfMessage mine.config.outboundChunkSize →
    Keeps mine theirs first bytes [] (.awaiting o ids written)
  | running {c reader heard} :
    c.Works (mine.framing theirs) mine.config.outboundChunkSize mine.hello reader
      (Node.others heard) →
    Decoder.Hears mine.config.maxChunkSize first bytes (heard.map Node.encode) reader.decoder
      (mine.framing theirs) →
    reader.ended = false → Moves .new c.trace c.session.correlator →
    c.trace.filterMap Event.delivery? = Node.replies heard →
    Keeps mine theirs first bytes heard (.running c)

/-- How a party goes on when it does something. -/
inductive Goes (act : Session.Act) : Party σ → Party σ → Prop where
  | opening {o o' ids ids' unwritten unwritten' written written'} :
    written <+: written' →
    Goes act (.opening o ids unwritten written) (.opening o' ids' unwritten' written')
  | greets {o ids unwritten written} :
    Goes act (.opening o ids unwritten written) (.awaiting o ids written)
  | awaiting {o o' ids written} :
    Goes act (.awaiting o ids written) (.awaiting o' ids written)
  | starts {o ids written s} :
    s.correlator = .new →
    Goes act (.awaiting o ids written) (.running (.start s written))
  | running {c} :
    Goes act (.running c) (.running (c.step act))

section

variable {mine theirs : Terms} {first : Delimited} {bytes : Bytes} {heard : List Node} {p : Party σ}

/-! ## Beginning -/

/-- A party begins with its hello, when it has the lease that goes with its side. -/
lemma keeps_begin (source : IdSource σ) {side : Side} {ids ids' : σ} (meets : mine.Meets theirs)
    (leased : Opening.leaseFor source side ids = (.ok mine.lease, ids')) :
    ∃ o ids' unwritten, begin source side mine.toOffer ids = opening o ids' unwritten [] ∧
      (opening o ids' unwritten []).Keeps mine theirs first [] [] := by
  have framed := mine.hello.encode_eq_wire .endOfMessage mine.config.outboundChunkSize
  have greeting : Hello.toNode ⟨mine.capabilities, (Opening.roleOf mine.lease).announced⟩ =
      mine.hello := by
    rw [Terms.announced_roleOf]
    rfl
  have begun : Opening.begin source side mine.config mine.capabilities ids =
      (.ok (mine.hello.wire .endOfMessage mine.config.outboundChunkSize,
        ⟨mine.config, mine.lease,
          (Handshake.new (Opening.roleOf mine.lease) mine.capabilities).start.2,
          .new mine.config.maxChunkSize⟩), ids') := by
    simp only [Opening.begin, meets.suits.valid, leased, Handshake.new, Handshake.start, greeting,
      Except.mapError, bind, Except.bind, framed]
  rw [begin, begun]
  refine ⟨_, _, _, rfl, ?_⟩
  refine .opening rfl rfl rfl (.new _) rfl ?_ Outbound.ne_nil_of_mem_remainingSlices
  rw [Outbound.flatten_remainingSlices]
  simp

/-! ## Going on -/

/-- A party at work keeps to the other in every act but reading. -/
lemma keeps_step {c : Course} {act : Session.Act}
    (keeps : (running c : Party σ).Keeps mine theirs first bytes heard)
    (other : ∀ reads, act ≠ .read reads)
    (reliable : act.Reliable) :
    (running (c.step act) : Party σ).Keeps mine theirs first bytes heard := by
  cases keeps with
  | running wo hears going mvs delivered =>
    obtain ⟨es, trace, more⟩ := c.step_moves act
    obtain ⟨fs, trace', shows⟩ := c.shows_step act
    refine .running (wo.step other reliable) hears going (trace ▸ mvs.trans more) ?_
    have none : fs.filterMap Event.delivery? = [] := by
      rw [List.filterMap_eq_nil_iff]
      exact fun e mem => (shows e mem).delivery? other
    rw [trace', List.filterMap_append, none, List.append_nil, delivered]

/-- Whatever happens beside the reader, a party keeps to the other. -/
lemma Keeps.act (keeps : p.Keeps mine theirs first bytes heard) {act : Session.Act}
    (other : ∀ reads, act ≠ .read reads)
    (reliable : act.Reliable) :
    (p.act act).Keeps mine theirs first bytes heard ∧ Goes act p (p.act act) := by
  cases p with
  | running c => exact ⟨keeps_step keeps other reliable, .running⟩
  | awaiting => exact ⟨keeps, .awaiting⟩
  | failed => cases keeps
  | opening o ids unwritten written =>
    cases act with
    | write planned =>
      cases keeps with
      | opening config lease handshake sc going eq some =>
        -- A transport that can be relied on may take nothing, but does not fail.
        have progress := @Outbound.progress_writeBatch unwritten ⟨planned, written⟩ some reliable
        rw [Party.act]
        generalize Outbound.writeBatch Sink.write unwritten ⟨planned, written⟩ = result
          at progress ⊢
        cases progress with
        | complete all =>
          refine ⟨.opening config lease handshake sc going ?_ (List.forall_mem_nil _), .opening ?_⟩
          · rw [all, ← eq, List.flatten_nil, List.append_nil]
          · exact ⟨_, all.symm⟩
        | blocked _ some further all =>
          exact ⟨.opening config lease handshake sc going (all.trans eq) some, .opening further⟩
    | flush failure =>
      cases reliable
      cases unwritten with
      | nil =>
        cases keeps with
        | opening config lease handshake sc going eq =>
          rw [List.flatten_nil, List.append_nil] at eq
          exact ⟨.awaiting config lease handshake sc going eq, .greets⟩
      | cons => exact ⟨keeps, .opening List.prefix_rfl⟩
    | read reads => exact absurd rfl (other reads)
    | _ => exact ⟨keeps, .opening List.prefix_rfl⟩

/-! ## Reading -/

/-- The other's hello establishes the session. -/
lemma establish_hello (source : IdSource σ) (meets : mine.Meets theirs) (meets' : theirs.Meets mine)
    {o : Opening} {ids : σ} {written : Bytes} (config : o.config = mine.config)
    (handshake : o.handshake =
      (Handshake.new (Opening.roleOf mine.lease) mine.capabilities).start.2)
    (eq : written = mine.hello.wire .endOfMessage mine.config.outboundChunkSize)
    (sc : Decoder.Scanned mine.config.maxChunkSize bytes [first] o.reader.decoder)
    (going : o.reader.ended = false) :
    ∃ s, (o.establish source theirs.hello.encode ids) = (.ok s, ids) ∧ s.correlator = .new ∧
      (running (.start s written) : Party σ).Keeps mine theirs first bytes [] := by
  -- The two hellos settle the framing, and the reader goes over to it before it reads on.
  obtain ⟨p, negotiated, framing⟩ := Terms.negotiate_hello meets meets' handshake
  obtain ⟨d, switched, hears⟩ := sc.hears (mine.framing theirs)
  have setMode : o.reader.setMode (mine.framing theirs) = .ok ⟨d, false⟩ := by
    rw [Reader.setMode, switched, ← going]
    rfl
  have nothing : said (mine.framing theirs) mine.config.outboundChunkSize mine.hello [] =
      written := by
    rw [eq, said, List.flatMap_nil, List.append_nil]
  let s : Session :=
    ⟨p, o.lease, ⟨d, false⟩, .new, .new (mine.framing theirs) mine.config, .empty, .reading⟩
  have wo : (Course.start s written).Works (mine.framing theirs) mine.config.outboundChunkSize
      mine.hello ⟨d, false⟩ [] := by
    refine ⟨?_, rfl, rfl, List.forall_mem_nil _, rfl, rfl⟩
    change Outbound.Carries _ _ (said _ _ _ []) _ written
    rw [nothing]
    exact .new (mine.framing theirs) mine.config written
  refine ⟨s, ?_, rfl, .running wo hears rfl .refl rfl⟩
  simp only [Opening.establish, negotiated, Session.start, setMode, bind, Except.bind,
    Except.mapError, framing, config]
  rfl

/-- What a party comes to that reads, where the other has posted the messages. -/
inductive Reads (mine theirs : Terms) (first : Delimited) (bytes : Bytes) (posted : List Node)
    (p : Party σ) (reads : List Read) : Party σ × List Read → Prop where
  | intro {heard p' used left} :
    reads = used ++ left → p'.Keeps mine theirs first (bytes ++ Read.stream used) heard →
    heard <+: posted → Goes (.read reads) p p' →
    Reads mine theirs first bytes posted p reads (p', left)

variable {reads : List Read} {more : Bytes} {posted : List Node}

/-- A party that has said hello waits for the other's, and then goes on with the session. -/
lemma reads_awaiting (source : IdSource σ) (meets : mine.Meets theirs) (meets' : theirs.Meets mine)
    {o : Opening} {ids : σ} {written tail : Bytes}
    (keeps : (awaiting o ids written).Keeps mine theirs
      (theirs.hello.delimited (Terms.kept_hello meets')) bytes [])
    (flows : Read.Flows reads)
    (saying : bytes ++ (Read.stream reads ++ more) =
      (theirs.hello.delimited (Terms.kept_hello meets')).wire ++ tail) :
    Reads mine theirs (theirs.hello.delimited (Terms.kept_hello meets')) bytes posted
      (awaiting o ids written) reads ((awaiting o ids written).read source reads) := by
  cases keeps with
  | awaiting config lease handshake sc going eq =>
    -- Whatever follows the hello of the other, the hello is the first message to come.
    obtain ⟨ps, comes⟩ := (theirs.hello.delimited (Terms.kept_hello meets')).comes_cons tail
    rw [← saying] at comes
    have follows := Reader.follows (Decoder.Scanned.faithful _) sc going flows comes
    rw [Party.read]
    generalize o.reader.next reads = result at follows ⊢
    cases follows with
    | @message f rest used left r all split sc going =>
      obtain ⟨rfl, rfl⟩ := List.cons.inj all
      obtain ⟨s, established, new, keeps⟩ := @establish_hello σ mine theirs _ _ source meets
        meets' { o with reader := r } ids written config handshake eq sc going
      have payload : (theirs.hello.delimited (Terms.kept_hello meets')).payload =
          theirs.hello.encode := rfl
      simp only [payload, established]
      exact .intro split keeps List.nil_prefix (.starts new)
    | waiting sc going =>
      refine .intro (List.append_nil _).symm ?_ List.nil_prefix .awaiting
      exact .awaiting config lease handshake sc going eq

/-- A party at work waits for the other's next message, and then takes it in. -/
lemma reads_running (source : IdSource σ) (meets : mine.Meets theirs) (meets' : theirs.Meets mine)
    {c : Course}
    (keeps : (running c : Party σ).Keeps mine theirs
      (theirs.hello.delimited (Terms.kept_hello meets')) bytes heard)
    (flows : Read.Flows reads) (told : heard <+: posted)
    (kept : ∀ n ∈ posted, n.Everywhere Node.Kept)
    (saying : bytes ++ (Read.stream reads ++ more) =
      said (mine.framing theirs) theirs.config.outboundChunkSize theirs.hello posted)
    (expected : ∀ m, heard ++ [m] <+: posted → m.messageKind = .rpcReply →
      ∃ i, c.session.correlator.inFlight = some i ∧ m.messageId? = some (messageId i)) :
    Reads mine theirs (theirs.hello.delimited (Terms.kept_hello meets')) bytes posted
      (running c : Party σ) reads ((running c).read source reads) := by
  -- The bytes begin what the other says in all, so they come to messages that it posts.
  have comes := @told_said (mine.framing theirs) _ _ _ _ (Terms.pos_outboundChunkSize meets')
    meets'.suits.fits (Terms.kept_hello meets') kept
  rw [← saying] at comes
  obtain ⟨coming, rfl⟩ := told
  cases keeps with
  | @running _ reader _ wo hears going mvs delivered =>
    have follows := Reader.follows (Decoder.Hears.faithful meets.suits.top _ _) hears going flows
      comes
    obtain ⟨es, trace, mvs'⟩ := c.step_moves (.read reads)
    have goes : @Goes σ (.read reads) (running c) (running (c.read reads).1) := .running
    rw [Course.step] at trace mvs'
    rw [Party.read]
    generalize next : reader.next reads = result at follows
    cases follows with
    | @message payload rest used left r all split hears going =>
      rw [List.map_append, List.append_cancel_left_eq] at all
      obtain ⟨m, further, rfl, rfl, rfl⟩ := List.map_eq_cons_iff.mp all
      have here : heard ++ [m] <+: heard ++ m :: further := by simp
      obtain ⟨c', fs, eq, wo, trace', delivers⟩ := wo.read next
        (Node.decode?_of_kept (kept m (by simp))) (expected m here)
      rw [eq] at goes trace mvs' ⊢
      refine @Reads.intro _ _ _ _ _ _ _ _ (heard ++ [m]) _ _ _ split ?_ here goes
      refine .running ?_ ?_ going (trace ▸ mvs.trans mvs') ?_
      · rw [Node.others_append]
        exact wo
      · rw [List.map_append]
        exact hears
      · rw [trace', List.filterMap_append, delivered, delivers, Node.replies_append]
    | waiting hears going =>
      obtain ⟨c', eq, wo, same⟩ := wo.wait next
      rw [eq] at goes trace mvs' ⊢
      refine @Reads.intro _ _ _ _ _ _ _ _ heard _ _ _ (List.append_nil _).symm ?_
        (List.prefix_append _ _) goes
      refine .running wo hears going (trace ▸ mvs.trans mvs') ?_
      rw [same, delivered]

/-- Whatever pieces arrive of what the other says, a party keeps to it. -/
lemma Keeps.read (source : IdSource σ) (meets : mine.Meets theirs) (meets' : theirs.Meets mine)
    (keeps : p.Keeps mine theirs (theirs.hello.delimited (Terms.kept_hello meets')) bytes heard)
    (flows : Read.Flows reads) (told : heard <+: posted)
    (kept : ∀ n ∈ posted, n.Everywhere Node.Kept)
    (saying : bytes ++ (Read.stream reads ++ more) =
      said (mine.framing theirs) theirs.config.outboundChunkSize theirs.hello posted)
    (expected : ∀ c m, p = .running c → heard ++ [m] <+: posted → m.messageKind = .rpcReply →
      ∃ i, c.session.correlator.inFlight = some i ∧ m.messageId? = some (messageId i)) :
    Reads mine theirs (theirs.hello.delimited (Terms.kept_hello meets')) bytes posted p reads
      (p.read source reads) := by
  cases p with
  | opening =>
    -- It does not read before it has said hello.
    refine @Reads.intro _ _ _ _ _ _ _ _ _ _ [] reads rfl ?_ told (.opening List.prefix_rfl)
    rw [Read.stream, List.flatMap_nil, List.append_nil]
    exact keeps
  | awaiting =>
    cases keeps with
    | awaiting config lease handshake sc going eq =>
      exact reads_awaiting source meets meets' (.awaiting config lease handshake sc going eq)
        flows saying
  | running c =>
    exact reads_running source meets meets' keeps flows told kept saying fun m => expected c m rfl
  | failed => cases keeps

end

end Party

end Netconf
