import Netconf.Capability
import Netconf.Config
import Netconf.Correlator
import Netconf.Distinct
import Netconf.Endpoint
import Netconf.Error
import Netconf.Filter
import Netconf.Framing.Decoder
import Netconf.Framing.Reader
import Netconf.Framing.Violation
import Netconf.Framing.Wire
import Netconf.Handshake
import Netconf.Hello
import Netconf.Json
import Netconf.Marker
import Netconf.Message
import Netconf.Opening
import Netconf.Operation
import Netconf.Outbound
import Netconf.Proofs.Correlator.Accounting
import Netconf.Proofs.Correlator.Answer
import Netconf.Proofs.Correlator.Coherent
import Netconf.Proofs.Correlator.Finality
import Netconf.Proofs.Correlator.Flight
import Netconf.Proofs.Correlator.Handover
import Netconf.Proofs.Correlator.History
import Netconf.Proofs.Correlator.Move
import Netconf.Proofs.Correlator.Pairing
import Netconf.Proofs.Correlator.Request
import Netconf.Proofs.Correlator.Status
import Netconf.Proofs.Correlator.Trace
import Netconf.Proofs.Framing.Chunked
import Netconf.Proofs.Framing.Delimited
import Netconf.Proofs.Framing.EndOfMessage
import Netconf.Proofs.Framing.Feeding
import Netconf.Proofs.Framing.Grammar
import Netconf.Proofs.Framing.Header
import Netconf.Proofs.Framing.Outcome
import Netconf.Proofs.Framing.Reading
import Netconf.Proofs.Framing.RoundTrip
import Netconf.Proofs.Framing.Size
import Netconf.Proofs.Framing.Switch
import Netconf.Proofs.Text.Utf8
import Netconf.Proofs.Tree.Writable
import Netconf.Proofs.Xml.Escape
import Netconf.Proofs.Xml.Legible
import Netconf.Proofs.Xml.Scope
import Netconf.Publisher
import Netconf.Queue
import Netconf.Reply
import Netconf.Session
import Netconf.SessionId
import Netconf.Text.Blank
import Netconf.Text.Number
import Netconf.Text.Quoted
import Netconf.Text.Split
import Netconf.Text.Unprintable
import Netconf.Text.Utf8
import Netconf.Transport
import Netconf.Tree.Name
import Netconf.Tree.Node
import Netconf.Tree.Written
import Netconf.Xml.Char
import Netconf.Xml.CharData
import Netconf.Xml.Element
import Netconf.Xml.Token
import Netconf.Proofs.Tree.Tag
import Netconf.Proofs.Tree.RoundTrip
import Netconf.Proofs.Xml.Reading
import Netconf.Proofs.Tree.Recoding
import Netconf.Proofs.Negotiation.Capabilities
import Netconf.Proofs.Framing.Unforgeable
import Netconf.Proofs.Negotiation.Hello
import Netconf.Proofs.Negotiation.Agreement
import Netconf.Proofs.Filter.Pruning
import Netconf.Proofs.Filter.Carried
import Netconf.Proofs.Correlator.Transmitter
import Netconf.Proofs.Outbound.Carrying
import Netconf.Proofs.Session.Course
import Netconf.Proofs.Session.Cause
import Netconf.Proofs.Framing.Following
import Netconf.Proofs.Outbound.Saying
import Netconf.Proofs.Session.Response
import Netconf.Proofs.Session.Link
import Netconf.Proofs.Session.Working
import Netconf.Proofs.Session.Parties
import Netconf.Proofs.Session.Asking
import Netconf.Proofs.Session.Answering
import Netconf.Proofs.Session.Conversation
import Netconf.Proofs.Session.Faithful
import Netconf.Proofs.Negotiation.Stages
import Netconf.Proofs.Tree.Equality
import Netconf.Proofs.Correlator.Alike
import Netconf.Proofs.Publisher.Subscription
import Netconf.Proofs.Publisher.Delivery
import Netconf.Proofs.Framing.Taking
import Netconf.Proofs.Session.Arrival
import Netconf.Proofs.Session.Listening
import Netconf.Proofs.Filter.Idempotent
import Netconf.Proofs.SessionId.Allocation
import Netconf.Proofs.SessionId.Holding
import Netconf.Proofs.Session.Hosting
import Netconf.Tree.Builder
import Netconf.Proofs.Tree.Made
import Netconf.Proofs.Filter.Congruence
import Netconf.Proofs.Filter.Rearranged
import Netconf.Proofs.Filter.Respelled
import Netconf.Proofs.Text.Number
import Netconf.Proofs.Negotiation.Acceptance
import Netconf.Proofs.Outbound.Shipping
import Netconf.Proofs.Outbound.Counting
import Netconf.Proofs.Framing.Location
import Netconf.Proofs.Framing.Pushing
import Netconf.Proofs.Correlator.Absence
import Netconf.Proofs.Correlator.Refusal
import Netconf.Proofs.Framing.Position
import Netconf.Proofs.Tree.Equivalence
import Netconf.Proofs.Xml.Elements
import Netconf.Proofs.Tree.Decoding
import Netconf.Proofs.Negotiation.Greeting
import Netconf.Proofs.Negotiation.Offers
import Netconf.Proofs.Negotiation.Laws
import Netconf.Proofs.Session.Reported
import Netconf.Proofs.Json.Grammar
import Netconf.Proofs.Json.Numeral
import Netconf.Proofs.Json.Sequence
import Netconf.Proofs.Config.Setting
import Netconf.Proofs.Config.Reading
import Netconf.Proofs.Outbound.Writing
