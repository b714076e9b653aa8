import Netconf.Proofs.Session.Answering
import Netconf.Proofs.Session.Parties

/-!
# Conversations

A client and a server that suit each other, linked by a transport that loses nothing. Whatever they
do, and in whatever pieces bytes arrive, each party follows the other (`Party.Follows`): it has read
the first of the bytes that the other has written, and heard the first of the messages that the
other has posted.
-/

namespace Netconf

open Framing

/-! ## What a party writes -/

namespace Course

open Session

variable {c : Course} {act : Act}

/-- What has entered the channel has entered it. -/
lemma posted_prefix (c : Course) (act : Act) : c.posted <+: (c.step act).posted := by
  by_cases send : ∃ message, act = .send message
  · obtain ⟨message, rfl⟩ := send
    exact List.prefix_append _ _
  by_cases proceed : ∃ k, act = .proceed k
  · obtain ⟨k, rfl⟩ := proceed
    rw [step, Course.proceed]
    split
    · exact List.prefix_rfl
    · exact List.prefix_rfl
    · exact List.prefix_append _ _
  · obtain ⟨es, -, posted, -⟩ :=
      c.posted_of_trace (fun m eq => send ⟨m, eq⟩) fun k eq => proceed ⟨k, eq⟩
    exact ⟨_, posted.symm⟩

/-- What the transport has taken it has taken. -/
lemma Works.written_prefix {mode : Mode} {size : Nat} {hello : Node} {reader : Reader}
    {passed : List Node} (wo : c.Works mode size hello reader passed)
    (reliable : act.Reliable) :
    c.written <+: (c.step act).written := by
  cases act with
  | write planned => exact wo.carries.prefix_writeOut reliable
  | proceed k =>
    rw [Course.step, Course.proceed]
    split <;> exact List.prefix_rfl
  | nextMessage =>
    rw [Course.step, Course.nextMessage]
    split <;> exact List.prefix_rfl
  | read reads =>
    rw [Course.step, Course.read]
    split <;> exact List.prefix_rfl
  | fetch =>
    rw [Course.step]
    split <;> exact List.prefix_rfl
  | _ => exact List.prefix_rfl

end Course

namespace Party

variable {σ : Type} {mine theirs : Terms} {first : Delimited} {bytes : Bytes} {heard : List Node}
  {p p' q q' : Party σ} {a : Session.Act}

/-- A party that goes on has posted all that it had posted before. -/
lemma Goes.posted (goes : Goes a p p') : p.posted <+: p'.posted := by
  cases goes with
  | @running c => exact c.posted_prefix a
  | _ => exact List.prefix_rfl

/-- A party that goes on has written all that it had written before. -/
lemma Goes.written (goes : Goes a p p') (keeps : p.Keeps mine theirs first bytes heard)
    (reliable : a.Reliable) :
    p.written <+: p'.written := by
  cases goes with
  | opening further => exact further
  | running =>
    cases keeps with
    | running wo => exact wo.written_prefix reliable
  | _ => exact List.prefix_rfl

/-- What a party has written are the first bytes of what it says. -/
lemma Keeps.written_prefix (keeps : p.Keeps mine theirs first bytes heard) :
    p.written <+: said (mine.framing theirs) mine.config.outboundChunkSize mine.hello p.posted := by
  cases keeps with
  | opening _ _ _ _ _ eq => exact ⟨_, eq.trans (List.append_nil _).symm⟩
  | awaiting _ _ _ _ _ eq => exact ⟨[], eq ▸ rfl⟩
  | running wo => exact wo.carries.written_prefix

/-! ## Following the other party -/

/-- A party follows the other: it has read some of its bytes and heard some of its messages, the
first ones. -/
structure Follows (mine theirs : Terms) (first : Delimited) (p q : Party σ) (count : Nat)
    (heard : List Node) : Prop where
  keeps : p.Keeps mine theirs first (q.written.take count) heard
  within : count ≤ q.written.length
  told : heard <+: q.posted

namespace Follows

variable {count : Nat}

/-- A party goes on to follow the other that goes on. -/
lemma other (fo : Follows mine theirs first p q count heard) (written : q.written <+: q'.written)
    (posted : q.posted <+: q'.posted) : Follows mine theirs first p q' count heard := by
  obtain ⟨more, eq⟩ := written
  refine ⟨?_, ?_, fo.told.trans posted⟩
  · rw [← eq, List.take_append_of_le_length fo.within]
    exact fo.keeps
  · rw [← eq, List.length_append]
    exact Nat.le_add_right_of_le fo.within

/-- A party goes on to follow the other when something happens beside its reader. -/
lemma act (fo : Follows mine theirs first p q count heard)
    (other : ∀ reads, a ≠ .read reads)
    (reliable : a.Reliable) :
    Follows mine theirs first (p.act a) q count heard :=
  ⟨(fo.keeps.act other reliable).1, fo.within, fo.told⟩

end Follows

end Party

/-! ## What arrives -/

namespace Party

variable {σ : Type} {mine theirs : Terms} {heard heard' : List Node} {first : Delimited}
  {bytes : Bytes} {p q : Party σ} {count : Nat}

/-- A party with nothing left to write has written all that it says. -/
lemma Keeps.written_eq (keeps : p.Keeps mine theirs first bytes heard) (flushed : p.Flushed) :
    p.written = said (mine.framing theirs) mine.config.outboundChunkSize mine.hello p.posted := by
  cases keeps with
  | @opening _ _ unwritten _ _ _ _ _ _ eq =>
    obtain rfl : unwritten = [] := flushed
    rw [List.flatten_nil, List.append_nil] at eq
    exact eq.trans (List.append_nil _).symm
  | awaiting _ _ _ _ _ eq => exact eq.trans (List.append_nil _).symm
  | running wo =>
    have eq := wo.carries.eq
    rw [flushed.1, flushed.2, List.flatten_nil, List.append_nil, List.append_nil] at eq
    exact eq

/-- Who waits after all that the other has said is at work, and has heard all of it. -/
lemma Follows.all (meets : mine.Meets theirs) (meets' : theirs.Meets mine)
    (fo : Follows mine theirs (theirs.hello.delimited (Terms.kept_hello meets')) p q count heard)
    (keeps : q.Keeps theirs mine first bytes heard')
    (kept : ∀ n ∈ q.posted, n.Everywhere Node.Kept) (flushed : q.Flushed)
    (read : count = q.written.length) (waits : p.Waits) :
    (∃ c, p = running c) ∧ heard = q.posted := by
  have told := @told_said (mine.framing theirs) _ _ _ _ (Terms.pos_outboundChunkSize meets')
    meets'.suits.fits (Terms.kept_hello meets') kept
  have follows := fo.keeps
  rw [read, List.take_length, keeps.written_eq flushed, Terms.framing_comm meets' meets] at follows
  -- The hello of the other is in the bytes, and so there is a message to come until it is read.
  have greeted {d d' : Decoder} (sc : Decoder.Scanned mine.config.maxChunkSize
      (said (mine.framing theirs) theirs.config.outboundChunkSize theirs.hello q.posted) [] d)
      (next : d.next = (.ok none, d')) : False := by
    have faithful := Decoder.Scanned.faithful mine.config.maxChunkSize
    obtain ⟨-, nothing⟩ := faithful.wait sc next
    obtain ⟨ps, comes⟩ := (theirs.hello.delimited (Terms.kept_hello meets')).comes_cons
      (q.posted.flatMap (Node.wire (mine.framing theirs) theirs.config.outboundChunkSize))
    cases (faithful.unique nothing comes).1
  cases follows with
  | opening _ _ _ sc =>
    obtain ⟨d, next⟩ := waits
    exact (greeted sc next).elim
  | awaiting _ _ _ sc =>
    obtain ⟨d, next⟩ := waits
    exact (greeted sc next).elim
  | running wo hears =>
    obtain ⟨d, next⟩ := waits
    rw [wo.reader] at next
    have faithful := Decoder.Hears.faithful meets.suits.top
      (theirs.hello.delimited (Terms.kept_hello meets')) (mine.framing theirs)
    obtain ⟨same, -⟩ := faithful.unique (faithful.wait hears next).2 told
    refine ⟨⟨_, rfl⟩, fo.told.eq_of_length ?_⟩
    simpa using congrArg List.length same

end Party

namespace Link

/-- The bytes that arrive come without a failure or an end. -/
lemma flows_arriving (written : Bytes) (read n : Nat) : Read.Flows (arriving written read n) := by
  rw [arriving]
  split
  · exact List.forall_mem_nil _
  · next some => exact List.forall_mem_singleton.mpr ⟨_, some, rfl⟩

/-- The bytes that arrive are the next ones of those written. -/
lemma stream_arriving (written : Bytes) (read n : Nat) :
    Read.stream (arriving written read n) = (written.drop read).take n := by
  rw [arriving]
  split
  · next none => exact none.symm
  · exact List.append_nil _

end Link

namespace Party

variable {σ : Type} {mine theirs : Terms} {heard heard' : List Node} {first : Delimited}
  {bytes : Bytes} {p q : Party σ} {count : Nat}

/-- A party comes to follow the other further by what its transport answers. -/
structure Arrives (mine theirs : Terms) (first : Delimited) (p q : Party σ) (count : Nat)
    (reads : List Read) (after : Party σ × List Read) : Prop where
  follows : ∃ heard, after.1.Follows mine theirs first q
    (count + ((Read.stream reads).length - (Read.stream after.2).length)) heard
  goes : Goes (.read reads) p after.1

/-- A party follows the other further when some of its bytes arrive. -/
lemma Follows.arrives (source : IdSource σ) (meets : mine.Meets theirs) (meets' : theirs.Meets mine)
    (fo : Follows mine theirs (theirs.hello.delimited (Terms.kept_hello meets')) p q count heard)
    (keeps : q.Keeps theirs mine first bytes heard')
    (kept : ∀ n ∈ q.posted, n.Everywhere Node.Kept)
    (expected : ∀ c m, p = .running c → heard ++ [m] <+: q.posted → m.messageKind = .rpcReply →
      ∃ i, c.session.correlator.inFlight = some i ∧
        m.messageId? = some (Correlator.messageId i)) (n : Nat) :
    Arrives mine theirs (theirs.hello.delimited (Terms.kept_hello meets')) p q count
      (Link.arriving q.written count n) (p.read source (Link.arriving q.written count n)) := by
  have stream := Link.stream_arriving q.written count n
  have flows := Link.flows_arriving q.written count n
  obtain ⟨later, all⟩ := keeps.written_prefix
  rw [Terms.framing_comm meets' meets] at all
  generalize Link.arriving q.written count n = reads at stream flows ⊢
  have saying : q.written.take count ++ (Read.stream reads ++
      ((q.written.drop count).drop n ++ later)) =
        said (mine.framing theirs) theirs.config.outboundChunkSize theirs.hello q.posted := by
    rw [stream, ← List.append_assoc (List.take n _), List.take_append_drop, ← List.append_assoc,
      List.take_append_drop, all]
  have result := fo.keeps.read source meets meets' flows fo.told kept saying expected
  generalize p.read source reads = after at result
  cases result with
  | @intro heard'' p' used left split keeps' told goes =>
    have parts : Read.stream reads = Read.stream used ++ Read.stream left := by
      rw [split, Read.stream, List.flatMap_append]
      rfl
    -- What was used of the pieces follows right on what had been read.
    have front : q.written.take count ++ Read.stream used <+: q.written := by
      refine ⟨Read.stream left ++ (q.written.drop count).drop n, ?_⟩
      rw [List.append_assoc, ← List.append_assoc (Read.stream used), ← parts, stream,
        List.take_append_drop, List.take_append_drop]
    have counted : count + ((Read.stream reads).length - (Read.stream left).length) =
        (q.written.take count ++ Read.stream used).length := by
      rw [parts, List.length_append, Nat.add_sub_cancel, List.length_append,
        List.length_take_of_le fo.within]
    refine ⟨⟨heard'', ?_⟩, goes⟩
    rw [counted]
    refine ⟨?_, front.length_le, told⟩
    rw [← List.prefix_iff_eq_take.mp front]
    exact keeps'

end Party

end Netconf
