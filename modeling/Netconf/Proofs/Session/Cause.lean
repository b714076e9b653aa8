import Netconf.Proofs.Correlator.Answer
import Netconf.Proofs.Session.Turn

/-!
# Why a session ended

A session ends at its reader, or earlier for its requests: when a request finds that the writer has
failed before the reader has learned of it. All that is told of the end to requests and senders is
one cause. Who waits for the end is told the same one, unless the requests were severed from a
reader still at work, and then they were told that the peer closed the connection, whatever the
reader came to (`Course.causes_agree`).
-/

namespace Netconf

/-! ## Requests -/

namespace Correlator

variable {c : Correlator} {es : List Event} {i : Nat} {cause : Cause}

/-- A request that failed with the session did so with the cause that is kept. -/
lemma Moves.terminated_of_failed (mvs : Moves .new es c) (plain : ∀ e ∈ es, e.Plain)
    (failed : c.answer? i = some (.given (.error (.sessionTerminated cause)))) :
    c.terminated = some cause := by
  induction mvs with
  | refl => cases failed
  | tail mvs mv ih =>
    rw [List.forall_mem_append] at plain
    have ch := mvs.coherent .new
    rcases mv.answer_cases ch failed with old | origin
    · exact mv.terminated ch (ih plain.1 old)
    · cases origin with
      | refusal eq _ =>
        cases eq
        rcases plain.2 _ List.mem_cons_self _ _ rfl with full | closed
        · cases full
        · cases closed
      | ended term => exact term

/-- Taking an answer gives what polling for it would. -/
lemma fst_take (c : Correlator) (i : Nat) : (c.take i).1 = c.poll i := by
  unfold take
  split
  · next told => exact told.symm
  · rfl

/-- A submitter who was told that the session had ended was told the cause that is kept. -/
lemma Moves.terminated_of_told (mvs : Moves .new es c) (plain : ∀ e ∈ es, e.Plain)
    (told : .took i (some (.resolved (.error (.sessionTerminated cause)))) ∈ es) :
    c.terminated = some cause := by
  obtain ⟨before, after, rfl⟩ := List.append_of_mem told
  obtain ⟨x, y, mvs, mv, rest⟩ := mvs.split
  have ch := mvs.coherent .new
  refine rest.terminated (mv.coherent ch) (mv.terminated ch ?_)
  rw [List.forall_mem_append] at plain
  generalize seen : Event.took i (some (.resolved (.error (.sessionTerminated cause)))) = e at mv
  cases mv with
  | take =>
    injection seen with same polled
    rw [fst_take, ← same] at polled
    obtain ⟨r, hr, _, dec⟩ := ch.poll_iff.mp polled.symm
    cases dec with
    | given _ answer => exact mvs.terminated_of_failed plain.1 (answer?_eq_some.mpr ⟨r, hr, answer⟩)
  | _ => cases seen

end Correlator

/-! ## Runs -/

namespace Session

/-- The requests were told of the end while the reader is still at work. -/
structure Severed (s : Session) : Prop where
  reading : s.watch = .reading
  closed : s.correlator.terminated = some .peerClosed
  failed : ∃ e, s.outbound.writer = .failed e

/-- How far the end of a session has come, at its reader and for its requests. -/
inductive Standing (severed : Prop) (s : Session) : Prop where
  | going :
    s.watch = .reading → s.correlator.terminated = none →
    Standing severed s
  | severed :
    severed → s.Severed →
    Standing severed s
  | ended {cause} :
    s.watch = .ended cause → s.correlator.terminated = some cause →
    Standing severed s
  /-- The reader has come to its end after the requests were severed from it. -/
  | split {cause} :
    severed → s.watch = .ended cause → s.correlator.terminated = some .peerClosed →
    Standing severed s
  | told {cause} :
    s.watch = .told → s.correlator.terminated = some cause →
    Standing severed s

section

variable {s s' : Session} {P Q : Prop}

/-- The end of a session has come as far if less is asked of its being severed. -/
lemma Standing.mono (st : Standing P s) (imp : P → Q) : Standing Q s := by
  cases st with
  | going watch op => exact .going watch op
  | severed sev now => exact .severed (imp sev) now
  | ended watch term => exact .ended watch term
  | split sev watch term => exact .split (imp sev) watch term
  | told watch term => exact .told watch term

/-- The writer finishes in no turn. -/
lemma Turn.unfinished (turn : Turn s s') (unfinished : s.outbound.writer ≠ .finished) :
    s'.outbound.writer ≠ .finished := by
  cases turn with
  | beside be =>
    rcases be.writer with same | ⟨e, failed⟩
    · rwa [same]
    · rw [failed]
      exact nofun
  | ends _ _ writer _ => rwa [writer]
  | tells _ _ writer _ => rwa [writer]

/-- A writer that does not run has failed, as long as it may be sent to. -/
lemma Beside.failed (be : Beside s s') (unfinished : s.outbound.writer ≠ .finished)
    (lost : s.outbound.writer ≠ .running) : ∃ e, s'.outbound.writer = .failed e := by
  rcases be.writer with same | failed
  · cases eq : s.outbound.writer with
    | running => exact absurd eq lost
    | failed e => exact ⟨e, same.trans eq⟩
    | finished => exact absurd eq unfinished
  · exact failed

/-- The end of a session has come as far as it should when something happens beside the reader. -/
lemma Beside.standing (be : Beside s s') (unfinished : s.outbound.writer ≠ .finished)
    (st : Standing P s) : Standing (P ∨ s'.Severed) s' := by
  have kept {cause} (term : s.correlator.terminated = some cause) :
      s'.correlator.terminated = some cause := by
    rcases be.terminated with same | ⟨op, _, _⟩
    · rwa [same]
    · rw [op] at term
      cases term
  cases st with
  | going reading op =>
    rcases be.terminated with same | ⟨_, closed, lost⟩
    · exact .going (be.watch.trans reading) (same.trans op)
    · have now : s'.Severed := ⟨be.watch.trans reading, closed, be.failed unfinished lost⟩
      exact .severed (.inr now) now
  | severed sev now =>
    obtain ⟨e, failed⟩ := now.failed
    have lost : s.outbound.writer ≠ .running := by
      rw [failed]
      exact nofun
    exact .severed (.inl sev)
      ⟨be.watch.trans now.reading, kept now.closed, be.failed unfinished lost⟩
  | ended eq term => exact .ended (be.watch.trans eq) (kept term)
  | split sev eq term => exact .split (.inl sev) (be.watch.trans eq) (kept term)
  | told eq term => exact .told (be.watch.trans eq) (kept term)

/-- The end of a session has come as far as it should after a turn. -/
lemma Turn.standing (turn : Turn s s') (unfinished : s.outbound.writer ≠ .finished)
    (st : Standing P s) : Standing (P ∨ s'.Severed) s' := by
  cases turn with
  | beside be => exact be.standing unfinished st
  | ends reading ended _ term =>
    cases st with
    | going _ op =>
      rw [op] at term
      exact .ended ended term
    | severed sev now =>
      rw [now.closed] at term
      exact .split (.inl sev) ended term
    | ended watch => exact absurd (reading.symm.trans watch) nofun
    | split _ watch => exact absurd (reading.symm.trans watch) nofun
    | told watch => exact absurd (reading.symm.trans watch) nofun
  | tells ended told _ same =>
    cases st with
    | going watch => exact absurd (ended.symm.trans watch) nofun
    | severed _ now => exact absurd (ended.symm.trans now.reading) nofun
    | ended _ term => exact .told told (same.trans term)
    | split _ _ term => exact .told told (same.trans term)
    | told watch => exact absurd (ended.symm.trans watch) nofun

end

end Session

namespace Course

open Correlator Session

/-- All that requests and senders are told of the end of the session is the cause. -/
structure Tells (c : Course) (cause : Cause) : Prop where
  /-- Whoever has asked for an answer and was told of the end was told this cause. -/
  told {i other} :
    .took i (some (.resolved (.error (.sessionTerminated other)))) ∈ c.trace → other = cause
  request {i other} :
    c.session.correlator.answer? i = some (.given (.error (.sessionTerminated other))) →
      other = cause
  submit operation :
    (c.session.submit operation).2.correlator.poll (c.session.submit operation).1 =
      some (.resolved (.error (.sessionTerminated cause)))
  send message :
    (c.session.send message).1 = .done (.error (.sessionTerminated cause))

/-- While the course ran, the requests were severed from the reader. -/
def Parted (c : Course) (acts : List Act) : Prop :=
  ∃ early, early <+: acts ∧ (c.run early).session.Severed

section

variable {c : Course} {cause : Cause}

/-- All that is seen stays plain in any acts. -/
lemma plain_run (plain : ∀ e ∈ c.trace, e.Plain) (acts : List Act) :
    ∀ e ∈ (c.run acts).trace, e.Plain := by
  induction acts generalizing c with
  | nil => exact plain
  | cons act rest ih => exact ih (plain_step plain act)

/-- Once the session has ended, requests and senders are told the cause that is kept. -/
lemma tells (mvs : Moves .new c.trace c.session.correlator)
    (plain : ∀ e ∈ c.trace, e.Plain) (term : c.session.correlator.terminated = some cause) :
    c.Tells cause where
  told mem := Option.some.inj ((mvs.terminated_of_told plain mem).symm.trans term)
  request failed := Option.some.inj ((mvs.terminated_of_failed plain failed).symm.trans term)
  submit operation := by
    rw [Session.submit, submit_of_terminated Outbound.transmit operation _ term]
    rw [Correlator.poll, held?, getElem?_push_size]
    rfl
  send message := by
    rw [Session.send, term]

/-- The end of a session that has come some way has come as far as this. -/
lemma standing_run (watch : c.session.watch = .reading) (correlator : c.session.correlator = .new)
    (writer : c.session.outbound.writer = .running) (acts : List Act) :
    (c.run acts).session.outbound.writer ≠ .finished ∧
      Standing (c.Parted acts) (c.run acts).session := by
  -- Acts are added at the end, as what the session has come through is kept.
  induction acts using List.reverseRecOn with
  | nil =>
    refine ⟨?_, .going watch ?_⟩
    · change c.session.outbound.writer ≠ .finished
      rw [writer]
      exact nofun
    · change c.session.correlator.terminated = none
      rw [correlator]
      rfl
  | append_singleton acts act ih =>
    obtain ⟨unfinished, st⟩ := ih
    obtain ⟨_, _, mvs⟩ := c.run_moves acts
    rw [correlator] at mvs
    have turn := turn_step (mvs.coherent .new) act
    have more : c.run (acts ++ [act]) = (c.run acts).step act := List.foldl_append
    rw [more]
    refine ⟨turn.unfinished unfinished, (turn.standing unfinished st).mono ?_⟩
    rintro (⟨early, before, sev⟩ | now)
    · exact ⟨early, before.trans (List.prefix_append _ _), sev⟩
    · exact ⟨_, List.prefix_rfl, more ▸ now⟩

/-- Once a session has ended, all that requests and senders are ever told of it is one cause. Who
waits for the end is told the same one, unless the requests were severed from a reader still at
work: then they are told that the peer closed the connection, whatever the reader comes to. -/
theorem causes_agree {s : Session} {preferences : Preferences} {lease : Option Nat}
    {reader : Framing.Reader} {config : Config}
    (established : Session.start preferences lease reader config = .ok s) (written : Bytes)
    (acts : List Act) :
    (∀ cause, ((start s written).run acts).session.correlator.terminated = some cause →
      ∀ more, (((start s written).run acts).run more).Tells cause) ∧
    (∀ waited, ((start s written).run acts).session.awaitEnd.1 = some waited →
      ∃ cause, ((start s written).run acts).session.correlator.terminated = some cause ∧
        (waited = cause ∨ cause = .peerClosed ∧ (start s written).Parted acts)) := by
  obtain ⟨watch, correlator, writer⟩ := Session.started established
  obtain ⟨es, trace, mvs⟩ := (start s written).run_moves acts
  refine ⟨fun cause term more => ?_, fun waited told => ?_⟩
  · obtain ⟨fs, trace', mvs'⟩ := ((start s written).run acts).run_moves more
    rw [show (start s written).session.correlator = .new from correlator] at mvs
    -- What is told later is told in one longer run, and the cause was there before its end.
    have all := mvs.trans mvs'
    have plain := plain_run (plain_run (c := start s written) (List.forall_mem_nil _) acts) more
    refine tells ?_ plain (mvs'.terminated (mvs.coherent .new) term)
    rw [trace', trace]
    exact all
  · have st := (standing_run (c := start s written) watch correlator writer acts).2
    generalize (start s written).run acts = c at told st
    rw [awaitEnd] at told
    cases st with
    | going watch =>
      rw [watch] at told
      cases told
    | severed _ now =>
      rw [now.reading] at told
      cases told
    | ended watch term =>
      rw [watch] at told
      cases told
      exact ⟨_, term, .inl rfl⟩
    | split sev watch term => exact ⟨_, term, .inr ⟨rfl, sev⟩⟩
    | told watch term =>
      rw [watch, term] at told
      cases told
      exact ⟨_, term, .inl rfl⟩

end

/-- What a client and the server that gave the session the number 1 come to agree on. -/
def plainPreferences : Preferences where
  localHello := Hello.toNode ⟨.ofUris [Capability.base11], none⟩
  remoteHello := Hello.toNode ⟨.ofUris [Capability.base11], some 1⟩
  remoteCapabilities := .ofUris [Capability.base11]
  capabilities := .ofUris [Capability.base11]
  framing := .chunked
  sessionId := 1
  exiStart := none

/-- A client's session that was just established. -/
def plainSession : Session where
  preferences := plainPreferences
  lease := none
  reader := ⟨⟨[], [], [], 0, .header, 0, 0, 4096, none⟩, false⟩
  correlator := .new
  outbound := .new .chunked .default
  inbound := .empty
  watch := .reading

/-- The writer fails at a notification, and a request finds that out before the reader does. -/
def parting : List Act :=
  [.send (.empty (.unqualified "note")), .fetch, .write [.failed "broken pipe"],
    .submit (.empty (.unqualified "get")), .notice]

/-- The request and all later ones are told another cause than who waits for the end. -/
theorem causes_agree_parted :
    Session.start plainPreferences none (.new 4096) .default = .ok plainSession ∧
      (∀ more, (((start plainSession []).run parting).run more).Tells .peerClosed) ∧
      ((start plainSession []).run parting).session.awaitEnd.1 =
        some (.transport "I/O error: broken pipe") ∧
      (start plainSession []).Parted parting := by
  have established : Session.start plainPreferences none (.new 4096) .default = .ok plainSession :=
    rfl
  have told : ((start plainSession []).run parting).session.awaitEnd.1 =
      some (.transport "I/O error: broken pipe") := by
    decide +kernel
  obtain ⟨tells, waits⟩ := causes_agree established [] parting
  refine ⟨established, tells _ (by decide +kernel), told, ?_⟩
  obtain ⟨cause, term, rfl | ⟨-, parted⟩⟩ := waits _ told
  · exact absurd term (by decide +kernel)
  · exact parted

end Course

end Netconf
