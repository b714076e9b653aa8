import Mathlib.Data.List.Induction
import Netconf.Proofs.Framing.Taking
import Netconf.Proofs.Session.Arrival
import Netconf.Proofs.Session.Cause

/-!
# Listening to a peer

A session takes in what a transport gives, in pieces of any size, while anything else happens to it
at any time. Whatever the interleaving, the payloads of the stream arrive one after the other. The
application gets the messages among them that are no replies to the request in flight, and what ends
the session at its reader is the end of the stream, a failure of it, or such a reply that does not
fit.
-/

namespace Netconf

open Framing

/-- A session that listens to a transport, with all that came of it. -/
structure Listening where
  course : Course
  /-- What the transport is still to give. -/
  left : List Read
  arrivals : List Arrival

namespace Listening

/-- What can happen: anything but reading, or the reader is asked for a message while the transport
gives its next `n` answers. -/
inductive Turn where
  | act (act : Session.Act) (other : ∀ reads, act ≠ .read reads)
  | read (n : Nat)

/-- A session that has just been established, after some bytes were written. -/
def start (s : Session) (written : Bytes) (left : List Read) : Listening :=
  ⟨.start s written, left, []⟩

/-- Asks the reader for a message, as long as it is at work. -/
def read (l : Listening) (n : Nat) : Listening :=
  let (course, rest) := l.course.read (l.left.take n)
  let payload :=
    if l.course.session.watch = .reading then
      (l.course.session.reader.next (l.left.take n)).1.message?
    else none
  { course := course
    left := rest ++ l.left.drop n
    arrivals := l.arrivals ++
      payload.toList.map fun p => ⟨p, l.course.session.correlator.inFlight⟩ }

/-- What has come of it after one more turn. -/
def turn (l : Listening) : Turn → Listening
  | .act act _ => { l with course := l.course.step act }
  | .read n => l.read n

/-- What has come of it after some more turns. -/
def run (l : Listening) (turns : List Turn) : Listening :=
  turns.foldl turn l

def payloads (l : Listening) : List Bytes :=
  l.arrivals.map (·.payload)

/-- The messages for the application. -/
def passed (l : Listening) : List Node :=
  l.arrivals.filterMap (·.passed?)

/-- Why the reader has ended: the stream was at its end, or a read failed, or the framing was
violated, in each case after all payloads had arrived; or the last one to arrive was a reply that
did not fit. Else it was told that the writer had failed. -/
inductive Ending (script : List Read) (fed : Decoder.Yield) (before : Listening)
    (turns : List Turn) (l : Listening) : Cause → Prop where
  | closed :
    Read.stop? script = some (.data []) → l.payloads = fed.payloads → fed.error = none →
    Ending script fed before turns l .peerClosed
  | failed {reason} :
    Read.stop? script = some (.failed reason) → l.payloads = fed.payloads → fed.error = none →
    Ending script fed before turns l (.transport (Error.transport reason).message)
  | violated {e : FramingError} :
    l.payloads = fed.payloads → fed.error.map FramingError.violation = some e.violation →
    Ending script fed before turns l (.framing e.message)
  | mismatch {others last expected received} :
    l.arrivals = others ++ [last] → last.Mismatched expected received →
    Ending script fed before turns l (.correlation (Error.correlation expected received).message)
  | abandoned {first other rest e} :
    turns = first ++ .act .notice other :: rest →
    (before.run first).course.session.outbound.failure? = some e →
    Ending script fed before turns l e.cause

/-! ## Reading -/

section

variable {l : Listening} {n : Nat}

/-- Nothing is read when the reader has ended. -/
lemma read_of_ended (done : l.course.session.watch ≠ .reading) : l.read n = l := by
  have same : l.course.read (l.left.take n) = (l.course, l.left.take n) := if_neg done
  simp only [read, same, if_neg done, List.take_append_drop]
  simp

/-- What is read is heeded, and arrives if it is a message. -/
lemma read_eq (watch : l.course.session.watch = .reading) {reading : Reading} {r : Reader}
    {rest : List Read} (next : l.course.session.reader.next (l.left.take n) = (reading, r, rest)) :
    l.read n =
      { course := l.course.note (l.course.session.heed r reading) (l.course.session.heeding reading)
        left := rest ++ l.left.drop n
        arrivals := l.arrivals ++
          reading.message?.toList.map fun p => ⟨p, l.course.session.correlator.inFlight⟩ } := by
  have eq : l.course.read (l.left.take n) =
      (l.course.note (l.course.session.heed r reading) (l.course.session.heeding reading),
        rest) := by
    rw [Course.read, if_pos watch]
    simp only [Session.readOne, next]
  simp only [read, eq, if_pos watch, next]

/-- Nothing arrives when what is read is no message. -/
lemma read_of_none (watch : l.course.session.watch = .reading) {reading : Reading} {r : Reader}
    {rest : List Read} (next : l.course.session.reader.next (l.left.take n) = (reading, r, rest))
    (none : reading.message? = none) :
    l.read n =
      { course := l.course.note (l.course.session.heed r reading) (l.course.session.heeding reading)
        left := rest ++ l.left.drop n
        arrivals := l.arrivals } := by
  rw [read_eq watch next, none, Option.toList_none, List.map_nil, List.append_nil]

end

/-- What comes of asking the reader with all that the transport is still to give. -/
inductive Advance (script : List Read) (fed : Decoder.Yield) (l l' : Listening) : Prop where
  | arrives {payload rest} :
    fed.payloads = l.payloads ++ payload :: rest →
    l'.arrivals = l.arrivals ++ [⟨payload, l.course.session.correlator.inFlight⟩] →
    Advance script fed l l'
  | ends : l'.course.session.watch ≠ .reading → Advance script fed l l'
  /-- There is nothing left to arrive before the transport gives more. -/
  | waits :
    Read.stop? script = none → l.payloads = fed.payloads → fed.error = none →
    Advance script fed l l'

/-- Where a session stands that listens to the script, after the turns: it is at work and has come
to some bytes of the stream, or its reader has ended. -/
inductive Standing (limit : Nat) (first : Delimited) (mode : Mode) (script : List Read)
    (fed : Decoder.Yield) (before : Listening) (turns : List Turn) (l : Listening) : Prop where
  | listening {bytes} :
    l.course.session.watch = .reading →
    Decoder.Hears limit first bytes l.payloads l.course.session.reader.decoder mode →
    l.course.session.reader.ended = false → Read.After script bytes l.left →
    (∀ a ∈ l.arrivals, a.Fits) →
    Standing limit first mode script fed before turns l
  | ended {cause} :
    l.course.session.watch = .ended cause ∨ l.course.session.watch = .told →
    l.payloads <+: fed.payloads → Ending script fed before turns l cause →
    Standing limit first mode script fed before turns l

section

variable {limit : Nat} {first : Delimited} {mode : Mode} {script : List Read}
  {fed : Decoder.Yield} {before l l' : Listening} {turns : List Turn} {cause : Cause}

/-- Why the reader has ended does not change with later turns in which nothing arrives. -/
lemma Ending.later (en : Ending script fed before turns l cause)
    (same : l'.arrivals = l.arrivals) (t : Turn) :
    Ending script fed before (turns ++ [t]) l' cause := by
  have payloads : l'.payloads = l.payloads := congrArg (List.map _) same
  cases en with
  | closed stop all whole => exact .closed stop (payloads.trans all) whole
  | failed stop all whole => exact .failed stop (payloads.trans all) whole
  | violated all broken => exact .violated (payloads.trans all) broken
  | mismatch eq apart => exact .mismatch (same.trans eq) apart
  | @abandoned first other rest e eq failure =>
    refine @Ending.abandoned _ _ _ _ _ first other (rest ++ [t]) e ?_ failure
    rw [eq, List.append_assoc, List.cons_append]

/-- A session that has just been established listens to what the peer sends after its hello. -/
lemma standing_start {left : List Read} {hello : Bytes} {reader : Reader}
    {preferences : Preferences} {lease : Option Nat} {config : Config} {s : Session}
    (greeted : (Reader.new limit).next script = (.message hello, reader, left))
    (established : Session.start preferences lease reader config = .ok s) (written : Bytes) :
    ∃ first : Delimited, ∃ tail, first.payload = hello ∧
      Read.heard script = first.wire ++ tail ∧ s.inbound = .empty ∧
      ∀ fed, Standing limit first preferences.framing script fed (start s written left) []
        (start s written left) := by
  have ta := Reader.takes (r := .new limit) (Decoder.Scanned.faithful limit) (.new limit) rfl
    script
  rw [greeted] at ta
  generalize is : (Reading.message hello, reader, left) = result at ta
  cases ta with
  | @message first used rest r flows eq sc going =>
    cases is
    subst eq
    have after : Read.After (used ++ left) ([] ++ Read.stream used) left :=
      Read.After.take ⟨rfl, rfl⟩ flows
    obtain ⟨d, switched, he⟩ := sc.hears preferences.framing
    have whole := sc.received
    simp only [Session.start, Reader.setMode, switched] at established
    cases established
    refine ⟨first, reader.decoder.assembled.reverse ++ reader.decoder.pending ++ Read.heard left,
      rfl, ?_, rfl, fun fed => .listening rfl he going after (List.forall_mem_nil _)⟩
    rw [after.heard, whole, List.nil_append, Delimited.stream, List.flatMap_cons,
      List.flatMap_nil, List.append_nil, List.append_assoc]
  | _ => cases is

/-- As long as the reader is at work, all that has arrived fits. -/
lemma Standing.fits (sta : Standing limit first mode script fed before turns l)
    (reading : l.course.session.watch = .reading) : ∀ a ∈ l.arrivals, a.Fits := by
  cases sta with
  | listening _ _ _ _ fits => exact fits
  | ended done => rcases done with done | done <;> cases reading.symm.trans done

/-- When the reader is at work no more, it has ended for a cause. -/
lemma Standing.ends (sta : Standing limit first mode script fed before turns l)
    (done : l.course.session.watch ≠ .reading) :
    ∃ cause, Ending script fed before turns l cause ∧
      (l.course.session.watch = .ended cause ∨ l.course.session.watch = .told) := by
  cases sta with
  | listening reading => exact absurd reading done
  | ended which _ en => exact ⟨_, en, which⟩

/-- The reader ends where all payloads have arrived and it comes to no further message. -/
lemma Standing.finish {n : Nat} {answer : Reading} {r : Reader} {rest : List Read} {t : Turn}
    (reading : l.course.session.watch = .reading)
    (next : l.course.session.reader.next (l.left.take n) = (answer, r, rest))
    (ended : (l.course.session.heed r answer).watch = .ended cause)
    (none : answer.message? = .none) (all : l.payloads = fed.payloads)
    (en : Ending script fed before turns l cause) :
    Standing limit first mode script fed before (turns ++ [t]) (l.read n) := by
  rw [read_of_none reading next none]
  refine .ended (.inl ended) ?_ (en.later ?_ t)
  · exact all ▸ List.prefix_rfl
  · rfl

-- A decoder comes to the same as was fed to one that begins after the first payload.
variable (top : limit ≤ absoluteMaxChunkSize)
  (told : Decoder.Told limit first (Read.heard script) fed.payloads
    (fed.error.map FramingError.violation) mode)

include top told

/-- What has been heard so far are the first of the payloads. -/
lemma prefix_of_hears {bytes : Bytes} {ps : List Bytes} {d : Decoder} {left : List Read}
    (he : Decoder.Hears limit first bytes ps d mode) (after : Read.After script bytes left) :
    ps <+: fed.payloads := by
  obtain ⟨rest, all⟩ :=
    (Decoder.Hears.faithful top first mode).all_of_stands he (after.heard ▸ told)
  exact ⟨rest, all.symm⟩

/-- A session stands as it should after any act but reading. -/
lemma Standing.act (sta : Standing limit first mode script fed before turns l)
    (run : before.run turns = l) {act : Session.Act} (other : ∀ reads, act ≠ .read reads) :
    Standing limit first mode script fed before (turns ++ [.act act other])
      { l with course := l.course.step act } := by
  obtain ⟨reader, -, watch⟩ := l.course.apart_step other
  cases sta with
  | listening reading he going after fits =>
    generalize later : (l.course.step act).session.watch = w at watch
    cases watch with
    | same =>
      rw [← reader] at he going
      exact .listening (later.trans reading) he going after fits
    | noticed is failure =>
      subst is
      rw [← run] at failure
      exact .ended (.inl later) (prefix_of_hears top told he after) (.abandoned rfl failure)
    | told ended => exact absurd (reading.symm.trans ended) Watch.noConfusion
  | @ended cause done arrived en =>
    have en : Ending script fed before (turns ++ [.act act other])
        { l with course := l.course.step act } cause := by
      apply en.later
      rfl
    generalize later : (l.course.step act).session.watch = w at watch
    cases watch with
    | same => exact .ended (later ▸ done) arrived en
    | noticed _ _ reading => rcases done with done | done <;> cases reading.symm.trans done
    | told ended => exact .ended (.inr later) arrived en

-- The session goes on unless the payload is a reply that does not fit.
/-- A session stands as it should after a payload that arrives. -/
lemma Standing.arrive {bytes payload : Bytes} {r : Reader}
    (reading : l.course.session.watch = .reading)
    (he : Decoder.Hears limit first bytes (l.payloads ++ [payload]) r.decoder mode)
    (going : r.ended = false) (left : List Read) (after : Read.After script bytes left)
    (fits : ∀ a ∈ l.arrivals, a.Fits) :
    Standing limit first mode script fed before turns
      { course := l.course.note (l.course.session.heed r (.message payload))
          (l.course.session.heeding (.message payload))
        left := left
        arrivals := l.arrivals ++ [⟨payload, l.course.session.correlator.inFlight⟩] } := by
  obtain ⟨reader, -, watch⟩ :=
    Session.takesIn_receive { l.course.session with reader := r } payload
  have arrived : (l.arrivals ++ [Arrival.mk payload l.course.session.correlator.inFlight]).map
      Arrival.payload = l.payloads ++ [payload] := List.map_append
  rcases watch with ⟨same, fit⟩ | ⟨expected, received, apart, ended⟩
  · refine @listening _ _ _ _ _ _ _ _ bytes (same.trans reading) ?_ ?_ after ?_
    · rw [Listening.payloads, arrived]
      exact reader ▸ he
    · exact (congrArg Reader.ended reader).trans going
    · exact List.forall_mem_append.mpr ⟨fits, List.forall_mem_singleton.mpr fit⟩
  · refine .ended (.inl ended) ?_ (.mismatch rfl apart)
    rw [Listening.payloads, arrived]
    exact prefix_of_hears top told he after

/-- A session stands as it should after the reader was asked. -/
lemma Standing.read (sta : Standing limit first mode script fed before turns l) (n : Nat) :
    Standing limit first mode script fed before (turns ++ [.read n]) (l.read n) := by
  have fa := Decoder.Hears.faithful top first mode
  cases sta with
  | ended done arrived en =>
    have same : l.read n = l := read_of_ended (by rcases done with done | done <;> simp [done])
    rw [same]
    exact .ended done arrived (en.later rfl _)
  | @listening bytes reading he going after fits =>
    have ta := Reader.takes fa he going (l.left.take n)
    generalize next : l.course.session.reader.next (l.left.take n) = result at ta
    have left {used rest : List Read} (eq : l.left.take n = used ++ rest) :
        l.left = used ++ (rest ++ l.left.drop n) := by
      rw [← List.append_assoc, ← eq, List.take_append_drop]
    cases ta with
    | @message payload used rest r flows eq st still =>
      rw [read_eq reading next]
      rw [left eq] at after
      exact .arrive top told reading st still _ (after.take flows) fits
    | @waiting r flows st still co =>
      rw [read_of_none reading next rfl]
      rw [left (List.append_nil _).symm] at after
      exact .listening reading st still (after.take flows) fits
    | ended flows eq co =>
      rw [left eq] at after
      obtain ⟨heard, stop⟩ := (after.take flows).stops rfl
      obtain ⟨all, whole⟩ := fa.unique co (heard ▸ told)
      exact .finish reading next rfl rfl all
        (.closed stop all (Option.map_eq_none_iff.mp whole.symm))
    | failed flows eq co =>
      rw [left eq] at after
      obtain ⟨heard, stop⟩ := (after.take flows).stops rfl
      obtain ⟨all, whole⟩ := fa.unique co (heard ▸ told)
      exact .finish reading next rfl rfl all
        (.failed stop all (Option.map_eq_none_iff.mp whole.symm))
    | @violated used rest _ _ flows eq co =>
      rw [left eq] at after
      -- Whatever comes after a violation comes to the same one.
      have co := fa.append (Read.heard (rest ++ l.left.drop n)) co
      rw [← (after.take flows).heard] at co
      obtain ⟨all, broken⟩ := fa.unique co told
      exact .finish reading next rfl rfl all (.violated all broken.symm)

/-- Asking with all that is left gives the next payload, ends the session, or comes to the end of
what there is. -/
lemma Standing.advances (sta : Standing limit first mode script fed before turns l) {n : Nat}
    (reading : l.course.session.watch = .reading) (all : l.left.length ≤ n) :
    Advance script fed l (l.read n) := by
  have fa := Decoder.Hears.faithful top first mode
  -- All that is left is at hand, so the reader comes to what the stream comes to.
  have whole := List.take_of_length_le all
  cases sta with
  | ended done => rcases done with done | done <;> cases reading.symm.trans done
  | @listening bytes _ he going after =>
    have ta := Reader.takes fa he going (l.left.take n)
    generalize next : l.course.session.reader.next (l.left.take n) = result at ta
    rw [whole] at ta
    cases ta with
    | @message payload used left r flows eq st =>
      rw [eq] at after
      obtain ⟨rest, arrived⟩ := prefix_of_hears top told st (after.take flows)
      refine .arrives (arrived.symm.trans (List.append_assoc _ _ _)) ?_
      rw [read_eq reading next]
      rfl
    | waiting flows _ _ co =>
      rw [← List.append_nil l.left] at after
      obtain ⟨heard, stop⟩ := after.take flows
      have nothing : Read.heard [] = [] := rfl
      rw [heard, nothing, List.append_nil] at told
      obtain ⟨all, none⟩ := fa.unique co told
      exact .waits stop all (Option.map_eq_none_iff.mp none.symm)
    | ended | failed | violated =>
      refine .ends ?_
      rw [read_eq reading next]
      exact Watch.noConfusion

/-- What has arrived are the first of the payloads. -/
lemma Standing.arrived (sta : Standing limit first mode script fed before turns l) :
    l.payloads <+: fed.payloads := by
  cases sta with
  | listening _ he _ after => exact prefix_of_hears top told he after
  | ended _ arrived => exact arrived

/-- A session stands as it should after any turns. -/
lemma standing_run (start : Standing limit first mode script fed before [] before)
    (turns : List Turn) :
    Standing limit first mode script fed before turns (before.run turns) := by
  induction turns using List.reverseRecOn with
  | nil => exact start
  | append_singleton turns t ih =>
    have next : before.run (turns ++ [t]) = (before.run turns).turn t := List.foldl_append
    rw [next]
    cases t with
    | act act other => exact ih.act top told rfl other
    | read n => exact ih.read top told n

end

/-! ## What is passed on -/

section

variable {l : Listening}

/-- In every turn the messages for the application are those of what has arrived. -/
lemma passed_turn (kept : l.course.taken ++ l.course.session.inbound.toList = l.passed) (t : Turn) :
    (l.turn t).course.taken ++ (l.turn t).course.session.inbound.toList = (l.turn t).passed := by
  cases t with
  | act act other => exact (l.course.apart_step other).passed.trans kept
  | read n =>
    by_cases reading : l.course.session.watch = .reading
    · generalize next : l.course.session.reader.next (l.left.take n) = result
      obtain ⟨answer, r, rest⟩ := result
      cases answer with
      | message payload =>
        rw [turn, read_eq reading next]
        have takes := Session.takesIn_receive { l.course.session with reader := r } payload
        change l.course.taken ++ (Session.receive _ payload).inbound.toList =
          (l.arrivals ++ [_]).filterMap Arrival.passed?
        rw [takes.inbound, ← List.append_assoc, List.filterMap_append, List.filterMap_cons,
          List.filterMap_nil]
        refine congrArg₂ (· ++ ·) kept ?_
        split <;> next eq => rw [eq]; rfl
      | _ =>
        rw [turn, read_of_none reading next rfl]
        exact kept
    · rw [turn, read_of_ended reading]
      exact kept

/-- After any turns the messages for the application are those of what has arrived. -/
lemma passed_run (kept : l.course.taken ++ l.course.session.inbound.toList = l.passed)
    (turns : List Turn) :
    (l.run turns).course.taken ++ (l.run turns).course.session.inbound.toList =
      (l.run turns).passed := by
  induction turns generalizing l with
  | nil => exact kept
  | cons t rest ih => exact ih (passed_turn kept t)

/-- The next message for the application, if there is one. -/
lemma nextMessage_eq (kept : l.course.taken ++ l.course.session.inbound.toList = l.passed) :
    l.course.session.nextMessage.1 =
      match l.passed[l.course.taken.length]? with
      | some message => .message message
      | none => if l.course.session.watch = .reading then .pending else .ended := by
  rw [← kept, List.getElem?_append_right (Nat.le_refl _), Nat.sub_self, Session.nextMessage]
  cases front : l.course.session.inbound.pop? with
  | none =>
    rw [Queue.pop?_eq_none_iff.mp front]
    rfl
  | some next =>
    obtain ⟨message, inbound⟩ := next
    rw [Queue.toList_of_pop? front]
    rfl

/-- A payload that is no message is passed over. -/
lemma course_read_of_error {n : Nat} {payload : Bytes} {r : Reader} {rest : List Read}
    (reading : l.course.session.watch = .reading)
    (next : l.course.session.reader.next (l.left.take n) = (.message payload, r, rest))
    {e : PayloadError} (unreadable : Node.decode? payload = .error e) :
    (l.read n).course =
      { l.course with session := { l.course.session with reader := r } } := by
  rw [read_eq reading next]
  simp [Course.note, Session.heed, Session.heeding, Session.receive, unreadable]

/-! ## After the end -/

/-- When the reader has ended, nothing arrives in a turn, and it stays so. -/
lemma turn_of_ended (done : l.course.session.watch ≠ .reading) (t : Turn) :
    (l.turn t).arrivals = l.arrivals ∧ (l.turn t).course.session.watch ≠ .reading := by
  cases t with
  | act act other =>
    refine ⟨rfl, ?_⟩
    have watch := (l.course.apart_step other).watch
    change (l.course.step act).session.watch ≠ .reading
    generalize (l.course.step act).session.watch = w at watch
    cases watch with
    | same => exact done
    | noticed _ _ reading => exact absurd reading done
    | told => exact Watch.noConfusion
  | read n =>
    rw [turn, read_of_ended done]
    exact ⟨rfl, done⟩

/-- When the reader has ended, nothing arrives in any turns, and it stays so. -/
lemma run_of_ended (done : l.course.session.watch ≠ .reading) (turns : List Turn) :
    (l.run turns).arrivals = l.arrivals ∧ (l.run turns).course.session.watch ≠ .reading := by
  induction turns generalizing l with
  | nil => exact ⟨rfl, done⟩
  | cons t rest ih =>
    obtain ⟨same, done⟩ := turn_of_ended done t
    obtain ⟨same', done⟩ := ih done
    exact ⟨same'.trans same, done⟩

end

/-! ## The main result -/

/-- A session listens to the script, of which a decoder makes what was fed to it. -/
structure Listens (script : List Read) (fed : Decoder.Yield) (before : Listening)
    (turns : List Turn) (l : Listening) : Prop where
  arrived : l.payloads <+: fed.payloads
  fits : l.course.session.watch = .reading → ∀ a ∈ l.arrivals, a.Fits
  /-- What was passed on has been taken by the application, or waits for it. -/
  passed : l.course.taken ++ l.course.session.inbound.toList = l.passed
  nextMessage : l.course.session.nextMessage.1 =
    match l.passed[l.course.taken.length]? with
    | some message => .message message
    | none => if l.course.session.watch = .reading then .pending else .ended
  /-- A payload that is no message changes nothing but the reader. -/
  skips {n payload r rest e} :
    l.course.session.watch = .reading →
    l.course.session.reader.next (l.left.take n) = (.message payload, r, rest) →
    Node.decode? payload = .error e →
    (l.read n).course = { l.course with session := { l.course.session with reader := r } }
  advances {n} : l.course.session.watch = .reading → l.left.length ≤ n →
    Advance script fed l (l.read n)
  ends : l.course.session.watch ≠ .reading →
    ∃ cause, Ending script fed before turns l cause ∧
      (l.course.session.watch = .ended cause ∨ l.course.session.watch = .told)
  /-- Nothing is routed after the end. -/
  final : l.course.session.watch ≠ .reading →
    (∀ n, l.read n = l) ∧ ∀ more, (l.run more).arrivals = l.arrivals

/-- Whatever happens to an established session while it reads, in whatever pieces the stream comes:
the payloads that a decoder makes of the stream arrive one after the other, the application gets the
messages among them that are no replies to a request in flight, and the reader ends where the stream
does, at a violation of the framing, or at a reply that does not fit. -/
theorem run_listens {limit : Nat} {script left : List Read} {hello : Bytes} {reader : Reader}
    {preferences : Preferences} {lease : Option Nat} {config : Config} {s : Session}
    (top : limit ≤ absoluteMaxChunkSize)
    (greeted : (Reader.new limit).next script = (.message hello, reader, left))
    (established : Session.start preferences lease reader config = .ok s) (written : Bytes) :
    ∃ first : Delimited, ∃ tail, first.payload = hello ∧
      Read.heard script = first.wire ++ tail ∧
      ∀ turns, Listens script ((Decoder.new preferences.framing limit).feed [tail])
        (start s written left) turns ((start s written left).run turns) := by
  obtain ⟨first, tail, is, heard, empty, sta⟩ := standing_start greeted established written
  -- A decoder comes to the same in every run, as the whole stream is fed to it.
  have told := Decoder.told_feed top first tail preferences.framing
  rw [← heard] at told
  refine ⟨first, tail, is, heard, fun turns => ?_⟩
  have kept : (start s written left).course.taken ++
      (start s written left).course.session.inbound.toList = (start s written left).passed := by
    change [] ++ s.inbound.toList = []
    rw [empty, Queue.toList_empty, List.append_nil]
  have now := standing_run top told (sta _) turns
  have passed := passed_run kept turns
  exact {
    arrived := now.arrived top told
    fits := now.fits
    passed := passed
    nextMessage := nextMessage_eq passed
    skips := fun reading next unreadable => course_read_of_error reading next unreadable
    advances := fun reading all => now.advances top told reading all
    ends := fun done => now.ends done
    final := fun done => ⟨fun n => read_of_ended done, fun more => (run_of_ended done more).1⟩ }

/-- What a peer has to say: a notification, what is no message, a reply to a request that was not
made, and one more notification. -/
def chat : List Bytes :=
  ["<one/>", "<",
    "<rpc-reply xmlns=\"urn:ietf:params:xml:ns:netconf:base:1.0\" message-id=\"9\"/>",
    "<two/>"].map Utf8.encode

/-- It comes in chunks after a hello, cut within these. -/
def chatter : List Read :=
  let bytes := Utf8.encode "<hello/>" ++ endOfMessageMarker ++
    chat.flatMap fun payload => encodeChunk payload ++ endOfChunks
  [.data (bytes.take 20), .data ((bytes.take 70).drop 20), .data (bytes.drop 70), .data []]

/-- A client makes a request while it listens. -/
def chatting : List Turn :=
  [.read 1, .act (.submit (.empty (.unqualified "get"))) (fun _ => Session.Act.noConfusion),
    .read 4, .act .nextMessage (fun _ => Session.Act.noConfusion), .read 4, .read 4]

/-- The client after the hello, with the beginning of a chunk. -/
def chatted : Session :=
  { Course.plainSession with
    reader := ⟨⟨[], [lf, hash, 0x36, lf, 0x3c, 0x6f], [], 0, .header, 20, 14, 4096, none⟩, false⟩ }

/-- A session listens to the chatter as it arrives in pieces and with requests in between. -/
theorem run_listens_chatting :
    4096 ≤ absoluteMaxChunkSize ∧ ∃ reader left fed,
      (Reader.new 4096).next chatter = (.message (Utf8.encode "<hello/>"), reader, left) ∧
      Session.start Course.plainPreferences none reader .default = .ok chatted ∧
      fed.payloads = chat ∧ fed.error = none ∧
      Listens chatter fed (start chatted [] left) chatting
        ((start chatted [] left).run chatting) := by
  have top : 4096 ≤ absoluteMaxChunkSize := by decide
  have greeted : (Reader.new 4096).next chatter =
      (.message (Utf8.encode "<hello/>"), ((Reader.new 4096).next chatter).2) := by
    decide +kernel
  have switched : ((Reader.new 4096).next chatter).2.1.setMode .chunked = .ok chatted.reader := by
    decide +kernel
  have established : Session.start Course.plainPreferences none
      ((Reader.new 4096).next chatter).2.1 .default = .ok chatted := by
    have mode : Course.plainPreferences.framing = .chunked := rfl
    simp only [Session.start, mode, switched]
    rfl
  obtain ⟨first, tail, hello, heard, listens⟩ := run_listens top greeted established []
  have bytes : Read.heard chatter = Utf8.encode "<hello/>" ++ endOfMessageMarker ++
      chat.flatMap fun payload => encodeChunk payload ++ endOfChunks := by
    decide +kernel
  rw [bytes, Delimited.wire, hello] at heard
  obtain rfl := List.append_cancel_left heard
  exact ⟨top, _, _, _, greeted, established, by decide +kernel, by decide +kernel,
    listens chatting⟩

end Listening

end Netconf
