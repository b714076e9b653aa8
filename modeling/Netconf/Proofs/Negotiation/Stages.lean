import Mathlib.Tactic.Lemma
import Netconf.Handshake

/-!
# The stages of a handshake

Whatever is asked of a handshake, and in whatever order, it goes from one stage to the next or fails
(`Handshake.moves_act`), and what it hands out at the end comes from the only hello that it has sent
and the only one that it has received (`Handshake.reached_run`). A handshake can as well be kept as
a phase with registers beside it, which may be empty (`Handshake.Record`). It gives the same answers
then, and no register is empty where it is needed (`Handshake.run_staged`).
-/

namespace Netconf

/-- How far a handshake is, without what it knows by then. -/
inductive Handshake.Phase where
  | idle
  | helloSent
  | negotiated
  | established
  | failed
  deriving DecidableEq, Repr

def Stage.phase : Stage → Handshake.Phase
  | idle => .idle
  | helloSent _ => .helloSent
  | negotiated _ => .negotiated
  | established => .established
  | failed => .failed

def Stage.preferences? : Stage → Option Preferences
  | negotiated preferences => some preferences
  | idle | helloSent _ | established | failed => none

namespace Handshake

/-! ## Calls -/

/-- What can be asked of a handshake. -/
inductive Call where
  | start
  | receiveHello (remote : Node)
  | establish
  | abort

/-- A call with its answer. -/
inductive Answered where
  | started (answer : Except HandshakeError Node)
  | received (remote : Node) (answer : Except HandshakeError Preferences)
  | established (answer : Except HandshakeError Preferences)
  | aborted

namespace Answered

inductive Refused : Answered → Prop where
  | started {e} : Refused (.started (.error e))
  | received {remote e} : Refused (.received remote (.error e))
  | established {e} : Refused (.established (.error e))

/-- The own hello with which a handshake began. -/
def greeting? : Answered → Option Node
  | started (.ok hello) => some hello
  | _ => none

/-- The hello of the other side that was accepted, and the preferences that follow from it. -/
def agreement? : Answered → Option (Node × Preferences)
  | received remote (.ok preferences) => some (remote, preferences)
  | _ => none

def handout? : Answered → Option Preferences
  | established (.ok preferences) => some preferences
  | _ => none

end Answered

namespace Call

variable {σ τ : Type} {act : σ → Call → Answered × σ} {act' : τ → Call → Answered × τ}

/-- The answers to some calls, one after the other, and the state after them. -/
def run (act : σ → Call → Answered × σ) (s : σ) : List Call → List Answered × σ
  | [] => ([], s)
  | call :: calls =>
    let (answer, s) := act s call
    let (answers, s) := run act s calls
    (answer :: answers, s)

/-- An answer was given to one of the calls, after the answers to the calls before. -/
lemma exists_of_run {s : σ} {calls : List Call} {before after : List Answered} {answer : Answered}
    (eq : (run act s calls).1 = before ++ answer :: after) :
    ∃ earlier call later, calls = earlier ++ call :: later ∧
      (run act s earlier).1 = before ∧ (act (run act s earlier).2 call).1 = answer := by
  induction before generalizing s calls with
  | nil =>
    cases calls with
    | nil => cases eq
    | cons call calls => exact ⟨[], call, calls, rfl, rfl, (List.cons.inj eq).1⟩
  | cons first before ih =>
    cases calls with
    | nil => cases eq
    | cons call calls =>
      obtain ⟨same, eq⟩ := List.cons.inj eq
      obtain ⟨earlier, c, later, rfl, all, answered⟩ := ih eq
      refine ⟨call :: earlier, c, later, rfl, ?_, answered⟩
      simp only [run, all, same]

/-- States that answer every call alike, and stay related, answer all calls alike. -/
lemma run_eq {R : σ → τ → Prop} {s : σ} {t : τ} (rel : R s t)
    (step : ∀ {s t} (call : Call), R s t →
      (act' t call).1 = (act s call).1 ∧ R (act s call).2 (act' t call).2) (calls : List Call) :
    (run act' t calls).1 = (run act s calls).1 ∧ R (run act s calls).2 (run act' t calls).2 := by
  induction calls generalizing s t with
  | nil => exact ⟨rfl, rel⟩
  | cons call calls ih =>
    obtain ⟨same, rel⟩ := step call rel
    obtain ⟨all, rel⟩ := ih rel
    exact ⟨List.cons_eq_cons.mpr ⟨same, all⟩, rel⟩

end Call

/-! ## Handshakes -/

def act (h : Handshake) : Call → Answered × Handshake
  | .start =>
    let (answer, h) := h.start
    (.started answer, h)
  | .receiveHello remote =>
    let (answer, h) := h.receiveHello remote
    (.received remote answer, h)
  | .establish =>
    let (answer, h) := h.establish
    (.established answer, h)
  | .abort => (.aborted, h.abort)

/-- How a handshake gets on: phase by phase, or it fails before it is established. -/
inductive Moves : Phase → Phase → Prop where
  | greets : Moves .idle .helloSent
  | agrees : Moves .helloSent .negotiated
  | establishes : Moves .negotiated .established
  | fails {phase} :
    phase ≠ .established →
    Moves phase .failed
  /-- An established session is not touched. -/
  | rests : Moves .established .established

inductive Acts (h : Handshake) : Answered × Handshake → Prop where
  | greets :
    h.stage = .idle →
    Acts h (.started (.ok (Hello.toNode ⟨h.offered, h.role.announced⟩)),
      { h with stage := .helloSent (Hello.toNode ⟨h.offered, h.role.announced⟩) })
  | agrees {hello remote preferences} :
    h.stage = .helloSent hello →
    negotiate h.role h.offered hello remote = .ok preferences →
    Acts h (.received remote (.ok preferences), { h with stage := .negotiated preferences })
  | establishes {preferences} :
    h.stage = .negotiated preferences →
    Acts h (.established (.ok preferences), { h with stage := .established })
  | gives {answer : Answered} :
    answer.Refused ∨ answer = .aborted →
    Acts h (answer, h.abort)

/-- A call does to a handshake one of the things that calls do. -/
lemma acts (h : Handshake) (call : Call) : Acts h (h.act call) := by
  obtain ⟨role, offered, stage⟩ := h
  cases call with
  | start =>
    cases stage with
    | idle => exact .greets rfl
    | _ => exact .gives (.inl .started)
  | receiveHello remote =>
    cases stage with
    | helloSent hello =>
      simp only [act, receiveHello]
      cases eq : negotiate role offered hello remote with
      | ok preferences => exact .agrees rfl eq
      | error e => exact .gives (.inl .received)
    | _ => exact .gives (.inl .received)
  | establish =>
    cases stage with
    | negotiated preferences => exact .establishes rfl
    | _ => exact .gives (.inl .established)
  | abort => exact .gives (.inr rfl)

section

variable {h : Handshake} {role : Role} {offered : CapabilitySet} {hello remote : Node}
  {preferences : Preferences}

/-- Giving up an established handshake does not touch it. -/
lemma abort_of_established (eq : h.stage = .established) : h.abort = h := by
  rw [abort, eq]

/-- Giving up any other handshake makes it fail. -/
lemma stage_abort (ne : h.stage ≠ .established) : h.abort.stage = .failed := by
  obtain ⟨role, offered, stage⟩ := h
  cases stage with
  | established => exact absurd rfl ne
  | _ => rfl

/-- A handshake is in the established phase if it is in the established stage. -/
lemma phase_eq_established {stage : Stage} : stage.phase = .established ↔ stage = .established := by
  cases stage <;> simp [Stage.phase]

/-- Whatever the call, a handshake gets on by one phase, fails, or rests. -/
lemma moves_act (h : Handshake) (call : Call) :
    Moves h.stage.phase (h.act call).2.stage.phase := by
  have acts := h.acts call
  generalize h.act call = result at acts
  cases acts with
  | greets eq => rw [eq]; exact .greets
  | agrees eq => rw [eq]; exact .agrees
  | establishes eq => rw [eq]; exact .establishes
  | gives =>
    by_cases eq : h.stage = .established
    · rw [abort_of_established eq, eq]
      exact .rests
    · rw [stage_abort eq]
      exact .fails (mt phase_eq_established.mp eq)

/-- A call that is refused gives up the handshake. -/
lemma of_refused {call : Call} (refused : (h.act call).1.Refused) : (h.act call).2 = h.abort := by
  have acts := h.acts call
  generalize h.act call = result at acts refused
  cases acts with
  | gives => rfl
  | _ => cases refused

/-- What is handed out was held. -/
lemma stage_of_handout {call : Call} (eq : (h.act call).1 = .established (.ok preferences)) :
    h.stage = .negotiated preferences := by
  have acts := h.acts call
  generalize h.act call = result at acts eq
  cases acts with
  | establishes held =>
    cases eq
    exact held
  | gives nothing =>
    cases eq
    rcases nothing with refused | aborted
    · cases refused
    · cases aborted
  | _ => cases eq

/-- Preferences name the two hellos that they follow from. -/
lemma hellos_of_negotiate (eq : negotiate role offered hello remote = .ok preferences) :
    preferences.localHello = hello ∧ preferences.remoteHello = remote := by
  simp only [negotiate, bind, Except.bind] at eq
  split at eq
  · cases eq
  · split at eq
    · cases eq
    · split at eq
      · cases eq
      · split at eq
        · cases eq
        · cases eq
          exact ⟨rfl, rfl⟩

end

/-! ## Runs -/

/-- The hellos were exchanged once, and the preferences follow from them. -/
structure Exchanged (answers : List Answered) (preferences : Preferences) : Prop where
  greeting : answers.filterMap Answered.greeting? = [preferences.localHello]
  agreement :
    answers.filterMap Answered.agreement? = [(preferences.remoteHello, preferences)]

/-- The answers with which a handshake has come to a stage. -/
inductive Reached (answers : List Answered) : Stage → Prop where
  | idle :
    answers.filterMap Answered.greeting? = [] → answers.filterMap Answered.agreement? = [] →
    answers.filterMap Answered.handout? = [] →
    Reached answers .idle
  | helloSent {hello} :
    answers.filterMap Answered.greeting? = [hello] →
    answers.filterMap Answered.agreement? = [] →
    answers.filterMap Answered.handout? = [] →
    Reached answers (.helloSent hello)
  | negotiated {preferences} :
    Exchanged answers preferences → answers.filterMap Answered.handout? = [] →
    Reached answers (.negotiated preferences)
  | established {preferences} :
    Exchanged answers preferences → answers.filterMap Answered.handout? = [preferences] →
    Reached answers .established
  | failed :
    answers.filterMap Answered.handout? = [] →
    Reached answers .failed

section

variable {h : Handshake} {answers : List Answered}

/-- Before it is established a handshake has handed out nothing. -/
lemma Reached.handout (re : Reached answers h.stage) (ne : h.stage ≠ .established) :
    answers.filterMap Answered.handout? = [] := by
  generalize h.stage = stage at re ne
  cases re with
  | idle _ _ none => exact none
  | helloSent _ _ none => exact none
  | negotiated _ none => exact none
  | established => exact absurd rfl ne
  | failed none => exact none

/-- An answer that refuses, or gives up, leaves a handshake where it had come to. -/
lemma Reached.pass {stage : Stage} (re : Reached answers stage) {answer : Answered}
    (nothing : answer.Refused ∨ answer = .aborted) : Reached (answers ++ [answer]) stage := by
  have none : answer.greeting? = none ∧ answer.agreement? = none ∧ answer.handout? = none := by
    rcases nothing with refused | rfl
    · cases refused <;> exact ⟨rfl, rfl, rfl⟩
    · exact ⟨rfl, rfl, rfl⟩
  have same {β : Type} {f : Answered → Option β} (eq : f answer = Option.none) :
      (answers ++ [answer]).filterMap f = answers.filterMap f := by
    simp [eq]
  cases re with
  | idle greeting agreement handout =>
    exact .idle (same none.1 ▸ greeting) (same none.2.1 ▸ agreement) (same none.2.2 ▸ handout)
  | helloSent greeting agreement handout =>
    exact .helloSent (same none.1 ▸ greeting) (same none.2.1 ▸ agreement) (same none.2.2 ▸ handout)
  | negotiated ex handout =>
    exact .negotiated ⟨same none.1 ▸ ex.greeting, same none.2.1 ▸ ex.agreement⟩
      (same none.2.2 ▸ handout)
  | established ex handout =>
    exact .established ⟨same none.1 ▸ ex.greeting, same none.2.1 ▸ ex.agreement⟩
      (same none.2.2 ▸ handout)
  | failed handout => exact .failed (same none.2.2 ▸ handout)

/-- With the answer to one more call a handshake has come to the stage after it. -/
lemma reached_act (re : Reached answers h.stage) (call : Call) :
    Reached (answers ++ [(h.act call).1]) (h.act call).2.stage := by
  have acts := h.acts call
  generalize h.act call = result at acts
  cases acts with
  | greets eq =>
    rw [eq] at re
    cases re with
    | idle greeting agreement handout =>
      exact .helloSent (by simp [greeting, Answered.greeting?])
        (by simp [agreement, Answered.agreement?]) (by simp [handout, Answered.handout?])
  | agrees eq negotiated =>
    rw [eq] at re
    obtain ⟨rfl, rfl⟩ := hellos_of_negotiate negotiated
    cases re with
    | helloSent greeting agreement handout =>
      exact .negotiated ⟨by simp [greeting, Answered.greeting?],
        by simp [agreement, Answered.agreement?]⟩ (by simp [handout, Answered.handout?])
  | @establishes preferences eq =>
    rw [eq] at re
    cases re with
    | negotiated ex handout =>
      have ex : Exchanged (answers ++ [.established (.ok preferences)]) preferences :=
        ⟨by simp [ex.greeting, Answered.greeting?], by simp [ex.agreement, Answered.agreement?]⟩
      exact .established ex (by simp [handout, Answered.handout?])
  | gives nothing =>
    -- An established handshake is not touched, and any other one fails with nothing handed out.
    by_cases eq : h.stage = .established
    · rw [abort_of_established eq]
      exact re.pass nothing
    · rw [stage_abort eq]
      exact Reached.pass (.failed (re.handout eq)) nothing

/-- With the answers to some calls a handshake has come to the stage after them. -/
lemma reached_run (re : Reached answers h.stage) (calls : List Call) :
    Reached (answers ++ (Call.run act h calls).1) (Call.run act h calls).2.stage := by
  induction calls generalizing h answers with
  | nil =>
    rw [Call.run, List.append_nil]
    exact re
  | cons call calls ih =>
    have rest := ih (reached_act re call)
    rw [List.append_assoc] at rest
    exact rest

/-- A handshake hands out preferences once at most. -/
lemma Reached.length_handout_le {stage : Stage} (re : Reached answers stage) :
    (answers.filterMap Answered.handout?).length ≤ 1 := by
  cases re with
  | idle _ _ none => simp [none]
  | helloSent _ _ none => simp [none]
  | negotiated _ none => simp [none]
  | established _ one => simp [one]
  | failed none => simp [none]

/-- If preferences were handed out, none were before or after that. -/
lemma Reached.of_handout {before after : List Answered} {preferences : Preferences} {stage : Stage}
    (re : Reached (before ++ .established (.ok preferences) :: after) stage) :
    before.filterMap Answered.handout? = [] ∧ after.filterMap Answered.handout? = [] := by
  have here : Answered.handout? (.established (.ok preferences)) = some preferences := rfl
  have one := re.length_handout_le
  rw [List.filterMap_append, List.filterMap_cons_some here, List.length_append,
    List.length_cons] at one
  exact ⟨List.length_eq_zero_iff.mp (by omega), List.length_eq_zero_iff.mp (by omega)⟩

end

/-! ## Registers -/

/-- A handshake kept as its phase, with registers for what it knows by then. -/
structure Record where
  role : Role
  offered : CapabilitySet
  phase : Phase
  localHello : Option Node
  preferences : Option Preferences

namespace Record

def new (role : Role) (offered : CapabilitySet) : Record :=
  ⟨role, offered, .idle, none, none⟩

/-- Gives up the handshake and forgets the preferences. An established session is not touched. -/
def abort (r : Record) : Record :=
  if r.phase = .established then r else { r with phase := .failed, preferences := none }

/-- The preferences that follow from a hello of the other side. The own hello is looked up last. -/
def negotiate (r : Record) (remote : Node) : Except HandshakeError Preferences :=
  match r.localHello with
  | some hello => Handshake.negotiate r.role r.offered hello remote
  | none => do
    discard (Handshake.negotiate r.role r.offered remote remote)
    .error (.invalidState "local hello missing")

/-- The own hello, with which the handshake begins. -/
def start (r : Record) : Except HandshakeError Node × Record :=
  if r.phase ≠ .idle then (.error (.invalidState "start requires Idle"), r.abort)
  else
    let hello := Hello.toNode ⟨r.offered, r.role.announced⟩
    (.ok hello, { r with phase := .helloSent, localHello := some hello })

def receiveHello (r : Record) (remote : Node) : Except HandshakeError Preferences × Record :=
  if r.phase ≠ .helloSent then
    (.error (.invalidState "receive_hello requires HelloSent"), r.abort)
  else
    match r.negotiate remote with
    | .ok preferences =>
      (.ok preferences, { r with phase := .negotiated, preferences := some preferences })
    | .error e => (.error e, r.abort)

/-- Hands out the preferences, with which the handshake is over. -/
def establish (r : Record) : Except HandshakeError Preferences × Record :=
  if r.phase ≠ .negotiated then (.error (.invalidState "establish requires Negotiated"), r.abort)
  else
    match r.preferences with
    | some preferences =>
      (.ok preferences, { r with phase := .established, preferences := none })
    | none => (.error (.invalidState "preferences missing"), r.abort)

def act (r : Record) : Call → Answered × Record
  | .start =>
    let (answer, r) := r.start
    (.started answer, r)
  | .receiveHello remote =>
    let (answer, r) := r.receiveHello remote
    (.received remote answer, r)
  | .establish =>
    let (answer, r) := r.establish
    (.established answer, r)
  | .abort => (.aborted, r.abort)

/-- The record is one of the handshake: its registers hold what the stage does. The own hello stays
when it is no longer needed. -/
structure Of (h : Handshake) (r : Record) : Prop where
  role : r.role = h.role
  offered : r.offered = h.offered
  phase : r.phase = h.stage.phase
  localHello {hello} : h.stage = .helloSent hello → r.localHello = some hello
  preferences : r.preferences = h.stage.preferences?

variable {h : Handshake} {r : Record}

/-- A new record is one of a new handshake. -/
lemma Of.new (role : Role) (offered : CapabilitySet) :
    Of (Handshake.new role offered) (.new role offered) :=
  ⟨rfl, rfl, rfl, nofun, rfl⟩

/-- Giving up keeps a record one of its handshake. -/
lemma Of.abort (of : Of h r) : Of h.abort r.abort := by
  by_cases eq : h.stage = .established
  · have done : r.phase = .established := by rw [of.phase, eq, Stage.phase]
    rw [Handshake.abort_of_established eq, Record.abort, if_pos done]
    exact of
  · have going : r.phase ≠ .established := by
      rw [of.phase]
      exact mt Handshake.phase_eq_established.mp eq
    have stage := Handshake.stage_abort eq
    rw [Record.abort, if_neg going]
    obtain ⟨role, offered, st⟩ := h
    refine ⟨?_, ?_, ?_, ?_, ?_⟩
    · cases st <;> exact of.role
    · cases st <;> exact of.offered
    · rw [stage, Stage.phase]
    · rw [stage]
      exact nofun
    · rw [stage, Stage.preferences?]

/-- A record gives the same answer to every call as its handshake, and stays one of it. -/
lemma Of.act (of : Of h r) (call : Call) :
    (r.act call).1 = (h.act call).1 ∧ Of (h.act call).2 (r.act call).2 := by
  have aborted := of.abort
  -- With the fields written out, both sides run through the same branches.
  obtain ⟨role, offered, stage⟩ := h
  obtain ⟨role', offered', phase, localHello, preferences⟩ := r
  obtain ⟨same, same', same'', sent, held⟩ := of
  dsimp only at same same' same'' sent held
  subst same same' same'' held
  cases call with
  | abort => exact ⟨rfl, aborted⟩
  | start =>
    cases stage with
    | idle => exact ⟨rfl, rfl, rfl, rfl, fun eq => congrArg some (Stage.helloSent.inj eq), rfl⟩
    | _ => exact ⟨rfl, aborted⟩
  | establish =>
    cases stage with
    | negotiated => exact ⟨rfl, rfl, rfl, rfl, Stage.noConfusion, rfl⟩
    | _ => exact ⟨rfl, aborted⟩
  | receiveHello remote =>
    cases stage with
    | helloSent hello =>
      obtain rfl := sent rfl
      simp only [Record.act, Record.receiveHello, Record.negotiate, Handshake.act,
        Handshake.receiveHello, Stage.phase, ne_eq, not_true_eq_false, if_false]
      cases Handshake.negotiate role' offered' hello remote with
      | ok => exact ⟨rfl, rfl, rfl, rfl, Stage.noConfusion, rfl⟩
      | error => exact ⟨rfl, aborted⟩
    | _ => exact ⟨rfl, aborted⟩

end Record

/-! ## The main result -/

namespace Record

/-- What is needed in the phase is there, and preferences are held in no other. -/
structure Held (r : Record) : Prop where
  preferences : r.preferences.isSome ↔ r.phase = .negotiated
  localHello : r.phase = .helloSent → r.localHello.isSome

/-- A record of a handshake holds what is needed in its phase. -/
lemma Of.held {h : Handshake} {r : Record} (of : Of h r) : r.Held := by
  obtain ⟨-, -, phase, sent, preferences⟩ := of
  refine ⟨?_, ?_⟩
  · rw [preferences, phase]
    cases h.stage <;> simp [Stage.preferences?, Stage.phase]
  · rw [phase]
    cases eq : h.stage with
    | helloSent hello => simp [sent eq]
    | _ => exact nofun

end Record

/-- How a handshake has got on that gave the answers, and how it gets on with the next call. -/
structure Staged (answers : List Answered) (h : Handshake) : Prop where
  moves call : Moves h.stage.phase (h.act call).2.stage.phase
  /-- A call that fails ends the handshake. -/
  fails {call} : (h.act call).1.Refused → h.stage.phase ≠ .established →
    (h.act call).2.stage.phase = .failed
  /-- An established session is not touched by a call that fails. -/
  keeps {call} : (h.act call).1.Refused → h.stage.phase = .established → (h.act call).2 = h
  /-- Preferences are handed out once, after one exchange of hellos, which they name. -/
  handout {before preferences after} :
    answers = before ++ .established (.ok preferences) :: after →
    Exchanged before preferences ∧ before.filterMap Answered.handout? = [] ∧
      after.filterMap Answered.handout? = []

/-- Whatever a new handshake is asked, it gets on from phase to phase or fails, and hands out once
what follows from the hellos. A record of it gives the same answers, and never misses its own hello
or the preferences where they are needed. -/
theorem run_staged (role : Role) (offered : CapabilitySet) (calls : List Call) :
    let asked := Call.run act (new role offered) calls
    let kept := Call.run Record.act (.new role offered) calls
    Staged asked.1 asked.2 ∧ kept.1 = asked.1 ∧ kept.2.phase = asked.2.stage.phase ∧
      kept.2.Held := by
  intro asked kept
  obtain ⟨same, of⟩ :=
    Call.run_eq (Record.Of.new role offered) (fun call of => of.act call) calls
  refine ⟨⟨moves_act _, ?_, ?_, ?_⟩, same, of.phase, of.held⟩
  · intro call refused going
    rw [of_refused refused, stage_abort (mt phase_eq_established.mpr going), Stage.phase]
  · intro call refused done
    rw [of_refused refused, abort_of_established (phase_eq_established.mp done)]
  · intro before preferences after eq
    have start : Reached [] (new role offered).stage := .idle rfl rfl rfl
    have all := reached_run start calls
    rw [eq] at all
    refine ⟨?_, all.of_handout⟩
    -- What is handed out was held, at a stage that was reached with the answers before.
    obtain ⟨earlier, call, later, -, rfl, answered⟩ := Call.exists_of_run eq
    have re := reached_run start earlier
    rw [stage_of_handout answered] at re
    cases re with
    | negotiated ex => exact ex

end Handshake

end Netconf
