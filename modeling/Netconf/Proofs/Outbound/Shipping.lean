import Mathlib.Logic.Function.Iterate
import Netconf.Proofs.Outbound.Carrying

/-!
# Runs of the writer

Senders and the writer take turns in any order. A message enters the channel when it is accepted.
The writer collects a batch from the channel, offers it to the transport in as many calls as that
needs, has it flushed, and begins anew; when there are no more senders and nothing is left, it shuts
the transport down. However they take turns and however the transport cuts what it is offered, it
takes the messages as they entered the channel, one after the other (`Shipment.run_in_order`).
A writer that always takes as many messages as there are runs like this too
(`Shipment.exists_run_eq`).
-/

namespace Netconf

namespace Outbound

/-- Moves one message from the channel to the batch, if the batch is not too long. -/
def receive (o : Outbound) : Outbound :=
  match o.channel with
  | [] => o
  | framed :: rest =>
    if o.batch.length < maxBatch then
      { o with
        batch := o.batch ++ [framed]
        channel := rest
        unwritten := remainingSlices 0 (o.batch ++ [framed]) }
    else o

/-- The message that enters the channel when a sender moves. -/
def Sender.entering : Sender → Sender → List Bytes
  | .counted framed, .done (.ok ()) => [framed]
  | _, _ => []

/-- Nothing enters with a sender that stays as it is. -/
lemma Sender.entering_self (sender : Sender) : sender.entering sender = [] := by
  cases sender <;> rfl

/-! ## Passing batches on -/

section

variable {τ : Type} {write : List Bytes → τ → Written × τ} {flush : τ → Option String × τ}
  {o : Outbound}

/-- When the transport takes no more for now, something is left. -/
lemma ne_nil_of_blocked {slices left : List Bytes} {t u : τ}
    (blocked : writeBatch write slices t = (.blocked left, u)) : left ≠ [] := by
  induction slices, t using writeBatch.induct write with
  | case1 =>
    rw [writeBatch, dif_pos rfl] at blocked
    cases blocked
  | case2 slices t some u stalled =>
    rw [writeBatch, dif_neg some, stalled] at blocked
    cases blocked
  | case3 slices t some n u accepted _ ih =>
    rw [writeBatch, dif_neg some, accepted] at blocked
    exact ih blocked
  | case4 slices t some u waits =>
    rw [writeBatch, dif_neg some, waits] at blocked
    cases blocked
    exact some
  | case5 slices t some reason u failed =>
    rw [writeBatch, dif_neg some, failed] at blocked
    cases blocked

/-- What writing the batch and flushing has come to. -/
def concluded (o : Outbound) : BatchResult × τ → Outbound × τ
  | (.complete, t) => (o.finishBatch, t)
  | (.blocked slices, t) => ({ o with unwritten := slices }, t)
  | (.failed _ reason, t) => (o.fail (.transport reason), t)

/-- A batch is passed on by writing what is left of it and then having the transport flushed. -/
lemma passOn_eq (write : List Bytes → τ → Written × τ) (flush : τ → Option String × τ)
    (some : o.batch ≠ []) (t : τ) :
    o.passOn write flush t = o.concluded (writeAndFlush write flush o.unwritten t) := by
  rw [passOn, writeOut, writeAndFlush]
  cases written : writeBatch write o.unwritten t with
  | mk result u =>
  cases result with
  | complete =>
    have taken : { o with unwritten := [] }.isTaken = true := by simp [isTaken, some]
    simp only [flushOut, flushed, taken, if_true]
    cases (flush u).1 <;> rfl
  | blocked left =>
    have untaken : { o with unwritten := left }.isTaken = false := by
      simp [isTaken, ne_nil_of_blocked written]
    simp only [flushOut, untaken]
    rfl
  | failed => rfl

/-- There is nothing to pass on when there is no batch. -/
lemma passOn_of_idle (idle : o.batch = []) (none : o.unwritten = []) (t : τ) :
    o.passOn write flush t = (o, t) := by
  have complete : writeBatch write o.unwritten t = (.complete, t) := by
    rw [writeBatch, dif_pos none]
  have same : { o with unwritten := [] } = o := by rw [← none]
  have untaken : o.isTaken = false := by simp [isTaken, idle]
  simp only [passOn, writeOut, complete, same, flushOut, untaken]
  rfl

end

end Outbound

open Outbound

/-- What a writer is at. -/
inductive Shipment.Phase where
  /-- It collects a batch. -/
  | collecting
  /-- It writes a batch, of which the transport has not taken all yet. -/
  | writing
  /-- The transport has taken the batch and is to be flushed. -/
  | flushing
  /-- A call of the transport has failed. -/
  | broken (reason : String)
  /-- The transport was shut down. -/
  | shut
  deriving DecidableEq

/-- Messages on their way out, and all that came of them. -/
structure Shipment where
  outbound : Outbound
  /-- The senders that are ready to wait, as far as they got. -/
  senders : List Sender
  /-- The messages that were accepted, in the order in which they entered the channel. -/
  entered : List Bytes
  phase : Shipment.Phase
  /-- The bytes that the transport has taken. -/
  taken : Bytes

namespace Shipment

/-- What can happen to a shipment. -/
inductive Act where
  | trySend (framed : Bytes)
  /-- Begins to send a message, ready to wait. -/
  | send (framed : Bytes)
  /-- A sender goes on. -/
  | proceed (k : Nat)
  /-- The time of a sender runs out, or it is dropped. -/
  | abandon (k : Nat)
  /-- All handles are dropped, and the senders with them. -/
  | release
  /-- The writer takes one more message into its batch. -/
  | receive
  /-- The writer offers what is left of its batch, and the transport answers so. -/
  | write (planned : List Written)
  /-- The transport is flushed, which fails for a reason or does not. -/
  | flush (failure : Option String)
  /-- The writer ends because a call has failed. -/
  | close
  /-- The transport is shut down. -/
  | shutDown (failure : Option String)

/-- Nothing was sent yet. -/
def new (mode : Framing.Mode) (config : Config) : Shipment :=
  ⟨.new mode config, [], [], .collecting, []⟩

/-! ## Acts -/

/-- Tries to send a message if there is still a handle. -/
def trySend (s : Shipment) (framed : Bytes) : Shipment :=
  if s.outbound.released then s
  else
    match s.outbound.trySend framed with
    | (.ok (), o) => { s with outbound := o, entered := s.entered ++ [framed] }
    | (.error _, o) => { s with outbound := o }

/-- Begins to send a message if there is still a handle. -/
def send (s : Shipment) (framed : Bytes) : Shipment :=
  if s.outbound.released then s else { s with senders := s.senders ++ [.checking framed] }

def proceed (s : Shipment) (k : Nat) : Shipment :=
  match s.senders[k]? with
  | some sender =>
    let (sender', o) := s.outbound.move sender
    { s with
      outbound := o
      senders := s.senders.set k sender'
      entered := s.entered ++ sender.entering sender' }
  | none => s

def release (s : Shipment) : Shipment :=
  { s with outbound := s.outbound.release, senders := [] }

def receive (s : Shipment) : Shipment :=
  if s.phase = .collecting then { s with outbound := s.outbound.receive } else s

/-- Whether the writer has a batch to offer. -/
def offers (s : Shipment) : Bool :=
  s.phase = .writing || s.phase = .collecting && !s.outbound.batch.isEmpty

/-- What writing the batch has come to. -/
def wrote (s : Shipment) : BatchResult × Sink → Shipment
  | (.complete, sink) =>
    { s with
      outbound := { s.outbound with unwritten := [] }
      phase := .flushing
      taken := sink.taken }
  | (.blocked slices, sink) =>
    { s with
      outbound := { s.outbound with unwritten := slices }
      phase := .writing
      taken := sink.taken }
  | (.failed _ reason, sink) =>
    { s with
      outbound := s.outbound.finishBatch
      phase := .broken reason
      taken := sink.taken }

def write (s : Shipment) (planned : List Written) : Shipment :=
  if s.offers then
    s.wrote (writeBatch Sink.write s.outbound.unwritten ⟨planned, s.taken⟩)
  else s

def flush (s : Shipment) (failure : Option String) : Shipment :=
  if s.phase = .flushing then
    { s with
      outbound := s.outbound.finishBatch
      phase := failure.elim .collecting .broken }
  else s

def close (s : Shipment) : Shipment :=
  match s.phase with
  | .broken reason => { s with outbound := s.outbound.fail (.transport reason) }
  | _ => s

def shutDown (s : Shipment) (failure : Option String) : Shipment :=
  if s.phase = .collecting && s.outbound.isDrained then
    { s with
      outbound :=
        { s.outbound with
          writer := failure.elim .finished fun reason => .failed (.transport reason) }
      phase := .shut }
  else s

/-- The shipment after one more act. -/
def act (s : Shipment) : Act → Shipment
  | .trySend framed => s.trySend framed
  | .send framed => s.send framed
  | .proceed k => s.proceed k
  | .abandon k => { s with senders := s.senders.eraseIdx k }
  | .release => s.release
  | .receive => s.receive
  | .write planned => s.write planned
  | .flush failure => s.flush failure
  | .close => s.close
  | .shutDown failure => s.shutDown failure

/-- The shipment after some more acts. -/
def run (s : Shipment) (acts : List Act) : Shipment :=
  acts.foldl act s

/-- Acts one after the other come to the same as all of them together. -/
lemma run_append (s : Shipment) (acts more : List Act) :
    s.run (acts ++ more) = (s.run acts).run more :=
  List.foldl_append

/-- A call of the transport has failed. -/
def IsBroken (s : Shipment) : Prop :=
  ∃ reason, s.phase = .broken reason

/-! ## What is on the way -/

/-- As long as no call fails, what the transport has taken and what is on the way make up what has
entered the channel. -/
inductive Stands (entered taken : Bytes) (o : Outbound) : Phase → Prop where
  | collecting :
    o.writer = .running → o.unwritten = remainingSlices 0 o.batch →
    taken ++ (o.unwritten.flatten ++ o.channel.flatten) = entered →
    Stands entered taken o .collecting
  | writing :
    o.writer = .running → o.batch ≠ [] → (∀ slice ∈ o.unwritten, slice ≠ []) →
    taken ++ (o.unwritten.flatten ++ o.channel.flatten) = entered →
    Stands entered taken o .writing
  | flushing :
    o.writer = .running → o.unwritten = [] → taken ++ o.channel.flatten = entered →
    Stands entered taken o .flushing
  | broken {reason} :
    taken <+: entered →
    Stands entered taken o (.broken reason)
  | shut :
    o.writer ≠ .running → o.released = true → taken = entered →
    Stands entered taken o .shut

/-- What the transport has taken and what is on the way is as it should be. -/
def Sound (s : Shipment) : Prop :=
  Stands s.entered.flatten s.taken s.outbound s.phase

section

variable {entered taken : Bytes} {o : Outbound} {phase : Phase}

/-- The transport has taken the first of what has entered the channel. -/
lemma Stands.first (stands : Stands entered taken o phase) : taken <+: entered := by
  cases stands with
  | collecting _ _ eq => exact ⟨_, eq⟩
  | writing _ _ _ eq => exact ⟨_, eq⟩
  | flushing _ _ eq => exact ⟨_, eq⟩
  | broken first => exact first
  | shut _ _ eq => exact eq ▸ List.prefix_rfl

/-- The count of messages does not matter. -/
lemma Stands.recount (stands : Stands entered taken o phase) (pending : Nat) :
    Stands entered taken { o with pending := pending } phase := by
  cases stands with
  | collecting running all eq => exact .collecting running all eq
  | writing running some solid eq => exact .writing running some solid eq
  | flushing running none eq => exact .flushing running none eq
  | broken first => exact .broken first
  | shut ended released eq => exact .shut ended released eq

/-- What is on the way is as before when there are no more senders. -/
lemma Stands.release (stands : Stands entered taken o phase) :
    Stands entered taken o.release phase := by
  cases stands with
  | collecting running all eq => exact .collecting running all eq
  | writing running some solid eq => exact .writing running some solid eq
  | flushing running none eq => exact .flushing running none eq
  | broken first => exact .broken first
  | shut ended _ eq => exact .shut ended rfl eq

/-- A message comes last that enters the channel. -/
lemma Stands.put (stands : Stands entered taken o phase) (running : o.writer = .running)
    (framed : Bytes) : Stands (entered ++ framed) taken (o.put framed) phase := by
  have flatten : (o.channel ++ [framed]).flatten = o.channel.flatten ++ framed := by simp
  cases stands with
  | collecting _ all eq =>
    exact .collecting running all (by simp only [Outbound.put, flatten, ← eq, List.append_assoc])
  | writing _ some solid eq =>
    exact .writing running some solid
      (by simp only [Outbound.put, flatten, ← eq, List.append_assoc])
  | flushing _ none eq =>
    exact .flushing running none (by simp only [Outbound.put, flatten, ← eq, List.append_assoc])
  | broken first => exact .broken (first.trans (List.prefix_append _ _))
  | shut ended => exact absurd running ended

end

/-- Nothing is on the way when nothing was sent yet. -/
lemma sound_new (mode : Framing.Mode) (config : Config) : (new mode config).Sound :=
  .collecting rfl rfl rfl

namespace Sound

variable {s : Shipment}

/-- A message that enters the channel is on the way behind all others. -/
lemma enter (sound : s.Sound) (running : s.outbound.writer = .running) (framed : Bytes) :
    Stands (s.entered ++ [framed]).flatten s.taken (s.outbound.put framed) s.phase := by
  rw [List.flatten_append, List.flatten_singleton]
  exact Stands.put sound running framed

/-- A shipment stays sound when a message is tried to be sent. -/
lemma trySend (sound : s.Sound) (framed : Bytes) : (s.trySend framed).Sound := by
  rw [Shipment.trySend]
  split
  · exact sound
  · have result := tried s.outbound framed
    generalize s.outbound.trySend framed = after at result ⊢
    cases result with
    | taken running => exact (sound.enter running framed).recount _
    | full => exact sound
    | closed => exact sound

/-- A shipment stays sound when a sender goes on. -/
lemma proceed (sound : s.Sound) (k : Nat) : (s.proceed k).Sound := by
  rw [Shipment.proceed]
  split
  · next sender _ =>
    have result := moved s.outbound sender
    -- The count apart, the outbound side is the same unless a message enters the channel.
    have silent {pending : Nat} : Stands (s.entered ++ []).flatten s.taken
        { s.outbound with pending := pending } s.phase := by
      rw [List.append_nil]
      exact sound.recount pending
    generalize s.outbound.move sender = after at result ⊢
    cases result with
    | stays =>
      simp only [Sender.entering_self]
      exact silent
    | counts => exact silent
    | enters running => exact sound.enter running _
    | gives => exact silent
    | returns => exact silent
  · exact sound

/-- A shipment stays sound when the writer takes a message into its batch. -/
lemma receive (sound : s.Sound) : s.receive.Sound := by
  rw [Shipment.receive]
  split
  · next collecting =>
    rw [Sound, collecting] at sound
    obtain ⟨running, all, eq⟩ := sound
    change Stands _ _ s.outbound.receive s.phase
    rw [collecting, Outbound.receive]
    split
    · exact .collecting running all eq
    · next framed rest channel =>
      split
      · refine .collecting running rfl ?_
        rw [← eq, all, channel]
        simp [flatten_remainingSlices]
      · exact .collecting running all eq
  · exact sound

/-- The writer that offers a batch is at work, and has written all that is not left of it. -/
lemma of_offers (sound : s.Sound) (offers : s.offers = true) :
    s.outbound.writer = .running ∧ s.outbound.batch ≠ [] ∧
      (∀ slice ∈ s.outbound.unwritten, slice ≠ []) ∧
      s.taken ++ (s.outbound.unwritten.flatten ++ s.outbound.channel.flatten) =
        s.entered.flatten := by
  rw [Sound] at sound
  rw [Shipment.offers] at offers
  cases eq : s.phase with
  | collecting =>
    rw [eq] at sound
    obtain ⟨running, all, eq'⟩ := sound
    have some : s.outbound.batch ≠ [] := by simpa [eq] using offers
    exact ⟨running, some, all ▸ ne_nil_of_mem_remainingSlices, eq'⟩
  | writing =>
    rw [eq] at sound
    obtain ⟨_, _, _⟩ | ⟨running, some, solid, eq'⟩ := sound
    exact ⟨running, some, solid, eq'⟩
  | flushing => simp [eq] at offers
  | broken => simp [eq] at offers
  | shut => simp [eq] at offers

/-- A shipment stays sound whatever the transport takes of the batch. -/
lemma write (sound : s.Sound) (planned : List Written) : (s.write planned).Sound := by
  rw [Shipment.write]
  split
  · next offers =>
    obtain ⟨running, some, solid, eq⟩ := sound.of_offers offers
    have advance := @advance_writeBatch s.outbound.unwritten ⟨planned, s.taken⟩ solid
    generalize writeBatch Sink.write s.outbound.unwritten ⟨planned, s.taken⟩ = result at advance ⊢
    cases advance with
    | @complete sink taken =>
      have all : sink.taken ++ s.outbound.channel.flatten = s.entered.flatten := by
        rw [← eq, taken, List.append_assoc]
      exact .flushing running rfl all
    | @blocked left sink _ solid _ taken =>
      have all : sink.taken ++ (left.flatten ++ s.outbound.channel.flatten) =
          s.entered.flatten := by
        rw [← eq, ← List.append_assoc, taken, List.append_assoc]
      exact .writing running some solid all
    | @failed left _ sink _ _ taken =>
      have all : sink.taken ++ (left.flatten ++ s.outbound.channel.flatten) =
          s.entered.flatten := by
        rw [← eq, ← List.append_assoc, taken, List.append_assoc]
      exact .broken ⟨_, all⟩
  · exact sound

/-- A shipment stays sound when the transport is flushed, also if that fails. -/
lemma flush (sound : s.Sound) (failure : Option String) : (s.flush failure).Sound := by
  rw [Shipment.flush]
  split
  · next flushing =>
    rw [Sound, flushing] at sound
    cases sound with
    | flushing running none eq =>
    cases failure with
    | none => exact .collecting running rfl eq
    | some => exact .broken ⟨_, eq⟩
  · exact sound

/-- A shipment stays sound when the writer ends because a call has failed. -/
lemma close (sound : s.Sound) : s.close.Sound := by
  rw [Shipment.close]
  split
  · next broken =>
    have first := Stands.first sound
    change Stands _ _ _ s.phase
    rw [broken]
    exact .broken first
  · exact sound

/-- A writer that has nothing left has written all. -/
lemma shutDown (sound : s.Sound) (failure : Option String) : (s.shutDown failure).Sound := by
  rw [Shipment.shutDown]
  split
  · next drained =>
    simp only [isDrained, Bool.and_eq_true, decide_eq_true_iff, List.isEmpty_iff] at drained
    obtain ⟨collecting, ⟨⟨-, released⟩, batch⟩, channel⟩ := drained
    rw [Sound, collecting] at sound
    obtain ⟨-, all, eq⟩ := sound
    refine .shut ?_ released ?_
    · cases failure <;> exact nofun
    · rw [← eq, all, batch, channel]
      simp [remainingSlices]
  · exact sound

/-- A shipment stays sound in every act. -/
lemma act (sound : s.Sound) (a : Act) : (s.act a).Sound := by
  cases a with
  | trySend framed => exact sound.trySend framed
  | send framed =>
    rw [Shipment.act, Shipment.send]
    split <;> exact sound
  | proceed k => exact sound.proceed k
  | abandon => exact sound
  | release => exact Stands.release sound
  | receive => exact sound.receive
  | write planned => exact sound.write planned
  | flush failure => exact sound.flush failure
  | close => exact sound.close
  | shutDown failure => exact sound.shutDown failure

/-- A shipment stays sound in every run. -/
lemma run (sound : s.Sound) (acts : List Act) : (s.run acts).Sound :=
  List.foldlRecOn (motive := Sound) acts Shipment.act sound fun _ sound a _ => sound.act a

end Sound

/-! ## After a failure -/

section

variable {s : Shipment} {a : Act} {reason : String}

/-- Trying to send a message leaves alone what the writer is at and what was taken. -/
lemma trySend_kept (framed : Bytes) :
    (s.trySend framed).phase = s.phase ∧ (s.trySend framed).taken = s.taken := by
  rw [trySend]
  split
  · exact ⟨rfl, rfl⟩
  · split <;> exact ⟨rfl, rfl⟩

/-- A sender that goes on leaves alone what the writer is at and what was taken. -/
lemma proceed_kept (k : Nat) : (s.proceed k).phase = s.phase ∧ (s.proceed k).taken = s.taken := by
  rw [proceed]
  split <;> exact ⟨rfl, rfl⟩

/-- When a call has failed, no act makes up for it. -/
lemma act_of_broken (broken : s.phase = .broken reason) :
    (s.act a).phase = .broken reason ∧ (s.act a).taken = s.taken := by
  have offers : s.offers = false := by simp [offers, broken]
  cases a with
  | trySend framed => exact broken ▸ trySend_kept framed
  | send framed =>
    rw [act, send]
    split <;> exact ⟨broken, rfl⟩
  | proceed k => exact broken ▸ proceed_kept k
  | abandon => exact ⟨broken, rfl⟩
  | release => exact ⟨broken, rfl⟩
  | receive =>
    rw [act, receive, broken, if_neg nofun]
    exact ⟨broken, rfl⟩
  | write =>
    rw [act, write, offers, if_neg nofun]
    exact ⟨broken, rfl⟩
  | flush =>
    rw [act, flush, broken, if_neg nofun]
    exact ⟨broken, rfl⟩
  | close =>
    rw [act, close]
    split <;> exact ⟨broken, rfl⟩
  | shutDown =>
    simp only [act, shutDown, broken]
    exact ⟨broken, rfl⟩

/-- When a call has failed, nothing more is taken in any run. -/
lemma run_of_broken (broken : s.phase = .broken reason) (acts : List Act) :
    (s.run acts).phase = .broken reason ∧ (s.run acts).taken = s.taken :=
  List.foldlRecOn (motive := fun t => t.phase = .broken reason ∧ t.taken = s.taken) acts act
    ⟨broken, rfl⟩ fun _ kept _ _ =>
      have next := act_of_broken kept.1
      ⟨next.1, next.2.trans kept.2⟩

/-! ## When the writer has ended -/

/-- When the writer has ended, a message that is tried to be sent is refused. -/
lemma trySend_of_ended {o : Outbound} (ended : o.writer ≠ .running) (framed : Bytes) :
    ∃ e, o.trySend framed = (.error e, o) := by
  have result := tried o framed
  generalize o.trySend framed = after at result ⊢
  cases result with
  | taken running => exact absurd running ended
  | full => exact ⟨_, rfl⟩
  | closed => exact ⟨_, rfl⟩

/-- When the writer has ended, a sender that waits for room is refused. -/
lemma move_of_ended {o : Outbound} (ended : o.writer ≠ .running) (framed : Bytes) :
    (o.move (.counted framed)).1 = .done (.error .connectionClosed) := by
  rw [move, room_eq_closed_iff.mpr ended]

/-- A sender that begins when the writer has ended does not have to wait for the refusal. -/
lemma send_of_ended {o : Outbound} (ended : o.writer ≠ .running) (framed : Bytes) :
    (o.send framed).1 = .done (.error .connectionClosed) := by
  rw [Outbound.send]
  cases full : o.isFull with
  | true => simp [move, full, ended]
  | false =>
    have counted : o.move (.checking framed) = (.counted framed, o.count) := by simp [move, full]
    rw [counted]
    exact @move_of_ended o.count ended framed

/-- When the writer has ended, it stays so, and nothing enters the channel any more. -/
lemma act_of_ended (ended : s.outbound.writer ≠ .running) :
    (s.act a).outbound.writer ≠ .running ∧ (s.act a).entered = s.entered := by
  cases a with
  | trySend framed =>
    obtain ⟨e, eq⟩ := trySend_of_ended ended framed
    simp only [act, trySend, eq]
    split <;> exact ⟨ended, rfl⟩
  | send =>
    rw [act, send]
    split <;> exact ⟨ended, rfl⟩
  | proceed k =>
    rw [act, proceed]
    split
    · next sender _ =>
      -- Only a running writer lets the message enter.
      have result := moved s.outbound sender
      have silent : s.entered ++ [] = s.entered := List.append_nil _
      generalize s.outbound.move sender = after at result ⊢
      cases result with
      | stays =>
        simp only [Sender.entering_self]
        exact ⟨ended, silent⟩
      | counts => exact ⟨ended, silent⟩
      | enters running => exact absurd running ended
      | gives => exact ⟨ended, silent⟩
      | returns => exact ⟨ended, silent⟩
    · exact ⟨ended, rfl⟩
  | abandon => exact ⟨ended, rfl⟩
  | release => exact ⟨ended, rfl⟩
  | receive =>
    rw [act, receive]
    split
    · refine ⟨?_, rfl⟩
      simp only [Outbound.receive]
      split
      · exact ended
      · split <;> exact ended
    · exact ⟨ended, rfl⟩
  | write =>
    rw [act, write]
    split
    · rw [wrote.eq_def]
      split <;> exact ⟨ended, rfl⟩
    · exact ⟨ended, rfl⟩
  | flush =>
    rw [act, flush]
    split <;> exact ⟨ended, rfl⟩
  | close =>
    rw [act, close]
    split
    · exact ⟨nofun, rfl⟩
    · exact ⟨ended, rfl⟩
  | shutDown failure =>
    rw [act, shutDown]
    split
    · exact ⟨by cases failure <;> exact nofun, rfl⟩
    · exact ⟨ended, rfl⟩

/-- When the writer has ended, nothing enters the channel in any run. -/
lemma run_of_ended (ended : s.outbound.writer ≠ .running) (acts : List Act) :
    (s.run acts).outbound.writer ≠ .running ∧ (s.run acts).entered = s.entered :=
  List.foldlRecOn (motive := fun t => t.outbound.writer ≠ .running ∧ t.entered = s.entered) acts act
    ⟨ended, rfl⟩ fun _ kept _ _ =>
      have next := act_of_ended kept.1
      ⟨next.1, next.2.trans kept.2⟩

end

/-! ## Coming to the end -/

/-- Whatever is left of a batch can be taken in one call. -/
lemma writeBatch_all {slices : List Bytes} (solid : ∀ slice ∈ slices, slice ≠ []) (taken : Bytes) :
    ∃ sink, writeBatch Sink.write slices ⟨[.accepted slices.flatten.length], taken⟩ =
      (.complete, sink) := by
  rw [writeBatch]
  split
  · exact ⟨_, rfl⟩
  · next left =>
    have none : remainingSlices slices.flatten.length slices = [] :=
      remainingSlices_eq_nil_iff.mpr (Nat.le_refl _)
    have pos := List.length_pos_iff.mpr (flatten_ne_nil solid left)
    rw [Sink.write_accepted, List.take_length]
    generalize slices.flatten.length = n at none pos ⊢
    cases n with
    | zero => exact absurd pos (Nat.lt_irrefl 0)
    | succ n =>
      simp only [none]
      exact ⟨_, by rw [writeBatch, dif_pos rfl]⟩

/-- The writer is done with its batch, and all else is as before. -/
structure Done (s t : Shipment) : Prop where
  phase : t.phase = .collecting
  batch : t.outbound.batch = []
  channel : t.outbound.channel = s.outbound.channel
  released : t.outbound.released = s.outbound.released
  entered : t.entered = s.entered

section

variable {s : Shipment}

/-- The writer is done with its batch when the transport is flushed. -/
lemma done_flush (flushing : s.phase = .flushing) : Done s (s.flush none) := by
  rw [flush, if_pos flushing]
  exact ⟨rfl, rfl, rfl, rfl, rfl⟩

/-- A batch can be taken whole and the transport flushed, so that the writer is done with it. -/
lemma exists_done (sound : s.Sound) (offers : s.offers = true) :
    ∃ planned, Done s (s.run [.write planned, .flush none]) := by
  obtain ⟨-, -, solid, -⟩ := sound.of_offers offers
  obtain ⟨sink, all⟩ := writeBatch_all solid s.taken
  refine ⟨[.accepted s.outbound.unwritten.flatten.length], ?_⟩
  change Done s ((s.write _).flush none)
  rw [write, if_pos offers, all]
  exact ⟨rfl, rfl, rfl, rfl, rfl⟩

/-- The transport can be shut down, and nothing enters the channel until then. -/
def Ends (s : Shipment) : Prop :=
  ∃ acts, (s.run acts).phase = .shut ∧ (s.run acts).entered = s.entered

/-- The transport can be shut down if it can be after some acts in which nothing enters. -/
lemma Ends.of_run {acts : List Act} (ends : (s.run acts).Ends)
    (same : (s.run acts).entered = s.entered) : s.Ends := by
  obtain ⟨more, shut, eq⟩ := ends
  exact ⟨acts ++ more, run_append s acts more ▸ shut, run_append s acts more ▸ eq.trans same⟩

/-- The writer takes the messages in the channel one by one. -/
lemma ends_of_idle (sound : s.Sound) (released : s.outbound.released = true)
    (collecting : s.phase = .collecting) (idle : s.outbound.batch = []) : s.Ends := by
  generalize channel : s.outbound.channel = c
  induction c generalizing s with
  | nil =>
    have running : s.outbound.writer = .running := by
      rw [Sound, collecting] at sound
      cases sound with
      | collecting running => exact running
    have drained : s.outbound.isDrained = true := by
      simp [isDrained, running, released, idle, channel]
    refine ⟨[.shutDown none], ?_⟩
    change (s.shutDown none).phase = .shut ∧ (s.shutDown none).entered = s.entered
    rw [shutDown, collecting, drained]
    exact ⟨rfl, rfl⟩
  | cons framed rest ih =>
    have received : s.receive =
        { s with outbound := { s.outbound with
            batch := [framed], channel := rest, unwritten := remainingSlices 0 [framed] } } := by
      rw [receive, if_pos collecting, Outbound.receive]
      simp [channel, idle, maxBatch]
    have offers : s.receive.offers = true := by
      rw [received]
      simp [Shipment.offers, collecting]
    -- The message goes out as a batch of its own, and there is one less in the channel.
    obtain ⟨planned, done⟩ := exists_done sound.receive offers
    have ends : (s.receive.run [.write planned, .flush none]).Ends := by
      refine ih (sound.receive.run _) (done.released.trans ?_) done.phase done.batch
        (done.channel.trans ?_)
      · rw [received]
        exact released
      · rw [received]
    have same : s.receive.entered = s.entered := by rw [received]
    exact @Ends.of_run s [.receive, .write planned, .flush none] ends (done.entered.trans same)

/-- As long as no call has failed, the writer can come to its end when there are no more
senders. -/
lemma ends_of_released (sound : s.Sound) (released : s.outbound.released = true)
    (whole : ¬s.IsBroken) : s.Ends := by
  have ends_of_offers (offers : s.offers = true) : s.Ends := by
    obtain ⟨planned, done⟩ := exists_done sound offers
    exact Ends.of_run (ends_of_idle (sound.run _) (done.released.trans released) done.phase
      done.batch) done.entered
  cases eq : s.phase with
  | collecting =>
    by_cases idle : s.outbound.batch = []
    · exact ends_of_idle sound released eq idle
    · exact ends_of_offers (by simp [offers, eq, idle])
  | writing => exact ends_of_offers (by simp [offers, eq])
  | flushing =>
    have done := done_flush eq
    exact @Ends.of_run s [.flush none] (ends_of_idle (sound.flush none)
      (done.released.trans released) done.phase done.batch) done.entered
  | broken reason => exact absurd ⟨reason, eq⟩ whole
  | shut => exact ⟨[], eq, rfl⟩

end

/-! ## A writer that takes whole batches -/

/-- Messages that are received one by one come into the batch together, as many as fit. -/
lemma iterate_receive {o : Outbound} (all : o.unwritten = remainingSlices 0 o.batch) {n : Nat}
    (fits : o.batch.length + n ≤ maxBatch) :
    Outbound.receive^[n] o =
      { o with
        batch := o.batch ++ o.channel.take n
        channel := o.channel.drop n
        unwritten := remainingSlices 0 (o.batch ++ o.channel.take n) } := by
  induction n generalizing o with
  | zero => simp [← all]
  | succ n ih =>
    rw [Function.iterate_succ_apply, Outbound.receive]
    split
    · next empty =>
      rw [ih all (by omega), empty]
      simp
    · next framed rest channel =>
      rw [if_pos (by omega), ih rfl (by simp; omega), channel]
      simp

/-- A batch is what the channel gives message by message. -/
lemma iterate_receive_eq_takeBatch {o : Outbound} (all : o.unwritten = remainingSlices 0 o.batch)
    (idle : o.batch = []) : Outbound.receive^[maxBatch] o = o.takeBatch := by
  rw [iterate_receive all (by simp [idle]), idle]
  rfl

section

variable {s : Shipment}

/-- A writer that collects can receive any number of messages. -/
lemma run_receive (collecting : s.phase = .collecting) (n : Nat) :
    s.run (List.replicate n .receive) = { s with outbound := Outbound.receive^[n] s.outbound } := by
  induction n generalizing s with
  | zero => rfl
  | succ n ih =>
    rw [List.replicate_succ, run, List.foldl_cons, act, receive, if_pos collecting]
    exact ih collecting

/-- Some acts come to the same as passing a batch on, where a transport takes nothing when it is
flushed. -/
lemma exists_run_passOn {flush : Sink → Option String × Sink}
    (still : ∀ sink, (flush sink).2.taken = sink.taken) (sound : s.Sound)
    (atWork : s.phase = .collecting ∨ s.phase = .writing) (planned : List Written) :
    ∃ acts,
      let after := s.outbound.passOn Sink.write flush ⟨planned, s.taken⟩
      (s.run acts).outbound = after.1 ∧ (s.run acts).taken = after.2.taken ∧
        (after.1.batch = [] → after.1.channel ≠ [] → (s.run acts).phase = .collecting) := by
  cases offers : s.offers with
  | false =>
    -- There is no batch, and all of it is written.
    rcases atWork with collecting | writing
    · have idle : s.outbound.batch = [] := by simpa [Shipment.offers, collecting] using offers
      rw [Sound, collecting] at sound
      obtain ⟨-, all, -⟩ := sound
      rw [idle, remainingSlices] at all
      refine ⟨[], ?_⟩
      simp only [passOn_of_idle idle all]
      exact ⟨rfl, rfl, fun _ _ => collecting⟩
    · simp [Shipment.offers, writing] at offers
  | true =>
    obtain ⟨-, some, -, -⟩ := sound.of_offers offers
    have wrote : s.write planned =
        s.wrote (writeBatch Sink.write s.outbound.unwritten ⟨planned, s.taken⟩) := by
      rw [write, if_pos offers]
    rw [passOn_eq Sink.write flush some, writeAndFlush]
    generalize writeBatch Sink.write s.outbound.unwritten ⟨planned, s.taken⟩ = written at wrote ⊢
    obtain ⟨result, sink⟩ := written
    -- What does not come to pass leaves the shipment as it is.
    refine ⟨[.write planned, .flush (flush sink).1, .close], ?_⟩
    change ((s.write planned).flush _).close.outbound = _ ∧
      ((s.write planned).flush _).close.taken = _ ∧
      (_ → _ → ((s.write planned).flush _).close.phase = _)
    rw [wrote]
    cases result with
    | complete =>
      cases failure : (flush sink).1 with
      | none =>
        simp only [failure]
        exact ⟨rfl, (still sink).symm, fun _ _ => rfl⟩
      | some =>
        simp only [failure]
        exact ⟨rfl, (still sink).symm, fun _ left => absurd rfl left⟩
    | blocked => exact ⟨rfl, rfl, fun idle => absurd idle some⟩
    | failed => exact ⟨rfl, rfl, fun _ left => absurd rfl left⟩

/-- Some acts come to the same as a writer that takes as many messages as there are, batch after
batch. -/
theorem exists_run_eq {flush : Sink → Option String × Sink}
    (still : ∀ sink, (flush sink).2.taken = sink.taken) (sound : s.Sound)
    (atWork : s.phase = .collecting ∨ s.phase = .writing) (planned : List Written) :
    ∃ acts,
      let after := s.outbound.run Sink.write flush ⟨planned, s.taken⟩
      (s.run acts).outbound = after.1 ∧ (s.run acts).taken = after.2.taken := by
  induction size : s.outbound.channel.length using Nat.strong_induction_on generalizing s planned
  next size' ih =>
  obtain ⟨acts, outbound, taken, collecting⟩ := exists_run_passOn still sound atWork planned
  have shorter := length_channel_passOn Sink.write flush s.outbound ⟨planned, s.taken⟩
  rw [Outbound.run]
  split
  next o sink eq =>
  obtain ⟨rest, bytes⟩ := sink
  rw [eq] at outbound taken collecting shorter
  change o.channel.length ≤ _ at shorter
  change _ = bytes at taken
  subst taken
  split
  · next goes =>
    -- The next batch is taken, message by message.
    have collecting := collecting goes.1 goes.2
    have sound := sound.run acts
    have all : o.unwritten = remainingSlices 0 o.batch := by
      rw [Sound, collecting, outbound] at sound
      cases sound with
      | collecting _ all => exact all
    have next : (s.run acts).run (List.replicate maxBatch .receive) =
        { s.run acts with outbound := o.takeBatch } := by
      rw [run_receive collecting, outbound, iterate_receive_eq_takeBatch all goes.1]
    have fewer : o.takeBatch.channel.length < size' := by
      have some := List.length_pos_iff.mpr goes.2
      simp only [takeBatch, List.length_drop, maxBatch]
      omega
    have sound := sound.run (List.replicate maxBatch .receive)
    rw [next] at sound
    obtain ⟨more, done⟩ := ih _ fewer sound (.inl collecting) rest rfl
    refine ⟨acts ++ (List.replicate maxBatch .receive ++ more), ?_⟩
    rw [run_append, run_append, next]
    exact done
  · exact ⟨acts, outbound, rfl⟩

end

/-! ## All runs -/

/-- What has entered the channel is written in order and without gaps, and when nothing more can be
written, nothing more enters. -/
structure InOrder (s : Shipment) : Prop where
  /-- The transport has taken the first of the bytes that have entered the channel. -/
  first : s.taken <+: s.entered.flatten
  /-- The transport is shut down only when there are no more senders and it has taken all. -/
  whole : s.phase = .shut → s.outbound.released = true ∧ s.taken = s.entered.flatten
  /-- When there are no more senders and no call has failed, the writer can come to that. -/
  ends : s.outbound.released = true → ¬s.IsBroken →
    ∃ acts, (s.run acts).phase = .shut ∧ (s.run acts).taken = s.entered.flatten
  /-- The writer comes to its end when a write fails, and what was taken up to then is all. -/
  fails : ∀ planned left reason sink, s.offers = true →
    writeBatch Sink.write s.outbound.unwritten ⟨planned, s.taken⟩ = (.failed left reason, sink) →
    (s.write planned).close.outbound.writer ≠ .running ∧
      ∀ acts, ((s.write planned).run acts).taken = sink.taken
  /-- Nothing more is written when any call has failed. -/
  broken : s.IsBroken → ∀ acts, (s.run acts).IsBroken ∧ (s.run acts).taken = s.taken
  /-- When the writer has ended, all is refused, also what waits for room in the channel. -/
  refuses : s.outbound.writer ≠ .running → ∀ framed,
    (∃ e, (s.outbound.trySend framed).1 = .error e) ∧
      (s.outbound.send framed).1 = .done (.error .connectionClosed) ∧
      (s.outbound.move (.counted framed)).1 = .done (.error .connectionClosed)
  /-- Nothing enters the channel then, whatever happens. -/
  ended : s.outbound.writer ≠ .running → ∀ acts,
    (s.run acts).outbound.writer ≠ .running ∧ (s.run acts).entered = s.entered

/-- A sound shipment is in order. -/
lemma Sound.inOrder {s : Shipment} (sound : s.Sound) : s.InOrder where
  first := Stands.first sound
  whole shut := by
    rw [Sound, shut] at sound
    cases sound with
    | shut _ released eq => exact ⟨released, eq⟩
  ends released whole := by
    obtain ⟨acts, shut, same⟩ := ends_of_released sound released whole
    have stands := sound.run acts
    rw [Sound, shut, same] at stands
    cases stands with
    | shut _ _ eq => exact ⟨acts, shut, eq⟩
  fails planned left reason sink offers failed := by
    have wrote : s.write planned = s.wrote (.failed left reason, sink) := by
      rw [Shipment.write, if_pos offers, failed]
    rw [wrote]
    exact ⟨nofun, fun acts => (run_of_broken rfl acts).2⟩
  broken broken acts := by
    obtain ⟨reason, broken⟩ := broken
    have kept := run_of_broken broken acts
    exact ⟨⟨reason, kept.1⟩, kept.2⟩
  refuses ended framed := by
    obtain ⟨e, eq⟩ := trySend_of_ended ended framed
    exact ⟨⟨e, congrArg Prod.fst eq⟩, send_of_ended ended framed, move_of_ended ended framed⟩
  ended ended acts := run_of_ended ended acts

/-- Whatever senders and the writer do, and however the transport takes what it is offered, it takes
the messages as they entered the channel. -/
theorem run_in_order (mode : Framing.Mode) (config : Config) (acts : List Act) :
    ((new mode config).run acts).InOrder :=
  ((sound_new mode config).run acts).inOrder

end Shipment

end Netconf
