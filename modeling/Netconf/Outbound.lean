import Netconf.Config
import Netconf.Tree.Written

/-!
# Outbound messages

Messages on their way out. Senders frame them and put them into a channel of limited capacity; the
writer takes them from there in batches and writes each batch to the transport, in as many calls as
that needs. All messages that are not written are counted; from a certain number on, senders wait.
-/

namespace Netconf

/-- The answer of a transport to one write call. -/
inductive Written where
  /-- It has taken the first `n` of the offered bytes. -/
  | accepted (n : Nat)
  /-- It takes none for now. -/
  | blocked
  /-- The call fails, with the given text. -/
  | failed (reason : String)
  deriving DecidableEq, Repr

/-- How the writer stands. -/
inductive WriterState where
  | running
  | failed (error : Error)
  /-- All was written and the transport was shut down. -/
  | finished
  deriving DecidableEq, Repr

/-- Messages on their way out. -/
structure Outbound where
  /-- How messages are framed. -/
  mode : Framing.Mode
  chunkSize : Nat
  /-- The number of messages from which on senders wait. -/
  maxPending : Nat
  /-- The number of messages that the channel holds. -/
  capacity : Nat
  /-- Messages counted as not written. -/
  pending : Nat
  channel : List Bytes
  /-- Messages being written. -/
  batch : List Bytes
  /-- What the transport has not taken of them, message by message. -/
  unwritten : List Bytes
  /-- Whether there are no more senders. -/
  released : Bool
  writer : WriterState
  deriving DecidableEq, Repr

namespace Outbound

/-- Nothing on the way out. -/
def new (mode : Framing.Mode) (config : Config) : Outbound where
  mode := mode
  chunkSize := config.outboundChunkSize
  maxPending := config.maxPendingFrames
  capacity := max config.channelCapacity 1
  pending := 0
  channel := []
  batch := []
  unwritten := []
  released := false
  writer := .running

/-- A message in its framed form. -/
def frame (o : Outbound) (message : Node) : Except Error Bytes :=
  (Framing.encode o.mode o.chunkSize message.encode).mapError .framing

/-! ## Senders -/

/-- Whether senders have to wait. -/
def isFull (o : Outbound) : Bool :=
  o.maxPending ≤ o.pending

/-- Whether the channel takes a message. -/
inductive Room where
  | free
  | full
  /-- The writer has come to its end. -/
  | closed
  deriving DecidableEq, Repr

/-- Whether the channel takes a message. -/
def room (o : Outbound) : Room :=
  if o.writer ≠ .running then .closed
  else if o.channel.length < o.capacity then .free
  else .full

/-- Counts a message. -/
def count (o : Outbound) : Outbound :=
  { o with pending := o.pending + 1 }

/-- Takes back the count of a message. -/
def uncount (o : Outbound) : Outbound :=
  { o with pending := o.pending - 1 }

/-- Puts a framed message into the channel. -/
def put (o : Outbound) (framed : Bytes) : Outbound :=
  { o with channel := o.channel ++ [framed] }

/-- Sends a framed message without waiting. -/
def trySend (o : Outbound) (framed : Bytes) : Except Error Unit × Outbound :=
  if o.isFull then (.error .queueFull, o)
  else
    let o := o.count
    match o.room with
    | .free => (.ok (), o.put framed)
    | .full => (.error .queueFull, o.uncount)
    | .closed => (.error .connectionClosed, o.uncount)

/-- How far a sender got that is ready to wait. -/
inductive Sender where
  /-- It waits until there are less messages. -/
  | checking (framed : Bytes)
  /-- Its message is counted, and it waits for room in the channel. -/
  | counted (framed : Bytes)
  | done (result : Except Error Unit)

/-- One move of a sender; it stays as it is if it has to wait. A sender can be dropped before any
move, and its time to wait may run out while it checks: both leave the messages as they are. -/
def move (o : Outbound) : Sender → Sender × Outbound
  | .checking framed =>
    if !o.isFull then (.counted framed, o.count)
    else if o.writer ≠ .running then (.done (.error .connectionClosed), o)
    else (.checking framed, o)
  | .counted framed =>
    match o.room with
    | .free => (.done (.ok ()), o.put framed)
    | .full => (.counted framed, o)
    | .closed => (.done (.error .connectionClosed), o.uncount)
  | .done result => (.done result, o)

/-- Sends a framed message as far as that goes without waiting. -/
def send (o : Outbound) (framed : Bytes) : Sender × Outbound :=
  let (sender, o) := o.move (.checking framed)
  o.move sender

/-- Frames a message and sends it without waiting. -/
def transmit (message : Node) (o : Outbound) : Except Error Unit × Outbound :=
  match o.frame message with
  | .ok framed => o.trySend framed
  | .error e => (.error e, o)

/-- No more messages will be sent. -/
def release (o : Outbound) : Outbound :=
  { o with released := true }

/-! ## The writer -/

/-- The greatest number of messages in a batch. -/
def maxBatch : Nat :=
  64

/-- The bytes of a batch after the first `skipped` ones, message by message, and only of messages of
which there is some left. -/
def remainingSlices (skipped : Nat) : List Bytes → List Bytes
  | [] => []
  | framed :: rest =>
    match framed.drop skipped with
    | [] => remainingSlices (skipped - framed.length) rest
    | slice => slice :: remainingSlices 0 rest

/-- A bound on the write calls that slices can take. -/
def weight (slices : List Bytes) : Nat :=
  slices.length + slices.flatten.length

/-- The weight of some slices is that of all but the first, with the bytes of the first and one
more. -/
theorem weight_cons (slice : Bytes) (rest : List Bytes) :
    weight (slice :: rest) = weight rest + slice.length + 1 := by
  simp only [weight, List.length_cons, List.flatten_cons, List.length_append]
  omega

/-- What is left of some slices weighs no more than they do. -/
theorem weight_remainingSlices_le (skipped : Nat) (slices : List Bytes) :
    weight (remainingSlices skipped slices) ≤ weight slices := by
  induction slices generalizing skipped with
  | nil => simp [remainingSlices]
  | cons framed rest ih =>
    rw [remainingSlices, weight_cons]
    split
    · have := ih (skipped - framed.length)
      omega
    · have := ih 0
      rw [weight_cons, List.length_drop]
      omega

/-- What is left of some slices when a byte is taken weighs less than they do. -/
theorem weight_remainingSlices_lt (skipped : Nat) {slices : List Bytes} (h : slices ≠ []) :
    weight (remainingSlices (skipped + 1) slices) < weight slices := by
  cases slices with
  | nil => contradiction
  | cons framed rest =>
    rw [remainingSlices, weight_cons]
    split
    · have := weight_remainingSlices_le (skipped + 1 - framed.length) rest
      omega
    · next hne =>
      have := weight_remainingSlices_le 0 rest
      have hpos : 0 < (framed.drop (skipped + 1)).length := List.length_pos_iff.2 hne
      rw [List.length_drop] at hpos
      rw [weight_cons, List.length_drop]
      omega

/-- What writing a batch comes to. -/
inductive BatchResult where
  | complete
  /-- The transport takes no more for now; the given slices are left. -/
  | blocked (slices : List Bytes)
  /-- The transport has failed; the given slices are left. -/
  | failed (slices : List Bytes) (reason : String)
  deriving DecidableEq, Repr

section

variable {τ : Type} (write : List Bytes → τ → Written × τ) (flush : τ → Option String × τ)

/-- Writes slices until none is left. A call that takes none of the bytes offered counts as
failed. -/
def writeBatch (slices : List Bytes) (t : τ) : BatchResult × τ :=
  if h : slices = [] then (.complete, t)
  else
    match write slices t with
    | (.accepted 0, t) => (.failed slices "write_vectored returned 0", t)
    | (.accepted (n + 1), t) =>
      have := weight_remainingSlices_lt n h
      writeBatch (remainingSlices (n + 1) slices) t
    | (.blocked, t) => (.blocked slices, t)
    | (.failed reason, t) => (.failed slices reason, t)
termination_by weight slices

/-- Writes slices until none is left, and then has the transport flushed, which fails for a reason
or does not. -/
def writeAndFlush (slices : List Bytes) (t : τ) : BatchResult × τ :=
  match writeBatch write slices t with
  | (.complete, u) => ((flush u).1.elim .complete (.failed []), (flush u).2)
  | unfinished => unfinished

/-- Takes the next batch from the channel. -/
def takeBatch (o : Outbound) : Outbound :=
  let batch := o.channel.take maxBatch
  { o with
    batch := batch
    channel := o.channel.drop maxBatch
    unwritten := remainingSlices 0 batch }

/-- The batch is no longer counted. -/
def finishBatch (o : Outbound) : Outbound :=
  { o with pending := o.pending - o.batch.length, batch := [], unwritten := [] }

/-- The writer ends with an error. What is left in the channel stays counted. -/
def fail (o : Outbound) (error : Error) : Outbound :=
  { o.finishBatch with channel := [], writer := .failed error }

/-- Writes as much of the batch as the transport takes. -/
def writeOut (o : Outbound) (t : τ) : Outbound × τ :=
  match writeBatch write o.unwritten t with
  | (.complete, t) => ({ o with unwritten := [] }, t)
  | (.blocked slices, t) => ({ o with unwritten := slices }, t)
  | (.failed _ reason, t) => (o.fail (.transport reason), t)

/-- Whether the transport has taken the whole batch. -/
def isTaken (o : Outbound) : Bool :=
  !o.batch.isEmpty && o.unwritten.isEmpty

/-- The transport was flushed, which has failed for a reason or has not. The writer is done with a
batch that it has taken. -/
def flushed (o : Outbound) (failure : Option String) : Outbound :=
  if o.isTaken then failure.elim o.finishBatch fun reason => o.fail (.transport reason) else o

/-- Has the transport flushed when that has taken the whole batch. -/
def flushOut (o : Outbound) (t : τ) : Outbound × τ :=
  if o.isTaken then (o.flushed (flush t).1, (flush t).2) else (o, t)

/-- Writes as much of the batch as the transport takes, and has it flushed if that is all. -/
def passOn (o : Outbound) (t : τ) : Outbound × τ :=
  let (o, t) := o.writeOut write t
  o.flushOut flush t

/-- Writing puts nothing into the channel. -/
theorem length_channel_writeOut (o : Outbound) (t : τ) :
    (o.writeOut write t).1.channel.length ≤ o.channel.length := by
  unfold writeOut
  split <;> simp [finishBatch, fail]

/-- Flushing puts nothing into the channel. -/
theorem length_channel_flushOut (o : Outbound) (t : τ) :
    (o.flushOut flush t).1.channel.length ≤ o.channel.length := by
  unfold flushOut flushed
  split
  · cases (flush t).1 <;> simp [finishBatch, fail]
  · exact Nat.le_refl _

/-- Passing a batch on puts nothing into the channel. -/
theorem length_channel_passOn (o : Outbound) (t : τ) :
    (o.passOn write flush t).1.channel.length ≤ o.channel.length :=
  Nat.le_trans (length_channel_flushOut flush _ _) (length_channel_writeOut write o t)

/-- Writes batch after batch as long as the transport takes them. -/
def run (o : Outbound) (t : τ) : Outbound × τ :=
  match h : o.passOn write flush t with
  | (o', t') =>
    if hnext : o'.batch = [] ∧ o'.channel ≠ [] then
      have : o'.takeBatch.channel.length < o.channel.length := by
        have hle := length_channel_passOn write flush o t
        have := List.length_pos_iff.2 hnext.2
        simp only [h] at hle
        simp only [takeBatch, List.length_drop, maxBatch]
        omega
      run o'.takeBatch t'
    else (o', t')
termination_by o.channel.length

end

/-- Whether the writer has nothing left to write and nothing more to expect. -/
def isDrained (o : Outbound) : Bool :=
  o.writer = .running && o.released && o.batch.isEmpty && o.channel.isEmpty

/-- The error with which the writer ended. -/
def failure? (o : Outbound) : Option Error :=
  match o.writer with
  | .failed error => some error
  | _ => none

end Outbound

end Netconf
