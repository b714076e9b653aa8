import Mathlib.Data.List.Perm.Basic
import Netconf.Proofs.Outbound.Shipping

/-!
# Counting messages on their way out

A sender counts its message before it puts it into the channel, and the writer takes a batch off the
count when it has written it. As long as no write has failed, the count is exact
(`Shipment.run_counts`): it is made of the messages in the channel, those in the batch, one for each
sender that waits for room in the channel, and one for each sender that was dropped while it waited
for that. The last ones are stranded. Nothing takes them off the count, and when there are as many
of them as may be pending, no message is accepted any more.
-/

namespace Netconf

namespace Outbound

/-- The number of messages that a sender has counted and that are not in the channel. -/
def Sender.share : Sender → Nat
  | .counted _ => 1
  | .checking _ | .done _ => 0

end Outbound

open Outbound

namespace Shipment

/-- The number of senders that wait for room in the channel. -/
def waiting (s : Shipment) : Nat :=
  (s.senders.map Sender.share).sum

/-- The number of senders that an act drops while they wait for room in the channel. -/
def strandedBy (s : Shipment) : Act → Nat
  | .abandon k => s.senders[k]?.elim 0 Sender.share
  | .release => s.waiting
  | _ => 0

/-- The number of senders that are dropped in some acts while they wait for room in the channel. -/
def stranded (s : Shipment) : List Act → Nat
  | [] => 0
  | a :: acts => s.strandedBy a + (s.act a).stranded acts

/-- The messages in the channel and in the batch are counted, and so is one for each sender that
waits for room in the channel, and for each that was dropped while it did. -/
def Counts (s : Shipment) (stranded : Nat) : Prop :=
  s.outbound.pending =
    s.outbound.channel.length + s.outbound.batch.length + s.waiting + stranded

/-- The count is exact when nothing was sent yet. -/
lemma counts_new (mode : Framing.Mode) (config : Config) : (new mode config).Counts 0 :=
  rfl

/-! ## Senders that go on -/

section

variable {s : Shipment} {stranded k : Nat} {sender : Sender}

/-- The senders that wait are those that do so apart from one, and that one. -/
lemma sum_share_set (there : s.senders[k]? = some sender) (sender' : Sender) :
    ((s.senders.set k sender').map Sender.share).sum =
      sender'.share + ((s.senders.eraseIdx k).map Sender.share).sum := by
  obtain ⟨lt, -⟩ := List.getElem?_eq_some_iff.mp there
  rw [((List.set_perm_cons_eraseIdx lt sender').map Sender.share).sum_nat, List.map_cons,
    List.sum_cons]

/-- The senders that wait are the one at a place, if it does, and those that wait apart from it. -/
lemma waiting_eq (there : s.senders[k]? = some sender) :
    s.waiting = sender.share + ((s.senders.eraseIdx k).map Sender.share).sum := by
  obtain ⟨lt, rfl⟩ := List.getElem?_eq_some_iff.mp there
  rw [← sum_share_set there, List.set_getElem_self, waiting]

namespace Counts

/-- The count stays exact when a message is tried to be sent. -/
lemma trySend (counts : s.Counts stranded) (framed : Bytes) :
    (s.trySend framed).Counts stranded := by
  rw [Shipment.trySend]
  split
  · exact counts
  · have result := tried s.outbound framed
    generalize s.outbound.trySend framed = after at result ⊢
    cases result with
    | taken =>
      simp only [Counts, Shipment.waiting, count, put, List.length_append,
        List.length_singleton] at counts ⊢
      omega
    | full => exact counts
    | closed => exact counts

/-- A sender that begins has not counted its message yet. -/
lemma send (counts : s.Counts stranded) (framed : Bytes) : (s.send framed).Counts stranded := by
  rw [Shipment.send]
  split
  · exact counts
  · simpa [Counts, Shipment.waiting, Sender.share] using counts

/-- Whatever a sender does, it is counted as far as it got. -/
lemma proceed (counts : s.Counts stranded) (k : Nat) : (s.proceed k).Counts stranded := by
  rw [Shipment.proceed]
  split
  · next sender there =>
    have result := moved s.outbound sender
    rw [Counts, waiting_eq there] at counts
    simp only [Counts, Shipment.waiting, sum_share_set there]
    generalize s.outbound.move sender = after at result ⊢
    cases result with
    | stays => exact counts
    | counts =>
      simp only [Sender.share, count] at counts ⊢
      omega
    | enters =>
      simp only [Sender.share, put, List.length_append, List.length_singleton] at counts ⊢
      omega
    | gives => exact counts
    | returns =>
      simp only [Sender.share, uncount] at counts ⊢
      omega
  · exact counts

/-- A sender that is dropped leaves its message counted. -/
lemma abandon (counts : s.Counts stranded) (k : Nat) :
    (s.act (.abandon k)).Counts (stranded + s.strandedBy (.abandon k)) := by
  cases there : s.senders[k]? with
  | none =>
    have out := List.getElem?_eq_none_iff.mp there
    simp only [act, strandedBy, there, List.eraseIdx_of_length_le out]
    exact counts
  | some sender =>
    rw [Counts, waiting_eq there] at counts
    simp only [Counts, act, strandedBy, there, Shipment.waiting, Option.elim_some]
    omega

/-- The senders that are dropped with all handles leave their messages counted. -/
lemma release (counts : s.Counts stranded) :
    s.release.Counts (stranded + s.strandedBy .release) := by
  simp only [Counts, Shipment.release, strandedBy, Outbound.release, Shipment.waiting,
    List.map_nil, List.sum_nil] at counts ⊢
  omega

/-! ## The writer -/

/-- A message that the writer takes into its batch leaves the channel. -/
lemma receive (counts : s.Counts stranded) : s.receive.Counts stranded := by
  rw [Shipment.receive]
  split
  · rw [Outbound.receive]
    split
    · exact counts
    · next framed rest channel =>
      split
      · simp only [Counts, Shipment.waiting, channel, List.length_cons, List.length_append,
          List.length_nil] at counts ⊢
        omega
      · exact counts
  · exact counts

/-- A batch that is done with is no longer counted. -/
lemma finishBatch (counts : s.Counts stranded) :
    s.outbound.finishBatch.pending = s.outbound.channel.length + s.waiting + stranded := by
  rw [Counts] at counts
  simp only [Outbound.finishBatch]
  omega

/-- The count stays exact when the writer offers what is left of its batch. -/
lemma write (counts : s.Counts stranded) (planned : List Written) :
    (s.write planned).Counts stranded := by
  rw [Shipment.write]
  split
  · rw [wrote.eq_def]
    split
    · exact counts
    · exact counts
    · exact counts.finishBatch
  · exact counts

/-- The count stays exact when the transport is flushed. -/
lemma flush (counts : s.Counts stranded) (failure : Option String) :
    (s.flush failure).Counts stranded := by
  rw [Shipment.flush]
  split
  · exact counts.finishBatch
  · exact counts

/-- The count stays exact when the transport is shut down. -/
lemma shutDown (counts : s.Counts stranded) (failure : Option String) :
    (s.shutDown failure).Counts stranded := by
  rw [Shipment.shutDown]
  split <;> exact counts

/-- Until a write has failed, every act keeps the count exact. -/
lemma act (counts : s.Counts stranded) (whole : ¬s.IsBroken) (a : Act) :
    (s.act a).Counts (stranded + s.strandedBy a) := by
  cases a with
  | trySend framed => exact counts.trySend framed
  | send framed => exact counts.send framed
  | proceed k => exact counts.proceed k
  | abandon k => exact counts.abandon k
  | release => exact counts.release
  | receive => exact counts.receive
  | write planned => exact counts.write planned
  | flush failure => exact counts.flush failure
  | close =>
    rw [Shipment.act, Shipment.close]
    split
    · next reason broken => exact absurd ⟨reason, broken⟩ whole
    · exact counts
  | shutDown failure => exact counts.shutDown failure

/-- The count stays exact as long as no write has failed. -/
lemma run (counts : s.Counts stranded) (acts : List Act) (whole : ¬(s.run acts).IsBroken) :
    (s.run acts).Counts (stranded + s.stranded acts) := by
  induction acts generalizing s stranded with
  | nil => exact counts
  | cons a acts ih =>
    have before : ¬s.IsBroken := fun ⟨reason, broken⟩ =>
      whole ⟨reason, (run_of_broken broken (a :: acts)).1⟩
    have after := ih (counts.act before a) whole
    rwa [Nat.add_assoc] at after

end Counts

end

/-! ## All runs -/

/-- The count of messages is exact, and so is what senders and the writer do to it. -/
structure Exact (s : Shipment) (stranded : Nat) : Prop where
  counts : s.Counts stranded
  /-- The count does not run below zero when the writer is done with its batch. -/
  batch_le : s.outbound.batch.length ≤ s.outbound.pending
  /-- Nor when a sender that waits takes its message off the count. -/
  waiting_le : s.waiting ≤ s.outbound.pending
  /-- A message that is refused at once leaves everything as it was. -/
  tried {framed e} : (s.outbound.trySend framed).1 = .error e →
    (s.outbound.trySend framed).2 = s.outbound
  /-- A sender that is refused takes what it has counted off the count. -/
  refused {k sender e} : s.senders[k]? = some sender → (∀ result, sender ≠ .done result) →
    (s.outbound.move sender).1 = .done (.error e) →
    (s.proceed k).outbound.pending + sender.share = s.outbound.pending
  /-- A sender that is dropped leaves the count as it stands. -/
  dropped (k : Nat) : (s.act (.abandon k)).outbound = s.outbound
  /-- When as many messages are stranded as may be pending, no message is accepted any more. -/
  blocked {framed} : s.outbound.maxPending ≤ stranded →
    (s.outbound.trySend framed).1 = .error .queueFull ∧
      (s.outbound.move (.checking framed)).2 = s.outbound

/-- From an exact count follows what senders and the writer do to it. -/
lemma Counts.exact {s : Shipment} {stranded : Nat} (counts : s.Counts stranded) :
    s.Exact stranded where
  counts := counts
  batch_le := by
    rw [Counts] at counts
    omega
  waiting_le := by
    rw [Counts] at counts
    omega
  tried {framed e} refused := by
    have result := Outbound.tried s.outbound framed
    generalize s.outbound.trySend framed = after at result refused ⊢
    cases result with
    | taken => cases refused
    | full => rfl
    | closed => rfl
  refused {k sender e} there active refused := by
    rw [Counts, waiting_eq there] at counts
    simp only [Shipment.proceed, there]
    have result := moved s.outbound sender
    generalize s.outbound.move sender = after at result refused ⊢
    cases result with
    | stays => exact absurd refused (active _)
    | counts => cases refused
    | enters => cases refused
    | gives => rfl
    | returns =>
      -- The sender had counted its message, so there is something to take back.
      simp only [Sender.share, uncount] at counts ⊢
      omega
  dropped k := rfl
  blocked {framed} all := by
    rw [Counts] at counts
    have full : s.outbound.isFull = true := by
      simp only [isFull, decide_eq_true_iff]
      omega
    refine ⟨by simp [Outbound.trySend, full], ?_⟩
    simp only [move, full, Bool.not_true, Bool.false_eq_true, if_false]
    split <;> rfl

/-- As long as no write has failed, the count of messages is exact. It is that of the messages on
their way and of the senders that wait exactly if no sender was dropped while it waited for room. -/
theorem run_counts (mode : Framing.Mode) (config : Config) (acts : List Act)
    (whole : ¬((new mode config).run acts).IsBroken) :
    ((new mode config).run acts).Exact ((new mode config).stranded acts) := by
  have counts := (counts_new mode config).run acts whole
  rw [Nat.zero_add] at counts
  exact counts.exact

/-- A channel with room for one message, where three may be pending. -/
def narrow : Config :=
  { Config.default with channelCapacity := 1, maxPendingFrames := 3 }

/-- The writer holds one message, the channel another, and a third is dropped while it waits. -/
def strand : List Act :=
  [.send [0x61], .proceed 0, .proceed 0, .receive, .send [0x62], .proceed 1, .proceed 1,
    .send [0x63], .proceed 2, .proceed 2, .abandon 2]

/-- The message that was dropped stays counted, so that senders wait though two are on their way. -/
theorem run_counts_strand :
    let s := (new .endOfMessage narrow).run strand
    ¬s.IsBroken ∧ s.Exact 1 ∧
      s.outbound.channel.length + s.outbound.batch.length + s.waiting = 2 ∧
      s.outbound.pending = 3 ∧ s.outbound.isFull = true := by
  intro s
  have phase : s.phase = .collecting := rfl
  have whole : ¬s.IsBroken := by
    rintro ⟨reason, broken⟩
    rw [phase] at broken
    cases broken
  exact ⟨whole, run_counts .endOfMessage narrow strand whole, rfl, rfl, rfl⟩

end Shipment

end Netconf
