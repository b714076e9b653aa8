import Netconf.Outbound
import Netconf.Proofs.Framing.Unforgeable

/-!
# Outbound messages in order

Messages leave in the order in which they entered the channel, whatever batches the writer makes of
them and however the transport cuts these. What the transport has taken and what is still on the way
are always the framed messages, one after the other (`Carries`), as long as no write fails.
-/

namespace Netconf

open Framing

/-! ## Framed messages -/

namespace Node

/-- A node is never written as nothing. -/
lemma encode_ne_nil (n : Node) : n.encode ≠ [] := by
  obtain ⟨front, eq⟩ := n.renderChars_eq_concat
  rw [encode, eq, Utf8.encodeChars, List.flatMap_append]
  exact List.append_ne_nil_of_right_ne_nil _ (by decide)

/-- A message as it goes over the wire. -/
def wire (mode : Mode) (size : Nat) (n : Node) : Bytes :=
  match mode with
  | .endOfMessage => n.encode ++ endOfMessageMarker
  | .chunked =>
    (pieces (min size absoluteMaxChunkSize) n.encode).flatMap encodeChunk ++ endOfChunks

/-- A message can always be framed. -/
lemma encode_eq_wire (mode : Mode) (size : Nat) (n : Node) :
    Framing.encode mode size n.encode = .ok (n.wire mode size) := by
  cases mode with
  | endOfMessage => rfl
  | chunked => exact encode_chunked n.encode_ne_nil

end Node

namespace Outbound

/-- A message is framed as it goes over the wire. -/
lemma frame_eq (o : Outbound) (n : Node) : o.frame n = .ok (n.wire o.mode o.chunkSize) := by
  rw [frame, n.encode_eq_wire]
  rfl

/-! ## Senders -/

section

variable {o : Outbound}

/-- The channel is closed just when the writer does not run. -/
lemma room_eq_closed_iff : o.room = .closed ↔ o.writer ≠ .running := by
  unfold room
  split
  · next closed => exact iff_of_true rfl closed
  · next running =>
    refine iff_of_false ?_ running
    split <;> exact nofun

/-- The writer runs when there is room in the channel. -/
lemma running_of_room (free : o.room = .free) : o.writer = .running := by
  by_contra closed
  rw [room_eq_closed_iff.mpr closed] at free
  cases free

/-- What trying to send a framed message comes to. -/
inductive Tried (o : Outbound) (framed : Bytes) : Except Error Unit × Outbound → Prop where
  | taken :
    o.writer = .running →
    Tried o framed (.ok (), o.count.put framed)
  | full :
    Tried o framed (.error .queueFull, o)
  | closed :
    o.writer ≠ .running →
    Tried o framed (.error .connectionClosed, o)

/-- Trying to send a framed message takes it, or refuses it and changes nothing. -/
lemma tried (o : Outbound) (framed : Bytes) : Tried o framed (o.trySend framed) := by
  simp only [trySend]
  split
  · exact .full
  · split
    · next free => exact .taken (running_of_room free)
    · exact .full
    · next closed => exact .closed (room_eq_closed_iff.mp closed)

/-- What handing over a message comes to. -/
inductive Transmission (o : Outbound) (n : Node) : Except Error Unit × Outbound → Prop where
  | taken :
    o.writer = .running →
    Transmission o n (.ok (), o.count.put (n.wire o.mode o.chunkSize))
  | full :
    Transmission o n (.error .queueFull, o)
  | closed :
    o.writer ≠ .running →
    Transmission o n (.error .connectionClosed, o)

/-- A message is refused because there is no room, or because the writer has come to its end. -/
lemma transmission (o : Outbound) (n : Node) : Transmission o n (transmit n o) := by
  have result := tried o (n.wire o.mode o.chunkSize)
  simp only [transmit, o.frame_eq n]
  generalize o.trySend _ = after at result ⊢
  cases result with
  | taken running => exact .taken running
  | full => exact .full
  | closed closed => exact .closed closed

/-- What a move of a sender comes to. -/
inductive Moved (o : Outbound) : Sender → Sender × Outbound → Prop where
  /-- It waits, or is done already. -/
  | stays {sender} :
    Moved o sender (sender, o)
  | counts {framed} :
    Moved o (.checking framed) (.counted framed, o.count)
  | enters {framed} :
    o.writer = .running →
    Moved o (.counted framed) (.done (.ok ()), o.put framed)
  | gives {framed} :
    o.writer ≠ .running →
    Moved o (.checking framed) (.done (.error .connectionClosed), o)
  | returns {framed} :
    o.writer ≠ .running →
    Moved o (.counted framed) (.done (.error .connectionClosed), o.uncount)

/-- A sender that moves stays, counts its message, puts it into the channel, or gives up at a closed
one. -/
lemma moved (o : Outbound) (sender : Sender) : Moved o sender (o.move sender) := by
  cases sender with
  | checking framed =>
    rw [move]
    split
    · exact .counts
    · split
      · next closed => exact .gives closed
      · exact .stays
  | counted framed =>
    rw [move]
    split
    · next free => exact .enters (running_of_room free)
    · exact .stays
    · next closed => exact .returns (room_eq_closed_iff.mp closed)
  | done => exact .stays

end

/-! ## Slices -/

/-- The bytes of what is left of some slices are those after the bytes skipped. -/
lemma flatten_remainingSlices (skipped : Nat) (slices : List Bytes) :
    (remainingSlices skipped slices).flatten = slices.flatten.drop skipped := by
  induction slices generalizing skipped with
  | nil => simp [remainingSlices]
  | cons framed rest ih =>
    rw [remainingSlices, List.flatten_cons, List.drop_append]
    split
    · next gone => rw [gone, List.nil_append, ih]
    · next slice some =>
      have within : skipped - framed.length = 0 := by
        have pos := List.length_pos_iff.mpr some
        rw [List.length_drop] at pos
        omega
      rw [List.flatten_cons, ih, within]

/-- Nothing empty is left of some slices. -/
lemma ne_nil_of_mem_remainingSlices {skipped : Nat} {slices : List Bytes} :
    ∀ slice ∈ remainingSlices skipped slices, slice ≠ [] := by
  induction slices generalizing skipped with
  | nil =>
    rw [remainingSlices]
    exact List.forall_mem_nil _
  | cons framed rest ih =>
    rw [remainingSlices]
    split
    · exact ih
    · next some => exact List.forall_mem_cons.mpr ⟨some, ih⟩

/-- There are bytes in slices of which there are some and none is empty. -/
lemma flatten_ne_nil {slices : List Bytes} (some : ∀ slice ∈ slices, slice ≠ [])
    (nonempty : slices ≠ []) : slices.flatten ≠ [] := by
  cases slices with
  | nil => exact absurd rfl nonempty
  | cons slice rest =>
    exact List.append_ne_nil_of_left_ne_nil (List.forall_mem_cons.mp some).1 _

/-- Nothing is left just when as many bytes as there are were taken. -/
lemma remainingSlices_eq_nil_iff {skipped : Nat} {slices : List Bytes} :
    remainingSlices skipped slices = [] ↔ slices.flatten.length ≤ skipped := by
  rw [← List.drop_eq_nil_iff, ← flatten_remainingSlices]
  refine ⟨fun none => by rw [none, List.flatten_nil], fun none => ?_⟩
  by_contra left
  exact flatten_ne_nil ne_nil_of_mem_remainingSlices left none

/-- Something is left of slices of which not all bytes are skipped. -/
lemma remainingSlices_ne_nil {skipped : Nat} {slices : List Bytes}
    (short : skipped < slices.flatten.length) : remainingSlices skipped slices ≠ [] :=
  mt remainingSlices_eq_nil_iff.mp (Nat.not_le.mpr short)

/-- What is left of what was left is what is left in all. -/
lemma remainingSlices_remainingSlices (skipped n : Nat) (slices : List Bytes) :
    remainingSlices n (remainingSlices skipped slices) = remainingSlices (skipped + n) slices := by
  induction slices generalizing skipped n with
  | nil => simp [remainingSlices]
  | cons framed rest ih =>
    rw [remainingSlices, remainingSlices, ← List.drop_drop]
    split
    · next gone =>
      -- The message is taken, and maybe some of those behind it.
      have le : framed.length ≤ skipped := List.drop_eq_nil_iff.mp gone
      have eq : skipped - framed.length + n = skipped + n - framed.length := by omega
      rw [gone, List.drop_nil, ih, eq]
    · next slice some =>
      have lt : skipped < framed.length := Nat.not_le.mp (mt List.drop_eq_nil_iff.mpr some)
      have eq : n - (framed.drop skipped).length = skipped + n - framed.length := by
        rw [List.length_drop]
        omega
      rw [remainingSlices]
      split
      · rw [ih, Nat.zero_add, eq]
      · rw [ih]

/-! ## Transports -/

end Outbound

/-- A transport that answers the coming write calls as planned. -/
structure Sink where
  planned : List Written
  /-- The bytes that it has taken. -/
  taken : Bytes

namespace Sink

/-- Answers a write call. It takes the first of the bytes offered, as many as is planned. -/
def write (slices : List Bytes) (s : Sink) : Written × Sink :=
  match s.planned with
  | [] => (.blocked, s)
  | .accepted n :: rest =>
    let bytes := slices.flatten.take n
    (.accepted bytes.length, ⟨rest, s.taken ++ bytes⟩)
  | answer :: rest => (answer, { s with planned := rest })

/-- A transport takes as many of the first bytes offered as is planned. -/
lemma write_accepted (slices : List Bytes) (n : Nat) (rest : List Written) (taken : Bytes) :
    write slices ⟨.accepted n :: rest, taken⟩ =
      (.accepted (slices.flatten.take n).length, ⟨rest, taken ++ slices.flatten.take n⟩) :=
  rfl

/-- The transport does not fail. -/
def Reliable (planned : List Written) : Prop :=
  ∀ answer ∈ planned, answer = .blocked ∨ ∃ n, answer = .accepted (n + 1)

end Sink

namespace Outbound

/-- A batch is written up to the given slices, and whatever the transport has taken is no more to be
written. -/
inductive Advance (slices : List Bytes) (sink : Sink) : BatchResult × Sink → Prop where
  | complete {sink'} :
    sink'.taken = sink.taken ++ slices.flatten →
    Advance slices sink (.complete, sink')
  | blocked {left sink'} :
    slices ≠ [] → (∀ slice ∈ left, slice ≠ []) → sink.taken <+: sink'.taken →
    sink'.taken ++ left.flatten = sink.taken ++ slices.flatten →
    Advance slices sink (.blocked left, sink')
  | failed {left reason sink'} :
    ¬Sink.Reliable sink.planned → sink.taken <+: sink'.taken →
    sink'.taken ++ left.flatten = sink.taken ++ slices.flatten →
    Advance slices sink (.failed left reason, sink')

/-- Nothing is lost, and nothing is written twice, when a transport takes a batch. -/
lemma advance_writeBatch {slices : List Bytes} {sink : Sink}
    (some : ∀ slice ∈ slices, slice ≠ []) :
    Advance slices sink (writeBatch Sink.write slices sink) := by
  obtain ⟨planned, taken⟩ := sink
  induction planned generalizing slices taken with
  | nil =>
    rw [writeBatch]
    split
    · next all =>
      rw [all]
      exact .complete (List.append_nil _).symm
    · next left => exact .blocked left some List.prefix_rfl rfl
  | cons answer rest ih =>
    rw [writeBatch]
    split
    · next all =>
      rw [all]
      exact .complete (List.append_nil _).symm
    next left =>
    have unreliable {answer : Written} (bad : answer ≠ .blocked ∧ ∀ n, answer ≠ .accepted (n + 1)) :
        ¬Sink.Reliable (answer :: rest) := fun reliable =>
      ((List.forall_mem_cons.mp reliable).1).elim bad.1 fun ⟨n, eq⟩ => bad.2 n eq
    match answer with
    | .blocked => exact .blocked left some List.prefix_rfl rfl
    | .failed reason =>
      exact .failed (unreliable ⟨nofun, fun _ => nofun⟩) List.prefix_rfl rfl
    | .accepted 0 =>
      rw [Sink.write_accepted, List.take_zero, List.append_nil]
      exact .failed (unreliable ⟨nofun, fun _ => nofun⟩) List.prefix_rfl rfl
    | .accepted (n + 1) =>
      -- The call takes some bytes, as there are some in what is left.
      cases eq : slices.flatten.take (n + 1) with
      | nil =>
        rw [List.take_eq_nil_iff] at eq
        exact absurd (eq.resolve_left nofun) (flatten_ne_nil some left)
      | cons b bytes =>
        have here := Sink.write_accepted slices (n + 1) rest taken
        rw [eq] at here
        obtain ⟨tail, whole⟩ := List.take_prefix (n + 1) slices.flatten
        rw [eq] at whole
        have rest_eq : (remainingSlices (bytes.length + 1) slices).flatten = tail := by
          rw [flatten_remainingSlices, ← whole]
          exact List.drop_left
        simp only [here, List.length_cons]
        have after := @ih (remainingSlices (bytes.length + 1) slices)
          ne_nil_of_mem_remainingSlices (taken ++ b :: bytes)
        have all : taken ++ slices.flatten = taken ++ b :: bytes ++ tail := by
          rw [← whole, List.append_assoc]
        have first : taken <+: taken ++ b :: bytes := List.prefix_append _ _
        generalize writeBatch Sink.write _ _ = result at after ⊢
        cases after with
        | complete eq => exact .complete (by rw [eq, rest_eq, all])
        | blocked _ some further eq =>
          exact .blocked left some (first.trans further) (by rw [eq, rest_eq, all])
        | failed bad further eq =>
          have bad : ¬Sink.Reliable (.accepted (n + 1) :: rest) := fun reliable =>
            bad (List.forall_mem_cons.mp reliable).2
          exact .failed bad (first.trans further) (by rw [eq, rest_eq, all])

/-- The batch is written up to the given slices. -/
inductive Progress (slices : List Bytes) (taken : Bytes) : BatchResult × Sink → Prop where
  | complete {sink} :
    sink.taken = taken ++ slices.flatten →
    Progress slices taken (.complete, sink)
  | blocked {left sink} :
    slices ≠ [] → (∀ slice ∈ left, slice ≠ []) → taken <+: sink.taken →
    sink.taken ++ left.flatten = taken ++ slices.flatten →
    Progress slices taken (.blocked left, sink)

/-- A transport that does not fail takes the batch, or the first bytes of it. -/
lemma progress_writeBatch {slices : List Bytes} {sink : Sink} (some : ∀ slice ∈ slices, slice ≠ [])
    (reliable : Sink.Reliable sink.planned) :
    Progress slices sink.taken (writeBatch Sink.write slices sink) := by
  have advance := @advance_writeBatch slices sink some
  generalize writeBatch Sink.write slices sink = result at advance ⊢
  cases advance with
  | complete eq => exact .complete eq
  | blocked left some further eq => exact .blocked left some further eq
  | failed bad => exact absurd reliable bad

/-! ## What is on the way -/

/-- What the transport has taken and what is on the way make up the bytes, and the writer is at
work. -/
structure Carries (mode : Mode) (size : Nat) (total : Bytes) (o : Outbound) (written : Bytes) :
    Prop where
  mode : o.mode = mode
  size : o.chunkSize = size
  running : o.writer = .running
  some : ∀ slice ∈ o.unwritten, slice ≠ []
  idle : o.batch = [] → o.unwritten = []
  eq : written ++ (o.unwritten.flatten ++ o.channel.flatten) = total

namespace Carries

variable {mode : Mode} {size : Nat} {total written : Bytes} {o : Outbound}

/-- A new channel carries nothing beyond what is written already. -/
lemma new (mode : Mode) (config : Config) (written : Bytes) :
    Carries mode config.outboundChunkSize written (.new mode config) written where
  mode := rfl
  size := rfl
  running := rfl
  some := List.forall_mem_nil _
  idle _ := rfl
  eq := List.append_nil _

/-- What the transport has taken comes first. -/
lemma written_prefix (ca : Carries mode size total o written) : written <+: total :=
  ⟨_, ca.eq⟩

/-- A message is framed in the mode and the size of what is carried. -/
lemma frame (ca : Carries mode size total o written) (n : Node) :
    o.frame n = .ok (n.wire mode size) := by
  rw [frame_eq, ca.mode, ca.size]

/-- A message that is put into the channel is carried behind all others. -/
lemma put (ca : Carries mode size total o written) (framed : Bytes) :
    Carries mode size (total ++ framed) (o.put framed) written where
  mode := ca.mode
  size := ca.size
  running := ca.running
  some := ca.some
  idle := ca.idle
  eq := by simp [Outbound.put, ← ca.eq]

/-- Counting a message does not change what is carried. -/
lemma count (ca : Carries mode size total o written) :
    Carries mode size total o.count written :=
  ⟨ca.mode, ca.size, ca.running, ca.some, ca.idle, ca.eq⟩

/-- A message that is handed over comes last, or is refused for want of room. -/
lemma transmit (ca : Carries mode size total o written) (n : Node) :
    (transmit n o).1 = .ok () ∧
        Carries mode size (total ++ n.wire mode size) (transmit n o).2 written ∨
      (transmit n o).1 = .error .queueFull ∧ (transmit n o).2 = o := by
  have result := transmission o n
  generalize Outbound.transmit n o = after at result ⊢
  cases result with
  | taken =>
    rw [ca.mode, ca.size]
    exact .inl ⟨rfl, ca.count.put _⟩
  | full => exact .inr ⟨rfl, rfl⟩
  | closed closed => exact absurd ca.running closed

/-- The writer takes the next batch when it is done with the one before. -/
lemma takeBatch (ca : Carries mode size total o written) (done : o.batch = []) :
    Carries mode size total o.takeBatch written where
  mode := ca.mode
  size := ca.size
  running := ca.running
  some := ne_nil_of_mem_remainingSlices
  idle none := by
    change remainingSlices 0 (o.channel.take maxBatch) = []
    rw [show o.channel.take maxBatch = [] from none, remainingSlices]
  eq := by
    rw [← ca.eq, ca.idle done, Outbound.takeBatch, flatten_remainingSlices, List.drop_zero,
      ← List.flatten_append, List.take_append_drop, List.flatten_nil, List.nil_append]

/-- The bytes that the transport takes are the next ones. -/
lemma writeOut (ca : Carries mode size total o written) {planned : List Written}
    (reliable : Sink.Reliable planned) :
    Carries mode size total (o.writeOut Sink.write ⟨planned, written⟩).1
      (o.writeOut Sink.write ⟨planned, written⟩).2.taken := by
  have progress := @progress_writeBatch o.unwritten ⟨planned, written⟩ ca.some reliable
  rw [Outbound.writeOut]
  generalize writeBatch Sink.write o.unwritten ⟨planned, written⟩ = result at progress
  cases progress with
  | complete eq => exact ⟨ca.mode, ca.size, ca.running, List.forall_mem_nil _, fun _ => rfl, by
      simp [eq, ← ca.eq]⟩
  | blocked left some _ eq =>
    refine ⟨ca.mode, ca.size, ca.running, some, fun none => absurd (ca.idle none) left, ?_⟩
    rw [← ca.eq, ← List.append_assoc, eq, List.append_assoc]

/-- When the transport was flushed, the bytes that it has not taken are those from before. -/
lemma flushed (ca : Carries mode size total o written) :
    Carries mode size total (o.flushed none) written := by
  rw [Outbound.flushed]
  split
  · next taken =>
    simp only [isTaken, Bool.and_eq_true, List.isEmpty_iff] at taken
    refine ⟨ca.mode, ca.size, ca.running, List.forall_mem_nil _, fun _ => rfl, ?_⟩
    rw [← ca.eq, taken.2]
    rfl
  · exact ca

/-- What the transport has taken stays taken. -/
lemma prefix_writeOut (ca : Carries mode size total o written) {planned : List Written}
    (reliable : Sink.Reliable planned) :
    written <+: (o.writeOut Sink.write ⟨planned, written⟩).2.taken := by
  have progress := @progress_writeBatch o.unwritten ⟨planned, written⟩ ca.some reliable
  rw [Outbound.writeOut]
  generalize writeBatch Sink.write o.unwritten ⟨planned, written⟩ = result at progress
  cases progress with
  | complete eq => exact ⟨_, eq.symm⟩
  | blocked _ _ further _ => exact further

end Carries

end Outbound

end Netconf
