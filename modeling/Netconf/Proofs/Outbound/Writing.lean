import Netconf.Transport
import Netconf.Proofs.Outbound.Shipping

/-!
# Writing a batch

A transport may take any part of what a call offers. The next call then begins within a message, at
the border of two, or beside one that is empty. Each call offers just what those before it have left
(`Calls`), and so the transport takes the bytes of a batch in order and each once: all of them if
each call takes some, and otherwise those taken up to the call that does not
(`writeAndFlush_passes_on`).
-/

namespace Netconf

/-- The number of bytes that a write call has taken. -/
def Written.size : Written → Nat
  | .accepted n => n
  | .blocked | .failed _ => 0

open Outbound

namespace Shipment

/-- What writing the batch and flushing has come to. -/
def concluded (s : Shipment) : BatchResult × Sink → Shipment
  | (.complete, sink) =>
    { s with
      outbound := s.outbound.finishBatch
      phase := .collecting
      taken := sink.taken }
  | unfinished => s.wrote unfinished

/-- The writer that offers a batch, and has the transport flushed when that has taken it, writes
what is left of the batch. -/
theorem flush_write {s : Shipment} (offers : s.offers = true) (planned : List Written)
    (failure : Option String) :
    (s.write planned).flush failure =
      s.concluded (writeAndFlush Sink.write (fun sink => (failure, sink)) s.outbound.unwritten
        ⟨planned, s.taken⟩) := by
  rw [write, if_pos offers, writeAndFlush]
  obtain ⟨result, sink⟩ := writeBatch Sink.write s.outbound.unwritten ⟨planned, s.taken⟩
  cases result with
  | complete => cases failure <;> rfl
  | blocked => rfl
  | failed => rfl

end Shipment

/-! ## Transports that say what they take -/

/-- The transport takes the first of the bytes that a call offers, as many as it answers, and none
when it is flushed. -/
structure Outbound.Honest {τ : Type} (write : List Bytes → τ → Written × τ)
    (flush : τ → Option String × τ) (taken : τ → Bytes) : Prop where
  write slices t : taken (write slices t).2 = taken t ++ slices.flatten.take (write slices t).1.size
  flush t : taken (flush t).2 = taken t

/-- What a write call takes are the first of the bytes offered. -/
lemma Transport.accepted_prefix (t : Transport) (slices : List Bytes) :
    t.accepted slices <+: slices.flatten := by
  rw [Transport.accepted]
  split
  · exact List.prefix_rfl
  · rw [Transport.firstBytes_eq]
    exact List.take_prefix _ _

/-- The transport in memory is one of them, as long as the peer takes nothing from it. -/
lemma Transport.honest :
    Honest Transport.write Transport.flush fun t => t.outbound.toList where
  write slices t := by
    have first := List.prefix_iff_eq_take.mp (t.accepted_prefix slices)
    rw [Transport.write]
    split
    · exact (List.append_nil _).symm
    · exact (List.append_nil _).symm
    · split
      · exact (List.append_nil _).symm
      · rw [Queue.toList_pushAll]
        exact congrArg _ first
  flush _ := rfl

/-- A transport that answers as planned says what it takes. -/
lemma Sink.honest (failure : Option String) :
    Honest Sink.write (fun s => (failure, s)) Sink.taken where
  write slices s := by
    obtain ⟨planned, taken⟩ := s
    match planned with
    | [] => exact (List.append_nil _).symm
    | .blocked :: _ => exact (List.append_nil _).symm
    | .failed _ :: _ => exact (List.append_nil _).symm
    | .accepted n :: _ =>
      have first := List.prefix_iff_eq_take.mp (List.take_prefix n slices.flatten)
      exact congrArg _ first
  flush _ := rfl

/-- A transport that takes at most so many bytes a call. -/
def trickle (most : Nat) (slices : List Bytes) (taken : Bytes) : Written × Bytes :=
  (.accepted (slices.flatten.take most).length, taken ++ slices.flatten.take most)

/-- A transport that takes at most so many bytes a call says what it takes. -/
lemma honest_trickle (most : Nat) : Honest (trickle most) (fun taken => (none, taken)) id where
  write slices taken := by
    have first := List.prefix_iff_eq_take.mp (List.take_prefix most slices.flatten)
    exact congrArg (taken ++ ·) first
  flush _ := rfl

/-- It takes some bytes of what is left of a batch. -/
lemma trickle_takes {batch : List Bytes} {k : Nat} (short : k < batch.flatten.length) (most : Nat)
    (t : Bytes) :
    ∃ n u, trickle (most + 1) (remainingSlices k batch) t = (.accepted (n + 1), u) := by
  have some : 0 < ((remainingSlices k batch).flatten.take (most + 1)).length := by
    rw [flatten_remainingSlices, List.length_take, List.length_drop]
    omega
  obtain ⟨n, eq⟩ := Nat.exists_eq_add_one.mpr some
  exact ⟨n, _, by rw [trickle, eq]⟩

namespace Outbound

variable {τ : Type}

/-! ## Calls -/

/-- Write calls one after the other, from when the first `j` bytes of a batch are taken until the
first `k` are. Each offers what is left of the batch and takes some of it. -/
inductive Calls (write : List Bytes → τ → Written × τ) (batch : List Bytes) (j : Nat) (t : τ) :
    Nat → τ → Prop where
  | none :
    Calls write batch j t j t
  | more {k n u u'} :
    Calls write batch j t k u →
    k < batch.flatten.length →
    write (remainingSlices k batch) u = (.accepted (n + 1), u') →
    Calls write batch j t (k + (n + 1)) u'

/-- What writing comes to when a call takes none of the slices. -/
def stop (slices : List Bytes) : Written → BatchResult
  | .accepted _ => .failed slices "write_vectored returned 0"
  | .blocked => .blocked slices
  | .failed reason => .failed slices reason

section

variable {write : List Bytes → τ → Written × τ} {flush : τ → Option String × τ}
  {taken : τ → Bytes} {batch : List Bytes} {j k n : Nat} {t u u' : τ} {answer : Written}

/-- After a call that takes some bytes, writing goes on with what is left. -/
lemma writeBatch_accepted (short : k < batch.flatten.length)
    (accepted : write (remainingSlices k batch) u = (.accepted (n + 1), u')) :
    writeBatch write (remainingSlices k batch) u =
      writeBatch write (remainingSlices (k + (n + 1)) batch) u' := by
  rw [writeBatch, dif_neg (remainingSlices_ne_nil short)]
  simp only [accepted, remainingSlices_remainingSlices]

/-- After a call that takes none, it stops. -/
lemma writeBatch_stop (short : k < batch.flatten.length)
    (answered : write (remainingSlices k batch) u = (answer, u')) (none : answer.size = 0) :
    writeBatch write (remainingSlices k batch) u = (stop (remainingSlices k batch) answer, u') := by
  rw [writeBatch, dif_neg (remainingSlices_ne_nil short)]
  cases answer with
  | accepted n =>
    cases none
    simp only [answered, stop]
  | blocked => simp only [answered, stop]
  | failed => simp only [answered, stop]

/-- A call takes the bytes of the batch that come next. -/
lemma Honest.taken_next (honest : Honest write flush taken)
    (answered : write (remainingSlices k batch) u = (answer, u')) :
    taken u' = taken u ++ (batch.flatten.drop k).take answer.size := by
  have first := honest.write (remainingSlices k batch) u
  rwa [answered, flatten_remainingSlices] at first

namespace Calls

/-- With each call more bytes of the batch are taken. -/
lemma le (calls : Calls write batch j t k u) : j ≤ k := by
  induction calls with
  | none => exact Nat.le_refl j
  | more _ _ _ ih => omega

/-- What was taken in some calls are bytes of the batch in order. -/
lemma taken_eq (calls : Calls write batch j t k u) (honest : Honest write flush taken) :
    taken u = taken t ++ (batch.flatten.take k).drop j := by
  induction calls with
  | none => rw [List.drop_take_self, List.append_nil]
  | @more k _ _ _ calls short accepted ih =>
    -- The batch has more than `k` bytes, so its first `k` are not fewer than `j`.
    have begun : j ≤ (batch.flatten.take k).length := by
      rw [List.length_take]
      exact Nat.le_min.mpr ⟨calls.le, Nat.le_trans calls.le (Nat.le_of_lt short)⟩
    rw [honest.taken_next accepted, ih, Written.size, List.append_assoc,
      ← List.drop_append_of_le_length begun, ← List.take_add]

/-- Writing a batch is making these calls and then writing what they have left. -/
lemma writeBatch_eq (calls : Calls write batch j t k u) :
    writeBatch write (remainingSlices j batch) t =
      writeBatch write (remainingSlices k batch) u := by
  induction calls with
  | none => rfl
  | more _ short accepted ih =>
    rw [ih, writeBatch_accepted short accepted]

/-- When a call takes none, writing the batch stops there. -/
lemma writeAndFlush_stop (calls : Calls write batch j t k u) (short : k < batch.flatten.length)
    (honest : Honest write flush taken)
    (answered : write (remainingSlices k batch) u = (answer, u')) (none : answer.size = 0) :
    writeAndFlush write flush (remainingSlices j batch) t =
        (stop (remainingSlices k batch) answer, u') ∧
      taken u' = taken t ++ (batch.flatten.take k).drop j := by
  constructor
  · rw [writeAndFlush, calls.writeBatch_eq, writeBatch_stop short answered none]
    cases answer <;> rfl
  · rw [honest.taken_next answered, none, List.take_zero, List.append_nil, calls.taken_eq honest]

/-- As long as each call takes some bytes, there are calls until all are taken. -/
lemma exists_rest (calls : Calls write batch j t k u)
    (takes : ∀ k u, Calls write batch j t k u → k < batch.flatten.length →
      ∃ n u', write (remainingSlices k batch) u = (.accepted (n + 1), u')) :
    ∃ k u, Calls write batch j t k u ∧ batch.flatten.length ≤ k := by
  -- Each call takes one byte at least, so that fewer are left after it.
  induction size : batch.flatten.length - k using Nat.strong_induction_on generalizing k u
  next size' ih =>
  by_cases short : k < batch.flatten.length
  · obtain ⟨n, u', accepted⟩ := takes k u calls short
    exact ih _ (by omega) (calls.more short accepted) rfl
  · exact ⟨k, u, calls, Nat.not_lt.mp short⟩

end Calls

end

/-! ## Whole batches -/

/-- Writing what is left of a batch after `j` bytes passes on just these bytes, up to the call that
takes none. -/
structure PassesOn (write : List Bytes → τ → Written × τ) (flush : τ → Option String × τ)
    (taken : τ → Bytes) (batch : List Bytes) (j : Nat) (t : τ) : Prop where
  /-- After any number of bytes the others are left, in slices that are not empty. -/
  remaining : ∀ k, (remainingSlices k batch).flatten = batch.flatten.drop k ∧
    ∀ slice ∈ remainingSlices k batch, slice ≠ []
  /-- If each call takes some bytes, the transport takes all that is left and is then flushed. -/
  whole :
    (∀ k u, Calls write batch j t k u → k < batch.flatten.length →
      ∃ n u', write (remainingSlices k batch) u = (.accepted (n + 1), u')) →
    ∃ u, taken u = taken t ++ batch.flatten.drop j ∧ taken (flush u).2 = taken u ∧
      writeAndFlush write flush (remainingSlices j batch) t =
        ((flush u).1.elim .complete (.failed []), (flush u).2)
  /-- If a call takes 0 bytes, writing fails, and what was taken before is all. -/
  stalled : ∀ k u u', Calls write batch j t k u → k < batch.flatten.length →
    write (remainingSlices k batch) u = (.accepted 0, u') →
    writeAndFlush write flush (remainingSlices j batch) t =
        (.failed (remainingSlices k batch) "write_vectored returned 0", u') ∧
      taken u' = taken t ++ (batch.flatten.take k).drop j
  /-- So it is if a call fails. -/
  failed : ∀ k u reason u', Calls write batch j t k u → k < batch.flatten.length →
    write (remainingSlices k batch) u = (.failed reason, u') →
    writeAndFlush write flush (remainingSlices j batch) t =
        (.failed (remainingSlices k batch) reason, u') ∧
      taken u' = taken t ++ (batch.flatten.take k).drop j
  /-- If a call has to wait, writing is to go on with what is left then. -/
  blocked : ∀ k u u', Calls write batch j t k u → k < batch.flatten.length →
    write (remainingSlices k batch) u = (.blocked, u') →
    writeAndFlush write flush (remainingSlices j batch) t =
        (.blocked (remainingSlices k batch), u') ∧
      taken u' = taken t ++ (batch.flatten.take k).drop j

/-- Whatever is left of a batch, and whatever parts of it the calls take, the transport takes just
the bytes that are left, up to the call that takes none. -/
theorem writeAndFlush_passes_on {write : List Bytes → τ → Written × τ}
    {flush : τ → Option String × τ} {taken : τ → Bytes} (honest : Honest write flush taken)
    (batch : List Bytes) (j : Nat) (t : τ) : PassesOn write flush taken batch j t where
  remaining k := ⟨flatten_remainingSlices k batch, ne_nil_of_mem_remainingSlices⟩
  whole takes := by
    obtain ⟨k, u, calls, all⟩ := Calls.none.exists_rest takes
    refine ⟨u, ?_, honest.flush u, ?_⟩
    · rw [calls.taken_eq honest, List.take_of_length_le all]
    · rw [writeAndFlush, calls.writeBatch_eq, remainingSlices_eq_nil_iff.mpr all, writeBatch,
        dif_pos rfl]
  stalled _ _ _ calls short stalled := calls.writeAndFlush_stop short honest stalled rfl
  failed _ _ _ _ calls short failed := calls.writeAndFlush_stop short honest failed rfl
  blocked _ _ _ calls short blocked := calls.writeAndFlush_stop short honest blocked rfl

/-- Two messages among empty ones. -/
def gappy : List Bytes :=
  [[], [0x0a, 0x23], [], [0x31, 0x0a, 0x61], []]

/-- A transport that takes two bytes a call takes both messages. One that breaks within the second
has taken the bytes up to there. -/
theorem writeAndFlush_passes_on_gappy :
    Honest (trickle 2) (fun taken => (none, taken)) id ∧
      PassesOn (trickle 2) (fun taken => (none, taken)) id gappy 0 [] ∧
      writeAndFlush (trickle 2) (fun taken => (none, taken)) (remainingSlices 0 gappy) [] =
        (.complete, [0x0a, 0x23, 0x31, 0x0a, 0x61]) ∧
      writeAndFlush Sink.write (fun sink => (none, sink)) (remainingSlices 0 gappy)
          ⟨[.accepted 2, .accepted 1, .failed "broken pipe"], []⟩ =
        (.failed [[0x0a, 0x61]] "broken pipe", ⟨[], [0x0a, 0x23, 0x31]⟩) := by
  have passes := writeAndFlush_passes_on (honest_trickle 2) gappy 0 []
  refine ⟨honest_trickle 2, passes, ?_, ?_⟩
  · obtain ⟨u, taken, -, eq⟩ := passes.whole fun k u _ short => trickle_takes short 1 u
    rw [eq]
    exact congrArg _ taken
  · have begun : Calls Sink.write gappy 0
        ⟨[.accepted 2, .accepted 1, .failed "broken pipe"], []⟩ 2
        ⟨[.accepted 1, .failed "broken pipe"], [0x0a, 0x23]⟩ :=
      .more (n := 1) .none (by decide) rfl
    have calls : Calls Sink.write gappy 0
        ⟨[.accepted 2, .accepted 1, .failed "broken pipe"], []⟩ 3
        ⟨[.failed "broken pipe"], [0x0a, 0x23, 0x31]⟩ :=
      .more (n := 0) begun (by decide) rfl
    have fails := writeAndFlush_passes_on (Sink.honest none) gappy 0
      ⟨[.accepted 2, .accepted 1, .failed "broken pipe"], []⟩
    exact (fails.failed 3 _ _ _ calls (by decide) rfl).1

end Outbound

end Netconf
