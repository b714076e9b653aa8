import Mathlib.Data.List.Induction
import Netconf.Framing.Reader
import Netconf.Proofs.Framing.Feeding

/-!
# Reading a stream

A reader is asked for messages while its transport gives some answers, the end of the stream, and
whatever comes later. What it gives is what the bytes of the stream come to, if this holds for its
decoder (`Decoder.Faithful`): it gives one message after the other (`Ready.reach`) and then the same
answer for ever (`Ready.settle`). A failed read is the answer to one call, and changes nothing else.
-/

namespace Netconf.Framing

/-- The failure in an answer of the transport. -/
def Read.failure? : Read → Option String
  | data _ => none
  | failed reason => some reason

/-- The bytes in the answers of the transport. -/
def Read.stream (reads : List Read) : Bytes :=
  reads.flatMap Read.bytes

/-- The failures in the answers of the transport. -/
def Read.failures (reads : List Read) : List String :=
  reads.filterMap Read.failure?

/-- The message in an answer. -/
def Reading.message? : Reading → Option Bytes
  | message payload => some payload
  | ended | failed _ | waiting => none

/-- The failed read that an answer reports. -/
def Reading.failure? : Reading → Option String
  | failed (.transport reason) => some reason
  | message _ | ended | failed (.framing _) | waiting => none

namespace Reader

/-- Asks for messages, the given number of times. -/
def asks (r : Reader) (reads : List Read) : Nat → List Reading × Reader × List Read
  | 0 => ([], r, reads)
  | n + 1 =>
    let (answer, r, reads) := r.next reads
    let (answers, r, reads) := asks r reads n
    (answer :: answers, r, reads)

/-- Asked some times, a reader answers with messages and failed reads, each failed read once. -/
structure Delivers (r : Reader) (reads : List Read) (payloads : List Bytes)
    (answers : List Reading) (r' : Reader) (left : List Read) : Prop where
  asked : r.asks reads answers.length = (answers, r', left)
  messages : answers.filterMap Reading.message? = payloads
  others : ∀ answer ∈ answers, answer.message?.isSome ∨ answer.failure?.isSome
  failures : Read.failures reads = answers.filterMap Reading.failure? ++ Read.failures left

/-- A reader gives the same answer whenever it is asked, and from the first time on it leaves the
same answers of the transport. -/
structure Settles (r : Reader) (reads : List Read) (answer : Reading) (left : List Read) :
    Prop where
  asked (n : Nat) : ∃ r', r.asks reads (n + 1) = (List.replicate (n + 1) answer, r', left)
  failures : Read.failures reads = Read.failures left

section

variable {r r' r'' : Reader} {reads left left' : List Read} {d : Decoder}

/-! ## One call -/

/-- A message that the decoder has is given without reading. -/
lemma next_of_message {p : Bytes} (eq : r.decoder.next = (.ok (some p), d)) :
    r.next reads = (.message p, { r with decoder := d }, reads) := by
  rw [next.eq_def, eq]

/-- A violation that the decoder meets is reported without reading. -/
lemma next_of_violated {e : FramingError} (eq : r.decoder.next = (.error e, d)) :
    r.next reads = (.failed (.framing e), { r with decoder := d }, reads) := by
  rw [next.eq_def, eq]

/-- A reader at the end of its stream says so without reading. -/
lemma next_of_ended (eq : r.decoder.next = (.ok none, d)) (ended : r.ended = true) :
    r.next reads = (.ended, { r with decoder := d }, reads) := by
  rw [next.eq_def, eq]
  simp only [ended, if_true]

/-- A read that fails is the answer to the call. -/
lemma next_of_failed (eq : r.decoder.next = (.ok none, d)) (going : r.ended = false)
    (reason : String) :
    r.next (.failed reason :: reads) =
      (.failed (.transport reason), { r with decoder := d }, reads) := by
  rw [next.eq_def, eq]
  simp only [going, Bool.false_eq_true, if_false]

/-- A read without bytes is the end of the stream. -/
lemma next_of_end (eq : r.decoder.next = (.ok none, d)) (going : r.ended = false) :
    r.next (.data [] :: reads) = (.ended, { r with decoder := d, ended := true }, reads) := by
  rw [next.eq_def, eq]
  simp only [going, Bool.false_eq_true, if_false]

/-- After a read with bytes a reader looks for a message once more. -/
lemma next_of_data (eq : r.decoder.next = (.ok none, d)) (going : r.ended = false)
    {bytes : Bytes} (some : bytes ≠ []) :
    r.next (.data bytes :: reads) = next { r with decoder := d.extend bytes } reads := by
  cases bytes with
  | nil => exact absurd rfl some
  | cons b bytes =>
    rw [next.eq_def, eq]
    simp only [going, Bool.false_eq_true, if_false]

/-! ## Some calls -/

/-- Calls may be made in two parts. -/
lemma asks_add {m n : Nat} {as bs : List Reading} (first : r.asks reads m = (as, r', left))
    (second : r'.asks left n = (bs, r'', left')) :
    r.asks reads (m + n) = (as ++ bs, r'', left') := by
  induction m generalizing r reads as with
  | zero =>
    cases first
    rw [Nat.zero_add, second, List.nil_append]
  | succ m ih =>
    rw [Nat.add_right_comm, asks]
    rw [asks] at first
    cases rest : asks (r.next reads).2.1 (r.next reads).2.2 m with
    | mk cs after =>
      simp only [rest, Prod.mk.injEq] at first
      obtain ⟨rfl, rfl, rfl⟩ := first
      simp only [ih rest, List.cons_append]

/-- Without a call a reader delivers nothing. -/
lemma Delivers.refl (r : Reader) (reads : List Read) : Delivers r reads [] [] r reads where
  asked := rfl
  messages := rfl
  others := by simp
  failures := rfl

/-- What is delivered in two parts is delivered in one. -/
lemma Delivers.trans {ps qs : List Bytes} {as bs : List Reading}
    (first : Delivers r reads ps as r' left) (second : Delivers r' left qs bs r'' left') :
    Delivers r reads (ps ++ qs) (as ++ bs) r'' left' where
  asked := by
    rw [List.length_append]
    exact asks_add first.asked second.asked
  messages := by rw [List.filterMap_append, first.messages, second.messages]
  others := by
    rw [List.forall_mem_append]
    exact ⟨first.others, second.others⟩
  failures := by
    rw [List.filterMap_append, List.append_assoc, ← second.failures, first.failures]

/-- A call that gives a message delivers it. -/
lemma Delivers.message {p : Bytes} (eq : r.next reads = (.message p, r', left))
    (failures : Read.failures left = Read.failures reads) :
    Delivers r reads [p] [.message p] r' left where
  asked := by simp [asks, eq]
  messages := rfl
  others := by simp [Reading.message?]
  failures := failures.symm

/-- A call that reports a failed read delivers the failure. -/
lemma Delivers.failure {reason : String}
    (eq : r.next reads = (.failed (.transport reason), r', left))
    (failures : Read.failures reads = reason :: Read.failures left) :
    Delivers r reads [] [.failed (.transport reason)] r' left where
  asked := by simp [asks, eq]
  messages := rfl
  others := by simp [Reading.failure?]
  failures := failures

/-- What does not change with a call does not change with any. -/
lemma settles_of_next {answer : Reading} (Same : Reader → Prop)
    (eq : r.next reads = (answer, r', left)) (same : Same r')
    (again : ∀ {r}, Same r → ∃ r', r.next left = (answer, r', left) ∧ Same r')
    (failures : Read.failures reads = Read.failures left) : Settles r reads answer left where
  asked n := by
    have later : ∀ {r}, Same r →
        ∃ r', r.asks left n = (List.replicate n answer, r', left) := by
      induction n with
      | zero => exact fun {r} _ => ⟨r, rfl⟩
      | succ n ih =>
        intro r same
        obtain ⟨r', eq, same⟩ := again same
        obtain ⟨r'', all⟩ := ih same
        exact ⟨r'', by rw [asks, eq]; simp only [all, List.replicate_succ]⟩
    obtain ⟨r'', all⟩ := later same
    exact ⟨r'', by rw [asks, eq]; simp only [all, List.replicate_succ]⟩
  failures := failures

end

/-! ## A faithful decoder -/

section

variable {F : Type} {payload : F → Bytes} {Stands : Bytes → List F → Decoder → Prop}
  {Comes : Bytes → List F → Option Violation → Prop} {total : Bytes} {later : List Read}

/-- A reader has given messages of a stream, at whose end some answers of the transport are left. -/
inductive Ready (Stands : Bytes → List F → Decoder → Prop) (total : Bytes) (later : List Read)
    (fs : List F) (r : Reader) : List Read → Prop where
  | reading {bytes script} :
    Stands bytes fs r.decoder → r.ended = false → Read.data [] ∉ script →
    bytes ++ Read.stream script = total →
    Ready Stands total later fs r (script ++ .data [] :: later)
  | ended :
    Stands total fs r.decoder → r.ended = true →
    Ready Stands total later fs r later

/-- What a reader comes to that is asked for a message, with the failed reads that are to come. -/
inductive Answers (payload : F → Bytes) (Stands : Bytes → List F → Decoder → Prop)
    (Comes : Bytes → List F → Option Violation → Prop) (total : Bytes) (later : List Read)
    (fs : List F) : List String → Reading × Reader × List Read → Prop where
  | message {f r left} :
    Ready Stands total later (fs ++ [f]) r left →
    Answers payload Stands Comes total later fs (Read.failures left) (.message (payload f), r, left)
  | transport {reason r left} :
    Ready Stands total later fs r left →
    Answers payload Stands Comes total later fs (reason :: Read.failures left)
      (.failed (.transport reason), r, left)
  | violated {e r left} :
    r.decoder.failed = some e → Comes total fs (some e.violation) →
    Answers payload Stands Comes total later fs (Read.failures left)
      (.failed (.framing e), r, left)
  | ended {r} :
    Stands total fs r.decoder → r.ended = true → Comes total fs none →
    Answers payload Stands Comes total later fs (Read.failures later) (.ended, r, later)

variable {fs : List F} {r : Reader} {reads : List Read}

/-- What its decoder has for it, a reader gives without reading. -/
lemma Ready.answer (fa : Decoder.Faithful payload Stands Comes)
    (ready : Ready Stands total later fs r reads)
    (wait : ∀ {d}, r.decoder.next = (.ok none, d) →
      Answers payload Stands Comes total later fs (Read.failures reads) (r.next reads)) :
    Answers payload Stands Comes total later fs (Read.failures reads) (r.next reads) := by
  match eq : r.decoder.next with
  | (.ok (some p), d) =>
    rw [next_of_message eq]
    cases ready with
    | reading st going free all =>
      obtain ⟨f, rfl, st⟩ := fa.message st eq
      exact .message (.reading st going free all)
    | ended st ended =>
      obtain ⟨f, rfl, st⟩ := fa.message st eq
      exact .message (.ended st ended)
  | (.error e, d) =>
    rw [next_of_violated eq]
    refine .violated (Decoder.failed_of_next eq) ?_
    cases ready with
    | reading st _ _ all => exact all ▸ fa.append _ (fa.violated st eq).2
    | ended st => exact (fa.violated st eq).2
  | (.ok none, d) => exact wait eq

/-- A reader that is asked for the next message of the stream gives it, a failed read, or what the
stream comes to. -/
lemma Ready.next (fa : Decoder.Faithful payload Stands Comes)
    (ready : Ready Stands total later fs r reads) :
    Answers payload Stands Comes total later fs (Read.failures reads) (r.next reads) := by
  cases ready with
  | ended st ended =>
    refine answer fa (.ended st ended) ?_
    intro d eq
    obtain ⟨st, co⟩ := fa.wait st eq
    rw [next_of_ended eq ended]
    exact .ended st ended co
  | @reading bytes script st going free all =>
    induction script generalizing r bytes with
    | nil =>
      refine answer fa (.reading st going free all) ?_
      intro d eq
      obtain ⟨st, co⟩ := fa.wait st eq
      obtain rfl : bytes = total := by simpa [Read.stream] using all
      rw [List.nil_append, next_of_end eq going]
      exact .ended st rfl co
    | cons read script ih =>
      refine answer fa (.reading st going free all) ?_
      intro d eq
      -- The decoder waits, so the answer depends on what the transport gives next.
      obtain ⟨st, -⟩ := fa.wait st eq
      rw [List.mem_cons, not_or] at free
      cases read with
      | failed reason =>
        rw [List.cons_append, next_of_failed eq going]
        exact .transport (.reading st going free.2 all)
      | data more =>
        have some : more ≠ [] := by
          rintro rfl
          exact free.1 rfl
        rw [List.cons_append, next_of_data eq going some]
        exact ih (fa.extend more st) going free.2 (by rw [List.append_assoc]; exact all)

/-- The messages that a reader gave are the first ones of the stream. -/
lemma Ready.comes (fa : Decoder.Faithful payload Stands Comes)
    (ready : Ready Stands total later fs r reads) : ∃ gs v, Comes total (fs ++ gs) v := by
  cases ready with
  | reading st _ _ all =>
    obtain ⟨gs, -, -, co⟩ := fa.exhaust (fa.extend _ st)
    rw [all] at co
    exact ⟨gs, _, co⟩
  | ended st =>
    obtain ⟨gs, -, -, co⟩ := fa.exhaust st
    exact ⟨gs, _, co⟩

/-- A failed read takes nothing from the stream. -/
lemma Ready.failed (fa : Decoder.Faithful payload Stands Comes)
    (ready : Ready Stands total later fs r reads) {reason : String}
    (failed : (r.next reads).1 = .failed (.transport reason)) :
    ∃ r' left, r.next reads = (.failed (.transport reason), r', left) ∧
      Ready Stands total later fs r' left ∧
      Read.failures reads = reason :: Read.failures left := by
  have an := ready.next fa
  generalize r.next reads = result, Read.failures reads = reasons at an failed ⊢
  cases an with
  | transport ready =>
    cases failed
    exact ⟨_, _, rfl, ready, rfl⟩
  | _ => cases failed

/-- Asked some times, a reader has another answer than a failed read. -/
lemma Ready.await {r : Reader} {reads : List Read} (fa : Decoder.Faithful payload Stands Comes)
    (ready : Ready Stands total later fs r reads) :
    ∃ answers r' left, Delivers r reads [] answers r' left ∧
      Ready Stands total later fs r' left ∧
      ∀ reason, (r'.next left).1 ≠ .failed (.transport reason) := by
  by_cases failed : ∃ reason, (r.next reads).1 = .failed (.transport reason)
  · obtain ⟨reason, failed⟩ := failed
    obtain ⟨r', left, eq, ready', failures⟩ := ready.failed fa failed
    -- There are finitely many failed reads to come.
    have less : (Read.failures left).length < (Read.failures reads).length := by
      rw [failures, List.length_cons]
      exact Nat.lt_succ_self _
    obtain ⟨answers, r'', left', del, rest⟩ := await fa ready'
    exact ⟨_, r'', left', (Delivers.failure eq failures).trans del, rest⟩
  · exact ⟨[], r, reads, .refl r reads, ready, not_exists.mp failed⟩
termination_by (Read.failures reads).length

/-- If there is another message in the stream, a reader comes to it. -/
lemma Ready.reach_one (fa : Decoder.Faithful payload Stands Comes)
    (ready : Ready Stands total later fs r reads) {g : F} {gs : List F} {v : Option Violation}
    (co : Comes total (fs ++ g :: gs) v) :
    ∃ answers r' left,
      Delivers r reads [payload g] (answers ++ [.message (payload g)]) r' left ∧
        Ready Stands total later (fs ++ [g]) r' left := by
  obtain ⟨answers, r', left, del, ready, other⟩ := ready.await fa
  have an := ready.next fa
  generalize eq : r'.next left = result, reasons : Read.failures left = failures at an other
  cases an with
  | @message f r'' left' ready' =>
    obtain ⟨hs, w, co'⟩ := ready'.comes fa
    rw [List.append_assoc] at co'
    have same := List.append_cancel_left (fa.unique co co').1
    obtain rfl : g = f := (List.cons.inj same).1
    exact ⟨answers, r'', left', del.trans (.message eq reasons.symm), ready'⟩
  | transport => exact absurd rfl (other _)
  | violated _ co' => simpa using (fa.unique co co').1
  | ended _ _ co' => simpa using (fa.unique co co').1

/-- A reader comes to messages that are in the stream, its last answer being the last of them. -/
lemma Ready.reach (fa : Decoder.Faithful payload Stands Comes)
    (ready : Ready Stands total later fs r reads) {gs hs : List F} {v : Option Violation}
    (co : Comes total (fs ++ (gs ++ hs)) v) :
    ∃ answers r' left, Delivers r reads (gs.map payload) answers r' left ∧
      answers.getLast? = gs.getLast?.map (.message ∘ payload) ∧
      Ready Stands total later (fs ++ gs) r' left := by
  induction gs using List.reverseRecOn generalizing hs with
  | nil => exact ⟨[], r, reads, .refl r reads, rfl, by rwa [List.append_nil]⟩
  | append_singleton gs g ih =>
    rw [List.append_assoc] at co
    obtain ⟨answers, r', left, del, -, ready'⟩ := ih co
    rw [← List.append_assoc] at co
    obtain ⟨answers', r'', left', del', ready''⟩ := ready'.reach_one fa co
    refine ⟨answers ++ (answers' ++ [.message (payload g)]), r'', left', ?_, ?_, ?_⟩
    · rw [List.map_append]
      exact del.trans del'
    · rw [← List.append_assoc, List.getLast?_concat, List.getLast?_concat]
      rfl
    · rwa [← List.append_assoc]

/-- The last answer to what a stream comes to, and the answers of the transport left then. -/
inductive Closing (later : List Read) : Option Violation → Reading → List Read → Prop where
  | ended : Closing later none .ended later
  | violated (e : FramingError) (left : List Read) :
    Closing later (some e.violation) (.failed (.framing e)) left

/-- After the last message in the stream a reader comes to an answer that it keeps. -/
lemma Ready.settle (fa : Decoder.Faithful payload Stands Comes)
    (ready : Ready Stands total later fs r reads) {v : Option Violation} (co : Comes total fs v) :
    ∃ answers r' left answer left', Delivers r reads [] answers r' left ∧
      Settles r' left answer left' ∧ Closing later v answer left' := by
  obtain ⟨answers, r', left, del, ready, other⟩ := ready.await fa
  have an := ready.next fa
  generalize eq : r'.next left = result, reasons : Read.failures left = failures at an other
  cases an with
  | message ready' =>
    -- The stream would come to one more message.
    obtain ⟨hs, w, co'⟩ := ready'.comes fa
    rw [List.append_assoc] at co'
    simpa using (fa.unique co co').1
  | transport => exact absurd rfl (other _)
  | @violated e r'' left' fail co' =>
    obtain ⟨-, rfl⟩ := fa.unique co co'
    refine ⟨answers, r', left, _, left', del, ?_, .violated e left'⟩
    refine settles_of_next (fun r => r.decoder.failed = some e) eq fail ?_ reasons
    intro r fail
    refine ⟨r, next_of_violated ?_, fail⟩
    simp only [Decoder.next, fail]
  | @ended r'' st ended co' =>
    obtain ⟨-, rfl⟩ := fa.unique co co'
    refine ⟨answers, r', left, _, later, del, ?_, .ended⟩
    refine settles_of_next (fun r => Stands total fs r.decoder ∧ r.ended = true) eq ⟨st, ended⟩ ?_
      reasons
    rintro r ⟨st, ended⟩
    obtain ⟨d, eq, st⟩ := fa.waits st co
    exact ⟨_, next_of_ended eq ended, st, ended⟩

/-- A reader comes to all messages in the stream, and then to an answer that it keeps. -/
lemma Ready.finish (fa : Decoder.Faithful payload Stands Comes)
    (ready : Ready Stands total later fs r reads) {gs : List F} {v : Option Violation}
    (co : Comes total (fs ++ gs) v) :
    ∃ answers r' left answer left', Delivers r reads (gs.map payload) answers r' left ∧
      Settles r' left answer left' ∧ Closing later v answer left' := by
  have all : Comes total (fs ++ (gs ++ [])) v := by rwa [List.append_nil]
  obtain ⟨answers, r', left, del, -, ready⟩ := ready.reach fa all
  obtain ⟨failed, r'', left', answer, final, wait, settled, closing⟩ := ready.settle fa co
  refine ⟨answers ++ failed, r'', left', answer, final, ?_, settled, closing⟩
  rw [← List.append_nil (gs.map payload)]
  exact del.trans wait

end

end Reader

end Netconf.Framing
