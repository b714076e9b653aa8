import Netconf.Proofs.Correlator.Coherent

/-!
# Histories of a correlator

A history is a correlator together with all that was seen of it since it was new. Any actions may
follow each other in any order, and the transmitter may take or refuse each request as it likes. The
events of an operation are the call with its result and then what was handed to the transmitter
during it. They are those of some moves, so that all that is kept by moves is kept by actions.
-/

namespace Netconf

/-- What can be done with a correlator. -/
inductive Action where
  | submit (operation : Node)
  | cancel (index : Nat)
  /-- Gives up waiting for an answer. -/
  | forget (index : Nat)
  /-- Asks for an answer. -/
  | take (index : Nat)
  /-- A message comes in. -/
  | reply (message : Node)
  | terminate (cause : Cause)

/-- A correlator, all that was seen of it, and the state of its transmitter. -/
structure History (τ : Type) where
  trace : List Event
  correlator : Correlator
  transmitter : τ

namespace Correlator

variable {τ : Type} (transmit : Node → τ → Except Error Unit × τ)

/-- The transmitter, with an account of what it was handed kept beside its state. -/
def recording (rpc : Node) (s : τ × List Event) : Except Error Unit × τ × List Event :=
  let (outcome, t) := transmit rpc s.1
  (outcome, t, s.2 ++ [.handed rpc outcome])

/-- Advancing is a sequence of moves, and keeping account of it changes nothing. -/
lemma advance_recording (c : Correlator) (t : τ) (log : List Event) (ws : List Waiting) :
    ∃ es, c.advance (recording transmit) (t, log) ws =
        ((c.advance transmit t ws).1, (c.advance transmit t ws).2, log ++ es) ∧
      (c.Free → Moves { c with queue := ws } es (c.advance transmit t ws).1) := by
  induction ws generalizing c t log with
  | nil => exact ⟨[], by simp [advance], fun _ => .refl⟩
  | cons w rest ih =>
    -- The state keeps its queue until the end, so a move starts with what is left of the queue.
    cases q : c.isQueued w.index with
    | false =>
      obtain ⟨es, eq, mvs⟩ := ih (c.withhold w.index) t log
      simp only [advance, q, Bool.false_eq_true, if_false]
      refine ⟨es, eq, fun fr => ?_⟩
      have mv : Move { c with queue := w :: rest } none
          { c.withhold w.index with queue := rest } := .skip fr rfl q
      exact (Moves.single mv).trans (mvs fr)
    | true =>
      cases out : transmit w.rpc t with | mk outcome t' =>
      cases outcome with
      | ok _ =>
        simp only [advance, q, if_true, recording, out]
        refine ⟨[.handed w.rpc (.ok ())], rfl, fun fr => ?_⟩
        have mv : Move { c with queue := w :: rest } (some (.handed w.rpc (.ok ())))
            { c.mark w.index .sent with queue := rest, inFlight := some w.index } :=
          .send fr rfl q
        exact .single mv
      | error e =>
        cases fatal : e.isFatal with
        | true =>
          simp only [advance, q, if_true, recording, out, fatal]
          refine ⟨[.handed w.rpc (.error e)], rfl, fun fr => ?_⟩
          have mv : Move { c with queue := w :: rest } (some (.handed w.rpc (.error e)))
              ({ (c.mark w.index .sent).resolve w.index (.error e) with
                queue := rest }.failAll e.cause) := .collapse fr rfl q fatal
          exact .single mv
        | false =>
          obtain ⟨es, eq, mvs⟩ := ih ((c.mark w.index .sent).resolve w.index (.error e)) t'
            (log ++ [.handed w.rpc (.error e)])
          simp only [advance, q, if_true, recording, out, fatal, Bool.false_eq_true, if_false]
          refine ⟨.handed w.rpc (.error e) :: es, ?_, fun fr => ?_⟩
          · simpa [recording] using eq
          · have mv : Move { c with queue := w :: rest } (some (.handed w.rpc (.error e)))
                { (c.mark w.index .sent).resolve w.index (.error e) with queue := rest } :=
              .reject fr rfl q fatal
            exact (Moves.single mv).trans (mvs fr)

/-- Handing over the next request is a sequence of moves. -/
lemma pump_recording (c : Correlator) (t : τ) (log : List Event) :
    ∃ es, c.pump (recording transmit) (t, log) =
        ((c.pump transmit t).1, (c.pump transmit t).2, log ++ es) ∧
      Moves c es (c.pump transmit t).1 := by
  cases fr : c.inFlight.isNone && c.terminated.isNone with
  | true =>
    obtain ⟨es, eq, mvs⟩ := advance_recording transmit c t log c.queue
    simp only [pump, fr, if_true]
    exact ⟨es, eq, mvs (by simpa [Free] using fr)⟩
  | false =>
    simp only [pump, fr, Bool.false_eq_true, if_false]
    exact ⟨[], by simp, .refl⟩

/-- Submitting is a sequence of moves. -/
lemma submit_recording (c : Correlator) (operation : Node) (t : τ) :
    ∃ es, c.submit (recording transmit) operation (t, []) =
        (c.requests.size, (c.submit transmit operation t).2.1,
          (c.submit transmit operation t).2.2, es) ∧
      Moves c (.submitted c.requests.size operation :: es)
        (c.submit transmit operation t).2.1 := by
  cases term : c.terminated with
  | some cause =>
    simp only [submit_of_terminated _ _ _ term]
    exact ⟨[], rfl, .single (.refuse term)⟩
  | none =>
    simp only [submit_of_open _ _ _ term]
    obtain ⟨es, eq, mvs⟩ := pump_recording transmit (c.enqueue operation) t []
    exact ⟨es, by rw [eq]; rfl, (Moves.single (.accept term)).trans mvs⟩

/-- Taking a message in is a sequence of moves. -/
lemma onReply_recording (c : Correlator) (message : Node) (t : τ) :
    ∃ es, c.onReply (recording transmit) message (t, []) =
        ((c.onReply transmit message t).1, (c.onReply transmit message t).2.1,
          (c.onReply transmit message t).2.2, es) ∧
      Moves c (.routed message (c.onReply transmit message t).1 :: es)
        (c.onReply transmit message t).2.1 := by
  cases c.reception message with
  | unsolicited other =>
    simp only [onReply_of_unsolicited _ _ other]
    exact ⟨[], rfl, .single (.pass other)⟩
  | @expected i kind fl num =>
    simp only [onReply_of_match _ _ kind fl num]
    obtain ⟨es, eq, mvs⟩ :=
      pump_recording transmit { c.resolve i (.ok message) with inFlight := none } t []
    exact ⟨es, by rw [eq]; rfl, (Moves.single (.deliver kind fl num)).trans mvs⟩
  | unexpected kind fl num =>
    simp only [onReply_of_mismatch _ _ kind fl num]
    exact ⟨[], rfl, .single (.mismatch kind fl num)⟩

end Correlator

namespace History

variable {τ : Type} (transmit : Node → τ → Except Error Unit × τ)

/-- A transmitter that takes every request. -/
def accepting (_ : Node) (_ : Unit) : Except Error Unit × Unit :=
  (.ok (), ())

/-- A new correlator, of which nothing was seen. -/
def start (t : τ) : History τ :=
  ⟨[], .new, t⟩

/-- The history after one more action. -/
def act (h : History τ) : Action → History τ
  | .submit operation =>
    let (index, c, t, handed) :=
      h.correlator.submit (Correlator.recording transmit) operation (h.transmitter, [])
    ⟨h.trace ++ .submitted index operation :: handed, c, t⟩
  | .cancel index =>
    let (done, c) := h.correlator.cancel index
    ⟨h.trace ++ [.cancelled index done], c, h.transmitter⟩
  | .forget index =>
    ⟨h.trace ++ [.forgot index (h.correlator.cancel index).1], h.correlator.forget index,
      h.transmitter⟩
  | .take index =>
    let (polled, c) := h.correlator.take index
    ⟨h.trace ++ [.took index polled], c, h.transmitter⟩
  | .reply message =>
    let (result, c, t, handed) :=
      h.correlator.onReply (Correlator.recording transmit) message (h.transmitter, [])
    ⟨h.trace ++ .routed message result :: handed, c, t⟩
  | .terminate cause =>
    ⟨h.trace ++ [.terminated cause], h.correlator.terminate cause, h.transmitter⟩

/-- The history after some more actions. -/
def run (h : History τ) (actions : List Action) : History τ :=
  actions.foldl (act transmit) h

/-- A new request is the outcome of submitting. -/
lemma correlator_act_submit (h : History τ) (operation : Node) :
    (h.act transmit (.submit operation)).correlator =
      (h.correlator.submit transmit operation h.transmitter).2.1 := by
  obtain ⟨es, eq, _⟩ := Correlator.submit_recording transmit h.correlator operation h.transmitter
  simp [act, eq]

/-- A message that comes in changes the correlator as it does without an account. -/
lemma correlator_act_reply (h : History τ) (message : Node) :
    (h.act transmit (.reply message)).correlator =
      (h.correlator.onReply transmit message h.transmitter).2.1 := by
  obtain ⟨es, eq, _⟩ := Correlator.onReply_recording transmit h.correlator message h.transmitter
  simp [act, eq]

/-- What is seen of an action are the events of some moves. -/
lemma act_moves (h : History τ) (action : Action) :
    ∃ es, (h.act transmit action).trace = h.trace ++ es ∧
      Correlator.Moves h.correlator es (h.act transmit action).correlator := by
  cases action with
  | submit operation =>
    obtain ⟨es, eq, mvs⟩ :=
      Correlator.submit_recording transmit h.correlator operation h.transmitter
    simp only [act, eq]
    exact ⟨_, rfl, mvs⟩
  | cancel index => exact ⟨_, rfl, .single .cancel⟩
  | forget index => exact ⟨_, rfl, .single .forget⟩
  | take index => exact ⟨_, rfl, .single .take⟩
  | reply message =>
    obtain ⟨es, eq, mvs⟩ := Correlator.onReply_recording transmit h.correlator message h.transmitter
    simp only [act, eq]
    exact ⟨_, rfl, mvs⟩
  | terminate cause => exact ⟨_, rfl, .single .terminate⟩

/-- What is seen in a run are the events of some moves. -/
lemma run_moves (h : History τ) (actions : List Action) :
    ∃ es, (h.run transmit actions).trace = h.trace ++ es ∧
      Correlator.Moves h.correlator es (h.run transmit actions).correlator := by
  induction actions generalizing h with
  | nil => exact ⟨[], by simp [run], .refl⟩
  | cons action rest ih =>
    obtain ⟨es, eq, mvs⟩ := h.act_moves transmit action
    obtain ⟨fs, eq', mvs'⟩ := ih (h.act transmit action)
    refine ⟨es ++ fs, ?_, mvs.trans mvs'⟩
    rw [← List.append_assoc, ← eq]
    exact eq'

/-- The trace of a history from the start is that of the moves to its correlator. -/
lemma start_run_moves (t : τ) (actions : List Action) :
    Correlator.Moves .new ((start t).run transmit actions).trace
      ((start t).run transmit actions).correlator := by
  obtain ⟨es, eq, mvs⟩ := (start t).run_moves transmit actions
  rw [eq]
  exact mvs

end History

end Netconf
