import Netconf.Proofs.Correlator.History

/-!
# What the transmitter makes of requests

The events in which requests are handed over tell how the transmitter came from one state to the
next: it was asked to take just these requests, one after the other, and answered as the events say.
-/

namespace Netconf

namespace Correlator

variable {τ : Type} (transmit : Node → τ → Except Error Unit × τ)

/-- The transmitter was handed requests one after the other, as the events show. -/
inductive Handed : τ → List Event → τ → Prop where
  | nil {t} :
    Handed t [] t
  | cons {t t' t'' rpc outcome es} :
    transmit rpc t = (outcome, t') → Handed t' es t'' →
    Handed t (.handed rpc outcome :: es) t''

variable {transmit}

/-- Requests that were handed over after others were handed over with them. -/
lemma Handed.append {t t' t'' : τ} {es fs : List Event} (first : Handed transmit t es t')
    (second : Handed transmit t' fs t'') : Handed transmit t (es ++ fs) t'' := by
  induction first with
  | nil => exact second
  | cons out _ ih => exact .cons out (ih second)

/-- Requests that were handed over one after the other were so up to any of them. -/
lemma Handed.append_inv {t t'' : τ} {es fs : List Event}
    (handed : Handed transmit t (es ++ fs) t'') :
    ∃ t', Handed transmit t es t' ∧ Handed transmit t' fs t'' := by
  induction es generalizing t with
  | nil => exact ⟨t, .nil, handed⟩
  | cons e es ih =>
    obtain _ | ⟨out, handed⟩ := handed
    obtain ⟨t', first, second⟩ := ih handed
    exact ⟨t', .cons out first, second⟩

/-- All that a transmitter was handed are requests. -/
lemma Handed.filter_eq {t t' : τ} {es : List Event} (handed : Handed transmit t es t') :
    (es.filter fun e => e.handover?.isSome) = es := by
  induction handed with
  | nil => rfl
  | cons _ _ ih => rw [List.filter_cons_of_pos rfl, ih]

/-- What the transmitter keeps while it is asked, it keeps. -/
lemma Handed.invariant {P : τ → Prop} {t t' : τ} {es : List Event}
    (handed : Handed transmit t es t') (step : ∀ {rpc t}, P t → P (transmit rpc t).2)
    (now : P t) : P t' := by
  induction handed with
  | nil => exact now
  | @cons t _ _ rpc _ _ eq _ ih =>
    have next : P (transmit rpc t).2 := step now
    rw [eq] at next
    exact ih next

/-- It was handed requests, and refused each with one of certain errors. -/
lemma Handed.outcome {Q : Except Error Unit → Prop} {t t' : τ} {es : List Event}
    (handed : Handed transmit t es t') (answers : ∀ rpc t, Q (transmit rpc t).1) :
    ∀ e ∈ es, ∃ rpc outcome, e = .handed rpc outcome ∧ Q outcome := by
  induction handed with
  | nil => exact List.forall_mem_nil _
  | @cons t _ _ rpc outcome _ eq _ ih =>
    have here := answers rpc t
    rw [eq] at here
    exact List.forall_mem_cons.mpr ⟨⟨_, _, rfl, here⟩, ih⟩

variable (transmit)

/-- Going through the queue hands over the requests that the log shows. -/
lemma handed_advance (c : Correlator) (t : τ) (log : List Event) (ws : List Waiting) :
    ∃ es, (c.advance (recording transmit) (t, log) ws).2.2 = log ++ es ∧
      Handed transmit t es (c.advance transmit t ws).2 := by
  induction ws generalizing c t log with
  | nil => exact ⟨[], by simp [advance], .nil⟩
  | cons w rest ih =>
    -- Recording branches as the transmitter alone does, so the two are split together.
    cases q : c.isQueued w.index with
    | false =>
      obtain ⟨es, eq, handed⟩ := ih (c.withhold w.index) t log
      simp only [advance, q, Bool.false_eq_true, if_false]
      exact ⟨es, eq, handed⟩
    | true =>
      cases out : transmit w.rpc t with | mk outcome t' =>
      cases outcome with
      | ok _ =>
        simp only [advance, q, if_true, recording, out]
        exact ⟨_, rfl, .cons out .nil⟩
      | error e =>
        cases fatal : e.isFatal with
        | true =>
          simp only [advance, q, if_true, recording, out, fatal]
          exact ⟨_, rfl, .cons out .nil⟩
        | false =>
          obtain ⟨es, eq, handed⟩ := ih ((c.mark w.index .sent).resolve w.index (.error e)) t'
            (log ++ [.handed w.rpc (.error e)])
          simp only [advance, q, if_true, recording, out, fatal, Bool.false_eq_true, if_false]
          refine ⟨.handed w.rpc (.error e) :: es, ?_, .cons out handed⟩
          simpa using eq

/-- Handing over what waits hands over the requests that the log shows. -/
lemma handed_pump (c : Correlator) (t : τ) :
    Handed transmit t (c.pump (recording transmit) (t, [])).2.2 (c.pump transmit t).2 := by
  cases fr : c.inFlight.isNone && c.terminated.isNone with
  | true =>
    obtain ⟨es, eq, handed⟩ := handed_advance transmit c t [] c.queue
    simp only [pump, fr, if_true]
    rwa [eq, List.nil_append]
  | false =>
    simp only [pump, fr, Bool.false_eq_true, if_false]
    exact .nil

/-- During a submission the transmitter is handed what the account of it says. -/
lemma handed_submit (c : Correlator) (operation : Node) (t : τ) :
    Handed transmit t (c.submit (recording transmit) operation (t, [])).2.2.2
      (c.submit transmit operation t).2.2 := by
  cases term : c.terminated with
  | some cause =>
    simp only [submit_of_terminated _ _ _ term]
    exact .nil
  | none =>
    simp only [submit_of_open _ _ _ term]
    exact handed_pump transmit _ t

/-- A message that comes in hands over the requests that the log shows. -/
lemma handed_onReply (c : Correlator) (message : Node) (t : τ) :
    Handed transmit t (c.onReply (recording transmit) message (t, [])).2.2.2
      (c.onReply transmit message t).2.2 := by
  cases c.reception message with
  | unsolicited other =>
    simp only [onReply_of_unsolicited _ _ other]
    exact .nil
  | expected kind fl num =>
    simp only [onReply_of_match _ _ kind fl num]
    exact handed_pump transmit _ t
  | unexpected kind fl num =>
    simp only [onReply_of_mismatch _ _ kind fl num]
    exact .nil

end Correlator

namespace History

open Correlator Event

variable {τ : Type} (transmit : Node → τ → Except Error Unit × τ)

/-- An action hands the transmitter the requests that are seen to be handed over. -/
lemma handed_act (h : History τ) (action : Action) :
    ∃ es, (h.act transmit action).trace = h.trace ++ es ∧
      Handed transmit h.transmitter (es.filter fun e => e.handover?.isSome)
        (h.act transmit action).transmitter := by
  cases action with
  | submit operation =>
    have handed := handed_submit transmit h.correlator operation h.transmitter
    obtain ⟨es, eq, -⟩ := submit_recording transmit h.correlator operation h.transmitter
    rw [eq] at handed
    refine ⟨.submitted h.correlator.requests.size operation :: es, by simp [act, eq], ?_⟩
    rw [List.filter_cons_of_neg (by simp [handover?]), handed.filter_eq]
    simpa [act, eq] using handed
  | reply message =>
    have handed := handed_onReply transmit h.correlator message h.transmitter
    obtain ⟨es, eq, -⟩ := onReply_recording transmit h.correlator message h.transmitter
    rw [eq] at handed
    refine ⟨.routed message (h.correlator.onReply transmit message h.transmitter).1 :: es,
      by simp [act, eq], ?_⟩
    rw [List.filter_cons_of_neg (by simp [handover?]), handed.filter_eq]
    simpa [act, eq] using handed
  | cancel | forget | take | terminate => exact ⟨_, rfl, .nil⟩

/-- In a run the transmitter is handed the requests that are seen to be handed over. -/
lemma handed_run (h : History τ) (actions : List Action) :
    ∃ es, (h.run transmit actions).trace = h.trace ++ es ∧
      Handed transmit h.transmitter (es.filter fun e => e.handover?.isSome)
        (h.run transmit actions).transmitter := by
  induction actions generalizing h with
  | nil => exact ⟨[], by simp [run], .nil⟩
  | cons action rest ih =>
    obtain ⟨es, eq, first⟩ := h.handed_act transmit action
    obtain ⟨fs, eq', second⟩ := ih (h.act transmit action)
    refine ⟨es ++ fs, ?_, ?_⟩
    · rw [← List.append_assoc, ← eq]
      exact eq'
    · rw [List.filter_append]
      exact first.append second

end History

end Netconf
