import Netconf.Proofs.Correlator.Coherent

/-!
# The request in flight

A request goes in flight when the transmitter takes it, and it lands when its reply is delivered. A
move that does neither leaves the request in flight where it is, or ends the session.
-/

namespace Netconf.Correlator

/-- What a move does about the request in flight. -/
inductive Flight (c : Correlator) (f : Option Event) (d : Correlator) : Prop where
  /-- It is left where it is, and the message that comes in, if any, is not for it. -/
  | stays :
    d.inFlight = c.inFlight →
    f.bind Event.transmission? = none → f.bind Event.delivery? = none →
    (∀ message result, f = some (.routed message result) →
      message.messageKind ≠ .rpcReply ∨ c.inFlight = none) →
    Flight c f d
  /-- The transmitter takes one. -/
  | starts {i rpc} :
    c.Free → d.inFlight = some i →
    f = some (.handed rpc (.ok ())) → rpc.messageId? = some (messageId i) →
    Flight c f d
  /-- Its reply is delivered. -/
  | lands {i message} :
    c.inFlight = some i → d.inFlight = none →
    f = some (.routed message (.ok .delivered)) →
    message.messageKind = .rpcReply → message.messageId? = some (messageId i) →
    d.answer? i = some (.given (.ok message)) →
    Flight c f d
  /-- The session has ended. -/
  | ends :
    d.terminated.isSome → d.inFlight = none →
    f.bind Event.transmission? = none → f.bind Event.delivery? = none →
    Flight c f d

/-- What is seen of a move is at most one event. -/
lemma filterMap_toList {β : Type} (f : Option Event) (g : Event → Option β) :
    f.toList.filterMap g = (f.bind g).toList := by
  cases f with
  | none => rfl
  | some e => cases eq : g e <;> simp [eq]

/-- A change that keeps aside leaves the request in flight where it is. -/
lemma Aside.flight {c d : Correlator} {e : Event} (as : c.Aside d) (trans : e.transmission? = none)
    (deliv : e.delivery? = none) (other : ∀ message result, e ≠ .routed message result) :
    Flight c (some e) d :=
  .stays as.inFlight trans deliv fun _ _ eq => absurd (Option.some.inj eq) (other _ _)

/-- Every move does one of these. -/
lemma Move.flight {c d : Correlator} {f : Option Event} (mv : Move c f d) (ch : Coherent c) :
    Flight c f d := by
  cases mv with
  | accept => exact .stays rfl rfl rfl nofun
  | refuse => exact .stays rfl rfl rfl nofun
  | skip => exact .stays rfl rfl rfl nofun
  | @send w _ fr eq _ => exact .starts fr rfl rfl (ch.numbered (w := w) (by simp [eq]))
  | reject => exact .stays rfl rfl rfl nofun
  | collapse => exact .ends rfl rfl rfl rfl
  | deliver kind fl num =>
    obtain ⟨r, hr, _⟩ := ch.inFlight fl
    refine .lands fl rfl rfl kind num ?_
    exact answer?_eq_some.mpr ⟨_, getElem?_update_of_some hr, by simp⟩
  | mismatch => exact .ends rfl rfl rfl rfl
  | pass other =>
    refine .stays rfl rfl rfl fun message result eq => ?_
    cases eq
    exact other
  | terminate =>
    rcases terminate_cases (c := c) _ with ⟨_, eq⟩ | ⟨_, eq⟩
    · exact .ends (by rw [eq]; rfl) (by rw [eq]; rfl) rfl rfl
    · exact .stays (by rw [eq]) rfl rfl nofun
  | cancel => exact aside_cancel.flight rfl rfl nofun
  | forget => exact aside_forget.flight rfl rfl nofun
  | take => exact aside_take.flight rfl rfl nofun

end Netconf.Correlator
