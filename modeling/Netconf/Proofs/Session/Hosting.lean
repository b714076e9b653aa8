import Netconf.Opening
import Netconf.Proofs.Session.Course
import Netconf.Proofs.SessionId.Holding

/-!
# Sessions on one allocator

A host establishes any number of server sessions, and all of them lease their numbers from one
allocator. Establishing may fail at every step and may be given up midway, sessions end by being
dropped or closed, and all this goes on side by side. Still the numbers in use are always those of
the sessions and of the attempts to establish one, each number belongs to one of them, and each is
given back once (`numbers_held`).
-/

namespace Netconf

/-! ## What a session keeps -/

namespace Session

/-- What a session was established with. -/
def basis (s : Session) : Preferences × Option Nat :=
  (s.preferences, s.lease)

section

variable {s : Session}

/-- A session begins with the preferences and the lease that it is given. -/
lemma basis_of_start {preferences : Preferences} {lease : Option Nat} {reader : Framing.Reader}
    {config : Config} (established : start preferences lease reader config = .ok s) :
    s.basis = (preferences, lease) := by
  cases mode : reader.setMode preferences.framing with
  | error e =>
    rw [start, mode] at established
    cases established
  | ok =>
    rw [start, mode] at established
    cases established
    rfl

/-- Receiving a message leaves alone what a session was established with. -/
lemma basis_receive (s : Session) (payload : Bytes) : (s.receive payload).basis = s.basis := by
  unfold receive route
  split
  · split <;> rfl
  · rfl

/-- What the reader has come to leaves alone what a session was established with. -/
lemma basis_heed (s : Session) (reader : Framing.Reader) (reading : Framing.Reading) :
    (s.heed reader reading).basis = s.basis := by
  cases reading with
  | message payload => exact basis_receive { s with reader := reader } payload
  | _ => rfl

/-- A failure of the writer leaves alone what a session was established with. -/
lemma basis_notice (s : Session) : s.notice.basis = s.basis := by
  unfold notice
  split <;> rfl

/-- Asking for a message leaves alone what a session was established with. -/
lemma basis_nextMessage (s : Session) : s.nextMessage.2.basis = s.basis := by
  unfold nextMessage
  split <;> rfl

/-- Sending a message leaves alone what a session was established with. -/
lemma basis_send (s : Session) (message : Node) : (s.send message).2.basis = s.basis := by
  unfold send
  split
  · rfl
  · split <;> rfl

/-- Asking why a session has ended leaves alone what it was established with. -/
lemma basis_awaitEnd (s : Session) : s.awaitEnd.2.basis = s.basis := by
  unfold awaitEnd
  split <;> rfl

end

end Session

/-- Whatever happens to an established session, it keeps what it was established with. -/
lemma Course.basis_step (c : Course) (act : Session.Act) :
    (c.step act).session.basis = c.session.basis := by
  cases act with
  | send message => exact c.session.basis_send message
  | proceed k =>
    rw [step, proceed]
    split <;> rfl
  | nextMessage =>
    rw [step, nextMessage]
    have same := c.session.basis_nextMessage
    split <;> next eq => rw [eq] at same; exact same
  | read reads =>
    rw [step, read]
    split
    · exact c.session.basis_heed _ _
    · rfl
  | fetch =>
    rw [step]
    split <;> rfl
  | notice => exact c.session.basis_notice
  | awaitEnd => exact c.session.basis_awaitEnd
  | _ => rfl

/-- The number on which a server agrees is its own. -/
lemma Handshake.sessionId_of_negotiate {id : Nat} {offered : CapabilitySet}
    {localHello remoteHello : Node} {p : Preferences}
    (eq : negotiate (.server id) offered localHello remoteHello = .ok p) : p.sessionId = id := by
  simp only [negotiate, bind, Except.bind] at eq
  split at eq
  · cases eq
  · next remote _ =>
    cases announced : remote.sessionId with
    | some => rw [announced] at eq; cases eq
    | none =>
      rw [announced] at eq
      simp only [agreedId] at eq
      split at eq
      · cases eq
      · split at eq
        · cases eq
        · cases eq
          rfl

/-- The number in the preferences of a server is its own. -/
lemma Opening.sessionId_of_negotiate {o : Opening} {id : Nat} {payload : Bytes} {p : Preferences}
    (role : o.handshake.role = .server id) (eq : o.negotiate payload = .ok p) :
    p.sessionId = id := by
  obtain ⟨_, _, ⟨_, offered, stage⟩, _⟩ := o
  obtain rfl := role
  simp only [negotiate, bind, Except.bind] at eq
  split at eq
  · cases eq
  · next remote _ =>
    cases stage with
    | helloSent hello =>
      cases agreed : Handshake.negotiate (.server id) offered hello remote with
      | error =>
        simp only [Handshake.receiveHello, agreed] at eq
        cases eq
      | ok q =>
        simp only [Handshake.receiveHello, agreed] at eq
        cases eq
        exact Handshake.sessionId_of_negotiate agreed
    | _ => cases eq

/-! ## Attempts to establish a session -/

/-- An attempt of a server to establish a session, and what came of it. -/
inductive Attempt where
  /-- It says hello; the given slices of that are not written yet. -/
  | opening (opening : Opening) (unwritten : List Bytes) (written : Bytes)
  /-- Its hello is written and flushed, and it waits for the other's. -/
  | awaiting (opening : Opening) (written : Bytes)
  /-- The exchange has failed, and the stream is being shut down. -/
  | failing (opening : Opening) (error : Error)
  /-- The session is established. -/
  | running (course : Course)
  /-- The attempt came to an error. -/
  | failed (error : Error)
  /-- The attempt was given up midway, or the session was dropped or closed. -/
  | gone

namespace Attempt

/-- What can happen to an attempt. -/
inductive Act where
  /-- The hello is written, and the transport answers so. -/
  | write (planned : List Written)
  /-- The transport is flushed, which fails for a reason or does not. -/
  | flush (failure : Option String)
  /-- The other's hello is read, and the transport answers so. -/
  | read (reads : List Framing.Read)
  /-- The stream is shut down. -/
  | shutDown
  /-- Something happens to the session. -/
  | session (act : Session.Act)
  /-- The attempt is given up midway, or the application drops the session. -/
  | drop
  /-- The application closes the session. -/
  | close

variable {σ : Type} (source : IdSource σ)

/-- A new attempt. -/
def begin (config : Config) (offered : CapabilitySet) (ids : σ) : Attempt × σ :=
  match Opening.begin source .server config offered ids with
  | (.ok (hello, o), ids) => (opening o (Outbound.remainingSlices 0 [hello]) [], ids)
  | (.error e, ids) => (failed e, ids)

/-- The attempt when it has said hello and the reader has come to something. -/
def heed (o : Opening) (written : Bytes) (ids : σ) : Framing.Reading → Attempt × σ
  | .message payload =>
    match o.negotiate payload with
    | .error e => (failing o e, ids)
    | .ok _ =>
      match o.establish source payload ids with
      | (.ok s, ids) => (running (.start s written), ids)
      | (.error e, ids) => (failed e, ids)
  | .ended => (failing o (.handshake .connectionClosed), ids)
  | .failed e => (failing o (Session.readFailure e), ids)
  | .waiting => (awaiting o written, ids)

/-- What has come of an attempt after one more act. A client would ask for an answer before it
closes its session. -/
def act (p : Attempt) (act : Act) (ids : σ) : Attempt × σ :=
  match p, act with
  | opening o unwritten written, .write planned =>
    match Outbound.writeBatch Sink.write unwritten ⟨planned, written⟩ with
    | (.complete, sink) => (opening o [] sink.taken, ids)
    | (.blocked slices, sink) => (opening o slices sink.taken, ids)
    | (.failed _ reason, _) => (failing o (.transport reason), ids)
  | opening o [] written, .flush none => (awaiting o written, ids)
  | opening o [] _, .flush (some reason) => (failing o (.transport reason), ids)
  | opening o _ _, .drop => (gone, o.abandon source ids)
  | awaiting o written, .read reads =>
    let (reading, reader, _) := o.reader.next reads
    heed source { o with reader := reader } written ids reading
  | awaiting o _, .drop => (gone, o.abandon source ids)
  | failing o e, .shutDown => (failed e, o.abandon source ids)
  | failing o _, .drop => (gone, o.abandon source ids)
  | running c, .session act => (running (c.step act), ids)
  | running c, .drop => (gone, (c.session.drop source ids).2)
  | running c, .close =>
    if c.session.asksToClose then (running (c.step (.submit Operation.closeSession)), ids)
    else (gone, (c.session.drop source ids).2)
  | p, _ => (p, ids)

/-- The number that belongs to an attempt. -/
def number? : Attempt → Option Nat
  | opening o _ _ | awaiting o _ => o.lease
  | failing o _ => o.lease
  | running c => some c.session.preferences.sessionId
  | failed _ | gone => none

/-- The number is the one that is announced, and the one that is leased. -/
def Leased : Attempt → Prop
  | opening o _ _ | awaiting o _ => ∃ id, o.lease = some id ∧ o.handshake.role = .server id
  | failing o _ => ∃ id, o.lease = some id
  | running c => c.session.lease = some c.session.preferences.sessionId
  | failed _ | gone => True

/-- How an attempt begins. -/
inductive Begins (ids : σ) : Attempt × σ → Prop where
  | refused {e} :
    Begins ids (failed e, ids)
  | exhausted {e ids'} :
    source.allocate ids = (none, ids') →
    Begins ids (failed e, ids')
  | begins {p ids' id} :
    source.allocate ids = (some id, ids') → p.Leased → p.number? = some id →
    Begins ids (p, ids')

/-- How an attempt goes on: it keeps its number, or it gives it back and has none. -/
inductive Goes (p : Attempt) (ids : σ) : Attempt × σ → Prop where
  | keeps {p'} :
    p'.Leased → p'.number? = p.number? →
    Goes p ids (p', ids)
  | ends {p' id} :
    p'.Leased → p.number? = some id → p'.number? = none →
    Goes p ids (p', source.release id ids)

section

variable {source} {p : Attempt} {o : Opening} {id : Nat}

/-- An attempt begins with a number that it leases, or comes to an error without one. -/
lemma begins_begin (source : IdSource σ) (config : Config) (offered : CapabilitySet) (ids : σ) :
    Begins source ids (begin source config offered ids) := by
  unfold begin Opening.begin
  cases config.validate with
  | error e => exact .refused
  | ok =>
    cases given : source.allocate ids with
    | mk id ids' =>
      cases id with
      | none =>
        simp only [Opening.leaseFor, given]
        exact .exhausted given
      | some id =>
        simp only [Opening.leaseFor, given]
        exact .begins given ⟨id, rfl, rfl⟩ rfl

/-- An attempt that is abandoned gives back its number. -/
lemma goes_abandon (p p' : Attempt) (leased : o.lease = some id) (number : p.number? = some id)
    (leased' : p'.Leased) (none : p'.number? = none) (ids : σ) :
    Goes source p ids (p', o.abandon source ids) := by
  rw [Opening.abandon, leased]
  exact .ends leased' number none

/-- An attempt that has read something leases its number still, or it has given it back and came to
an error. -/
lemma goes_heed (p : Attempt) (leased : o.lease = some id) (role : o.handshake.role = .server id)
    (number : p.number? = some id) (written : Bytes) (ids : σ) (reading : Framing.Reading) :
    Goes source p ids (heed source o written ids reading) := by
  cases reading with
  | message payload =>
    cases agreed : o.negotiate payload with
    | error e =>
      simp only [heed, agreed]
      exact .keeps ⟨id, leased⟩ (leased.trans number.symm)
    | ok preferences =>
      have own := Opening.sessionId_of_negotiate role agreed
      simp only [heed, agreed, Opening.establish]
      cases established : Session.start preferences o.lease o.reader o.config with
      | error e =>
        simp only [bind, Except.bind, established]
        exact goes_abandon p (failed e) leased number trivial rfl ids
      | ok s =>
        simp only [bind, Except.bind, established]
        have basis := Session.basis_of_start established
        rw [leased, ← own] at basis
        obtain ⟨rfl, lease⟩ := Prod.mk.inj basis
        refine .keeps lease ?_
        rw [number, ← own]
        rfl
  | ended => exact .keeps ⟨id, leased⟩ (leased.trans number.symm)
  | failed => exact .keeps ⟨id, leased⟩ (leased.trans number.symm)
  | waiting => exact .keeps ⟨id, leased, role⟩ (leased.trans number.symm)

/-- A session gives back its number when it is dropped. -/
lemma goes_drop {c : Course} (leased : (running c).Leased) (ids : σ) :
    Goes source (running c) ids (gone, (c.session.drop source ids).2) := by
  rw [Leased] at leased
  rw [Session.drop, leased]
  exact .ends trivial rfl rfl

/-- Whatever happens to an attempt, it keeps its number or gives it back. -/
lemma Leased.goes (leased : p.Leased) (source : IdSource σ) (act : Act) (ids : σ) :
    Goes source p ids (p.act source act ids) := by
  -- An act that is none of the phase leaves all as it is.
  have rests : Goes source p ids (p, ids) := .keeps leased rfl
  cases p with
  | opening o unwritten written =>
    obtain ⟨id, lease, role⟩ := leased
    cases act with
    | write planned =>
      rw [Attempt.act]
      split
      · exact .keeps ⟨id, lease, role⟩ rfl
      · exact .keeps ⟨id, lease, role⟩ rfl
      · exact .keeps ⟨id, lease⟩ rfl
    | flush failure =>
      cases unwritten with
      | nil =>
        cases failure with
        | none => exact .keeps ⟨id, lease, role⟩ rfl
        | some => exact .keeps ⟨id, lease⟩ rfl
      | cons => cases failure <;> exact rests
    | drop => exact goes_abandon (opening o unwritten written) gone lease lease trivial rfl ids
    | _ => exact rests
  | awaiting o written =>
    obtain ⟨id, lease, role⟩ := leased
    cases act with
    | read reads =>
      let read := { o with reader := (o.reader.next reads).2.1 }
      exact goes_heed (o := read) (awaiting o written) lease role lease written ids _
    | drop => exact goes_abandon (awaiting o written) gone lease lease trivial rfl ids
    | _ => exact rests
  | failing o e =>
    obtain ⟨id, lease⟩ := leased
    cases act with
    | shutDown => exact goes_abandon (failing o e) (failed e) lease lease trivial rfl ids
    | drop => exact goes_abandon (failing o e) gone lease lease trivial rfl ids
    | _ => exact rests
  | running c =>
    cases act with
    | session act =>
      obtain ⟨preferences, lease⟩ := Prod.mk.inj (c.basis_step act)
      refine .keeps ?_ ?_
      · rw [Leased, lease, preferences]
        exact leased
      · rw [number?, preferences]
        rfl
    | drop => exact goes_drop leased ids
    | close =>
      -- A server does not ask to close, so closing only drops the session.
      have server : c.session.asksToClose = false := by
        rw [Leased] at leased
        rw [Session.asksToClose, Session.isClient, leased]
        rfl
      rw [Attempt.act, server]
      exact goes_drop leased ids
    | _ => exact rests
  | failed e => exact rests
  | gone => exact rests

end

end Attempt

/-! ## Hosts -/

/-- A place in a list, and the list with something else there. -/
lemma exists_split {α : Type} {l : List α} {k : Nat} {a : α} (here : l[k]? = some a) :
    ∃ front back, l = front ++ a :: back ∧ ∀ b, l.set k b = front ++ b :: back := by
  obtain ⟨lt, rfl⟩ := List.getElem?_eq_some_iff.mp here
  refine ⟨l.take k, l.drop (k + 1), ?_, fun b => ?_⟩
  · rw [List.getElem_cons_drop, List.take_append_drop]
  · rw [List.set_eq_take_append_cons_drop, if_pos lt]

/-- A source of numbers, with all the attempts to establish a session that were made with it. -/
structure Host (σ : Type) where
  ids : σ
  attempts : List Attempt

namespace Host

section

variable {σ : Type}

/-- What can happen on a host. -/
inductive Act where
  | establish (config : Config) (offered : CapabilitySet)
  /-- Something happens to an attempt. -/
  | attempt (k : Nat) (act : Attempt.Act)

def new (ids : σ) : Host σ :=
  ⟨ids, []⟩

/-- The numbers of the sessions and of the attempts to establish one. -/
def numbers (h : Host σ) : List Nat :=
  h.attempts.filterMap Attempt.number?

variable (source : IdSource σ)

/-- The host after one more act. -/
def act (h : Host σ) : Act → Host σ
  | .establish config offered =>
    let (p, ids) := Attempt.begin source config offered h.ids
    ⟨ids, h.attempts ++ [p]⟩
  | .attempt k act =>
    match h.attempts[k]? with
    | none => h
    | some p =>
      let (p, ids) := p.act source act h.ids
      ⟨ids, h.attempts.set k p⟩

/-- The host after some more acts. -/
def run (h : Host σ) (acts : List Act) : Host σ :=
  acts.foldl (act source) h

end

/-- The numbers in use are those of the sessions and of the attempts to establish one. -/
structure Sound (h : Host Ledger) : Prop where
  leased : ∀ p ∈ h.attempts, p.Leased
  holds : h.ids.Holds h.numbers

section

variable {h : Host Ledger}

/-- On a new host no number is in use. -/
lemma sound_new : (new Ledger.new).Sound where
  leased := List.forall_mem_nil _
  holds := Ledger.holds_new

/-- The numbers of some attempts are those of one of them and of the others. -/
lemma numbers_split (front back : List Attempt) (p : Attempt) :
    (front ++ p :: back).filterMap Attempt.number? = front.filterMap Attempt.number? ++
      (p.number?.toList ++ back.filterMap Attempt.number?) := by
  rw [List.filterMap_append, List.filterMap_cons]
  cases p.number? <;> rfl

/-- A host is sound if one of its attempts and the others are, and their numbers are in use. -/
lemma sound_of_split {ids : Ledger} {front back : List Attempt} {p : Attempt}
    (before : ∀ p ∈ front, p.Leased) (leased : p.Leased) (after : ∀ p ∈ back, p.Leased)
    (holds : ids.Holds (front.filterMap Attempt.number? ++
      (p.number?.toList ++ back.filterMap Attempt.number?))) :
    Sound ⟨ids, front ++ p :: back⟩ where
  leased := List.forall_mem_append.mpr ⟨before, List.forall_mem_cons.mpr ⟨leased, after⟩⟩
  holds := by
    rwa [numbers, numbers_split]

/-- A host stays sound when it begins to establish a session. -/
lemma Sound.establish (sound : h.Sound) (config : Config) (offered : CapabilitySet) :
    (h.act Ledger.source (.establish config offered)).Sound := by
  have begins := Attempt.begins_begin Ledger.source config offered h.ids
  rw [act]
  generalize Attempt.begin Ledger.source config offered h.ids = begun at begins
  obtain ⟨leased, holds⟩ := sound
  cases begins with
  | refused =>
    refine sound_of_split leased trivial (List.forall_mem_nil _) ?_
    exact (List.append_nil _).symm ▸ holds
  | exhausted none =>
    refine sound_of_split leased trivial (List.forall_mem_nil _) ?_
    exact (List.append_nil _).symm ▸ holds.exhausted none
  | begins given leased' number =>
    refine sound_of_split leased leased' (List.forall_mem_nil _) ?_
    rw [number]
    exact holds.given given

/-- A host stays sound whatever happens to one of its attempts. -/
lemma Sound.attempt (sound : h.Sound) (k : Nat) (act : Attempt.Act) :
    (h.act Ledger.source (.attempt k act)).Sound := by
  rw [Host.act]
  cases here : h.attempts[k]? with
  | none => exact sound
  | some p =>
    obtain ⟨leased, holds⟩ := sound
    obtain ⟨front, back, eq, set⟩ := exists_split here
    rw [eq, List.forall_mem_append, List.forall_mem_cons] at leased
    obtain ⟨before, leased, after⟩ := leased
    have goes := leased.goes Ledger.source act h.ids
    rw [numbers, eq, numbers_split] at holds
    simp only [set]
    generalize p.act Ledger.source act h.ids = next at goes
    cases goes with
    | keeps leased' same =>
      refine sound_of_split before leased' after ?_
      rwa [same]
    | ends leased' number none =>
      refine sound_of_split before leased' after ?_
      rw [number] at holds
      rw [none]
      exact holds.release List.perm_middle

/-- A host stays sound whatever happens on it. -/
lemma Sound.act (sound : h.Sound) (act : Act) : (h.act Ledger.source act).Sound := by
  cases act with
  | establish config offered => exact sound.establish config offered
  | attempt k act => exact sound.attempt k act

/-- A host that began without numbers is sound. -/
lemma sound_run (acts : List Act) : ((new Ledger.new).run Ledger.source acts).Sound := by
  induction acts using List.reverseRecOn with
  | nil => exact sound_new
  | append_singleton acts act ih =>
    rw [run, List.foldl_concat]
    exact ih.act act

end

/-- On a host the numbers in use are always those of the sessions that were not dropped or closed
and of the attempts to establish one that go on. Each belongs to one of them, and is given back once
when that ends: it is not given to another before, and not given back by another. -/
theorem numbers_held (acts : List Act) :
    let h := (new Ledger.new).run Ledger.source acts
    h.numbers.Nodup ∧ (∀ id, id ∈ h.ids.allocator.used ↔ id ∈ h.numbers) ∧
      h.ids.allocator.used.size = h.numbers.length ∧ Balanced h.ids.entries ∧
      ∀ id, h.ids.entries.count (.answered (some id)) =
        h.ids.entries.count (.released id) + h.numbers.count id := by
  intro h
  obtain ⟨-, sound, distinct, held, balanced, counted⟩ := sound_run acts
  refine ⟨distinct, fun id => (sound.used id).trans (held id), ?_, balanced, counted⟩
  obtain ⟨used, distinct', mem, size⟩ := sound.size
  have same : used.Perm h.numbers :=
    (List.perm_ext_iff_of_nodup distinct' distinct).mpr fun id => (mem id).trans (held id)
  rw [size, same.length_eq]

end Host

end Netconf
