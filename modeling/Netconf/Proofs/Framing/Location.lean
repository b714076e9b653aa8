import Mathlib.Data.List.Infix
import Netconf.Proofs.Framing.Chunked

/-!
# Where a violation is met

The error of a decoder names the byte that shows the violation. Two bytes can show that no size is
written with a field: the eleventh digit, and the first byte that is no digit. A decoder that holds
both names the second, and one that was asked before this came has named the eleventh digit. Where
no more than ten digits stand before such a byte, the byte that is named does not depend on how the
stream is cut (`locates_violation`).
-/

namespace Netconf.Framing

/-! ## Headers -/

namespace Header

variable {limit chunks position : Nat} {bytes : Bytes} {violation : Violation}

/-- A line feed is no digit. -/
lemma lf_notMem_digits {digits : Bytes} (all : ∀ d ∈ digits, isDigit d = true) :
    lf ∉ digits :=
  fun mem => absurd (all lf mem) (by decide)

/-- Among digits there is no byte that is none. -/
lemma findIdx?_digits {digits : Bytes} (all : ∀ d ∈ digits, isDigit d = true) :
    digits.findIdx? (!isDigit ·) = none := by
  rw [List.findIdx?_eq_none_iff]
  intro d mem
  simp [all d mem]

/-- Too many digits show the violation without a byte after them. -/
lemma read_digits {digits : Bytes} (all : ∀ d ∈ digits, isDigit d = true)
    (long : maxChunkSizeDigits < digits.length) :
    read limit chunks (lf :: hash :: digits) = .violated full .invalidChunkSize := by
  obtain ⟨take, -⟩ := takeWhile_of_open (lf_notMem_digits all)
  have judged : ofField limit digits = .violated full .invalidChunkSize := by
    simp only [ofField, take, findIdx?_digits all, if_pos long, full]
  cases digits with
  | nil => cases long
  | cons d digits =>
    have other : d ≠ hash := by
      rintro rfl
      exact absurd (all hash List.mem_cons_self) (by decide)
    rw [read_field other, judged]

/-- Before the first byte that is no digit there are digits. -/
lemma of_findIdx? {field : Bytes} {i : Nat} (found : field.findIdx? (!isDigit ·) = some i) :
    ∃ (digits : Bytes) (b : UInt8) (more : Bytes), field = digits ++ b :: more ∧
      digits.length = i ∧ (∀ d ∈ digits, isDigit d = true) ∧ isDigit b = false := by
  obtain ⟨lt, other, before⟩ := List.findIdx?_eq_some_iff_getElem.mp found
  refine ⟨field.take i, field[i], field.drop (i + 1), ?_, ?_, ?_, by simpa using other⟩
  · simp
  · rw [List.length_take]
    omega
  · intro d mem
    obtain ⟨j, lt', rfl⟩ := List.mem_take_iff_getElem.mp mem
    simpa using before j (by omega)

/-- A violation further on is met at a byte after too many digits that is none. -/
lemma ofField_far (h : ofField limit bytes = .violated position violation)
    (far : full < position) :
    violation = .invalidChunkSize ∧ ∃ (digits : Bytes) (b : UInt8) (more : Bytes),
      (∀ d ∈ digits, isDigit d = true) ∧ isDigit b = false ∧ b ≠ lf ∧
        bytes = digits ++ b :: more ∧ position = 2 + digits.length := by
  simp only [ofField] at h
  split at h
  · next i found =>
    cases h
    obtain ⟨digits, b, more, eq, rfl, all, other⟩ := of_findIdx? found
    have mem : b ∈ bytes.takeWhile (· != lf) := by simp [eq]
    have whole := List.takeWhile_append_dropWhile (p := (· != lf)) (l := bytes)
    rw [eq, List.append_assoc, List.cons_append] at whole
    exact ⟨rfl, digits, b, _, all, other, by simpa using List.mem_takeWhile_imp mem,
      whole.symm, rfl⟩
  · -- The other violations are met within the digits that a size can have.
    rw [full] at far
    repeat' split at h
    all_goals cases h
    all_goals omega

/-- A violation beyond the eleventh digit is met at the first byte that is no digit, before the end
of the field. -/
lemma read_far (h : read limit chunks bytes = .violated position violation)
    (far : full < position) :
    violation = .invalidChunkSize ∧ ∃ (digits : Bytes) (b : UInt8) (more : Bytes),
      (∀ d ∈ digits, isDigit d = true) ∧ isDigit b = false ∧ b ≠ lf ∧
        bytes = lf :: hash :: (digits ++ b :: more) ∧ position = 2 + digits.length := by
  have field : ∃ field, bytes = lf :: hash :: field ∧
      ofField limit field = .violated position violation := by
    have near := far
    simp only [full, maxChunkSizeDigits] at near
    unfold read at h
    repeat' split at h
    all_goals first | exact ⟨_, by simp_all, h⟩ | (cases h; done) | (cases h; omega)
  obtain ⟨field, rfl, judged⟩ := field
  obtain ⟨same, digits, b, more, all, other, ne, rfl, place⟩ := ofField_far judged far
  exact ⟨same, digits, b, more, all, other, ne, rfl, place⟩

end Header

/-! ## Streams -/

/-- After messages and complete chunks of another a header is due that shows the violation. -/
inductive Shows (limit : Nat) (bytes : Bytes) (start position : Nat) (violation : Violation) :
    Prop where
  | intro {rest : Bytes} (ms : List (Message limit)) (cs : List (Chunk limit)) :
    bytes = Message.stream ms ++ (cs.flatMap Chunk.wire ++ rest) →
    bytes.length = start + rest.length →
    Header.read limit cs.length rest = .violated position violation →
    Shows limit bytes start position violation

/-- The error names the byte that shows the violation. -/
inductive Located (limit : Nat) (bytes : Bytes) : FramingError → Prop where
  | intro {start position : Nat} {violation : Violation} :
    Shows limit bytes start position violation →
    Located limit bytes ⟨start + position, violation⟩

/-- In the field of a size more digits than it can have stand before a byte that is neither a digit
nor the end of the field. -/
inductive Overlong (start position : Nat) : Bytes → Prop where
  | intro {before digits : Bytes} {b : UInt8} (more : Bytes) :
    before.length = start → (∀ d ∈ digits, isDigit d = true) →
    maxChunkSizeDigits < digits.length → isDigit b = false → b ≠ lf →
    position = 2 + digits.length →
    Overlong start position (before ++ lf :: hash :: (digits ++ b :: more))

/-- A stream that comes to a violation shows it somewhere. -/
lemma Outcome.shows {limit : Nat} {bytes : Bytes} {ms : List (Message limit)} {v : Violation}
    (out : Outcome bytes ms (some v)) : ∃ start position, Shows limit bytes start position v := by
  obtain ⟨cs, eq, rem⟩ := out
  cases rem with
  | violated read =>
    refine ⟨(Message.stream ms ++ cs.flatMap Chunk.wire).length, _, .intro ms cs eq ?_ read⟩
    simp only [eq, List.length_append]
    omega

namespace Shows

variable {limit start start' position position' : Nat} {bytes : Bytes} {v w : Violation}

/-- A stream that shows a violation comes to it. -/
lemma outcome (sh : Shows limit bytes start position v) :
    ∃ ms : List (Message limit), Outcome bytes ms (some v) := by
  obtain ⟨ms, cs, eq, -, read⟩ := sh
  exact ⟨ms, .intro cs eq (.violated read)⟩

/-- The place of a violation is determined by the bytes. -/
lemma unique (top : limit ≤ absoluteMaxChunkSize) (first : Shows limit bytes start position v)
    (second : Shows limit bytes start' position' w) :
    start = start' ∧ position = position' ∧ v = w := by
  obtain ⟨ms, cs, eq, len, read⟩ := first
  obtain ⟨ns, ds, eq', len', read'⟩ := second
  have rem : Remnant limit cs.length _ (some v) := .violated read
  have rem' : Remnant limit ds.length _ (some w) := .violated read'
  rw [eq] at eq'
  obtain ⟨rfl, after⟩ := Message.prefixCode.unique (rem.ne_message top) (rem'.ne_message top) eq'
  obtain ⟨rfl, rfl⟩ := Chunk.prefixCode.unique (rem.ne_wire top) (rem'.ne_wire top) after
  rw [read] at read'
  cases read'
  exact ⟨by omega, rfl, rfl⟩

/-- A violation stays one whatever follows, and at the same place, unless it was the eleventh digit
and a byte that is none follows. -/
lemma append (sh : Shows limit bytes start position v) (more : Bytes) :
    ∃ position', Shows limit (bytes ++ more) start position' v ∧
      (position' = position ∨
        position = Header.full ∧ start + Header.full < bytes.length ∧
          bytes.length ≤ start + position') := by
  obtain ⟨ms, cs, eq, len, read⟩ := sh
  obtain ⟨position', read', same⟩ := Header.violated_append read more
  refine ⟨position', .intro ms cs ?_ ?_ read', ?_⟩
  · simp only [eq, List.append_assoc]
  · simp only [List.length_append] at len ⊢
    omega
  · omega

/-- A violation beyond the eleventh digit is that of an overlong field. -/
lemma overlong (sh : Shows limit bytes start position v) (far : Header.full < position) :
    Overlong start position bytes := by
  obtain ⟨ms, cs, eq, len, read⟩ := sh
  obtain ⟨rfl, digits, b, more, all, other, free, rfl, rfl⟩ := Header.read_far read far
  rw [← List.append_assoc] at eq
  subst eq
  refine .intro more ?_ all ?_ other free rfl
  · rw [List.length_append] at len
    omega
  · simp only [Header.full] at far
    omega

/-- A violation further on is shown by a byte that is there. -/
lemma lt_length (sh : Shows limit bytes start position v) (far : Header.full < position) :
    start + position < bytes.length := by
  obtain ⟨ms, cs, -, len, read⟩ := sh
  obtain ⟨rfl, digits, b, more, -, -, -, rfl, rfl⟩ := Header.read_far read far
  simp only [List.length_cons, List.length_append] at len
  omega

/-- The eleventh digit shows the violation until the byte comes that is none. -/
lemma cut {more : Bytes} (sh : Shows limit (bytes ++ more) start position v)
    (above : start + Header.full < bytes.length) (below : bytes.length ≤ start + position) :
    Shows limit bytes start Header.full v := by
  obtain ⟨ms, cs, eq, len, read⟩ := sh
  obtain ⟨rfl, digits, b, tail, all, -, -, rfl, rfl⟩ := Header.read_far read (by omega)
  simp only [List.length_append, List.length_cons] at len
  have total := congrArg List.length eq
  simp only [List.length_append, List.length_cons] at total
  rw [Header.full] at above
  -- The bytes reach into the digits, and not beyond them.
  have split : bytes ++ more =
      Message.stream ms ++ (cs.flatMap Chunk.wire ++ [lf, hash]) ++ (digits ++ b :: tail) := by
    simp only [eq, List.append_assoc, List.cons_append, List.nil_append]
  have front : Message.stream ms ++ (cs.flatMap Chunk.wire ++ [lf, hash]) <+: bytes := by
    refine List.prefix_of_prefix_length_le ⟨_, split.symm⟩ (List.prefix_append bytes more) ?_
    simp only [List.length_append, List.length_cons, List.length_nil]
    omega
  obtain ⟨part, rfl⟩ := front
  rw [List.append_assoc _ part more, List.append_cancel_left_eq] at split
  simp only [List.length_append, List.length_cons, List.length_nil] at above below
  have digits_only : part <+: digits := by
    refine List.prefix_of_prefix_length_le ⟨more, split⟩ (List.prefix_append digits _) ?_
    omega
  have all_digits : ∀ d ∈ part, isDigit d = true := fun d mem => all d (digits_only.subset mem)
  refine .intro ms cs ?_ ?_ (Header.read_digits all_digits ?_)
  · simp only [List.append_assoc, List.cons_append, List.nil_append]
  · simp only [List.length_append, List.length_cons, List.length_nil]
    omega
  · omega

end Shows

namespace Decoder

/-- The decoder is asked when more than `low` bytes have come and at most `high`. -/
def AskedWithin (low high : Nat) (pieces : List Bytes) : Prop :=
  ∃ before, before <+: pieces ∧ low < before.flatten.length ∧ before.flatten.length ≤ high

instance (low high : Nat) (pieces : List Bytes) : Decidable (AskedWithin low high pieces) :=
  decidable_of_iff
    (∃ before ∈ pieces.inits, low < before.flatten.length ∧ before.flatten.length ≤ high)
    (by simp only [AskedWithin, List.mem_inits])

/-! ## Decoders -/

/-- A move that meets no violation changes neither the count of the bytes received nor what was met
before. -/
lemma kept_move (d : Decoder) :
    match d.move with
    | .wait d' | .go d' | .message _ d' => d'.received = d.received ∧ d'.failed = d.failed
    | .violated _ => True := by
  fun_cases Decoder.move d
  all_goals first | exact ⟨rfl, rfl⟩ | trivial

variable {limit : Nat} {bytes : Bytes} {ms : List (Message limit)} {d d' : Decoder}
  {e : FramingError}

/-- Extracting a message without a violation changes neither the count of the bytes received nor
what was met before. -/
lemma kept_extract {answer : Option Bytes} (eq : d.extract = (.ok answer, d')) :
    d'.received = d.received ∧ d'.failed = d.failed := by
  have kept := kept_move d
  fun_induction Decoder.extract d with
  | case1 d d'' step =>
    cases eq
    simpa only [step] using kept
  | case2 d d'' step _ ih =>
    rw [step] at kept
    obtain ⟨received, failed⟩ := ih eq (kept_move d'')
    exact ⟨received.trans kept.1, failed.trans kept.2⟩
  | case3 d payload d'' step =>
    cases eq
    simpa only [step] using kept
  | case4 => cases eq

/-- Asking for a message without a violation changes neither the count of the bytes received nor
what was met before. -/
lemma kept_next {answer : Option Bytes} (eq : d.next = (.ok answer, d')) :
    d'.received = d.received ∧ d'.failed = d.failed := by
  cases fail : d.failed with
  | none =>
    rw [next_eq fail] at eq
    obtain ⟨received, failed⟩ := kept_extract eq
    exact ⟨received, failed.trans fail⟩
  | some e =>
    simp only [next, fail] at eq
    cases eq

/-- Asking for all messages without a violation changes neither the count of the bytes received nor
what was met before. -/
lemma kept_exhaust (none : d.exhaust.error = none) :
    d.exhaust.decoder.received = d.received ∧ d.exhaust.decoder.failed = d.failed := by
  fun_induction Decoder.exhaust d with
  | case1 d p d' step =>
    rename_i ih
    obtain ⟨received, failed⟩ := ih none
    exact ⟨received.trans (kept_next step).1, failed.trans (kept_next step).2⟩
  | case2 d d' step => exact kept_next step
  | case3 => cases none

namespace Stands

/-- A move meets a violation where a header is due. -/
lemma move_located (st : Stands bytes ms d) (going : d.failed = none) (all : d.arrived = [])
    (received : d.received = bytes.length) (eq : d.move = .violated e) :
    Located limit bytes e := by
  cases st with
  | header cs g phase assembled split =>
    have counted := g.counted
    simp only [Decoder.move, phase, g.limited, g.chunks] at eq
    rw [pending_eq all] at split counted
    split at eq <;> cases eq
    next position violation read =>
      exact .intro (.intro ms cs split (received.symm.trans counted) read)
  | chunk cs data g phase =>
    simp only [Decoder.move, phase] at eq
    repeat' split at eq
    all_goals cases eq
  | failed fail => simp [going] at fail

/-- The violation that is met in extracting a message is shown by the bytes received. -/
lemma extract_located (st : Stands bytes ms d) (going : d.failed = none) (all : d.arrived = [])
    (received : d.received = bytes.length) (eq : d.extract = (.error e, d')) :
    Located limit bytes e := by
  have moved := st.move going all
  have kept := kept_move d
  fun_induction Decoder.extract d with
  | case1 => cases eq
  | case2 d d'' step _ ih =>
    rw [step] at moved kept
    obtain _ | ⟨st, going, all⟩ := moved
    exact ih st going all (kept.1.trans received) eq (st.move going all) (kept_move d'')
  | case3 => cases eq
  | case4 d e' step =>
    cases eq
    exact st.move_located going all received step

/-- The violation that is met when a decoder is asked for all messages is shown by the bytes
received. -/
lemma exhaust_located (st : Stands bytes ms d) (going : d.failed = none)
    (received : d.received = bytes.length) (eq : d.exhaust.error = some e) :
    Located limit bytes e := by
  fun_induction Decoder.exhaust d generalizing ms with
  | case1 d p d' step =>
    rename_i ih
    have asked := st.next
    rw [step] at asked
    obtain _ | st := asked
    obtain ⟨received', failed⟩ := kept_next step
    exact ih st (failed.trans going) (received'.trans received) eq
  | case2 => cases eq
  | case3 d e' d' step =>
    cases eq
    rw [next_eq going] at step
    exact st.gather.extract_located going rfl received step

end Stands

/-- The violation that a decoder meets is shown by the bytes up to the end of some piece, and not
by those before that piece. -/
lemma feed_located (top : limit ≤ absoluteMaxChunkSize) (st : Stands bytes ms d)
    (out : Outcome bytes ms none) (going : d.failed = none) (received : d.received = bytes.length)
    {pieces : List Bytes} (eq : (d.feed pieces).error = some e) :
    ∃ before piece after, pieces = before ++ piece :: after ∧
      (∃ ns : List (Message limit), Outcome (bytes ++ before.flatten) ns none) ∧
      Located limit (bytes ++ (before ++ [piece]).flatten) e := by
  induction pieces generalizing bytes ms d with
  | nil => cases eq
  | cons piece pieces ih =>
    have st := st.extend piece
    have received : (d.extend piece).received = (bytes ++ piece).length := by
      rw [List.length_append, ← received, Decoder.extend]
    obtain ⟨ns, -, st', out'⟩ := (Stands.faithful top).exhaust st
    -- The violation is met with this piece, or with a later one as the stream was clean so far.
    cases now : (d.extend piece).exhaust.error with
    | some e' =>
      simp only [Decoder.feed, now, Option.some_or] at eq
      cases eq
      refine ⟨[], piece, pieces, rfl, ⟨ms, by simpa using out⟩, ?_⟩
      simpa using st.exhaust_located going received now
    | none =>
      simp only [Decoder.feed, now, Option.none_or] at eq
      rw [now] at out'
      obtain ⟨received', failed⟩ := kept_exhaust now
      obtain ⟨before, last, after, rfl, clean, located⟩ :=
        ih st' out' (failed.trans going) (received'.trans received) eq
      refine ⟨piece :: before, last, after, rfl, ?_, ?_⟩
      · simpa using clean
      · simpa using located

section

variable {start position : Nat} {v : Violation} {before pieces front : List Bytes} {piece : Bytes}

/-- Where the bytes before a piece show no violation and those up to its end one further on, no
decoder is asked in between. -/
lemma not_askedWithin (top : limit ≤ absoluteMaxChunkSize) (cut : before ++ [piece] <+: pieces)
    {ns : List (Message limit)} (clean : Outcome before.flatten ns none)
    (sh : Shows limit (before ++ [piece]).flatten start position v) :
    ¬AskedWithin (start + Header.full) (start + position) pieces := by
  rintro ⟨front, begins, above, below⟩
  have beyond := sh.lt_length (by omega)
  rcases List.prefix_or_prefix_of_prefix begins cut with le | ge
  · rcases List.prefix_concat_iff.mp le with rfl | le
    · omega
    · -- The piece would come after a violation.
      obtain ⟨rest, rfl⟩ := le
      rw [List.append_assoc, List.flatten_append] at sh
      obtain ⟨_, shown, -⟩ := (sh.cut above below).append rest.flatten
      rw [← List.flatten_append] at shown
      obtain ⟨_, out⟩ := shown.outcome
      cases (clean.unique top out).2
  · have le := ge.flatten.length_le
    omega

/-- A decoder names the byte that shows the violation, but for the eleventh digit if it was asked
after that came and before the byte came that is none. -/
lemma error_eq (top : limit ≤ absoluteMaxChunkSize)
    (sh : Shows limit pieces.flatten start position v)
    (eq : ((new .chunked limit).feed pieces).error = some e) :
    e = ⟨start + if AskedWithin (start + Header.full) (start + position) pieces then Header.full
      else position, v⟩ := by
  obtain ⟨before, piece, after, rfl, ⟨ns, clean⟩, located⟩ :=
    feed_located top (Stands.new limit) (Outcome.stream []) rfl rfl eq
  rw [List.nil_append] at clean located
  have cut : before ++ [piece] <+: before ++ piece :: after := ⟨after, by simp⟩
  have whole : (before ++ piece :: after).flatten =
      (before ++ [piece]).flatten ++ after.flatten := by simp
  obtain ⟨shown⟩ := located
  obtain ⟨position', later, same⟩ := shown.append after.flatten
  rw [whole] at sh
  obtain ⟨rfl, rfl, rfl⟩ := sh.unique top later
  rcases same with rfl | ⟨rfl, above, below⟩
  · rw [if_neg (not_askedWithin top cut clean shown)]
  · rw [if_pos ⟨_, cut, above, below⟩]

end

/-- A stream shows a violation, and then each decoder of it meets this, or none does. The byte that
they name is the same for all, unless more than ten digits of a size and then a byte that is neither
a digit nor the end of the field come: a decoder that is asked between the eleventh digit and this
byte names the digit, and every other one names this byte. -/
theorem locates_violation (top : limit ≤ absoluteMaxChunkSize) (bytes : Bytes) :
    (∀ pieces, pieces.flatten = bytes → ((new .chunked limit).feed pieces).error = none) ∨
      ∃ start position violation, Shows limit bytes start position violation ∧
        (Header.full < position → Overlong start position bytes) ∧
        (∀ pieces, pieces.flatten = bytes →
          ((new .chunked limit).feed pieces).error =
            some ⟨start +
              if AskedWithin (start + Header.full) (start + position) pieces then Header.full
              else position, violation⟩) ∧
        ∀ pieces others, pieces.flatten = bytes → others.flatten = bytes →
          (((new .chunked limit).feed pieces).error = ((new .chunked limit).feed others).error ↔
            (AskedWithin (start + Header.full) (start + position) pieces ↔
              AskedWithin (start + Header.full) (start + position) others)) := by
  obtain ⟨ms, -, -, out⟩ := feed_chunked top [bytes]
  rw [List.flatten_singleton] at out
  cases met : ((new .chunked limit).feed [bytes]).error with
  | none =>
    rw [met] at out
    refine .inl ?_
    rintro pieces rfl
    obtain ⟨ns, -, -, out'⟩ := feed_chunked top pieces
    exact Option.map_eq_none_iff.mp (out'.unique top out).2
  | some e =>
    rw [met] at out
    obtain ⟨start, position, sh⟩ := out.shows
    have named : ∀ pieces, pieces.flatten = bytes →
        ((new .chunked limit).feed pieces).error =
          some ⟨start +
            if AskedWithin (start + Header.full) (start + position) pieces then Header.full
            else position, e.violation⟩ := by
      rintro pieces rfl
      obtain ⟨ns, -, -, out'⟩ := feed_chunked top pieces
      obtain ⟨e', eq, -⟩ := Option.map_eq_some_iff.mp (out'.unique top out).2
      rw [eq, error_eq top sh eq]
    refine .inr ⟨start, position, e.violation, sh, sh.overlong, named, ?_⟩
    intro pieces others cut cut'
    rw [named pieces cut, named others cut']
    -- A decoder can be asked between the two bytes only if they are not the same.
    have apart (pieces : List Bytes)
        (asked : AskedWithin (start + Header.full) (start + position) pieces) :
        Header.full < position := by
      obtain ⟨front, -, above, below⟩ := asked
      omega
    by_cases asked : AskedWithin (start + Header.full) (start + position) pieces <;>
      by_cases asked' : AskedWithin (start + Header.full) (start + position) others
    · simp [asked, asked']
    · simpa [asked, asked'] using (apart pieces asked).ne
    · simpa [asked, asked'] using (apart others asked').ne'
    · simp [asked, asked']

/-- Eleven digits and a letter where a size is due. -/
def overlongField : Bytes :=
  [lf, hash] ++ List.replicate 11 0x31 ++ [0x78]

/-- Cut before the letter, the field is refused at the eleventh digit, and in one piece at the
letter. -/
theorem locates_overlongField :
    4 ≤ absoluteMaxChunkSize ∧
      ((new .chunked 4).feed [overlongField]).error = some ⟨13, .invalidChunkSize⟩ ∧
      ((new .chunked 4).feed [overlongField.take 13, overlongField.drop 13]).error =
        some ⟨12, .invalidChunkSize⟩ := by
  have top : 4 ≤ absoluteMaxChunkSize := by decide
  have read : Header.read 4 0 overlongField = .violated 13 .invalidChunkSize := by decide
  have shown : Shows 4 overlongField 0 13 .invalidChunkSize := .intro [] [] rfl rfl read
  rcases locates_violation top overlongField with clean | ⟨start, position, v, sh, -, named, -⟩
  · obtain ⟨ms, -, -, out⟩ := feed_chunked top [overlongField]
    rw [clean _ rfl] at out
    obtain ⟨_, out'⟩ := shown.outcome
    cases (out.unique top out').2
  · obtain ⟨rfl, rfl, rfl⟩ := sh.unique top shown
    refine ⟨top, ?_, ?_⟩
    · rw [named _ rfl, if_neg (by decide)]
    · rw [named _ rfl, if_pos (by decide)]
      rfl

end Decoder

end Netconf.Framing
