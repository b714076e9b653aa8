import Mathlib.Data.List.Chain
import Netconf.Outbound
import Netconf.Proofs.Framing.RoundTrip
import Netconf.Proofs.Text.Utf8
import Netconf.Proofs.Tree.Tag

/-!
# No content looks like a frame boundary

In end-of-message framing a message ends at the marker `]]>]]>`. Texts, attribute values and
namespaces are written without a `>`, so in the written form of a node this stands at the end of
tags only, and there no `]` is before it unless the name of an element ends with one
(`Node.guarded_renderChars`). So no marker begins in a message, not even one that the marker after
the message completes, and a decoder gives back what was framed (`Outbound.feed_frames`).
-/

namespace Netconf

/-! ## Guarded lists -/

/-- The element `b` stands neither first in the list nor directly after an `a`. -/
structure Guarded {α : Type} (a b : α) (list : List α) : Prop where
  chain : list.IsChain fun x y => x = a → y ≠ b
  head : list.head? ≠ some b

namespace Guarded

section

variable {α β : Type} {a b : α} {l m : List α}

/-- The empty list is guarded. -/
lemma nil : Guarded a b [] :=
  ⟨.nil, nofun⟩

/-- A list without `b` is guarded. -/
lemma of_notMem (free : b ∉ l) : Guarded a b l := by
  refine ⟨(List.pairwise_of_forall_mem_list ?_).isChain, ?_⟩
  · rintro x - y mem - rfl
    exact free mem
  · exact fun first => free (List.mem_of_head? first)

/-- Guarded lists one after the other are guarded. -/
lemma append (first : Guarded a b l) (second : Guarded a b m) : Guarded a b (l ++ m) := by
  constructor
  · refine List.isChain_append.mpr ⟨first.chain, second.chain, ?_⟩
    rintro x - y mem - rfl
    exact second.head mem
  · cases l with
    | nil => exact second.head
    | cons x l => exact first.head

/-- Any number of guarded lists one after the other are guarded. -/
lemma flatMap {f : β → List α} {list : List β} (each : ∀ x ∈ list, Guarded a b (f x)) :
    Guarded a b (list.flatMap f) := by
  induction list with
  | nil => exact nil
  | cons x list ih =>
    rw [List.forall_mem_cons] at each
    rw [List.flatMap_cons]
    exact each.1.append (ih each.2)

/-- At the end of a list without it, a `b` is guarded by a last element that is no `a`. -/
lemma concat (nonempty : l ≠ []) (free : b ∉ l) (last : l.getLast? ≠ some a) :
    Guarded a b (l ++ [b]) := by
  have front : Guarded a b l := of_notMem free
  refine ⟨List.isChain_append.mpr ⟨front.chain, .singleton b, ?_⟩, ?_⟩
  · rintro x mem y - rfl
    exact absurd mem last
  · rw [List.head?_append_of_ne_nil _ nonempty]
    exact front.head

/-- There is no `b` directly after an `a`. -/
lemma ne_append (guarded : Guarded a b l) (before after : List α) :
    l ≠ before ++ a :: b :: after := by
  rintro rfl
  exact (List.isChain_append_cons_cons.mp guarded.chain).2.1 rfl rfl

end

/-! ### Bytes -/

section

variable {cs : List Char}

/-- Of the bytes of a character only that of an ASCII character is in the ASCII range, and tells
which it is. -/
lemma eq_of_mem_encodeChar {c d : Char} {b : UInt8} (mem : b ∈ String.utf8EncodeChar c)
    (ascii : b.toNat < 128) (same : b.toNat = d.toNat) : c = d :=
  Char.toNat_inj.mp ((Utf8.toNat_eq_of_mem mem ascii).trans same)

/-- The first byte is that of a `>` only if the first character is one. -/
lemma head?_of_encodeChars (first : (Utf8.encodeChars cs).head? = some 0x3e) :
    cs.head? = some '>' := by
  cases cs with
  | nil => cases first
  | cons c cs =>
    rw [Utf8.encodeChars, List.flatMap_cons,
      List.head?_append_of_ne_nil _ String.utf8EncodeChar_ne_nil] at first
    rw [List.head?_cons, eq_of_mem_encodeChar (d := '>') (List.mem_of_head? first) (by decide) rfl]

/-- The bytes of a text are guarded if its characters are. -/
lemma encodeChars (guarded : Guarded ']' '>' cs) :
    Guarded (0x5d : UInt8) 0x3e (Utf8.encodeChars cs) := by
  refine ⟨?_, fun first => guarded.head (head?_of_encodeChars first)⟩
  have chain := guarded.chain
  clear guarded
  induction cs with
  | nil => exact .nil
  | cons c cs ih =>
    refine List.isChain_append.mpr ⟨?_, ih chain.tail, ?_⟩
    · rcases Utf8.encodeChar_cases c with ⟨-, eq⟩ | high
      · rw [eq]
        exact .singleton _
      · exact (of_notMem fun mem => absurd (high _ mem) (by decide)).chain
    · -- Where the bytes of two characters meet, they would be those of `]` and of `>`.
      rintro x last y first rfl rfl
      have closing : cs.head? = some '>' := head?_of_encodeChars first
      have bracket : c = ']' :=
        eq_of_mem_encodeChar (List.mem_of_getLast? last) (by decide) rfl
      exact chain.rel_head? closing bracket rfl

end

end Guarded

/-- In guarded bytes with a `>` at the end, no marker begins, nor does one with which the marker
behind them ends. -/
lemma Guarded.endsAtMarker {front : Bytes} (guarded : Guarded 0x5d 0x3e (front ++ [0x3e])) :
    Framing.EndsAtMarker (front ++ [0x3e]) := by
  intro before begins
  by_contra short
  obtain ⟨after, eq⟩ := begins
  rw [List.append_assoc, List.append_assoc] at eq
  obtain ⟨inside, rfl⟩ : before <+: front := by
    refine List.prefix_of_prefix_length_le ⟨_, eq⟩ (List.prefix_append _ _) ?_
    simp only [List.length_append, List.length_singleton] at short
    omega
  rw [List.append_assoc] at eq
  have eq := List.append_cancel_left eq
  -- Three bytes of the marker lie within the list, or its end is one of the first two.
  match inside, eq with
  | [], eq => cases eq
  | [_], eq => cases eq
  | [_, _], eq =>
    cases eq
    exact guarded.ne_append (before ++ [0x5d]) [] (by simp)
  | x :: y :: z :: inside, eq =>
    obtain ⟨rfl, rfl, rfl, -⟩ : 0x5d = x ∧ 0x5d = y ∧ 0x3e = z ∧ _ := by
      simpa [Framing.endOfMessageMarker] using eq
    exact guarded.ne_append (before ++ [0x5d]) (inside ++ [0x3e]) (by simp)

/-! ## Nodes -/

namespace Node

open Xml

/-- The name holds none of the characters of which a marker is made. -/
def IsPlain (name : String) : Prop :=
  ']' ∉ name.toList ∧ '>' ∉ name.toList

instance (name : String) : Decidable (IsPlain name) :=
  inferInstanceAs (Decidable (_ ∧ _))

/-- The names of the node and of its attributes are plain. -/
structure HasPlainNames (n : Node) : Prop where
  name : IsPlain n.localName
  attributes : ∀ a ∈ n.attributes, IsPlain a.name.localName

instance (n : Node) : Decidable n.HasPlainNames :=
  decidable_of_iff (IsPlain n.localName ∧ ∀ a ∈ n.attributes, IsPlain a.name.localName)
    ⟨fun h => ⟨h.1, h.2⟩, fun h => ⟨h.name, h.attributes⟩⟩

section

variable {inherited : String} {name : QName} {attributes : List Attribute} {n : Node}
  {ns : List Node} {rest : List Token}

/-- A `>` is in no name. -/
lemma gt_notMem_of_isName {cs : List Char} (isName : IsName cs) : '>' ∉ cs :=
  fun mem => absurd (isName.chars _ mem) (by decide)

/-- A `>` is in a tag's name only if it is in the prefix or the local name. -/
lemma gt_notMem_render {tag : TagName} (qualifier : '>' ∉ tag.qualifier) (base : '>' ∉ tag.base) :
    '>' ∉ tag.render := by
  rw [TagName.render]
  split
  · exact base
  · rw [List.mem_append, List.mem_cons, not_or, not_or]
    exact ⟨qualifier, by decide, base⟩

/-- A written attribute has no `>` if its name has none, whatever its value. -/
lemma gt_notMem_rawAttribute {tag : TagName} (free : '>' ∉ tag.render) (value : String) :
    '>' ∉ (rawAttribute tag value).render := by
  have escaped := gt_notMem_escapeValue value.toList
  simp [RawAttribute.render, rawAttribute, free, escaped]

/-- The attributes of a node with plain names are written without a `>`, declarations included. -/
lemma gt_notMem_tagAttributes (plain : ∀ a ∈ attributes, IsPlain a.name.localName) :
    '>' ∉ (tagAttributes inherited name attributes).flatMap RawAttribute.render := by
  rw [List.mem_flatMap]
  rintro ⟨r, mem, inside⟩
  rw [tagAttributes_eq] at mem
  obtain ⟨⟨tag, value⟩, within, rfl⟩ := List.mem_map.mp mem
  have xmlns : '>' ∉ xmlnsWord := by decide
  have xml : '>' ∉ xmlWord := by decide
  refine gt_notMem_rawAttribute ?_ value inside
  -- A prefix is generated, or `xml`, or there is none.
  rcases List.mem_append.mp within with within | within
  · obtain ⟨d, declared, eq⟩ := List.mem_map.mp within
    cases eq
    have base : '>' ∉ d.1 := by
      rcases of_mem_declarations declared with rfl | ⟨i, eq, -⟩
      · exact List.not_mem_nil
      · exact eq ▸ gt_notMem_of_isName (isName_generated i)
    rw [declarationTag]
    split
    · exact gt_notMem_render List.not_mem_nil xmlns
    · exact gt_notMem_render xmlns base
  · obtain ⟨a, here, eq⟩ := List.mem_map.mp within
    cases eq
    refine gt_notMem_render ?_ (plain a here).2
    rw [attributeTag]
    split
    · exact xml
    split
    · exact gt_notMem_of_isName (isName_generated _)
    · exact List.not_mem_nil

/-- Written attributes end with a quotation mark. -/
lemma getLast?_render {as : List RawAttribute} (nonempty : as ≠ []) :
    (as.flatMap RawAttribute.render).getLast? = some '\x22' := by
  rw [← List.dropLast_append_getLast nonempty, List.flatMap_append, List.flatMap_singleton,
    RawAttribute.render, ← List.append_assoc, List.getLast?_concat]

/-- A start tag is guarded if there is a `>` only at its end, and no `]` in its name. -/
lemma guarded_start {as : List RawAttribute} (plain : IsPlain name.localName)
    (free : '>' ∉ as.flatMap RawAttribute.render) (closed : Bool) :
    Guarded ']' '>' (Token.start (bareTag name.localName) as closed).render := by
  change Guarded _ _
    ('<' :: name.localName.toList ++ as.flatMap RawAttribute.render ++ tagEnd closed)
  have nonempty : '<' :: name.localName.toList ++ as.flatMap RawAttribute.render ≠ [] :=
    List.cons_ne_nil _ _
  have all : '>' ∉ '<' :: name.localName.toList ++ as.flatMap RawAttribute.render := by
    simp [plain.2, free]
  -- Before the end of the tag stands its name, or the quote of its last attribute.
  have last : ('<' :: name.localName.toList ++ as.flatMap RawAttribute.render).getLast? ≠
      some ']' := by
    have front : ']' ∉ '<' :: name.localName.toList := by simp [plain.1]
    cases as with
    | nil =>
      rw [List.flatMap_nil, List.append_nil]
      exact fun last => front (List.mem_of_getLast? last)
    | cons a as =>
      rw [List.getLast?_append, getLast?_render (List.cons_ne_nil a as), Option.some_or]
      decide
  generalize '<' :: name.localName.toList ++ as.flatMap RawAttribute.render = body at *
  cases closed with
  | false => exact .concat nonempty all last
  | true =>
    have slash : '>' ∉ body ++ ['/'] := by simp [all]
    have guarded : Guarded ']' '>' (body ++ ['/'] ++ ['>']) :=
      .concat (List.append_ne_nil_of_right_ne_nil _ (List.cons_ne_nil _ _)) slash (by simp)
    rwa [List.append_assoc] at guarded

/-- An end tag is guarded if there is no `]` in its name. -/
lemma guarded_stop (plain : IsPlain name.localName) :
    Guarded ']' '>' (Token.stop (bareTag name.localName)).render := by
  have front : ']' ∉ '<' :: '/' :: name.localName.toList := by simp [plain.1]
  have free : '>' ∉ '<' :: '/' :: name.localName.toList := by simp [plain.2]
  exact .concat (List.cons_ne_nil _ _) free fun last => front (List.mem_of_getLast? last)

/-- The tokens of sibling nodes are guarded if those of each node are. -/
lemma guarded_tokensAllOnto
    (each : ∀ n ∈ ns, ∀ {inherited rest}, (∀ t ∈ rest, Guarded ']' '>' (Token.render t)) →
      ∀ t ∈ tokensOnto inherited n rest, Guarded ']' '>' t.render)
    (after : ∀ t ∈ rest, Guarded ']' '>' t.render) :
    ∀ t ∈ tokensAllOnto inherited ns rest, Guarded ']' '>' t.render := by
  induction ns with
  | nil => exact after
  | cons n ns ih =>
    rw [List.forall_mem_cons] at each
    rw [tokensAllOnto]
    exact each.1 (ih each.2)

/-- The tokens of a node with plain names are guarded, whatever its texts, values and namespaces. -/
lemma guarded_tokensOnto (plain : n.Everywhere HasPlainNames) :
    ∀ {inherited rest}, (∀ t ∈ rest, Guarded ']' '>' (Token.render t)) →
      ∀ t ∈ tokensOnto inherited n rest, Guarded ']' '>' t.render := by
  induction plain with
  | @intro n here _ ih =>
    intro inherited rest after
    have free := @gt_notMem_tagAttributes inherited n.name n.attributes here.attributes
    have start : ∀ closed, Guarded ']' '>' (Token.render (.start _ _ closed)) :=
      guarded_start here.name free
    have stop : ∀ t ∈ Token.stop (bareTag n.localName) :: rest, Guarded ']' '>' t.render :=
      List.forall_mem_cons.mpr ⟨guarded_stop here.name, after⟩
    cases n with
    | leaf name _ text =>
      cases text with
      | none => exact List.forall_mem_cons.mpr ⟨start true, after⟩
      | some text =>
        have escaped : Guarded ']' '>' (Token.text (escapeText text.toList)).render :=
          .of_notMem (gt_notMem_escapeText _)
        exact List.forall_mem_cons.mpr ⟨start false, List.forall_mem_cons.mpr ⟨escaped, stop⟩⟩
    | container name _ children =>
      exact List.forall_mem_cons.mpr ⟨start false, guarded_tokensAllOnto ih stop⟩

/-- The written form of a node with plain names is guarded. -/
lemma guarded_renderChars (plain : n.Everywhere HasPlainNames) :
    Guarded ']' '>' n.renderChars :=
  .flatMap (guarded_tokensOnto plain (List.forall_mem_nil _))

/-- The written form of a node ends with the end of a tag. -/
lemma renderChars_eq_concat (n : Node) : ∃ front, n.renderChars = front ++ ['>'] := by
  have closed (tag as) : ∃ front, [Token.start tag as true].flatMap Token.render = front ++ ['>'] :=
    ⟨'<' :: tag.render ++ as.flatMap RawAttribute.render ++ ['/'], by
      rw [List.flatMap_singleton, List.append_assoc _ ['/']]
      rfl⟩
  have stopped (ts tag) : ∃ front, (ts ++ [Token.stop tag]).flatMap Token.render =
      front ++ ['>'] := by
    refine ⟨ts.flatMap Token.render ++ '<' :: '/' :: tag.render, ?_⟩
    rw [List.flatMap_append, List.flatMap_singleton, Token.render_stop, List.append_assoc]
    rfl
  rw [renderChars]
  cases n with
  | leaf name attributes text =>
    cases text with
    | none => exact closed _ _
    | some text => exact stopped [_, _] _
  | container name attributes children =>
    rw [tokens_container]
    exact stopped (_ :: _) _

/-- No marker begins in an encoded node before the marker that follows it. -/
lemma endsAtMarker_encode (plain : n.Everywhere HasPlainNames) :
    Framing.EndsAtMarker n.encode := by
  have guarded := (guarded_renderChars plain).encodeChars
  obtain ⟨front, eq⟩ := n.renderChars_eq_concat
  have last : n.encode = Utf8.encodeChars front ++ [0x3e] := by
    rw [encode, eq, Utf8.encodeChars, List.flatMap_append]
    rfl
  rw [← encode, last] at guarded
  rw [last]
  intro before
  exact guarded.endsAtMarker

end

end Node

/-! ## Framed messages -/

open Framing

namespace Framing.Decoder

variable {limit : Nat} {ps cut : List Bytes}

/-- Payloads that end at the first marker come back, and nothing is left of them. -/
lemma feed_of_endsAtMarker (ends : ∀ p ∈ ps, EndsAtMarker p)
    (same : cut.flatten = (ps.map (· ++ endOfMessageMarker)).flatten) :
    let fed := (new .endOfMessage limit).feed cut
    fed.payloads = ps ∧ fed.error = none ∧ fed.decoder.size = 0 := by
  intro fed
  obtain ⟨none, back⟩ := @feed_marked limit _ _ same
  have payloads : fed.payloads = ps := back.mpr ends
  have nothing : Delimited.Comes [] [] .none := ⟨rfl, [], rfl, by decide⟩
  obtain ⟨qs, given, sc, -⟩ := (Scanned.faithful limit).feed (Scanned.new limit) nothing cut
  have whole : Delimited.stream qs = cut.flatten := by
    rw [same, ← payloads, given, List.map_map]
    rfl
  have received := sc.received
  rw [List.nil_append, List.nil_append, whole] at received
  have rest := List.append_right_eq_self.mp received.symm
  rw [List.append_eq_nil_iff, List.reverse_eq_nil_iff] at rest
  have counted : fed.decoder.received = fed.decoder.offset + (_ + _) := sc.counted
  refine ⟨payloads, none, ?_⟩
  rw [size, counted, rest.1, rest.2]
  simp

end Framing.Decoder

namespace Outbound

/-- In end-of-message framing a frame is the encoded node with the marker after it, and framing does
not fail. -/
lemma mapM_frame {o : Outbound} (mode : o.mode = .endOfMessage) (ns : List Node) :
    ns.mapM o.frame = .ok ((ns.map Node.encode).map (· ++ endOfMessageMarker)) := by
  have frame (n : Node) : o.frame n = .ok (n.encode ++ endOfMessageMarker) := by
    rw [Outbound.frame, mode]
    rfl
  rw [funext frame, List.map_map]
  exact List.mapM_pure

/-- Whatever the texts, values and namespaces of the nodes, framing them never fails, and a decoder
gives back just their payloads, one for each node, with nothing left over. -/
theorem feed_frames {o : Outbound} (mode : o.mode = .endOfMessage) (limit : Nat) {ns : List Node}
    (plain : ∀ n ∈ ns, n.Everywhere Node.HasPlainNames) :
    ∃ frames, ns.mapM o.frame = .ok frames ∧
      ∀ cut : List Bytes, cut.flatten = frames.flatten →
        let fed := (Decoder.new .endOfMessage limit).feed cut
        fed.payloads = ns.map Node.encode ∧ fed.error = none ∧ fed.decoder.size = 0 := by
  refine ⟨_, mapM_frame mode ns, fun cut same => Decoder.feed_of_endsAtMarker ?_ same⟩
  intro p mem before
  obtain ⟨n, within, rfl⟩ := List.mem_map.mp mem
  exact Node.endsAtMarker_encode (plain n within)

/-- Markers as a text, as a value, as a namespace, and across the borders of these. -/
def hostile : List Node :=
  [.leaf ⟨"]]>]]>", "a"⟩ [⟨⟨"]]>", "b"⟩, "]]>]]>"⟩] (some "]]>]]>"),
    .container ⟨"", "c"⟩ [⟨⟨"", "d"⟩, "]]"⟩] [.leaf ⟨"]]>]]", "e"⟩ [] (some "]]")]]

/-- Nodes full of markers come back from their frames, one payload each. -/
theorem feed_frames_hostile :
    (Outbound.new .endOfMessage .default).mode = .endOfMessage ∧
      (∀ n ∈ hostile, n.Everywhere Node.HasPlainNames) ∧
      ∃ frames, hostile.mapM (Outbound.new .endOfMessage .default).frame = .ok frames ∧
        ((Decoder.new .endOfMessage 0).feed frames).payloads = hostile.map Node.encode ∧
        ((Decoder.new .endOfMessage 0).feed frames).decoder.size = 0 := by
  have plain : ∀ n ∈ hostile, n.Everywhere Node.HasPlainNames := by
    refine List.forall_mem_cons.mpr ⟨.leaf (by decide), List.forall_mem_singleton.mpr ?_⟩
    exact .intro (by decide) (List.forall_mem_singleton.mpr (.leaf (by decide)))
  obtain ⟨frames, framed, back⟩ :=
    feed_frames (o := .new .endOfMessage .default) rfl 0 plain
  exact ⟨rfl, plain, frames, framed, (back frames rfl).1, (back frames rfl).2.2⟩

end Outbound

end Netconf
