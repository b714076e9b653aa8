import Netconf.Proofs.Config.Setting
import Netconf.Proofs.Json.Sequence

/-!
# Reading a configuration

What is read is a document, and a document is read just if a configuration follows what it says and
has limits that can be used (`ofJson_eq_ok_iff`). So a configuration is read back from its written
form (`ofJson_follows`). The members of an object and the elements of an array are each told by what
is read where they are written, and by what is written where they are read.
-/

namespace Netconf.Config

variable {c d : Config} {f : Field} {left : List Field} {first : Bool}
variable {cs rest name behind : List Char} {ms : List (String × Nat)} {vs : List Nat}

/-! ## The members of an object -/

/-- A name finds the limit that is left and has it. -/
lemma find?_name_eq_some_iff :
    left.find? (fun f => f.name.toList == name) = some f ↔ f ∈ left ∧ f.name.toList = name := by
  constructor
  · intro found
    have same := List.find?_some found
    exact ⟨List.mem_of_find?_eq_some found, beq_iff_eq.mp same⟩
  · rintro ⟨mem, rfl⟩
    cases found : left.find? fun g => g.name.toList == f.name.toList with
    | none =>
      have other := List.find?_eq_none.mp found f mem
      exact absurd (beq_self_eq_true _) other
    | some g =>
      have same := List.find?_some found
      rw [Field.name_injective (String.toList_injective (beq_iff_eq.mp same))]

/-- At the closing bracket the members have been read. -/
lemma members_closed (read : Json.nextName first cs = .ok (.closed rest)) :
    members left first c cs = .ok (c, rest) := by
  rw [members, read]

/-- A member is read if its name is that of a limit left and its value is within the bound of that.
-/
lemma members_item_iff (read : Json.nextName first cs = .ok (.item name rest)) :
    members left first c cs = .ok (d, behind) ↔
      ∃ f n value more, f ∈ left ∧ f.name.toList = name ∧ Json.colon rest = .ok value ∧
        Json.natural f.bound value = .ok (n, more) ∧
        members (left.erase f) false (c.set f n) more = .ok (d, behind) := by
  rw [members, read]
  constructor
  · intro run
    dsimp only at run
    split at run
    · cases run
    next f found =>
    obtain ⟨mem, same⟩ := find?_name_eq_some_iff.mp found
    cases sign : Json.colon rest with
    | error =>
      rw [sign] at run
      cases run
    | ok value =>
      rw [sign, Except.bind] at run
      split at run
      · cases run
      · next n more value' => exact ⟨f, n, value, more, mem, same, rfl, value', run⟩
  · rintro ⟨f, n, value, more, mem, same, sign, value', run⟩
    have found := find?_name_eq_some_iff.mpr ⟨mem, same⟩
    dsimp only
    split
    · next none => cases none.symm.trans found
    next f' found' =>
    cases found'.symm.trans found
    rw [sign, Except.bind, value']
    exact run

/-- Members that are written are read just if they name limits that are left. -/
lemma members_eq_ok_iff (nodup : left.Nodup)
    (tail : Json.Tail Json.Member '\x7d' first cs ms rest) :
    members left first c cs = .ok (d, behind) ↔
      ∃ settings, ms = settings.map byName ∧ Fitting left settings ∧ d = c.settle settings ∧
        behind = rest := by
  induction tail generalizing left c with
  | closed spaced =>
    rw [members_closed (Json.nextName_closed_iff.mpr spaced), Except.ok.injEq, Prod.mk.injEq]
    constructor
    · rintro ⟨rfl, rfl⟩
      exact ⟨[], rfl, fitting_nil, rfl, rfl⟩
    · rintro ⟨settings, none, -, rfl, rfl⟩
      rw [List.map_eq_nil_iff.mp none.symm]
      exact ⟨rfl, rfl⟩
  | part lead member tail ih =>
    obtain @⟨_, _, _, value, _, _, opened, spelled, sign, item⟩ := member
    -- Whatever follows the value, it ends the number.
    have stops := tail.stops (Json.stops_cons_iff.mpr (by decide))
    rw [members_item_iff (Json.nextName_item_iff.mpr ⟨_, _, lead, opened, spelled⟩)]
    constructor
    · rintro ⟨f, m, value, next, mem, same, sign', value', run⟩
      cases sign'.symm.trans (Json.colon_eq_ok_iff.mpr sign)
      obtain ⟨small, rfl, rfl⟩ := (Json.natural_eq_ok_iff f.bound_le item stops).mp value'
      obtain ⟨settings, rfl, fitting, rfl, rfl⟩ := (ih (nodup.erase f)).mp run
      refine ⟨(f, m) :: settings, ?_, (fitting_cons_iff nodup).mpr ⟨mem, small, fitting⟩, rfl, rfl⟩
      rw [List.map_cons, byName, String.toList_injective same]
    · rintro ⟨settings, same, fitting, rfl, rfl⟩
      obtain ⟨⟨f, m⟩, settings, rfl, head, rfl⟩ := List.map_eq_cons_iff.mp same.symm
      obtain ⟨rfl, rfl⟩ := Prod.mk.inj head
      obtain ⟨mem, small, fitting⟩ := (fitting_cons_iff nodup).mp fitting
      exact ⟨f, m, value, _, mem, rfl, Json.colon_eq_ok_iff.mpr sign,
        (Json.natural_eq_ok_iff f.bound_le item stops).mpr ⟨small, rfl, rfl⟩,
        (ih (nodup.erase f)).mpr ⟨settings, rfl, fitting, rfl, rfl⟩⟩

/-- What is read are members that are written. -/
lemma tail_of_members (run : members left first c cs = .ok (d, rest)) :
    ∃ ms, Json.Tail Json.Member '\x7d' first cs ms rest := by
  -- Of the cases of the reader, one comes to the closing bracket and one to a further member.
  fun_induction members left first c cs with
  | case2 left first c cs rest closed =>
    cases run
    exact ⟨[], .closed (Json.nextName_closed_iff.mp closed)⟩
  | case5 left first c cs name behind next f found n more value' _ ih =>
    obtain ⟨ms, tail⟩ := ih run
    obtain ⟨start, quoted, lead, opened, spelled⟩ := Json.nextName_item_iff.mp next
    obtain ⟨mem, rfl⟩ := find?_name_eq_some_iff.mp found
    obtain ⟨value, sign, value'⟩ := Json.of_bind_eq_ok value'
    have member := Json.Member.named opened spelled (Json.colon_eq_ok_iff.mp sign)
      (Json.item_of_natural value').1
    exact ⟨_, .part lead member tail⟩
  | _ => cases run

/-! ## The elements of an array -/

/-- When no limit is left there has to be the closing bracket. -/
lemma elements_nil_iff :
    elements [] first c cs = .ok (d, rest) ↔ Json.Spaced cs (']' :: rest) ∧ d = c := by
  rw [← Json.closeArray_eq_ok_iff, elements]
  cases Json.closeArray cs with
  | error => exact iff_of_false nofun nofun
  | ok behind =>
    constructor
    · rintro ⟨⟩
      exact ⟨rfl, rfl⟩
    · rintro ⟨⟨⟩, rfl⟩
      rfl

/-- At the closing bracket the elements have been read. -/
lemma elements_closed (closed : Json.Spaced cs (']' :: rest)) :
    elements left first c cs = .ok (c, rest) := by
  cases left with
  | nil => exact elements_nil_iff.mpr ⟨closed, rfl⟩
  | cons f left => rw [elements, Json.nextElement_closed_iff.mpr closed]

/-- An element is read if its value is within the bound of the next limit left. -/
lemma elements_cons_iff {u : Unit} (read : Json.nextElement first cs = .ok (.item u rest)) :
    elements (f :: left) first c cs = .ok (d, behind) ↔
      ∃ n more, Json.natural f.bound rest = .ok (n, more) ∧
        elements left false (c.set f n) more = .ok (d, behind) := by
  rw [elements, read]
  constructor
  · intro run
    dsimp only at run
    split at run
    · cases run
    · next n more value => exact ⟨n, more, value, run⟩
  · rintro ⟨n, more, value, run⟩
    dsimp only
    rw [value]
    exact run

/-- Elements that are written are read just if there are no more than limits that are left. -/
lemma elements_eq_ok_iff (tail : Json.Tail Json.Item ']' first cs vs rest) :
    elements left first c cs = .ok (d, behind) ↔
      vs.length ≤ left.length ∧ (∀ s ∈ left.zip vs, s.2 < s.1.bound) ∧ d = c.settle (left.zip vs) ∧
        behind = rest := by
  induction tail generalizing left c with
  | closed closed =>
    rw [elements_closed closed, List.zip_nil_right, Except.ok.injEq, Prod.mk.injEq]
    constructor
    · rintro ⟨rfl, rfl⟩
      exact ⟨Nat.zero_le _, nofun, rfl, rfl⟩
    · rintro ⟨-, -, rfl, rfl⟩
      exact ⟨rfl, rfl⟩
  | part lead item tail ih =>
    have read := lead.nextElement_eq item
    cases left with
    | nil =>
      refine iff_of_false (fun run => ?_) nofun
      cases (Json.nextElement_closed_iff.mpr (elements_nil_iff.mp run).1).symm.trans read
    | cons f left =>
      have stops := tail.stops (Json.stops_cons_iff.mpr (by decide))
      rw [elements_cons_iff read, List.zip_cons_cons, List.forall_mem_cons, List.length_cons,
        List.length_cons, Nat.add_le_add_iff_right]
      simp only [Json.natural_skipBlank, Json.natural_eq_ok_iff f.bound_le item stops]
      constructor
      · rintro ⟨_, _, ⟨small, rfl, rfl⟩, run⟩
        obtain ⟨length, bounded, settled⟩ := ih.mp run
        exact ⟨length, ⟨small, bounded⟩, settled⟩
      · rintro ⟨length, ⟨small, bounded⟩, settled⟩
        exact ⟨_, _, ⟨small, rfl, rfl⟩, ih.mpr ⟨length, bounded, settled⟩⟩

/-- What is read are elements that are written. -/
lemma tail_of_elements (run : elements left first c cs = .ok (d, rest)) :
    ∃ vs, Json.Tail Json.Item ']' first cs vs rest := by
  induction left generalizing first c cs with
  | nil => exact ⟨[], .closed (elements_nil_iff.mp run).1⟩
  | cons f left ih =>
    cases next : Json.nextElement first cs with
    | error =>
      rw [elements, next] at run
      cases run
    | ok next' =>
      cases next' with
      | closed behind =>
        have closed := Json.nextElement_closed_iff.mp next
        cases (elements_closed closed).symm.trans run
        exact ⟨[], .closed closed⟩
      | item _ behind =>
        obtain ⟨n, more, value, run⟩ := (elements_cons_iff next).mp run
        obtain ⟨start, lead, rfl⟩ := Json.lead_of_nextElement next
        rw [Json.natural_skipBlank] at value
        obtain ⟨vs, tail⟩ := ih run
        exact ⟨n :: vs, .part lead (Json.item_of_natural value).1 tail⟩

/-! ## A whole text -/

variable {text inner : List Char} {doc : Json.Document}

/-- A text is read to its end if there are only blank characters behind what is read. -/
lemma finished_iff {run : Except Json.Fault (Config × List Char)} :
    (do let (c, rest) ← run; Json.finish rest; return c) = .ok c ↔
      ∃ behind, run = .ok (c, behind) ∧ Json.Spaced behind [] := by
  constructor
  · intro done
    obtain ⟨⟨d, behind⟩, run, done⟩ := Json.of_bind_eq_ok done
    obtain ⟨⟨⟩, closed, done⟩ := Json.of_bind_eq_ok done
    cases done
    exact ⟨behind, run, Json.finish_eq_ok_iff.mp closed⟩
  · rintro ⟨behind, rfl, closed⟩
    change (Json.finish behind >>= fun _ => .ok c) = .ok c
    rw [Json.finish_eq_ok_iff.mpr closed]
    rfl

/-- An object is read as its members and nothing behind them. -/
lemma read_object_iff (opened : Json.Spaced text ('\x7b' :: inner)) :
    read text = .ok c ↔
      ∃ behind, members Field.all true default inner = .ok (c, behind) ∧
        Json.Spaced behind [] := by
  rw [read, (Json.skipBlank_eq_iff (by decide)).mpr opened]
  exact finished_iff

/-- An array is read as its elements and nothing behind them. -/
lemma read_array_iff (opened : Json.Spaced text ('[' :: inner)) :
    read text = .ok c ↔
      ∃ behind, elements Field.all true default inner = .ok (c, behind) ∧
        Json.Spaced behind [] := by
  rw [read, (Json.skipBlank_eq_iff (by decide)).mpr opened]
  exact finished_iff

/-- A document that is written is read as the configuration that follows it. -/
lemma read_eq_ok_iff (written : doc.Written text) :
    read text = .ok c ↔ c.IsBounded ∧ c.Follows doc := by
  cases written with
  | object opened inside closed =>
    rw [read_object_iff opened, Follows, ← settle_byName_iff]
    simp only [members_eq_ok_iff Field.nodup_all (Json.inside_iff.mp inside)]
    constructor
    · rintro ⟨_, ⟨settings, named, fitting, settled, rfl⟩, -⟩
      exact ⟨settings, named, fitting, settled⟩
    · rintro ⟨settings, named, fitting, settled⟩
      exact ⟨_, ⟨settings, named, fitting, settled, rfl⟩, closed⟩
  | array opened inside closed =>
    rw [read_array_iff opened, Follows, ← settle_byPlace_iff]
    simp only [elements_eq_ok_iff (Json.inside_iff.mp inside)]
    constructor
    · rintro ⟨_, ⟨length, bounded, settled, rfl⟩, -⟩
      exact ⟨length, bounded, settled⟩
    · rintro ⟨length, bounded, settled⟩
      exact ⟨_, ⟨length, bounded, settled, rfl⟩, closed⟩

/-- What is read is a document that is written. -/
lemma written_of_read (run : read text = .ok c) : ∃ doc : Json.Document, doc.Written text := by
  have spaced := Json.spaced_skipBlank text
  cases eq : Json.skipBlank text with
  | nil =>
    rw [read, eq] at run
    cases run
  | cons d inner =>
    rw [eq] at spaced
    by_cases object : d = '\x7b'
    · rw [object] at spaced
      obtain ⟨behind, inside, closed⟩ := (read_object_iff spaced).mp run
      obtain ⟨ms, tail⟩ := tail_of_members inside
      exact ⟨_, .object spaced (Json.inside_iff.mpr tail) closed⟩
    by_cases array : d = '['
    · rw [array] at spaced
      obtain ⟨behind, inside, closed⟩ := (read_array_iff spaced).mp run
      obtain ⟨vs, tail⟩ := tail_of_elements inside
      exact ⟨_, .array spaced (Json.inside_iff.mpr tail) closed⟩
    · rw [read, eq] at run
      split at run
      · next h => cases h; exact absurd rfl object
      · next h => cases h; exact absurd rfl array
      · cases run

/-- A text is read as a configuration if that can be used. -/
lemma ofJson_iff_read {text : String} :
    ofJson text = .ok c ↔ read text.toList = .ok c ∧ c.IsUsable := by
  rw [ofJson, ← validate_eq_ok_iff]
  cases read text.toList with
  | error => exact iff_of_false nofun nofun
  | ok d =>
    change (d.validate.mapError ReadError.invalid >>= fun _ => .ok d) = .ok c ↔ _
    rw [Except.ok.injEq]
    cases valid : d.validate with
    | error =>
      refine iff_of_false nofun ?_
      rintro ⟨rfl, valid'⟩
      cases valid.symm.trans valid'
    | ok =>
      constructor
      · rintro ⟨⟩
        exact ⟨rfl, valid⟩
      · rintro ⟨rfl, -⟩
        rfl

/-- A document that is written is read as the configuration that follows it, if there is one that
can be used. -/
theorem ofJson_eq_ok_iff {text : String} (written : doc.Written text.toList) :
    ofJson text = .ok c ↔ c.IsBounded ∧ c.IsUsable ∧ c.Follows doc := by
  rw [ofJson_iff_read, read_eq_ok_iff written, and_assoc, and_comm (a := c.Follows doc)]

/-! ## Writing a configuration -/

/-- A limit is rendered as a member with its name and its value. -/
lemma member_renderField (c : Config) (f : Field) (rest : List Char) :
    Json.Member ((c.renderField f).toList ++ rest) (byName (f, c.get f)) rest := by
  have plain : f.name.toList.all (fun ch => decide (Json.IsPlain ch)) = true := by
    cases f <;> decide
  have written : (c.renderField f).toList ++ rest =
      '\x22' :: (f.name.toList ++ '\x22' :: ':' :: ((toString (c.get f)).toList ++ rest)) := by
    simp [renderField]
  rw [written]
  exact .named .here (Json.spelled_plain (by simpa using plain)) .here
    (.spaced .here (Json.numeral_toString _ _))

/-- A rendered configuration names every limit. -/
lemma written_render (c : Config) :
    (Json.Document.object (Field.all.map fun f => byName (f, c.get f))).Written
      c.render.toList := by
  have written : c.render.toList =
      '\x7b' ::
        ([','].intercalate (Field.all.map fun f => (c.renderField f).toList) ++ ['\x7d']) := by
    rw [render, String.toList_append, String.toList_append, String.toList_intercalate,
      List.map_map]
    rfl
  rw [written]
  refine .object .here (.some ?_) .here
  exact Json.listed_intercalate (member_renderField c) (by decide)

/-- A configuration is told by the names and the values of all its limits. -/
lemma byName_render (c : Config) : c.ByName (Field.all.map fun f => byName (f, c.get f)) := by
  have names :
      (Field.all.map fun f => byName (f, c.get f)).map Prod.fst = Field.all.map Field.name := by
    rw [List.map_map]
    rfl
  refine ⟨?_, ?_, ?_⟩
  · rw [names]
    exact Field.nodup_all.map Field.name_injective
  · rw [List.forall_mem_map]
    exact fun f _ => ⟨f, rfl, rfl⟩
  · intro f out
    rw [names] at out
    exact absurd (List.mem_map_of_mem f.mem_all) out

/-! ## What is read -/

/-- A configuration is read back as it was, unless a limit cannot be used. What is read of any text
can be used and follows the document that the text is: a limit has the value that the text gives it,
by name or by place, and otherwise its default. Nothing else keeps a document from being read. -/
theorem ofJson_follows :
    (∀ c : Config, c.IsBounded → c.IsUsable → ofJson c.render = .ok c) ∧
      (∀ (text : String) (c : Config), ofJson text = .ok c →
        c.IsUsable ∧ ∃ doc : Json.Document, doc.Written text.toList ∧ c.Follows doc) ∧
      ∀ (text : String) (doc : Json.Document), doc.Written text.toList →
        ∀ c : Config, ofJson text = .ok c ↔ c.IsBounded ∧ c.IsUsable ∧ c.Follows doc := by
  refine ⟨?_, ?_, ?_⟩
  · intro c bounded usable
    exact (ofJson_eq_ok_iff c.written_render).mpr ⟨bounded, usable, c.byName_render⟩
  · intro text c run
    obtain ⟨doc, written⟩ := written_of_read (ofJson_iff_read.mp run).1
    obtain ⟨-, usable, follows⟩ := (ofJson_eq_ok_iff written).mp run
    exact ⟨usable, doc, written, follows⟩
  · intro text doc written c
    exact ofJson_eq_ok_iff written

/-- The greatest limits, and no wait. -/
def greatest : Config where
  maxChunkSize := UInt32.size - 1
  outboundChunkSize := UInt64.size - 1
  readBufferSize := UInt64.size - 1
  maxPendingFrames := UInt64.size - 1
  channelCapacity := UInt64.size - 1
  backpressureTimeout := 0

/-- The greatest limits are read back, and a name may be written with an escape. -/
theorem ofJson_follows_greatest :
    (greatest.IsBounded ∧ greatest.IsUsable ∧ ofJson greatest.render = .ok greatest) ∧
      ofJson "\x7b \x22channel\\u005fcapacity\x22 : 7 \x7d" =
        .ok { default with channelCapacity := 7 } ∧
      ∃ doc : Json.Document, doc.Written "\x7b \x22channel\\u005fcapacity\x22 : 7 \x7d".toList ∧
        Follows { default with channelCapacity := 7 } doc ∧ ¬Follows greatest doc := by
  have bounded : greatest.IsBounded := by
    intro f
    cases f <;> decide
  have usable : greatest.IsUsable := by
    intro f
    cases f <;> decide
  have run : ofJson "\x7b \x22channel\\u005fcapacity\x22 : 7 \x7d" =
      .ok { default with channelCapacity := 7 } := by
    decide +kernel
  obtain ⟨-, doc, written, follows⟩ := ofJson_follows.2.1 _ _ run
  refine ⟨⟨bounded, usable, ofJson_follows.1 _ bounded usable⟩, run, doc, written, follows, ?_⟩
  intro follows'
  have again := (ofJson_follows.2.2 _ doc written greatest).mpr ⟨bounded, usable, follows'⟩
  cases run.symm.trans again

/-- An array sets limits although it names none. -/
theorem ofJson_array_unnamed :
    ofJson "[10]" = .ok { default with maxChunkSize := 10 } ∧
      ∀ doc : Json.Document, doc.Written "[10]".toList →
        ¬ByName { default with maxChunkSize := 10 } doc.named := by
  refine ⟨by decide +kernel, ?_⟩
  intro doc written byName
  cases written with
  | object opened _ _ =>
    have eq := (Json.skipBlank_eq_iff (by decide)).mpr opened
    cases eq
  | array _ _ _ =>
    exact absurd (byName.unnamed .maxChunkSize nofun) (by decide)

end Netconf.Config
