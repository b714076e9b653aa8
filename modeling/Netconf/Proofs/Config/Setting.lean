import Mathlib.Data.List.Nodup
import Mathlib.Data.Set.List
import Mathlib.Tactic.Lemma
import Netconf.Config
import Netconf.Proofs.Json.Grammar

/-!
# Configurations and documents

What a document in JSON says about the limits of a session, by name or by place. A configuration
says the same just if it is the default one with limits set to values (`settle_byName_iff`,
`settle_byPlace_iff`).
-/

namespace Netconf.Config

/-! ## What a document says -/

/-- The limits are within their bounds. -/
def IsBounded (c : Config) : Prop :=
  ∀ f, c.get f < f.bound

/-- The limits that have to be positive are so. -/
def IsUsable (c : Config) : Prop :=
  ∀ f : Field, f.isPositive = true → 0 < c.get f

/-- The limits that are named, each once, have their values, and the others are as by default. -/
structure ByName (c : Config) (members : List (String × Nat)) : Prop where
  once : (members.map Prod.fst).Nodup
  named : ∀ m ∈ members, ∃ f : Field, f.name = m.1 ∧ c.get f = m.2
  unnamed : ∀ f : Field, f.name ∉ members.map Prod.fst → c.get f = default.get f

/-- The limits have the values in order, as far as there are any, and the others are as by
default. -/
structure ByPlace (c : Config) (values : List Nat) : Prop where
  length : values.length ≤ Field.all.length
  placed : ∀ s ∈ Field.all.zip values, c.get s.1 = s.2
  unplaced : ∀ f ∈ Field.all.drop values.length, c.get f = default.get f

/-- The limits are what a document says, and as by default where it says nothing. -/
def Follows (c : Config) : Json.Document → Prop
  | .object members => c.ByName members
  | .array values => c.ByPlace values

/-! ## Limits -/

/-- Every limit is among all limits. -/
lemma Field.mem_all (f : Field) : f ∈ Field.all := by
  cases f <;> decide

/-- All limits are listed once. -/
lemma Field.nodup_all : Field.all.Nodup := by
  decide

/-- No two limits have the same name. -/
lemma Field.name_injective : Function.Injective Field.name := by
  intro f g same
  cases f <;> cases g <;> first | rfl | exact absurd same (by decide)

/-- No bound takes more than 64 bits. -/
lemma Field.bound_le (f : Field) : f.bound ≤ UInt64.size := by
  cases f <;> decide

/-- Configurations with the same limits are the same. -/
lemma ext_get {c d : Config} (same : ∀ f, c.get f = d.get f) : c = d := by
  cases c
  cases d
  simp only [mk.injEq]
  exact ⟨same .maxChunkSize, same .outboundChunkSize, same .readBufferSize, same .maxPendingFrames,
    same .channelCapacity, same .backpressureTimeout⟩

/-- A configuration is valid just when it can be used. -/
lemma validate_eq_ok_iff {c : Config} : c.validate = .ok () ↔ c.IsUsable := by
  rw [validate]
  split
  · next f found =>
    refine iff_of_false nofun fun usable => ?_
    have faulty := List.find?_some found
    rw [Bool.and_eq_true, beq_iff_eq] at faulty
    exact absurd faulty.2 (usable f faulty.1).ne'
  · next none =>
    refine iff_of_true rfl fun f positive => Nat.pos_of_ne_zero fun zero => ?_
    have fine := List.find?_eq_none.mp none f f.mem_all
    exact fine (by rw [positive, zero]; rfl)

/-! ## Settings -/

/-- The configuration with each of the limits set to its value. -/
def settle (c : Config) (settings : List (Field × Nat)) : Config :=
  settings.foldl (fun c s => c.set s.1 s.2) c

variable {c d : Config} {settings : List (Field × Nat)} {f : Field}

/-- A limit that is not set stays as it is. -/
lemma get_settle_of_notMem (out : f ∉ settings.map Prod.fst) :
    (c.settle settings).get f = c.get f := by
  induction settings generalizing c with
  | nil => rfl
  | cons s settings ih =>
    rw [List.map_cons, List.mem_cons, not_or] at out
    rw [settle, List.foldl_cons, ← settle, ih out.2, get_set, if_neg out.1]

/-- A limit that is set once has the value that it is set to. -/
lemma get_settle_of_mem {s : Field × Nat} (once : (settings.map Prod.fst).Nodup)
    (mem : s ∈ settings) : (c.settle settings).get s.1 = s.2 := by
  induction settings generalizing c with
  | nil => cases mem
  | cons t settings ih =>
    rw [List.map_cons, List.nodup_cons] at once
    rw [settle, List.foldl_cons, ← settle]
    rcases List.mem_cons.mp mem with rfl | mem
    · rw [get_settle_of_notMem once.1, get_set, if_pos rfl]
    · exact ih once.2 mem

/-- Settings of different limits are told by what they set and what they leave. -/
lemma eq_settle_iff (once : (settings.map Prod.fst).Nodup) :
    c = d.settle settings ↔
      (∀ s ∈ settings, c.get s.1 = s.2) ∧ ∀ f ∉ settings.map Prod.fst, c.get f = d.get f := by
  constructor
  · rintro rfl
    exact ⟨fun s mem => get_settle_of_mem once mem, fun f out => get_settle_of_notMem out⟩
  · rintro ⟨set, unset⟩
    refine ext_get fun f => ?_
    by_cases mem : f ∈ settings.map Prod.fst
    · obtain ⟨s, mem', rfl⟩ := List.mem_map.mp mem
      rw [set s mem', get_settle_of_mem once mem']
    · rw [unset f mem, get_settle_of_notMem mem]

/-- The limits of the default configuration are within their bounds. -/
lemma isBounded_default : default.IsBounded := by
  intro f
  cases f <;> decide

/-- Settings keep the limits within their bounds just when they are within them. -/
lemma isBounded_settle_iff (once : (settings.map Prod.fst).Nodup) (bounded : c.IsBounded) :
    (c.settle settings).IsBounded ↔ ∀ s ∈ settings, s.2 < s.1.bound := by
  constructor
  · intro bounded s mem
    exact get_settle_of_mem (c := c) once mem ▸ bounded s.1
  · intro small f
    by_cases mem : f ∈ settings.map Prod.fst
    · obtain ⟨s, mem', rfl⟩ := List.mem_map.mp mem
      exact (get_settle_of_mem once mem').symm ▸ small s mem'
    · exact (get_settle_of_notMem mem).symm ▸ bounded f

/-! ## Settings that members make -/

/-- A limit by its name, with its value. -/
def byName (s : Field × Nat) : String × Nat :=
  (s.1.name, s.2)

/-- The names that settings show are those of the limits that they set. -/
lemma map_fst_byName (settings : List (Field × Nat)) :
    (settings.map byName).map Prod.fst = (settings.map Prod.fst).map Field.name := by
  rw [List.map_map, List.map_map]
  rfl

/-- The settings are of limits that are left, each set once and within its bound. -/
structure Fitting (left : List Field) (settings : List (Field × Nat)) : Prop where
  once : (settings.map Prod.fst).Nodup
  free : ∀ s ∈ settings, s.1 ∈ left
  bounded : ∀ s ∈ settings, s.2 < s.1.bound

variable {left : List Field} {n : Nat} {ms : List (String × Nat)} {vs : List Nat}

/-- No settings fit any limits that are left. -/
lemma fitting_nil : Fitting left [] :=
  ⟨List.nodup_nil, nofun, nofun⟩

/-- Settings fit if the first is of a limit left and within its bound, and the others fit what is
left then. -/
lemma fitting_cons_iff (nodup : left.Nodup) :
    Fitting left ((f, n) :: settings) ↔
      f ∈ left ∧ n < f.bound ∧ Fitting (left.erase f) settings := by
  constructor
  · rintro ⟨once, free, bounded⟩
    rw [List.map_cons, List.nodup_cons] at once
    rw [List.forall_mem_cons] at free bounded
    refine ⟨free.1, bounded.1, once.2, fun s mem => ?_, bounded.2⟩
    refine nodup.mem_erase_iff.mpr ⟨fun same => ?_, free.2 s mem⟩
    exact once.1 (List.mem_map.mpr ⟨s, mem, same⟩)
  · rintro ⟨mem, small, once, free, bounded⟩
    have free s mem := nodup.mem_erase_iff.mp (free s mem)
    refine ⟨List.nodup_cons.mpr ⟨?_, once⟩,
      List.forall_mem_cons.mpr ⟨mem, fun s mem => (free s mem).2⟩,
      List.forall_mem_cons.mpr ⟨small, bounded⟩⟩
    rw [List.mem_map]
    rintro ⟨s, mem, same⟩
    exact (free s mem).1 same

/-- The settings are found from the names, of which no two limits have the same. -/
lemma settle_byName_iff :
    (∃ settings, ms = settings.map byName ∧ Fitting Field.all settings ∧
      c = default.settle settings) ↔ c.IsBounded ∧ c.ByName ms := by
  constructor
  · rintro ⟨settings, rfl, fitting, eq⟩
    obtain ⟨set, unset⟩ := (eq_settle_iff fitting.once).mp eq
    have bounded := (isBounded_settle_iff fitting.once isBounded_default).mpr fitting.bounded
    refine ⟨eq ▸ bounded, ?_, ?_, ?_⟩
    · rw [map_fst_byName]
      exact fitting.once.map Field.name_injective
    · rw [List.forall_mem_map]
      exact fun s mem => ⟨s.1, rfl, set s mem⟩
    · intro f out
      rw [map_fst_byName] at out
      exact unset f fun mem => out (List.mem_map_of_mem mem)
  · rintro ⟨bounded, once, named, unnamed⟩
    -- Every name is that of a limit, so the members are settings written out.
    have known : ms ∈ Set.range (List.map byName) := by
      rw [Set.range_list_map]
      rintro ⟨name, n⟩ mem
      obtain ⟨f, rfl, -⟩ := named _ mem
      exact ⟨(f, n), rfl⟩
    obtain ⟨settings, rfl⟩ := known
    rw [map_fst_byName] at once unnamed
    have once := List.Nodup.of_map _ once
    have set : ∀ s ∈ settings, c.get s.1 = s.2 := by
      intro s mem
      obtain ⟨f, same, value⟩ := named (byName s) (List.mem_map_of_mem mem)
      exact Field.name_injective same ▸ value
    refine ⟨settings, rfl, ⟨once, fun s _ => s.1.mem_all, ?_⟩, (eq_settle_iff once).mpr ⟨set, ?_⟩⟩
    · exact fun s mem => set s mem ▸ bounded s.1
    · intro f out
      refine unnamed f fun mem => out ?_
      exact (List.mem_map_of_injective Field.name_injective).mp mem

/-! ## Settings that elements make -/

/-- As many of the limits are set by place as there are values. -/
lemma map_fst_zip_all (length : vs.length ≤ Field.all.length) :
    (Field.all.zip vs).map Prod.fst = Field.all.take vs.length := by
  rw [List.zip_eq_zip_take_min, Nat.min_eq_right length, List.take_length, List.map_fst_zip]
  exact List.length_take_le _ _

/-- The limits behind those set by place are the others. -/
lemma Field.mem_drop_all_iff {n : Nat} : f ∈ Field.all.drop n ↔ f ∉ Field.all.take n := by
  constructor
  · exact fun after before => List.disjoint_take_drop Field.nodup_all le_rfl before after
  · intro out
    have mem := f.mem_all
    rw [← List.take_append_drop n Field.all, List.mem_append] at mem
    exact mem.resolve_left out

/-- The limits have the values in order just when they are set to them one by one. -/
lemma settle_byPlace_iff :
    (vs.length ≤ Field.all.length ∧ (∀ s ∈ Field.all.zip vs, s.2 < s.1.bound) ∧
      c = default.settle (Field.all.zip vs)) ↔ c.IsBounded ∧ c.ByPlace vs := by
  have once (length : vs.length ≤ Field.all.length) : ((Field.all.zip vs).map Prod.fst).Nodup := by
    rw [map_fst_zip_all length]
    exact Field.nodup_all.sublist (List.take_sublist _ _)
  constructor
  · rintro ⟨length, bounded, eq⟩
    obtain ⟨set, unset⟩ := (eq_settle_iff (once length)).mp eq
    refine ⟨eq ▸ (isBounded_settle_iff (once length) isBounded_default).mpr bounded,
      length, set, fun f after => unset f ?_⟩
    rw [map_fst_zip_all length]
    exact Field.mem_drop_all_iff.mp after
  · rintro ⟨bounded, length, placed, unplaced⟩
    refine ⟨length, fun s mem => placed s mem ▸ bounded s.1,
      (eq_settle_iff (once length)).mpr ⟨placed, fun f out => unplaced f ?_⟩⟩
    rw [map_fst_zip_all length] at out
    exact Field.mem_drop_all_iff.mpr out

end Netconf.Config
