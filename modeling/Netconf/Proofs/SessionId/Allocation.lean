import Mathlib.Algebra.Group.Nat.Defs
import Mathlib.Data.List.Induction
import Mathlib.Data.List.Nodup
import Mathlib.Data.List.Perm.Subperm
import Mathlib.Order.Nat
import Mathlib.Tactic.Lemma
import Netconf.SessionId

/-!
# Which number comes next

The search for a free number has no bound of its own. It ends because fewer numbers are in use than
there are in the circle, and after as many steps as there are numbers in use it has been to one that
is not (`exists_search`). So in every run of requests and returns, whatever is returned, a request
is answered with the first free number after the last one given, for as long as there is one
(`allocate_nearest`).
-/

namespace Netconf

namespace Allocator

/-! ## The circle of numbers -/

/-- The number that is `k` places ahead of `n` in the circle of session numbers. -/
def ahead (n k : Nat) : Nat :=
  (n - 1 + k) % (2 ^ 32 - 1) + 1

section

variable {n j k : Nat}

/-- The greatest number is the last one of 32 bits. -/
lemma maxId_eq : maxId = 2 ^ 32 - 1 := by
  rfl

/-- No number ahead is zero. -/
lemma ahead_pos (n k : Nat) : 1 ≤ ahead n k :=
  Nat.le_add_left 1 _

/-- No number ahead takes more than 32 bits. -/
lemma ahead_le (n k : Nat) : ahead n k ≤ 2 ^ 32 - 1 := by
  unfold ahead
  omega

/-- The number that follows is one place further ahead. -/
lemma following_ahead (n k : Nat) : following (ahead n k) = ahead n (k + 1) := by
  rw [following, maxId_eq]
  unfold ahead
  split <;> omega

/-- Going ahead twice is going ahead by both together. -/
lemma ahead_ahead (n j k : Nat) : ahead (ahead n j) k = ahead n (j + k) := by
  unfold ahead
  omega

/-- Within one round no number comes twice. -/
lemma ahead_inj (lt : j < 2 ^ 32 - 1) (lt' : k < 2 ^ 32 - 1) (eq : ahead n j = ahead n k) :
    j = k := by
  unfold ahead at eq
  omega

end

/-! ## The search -/

/-- The search for a number that is not in use, from a given one on: how many it passes over, and
the one it comes to. -/
inductive Search (used : Std.TreeSet Nat) : Nat → Nat → Nat → Prop where
  | free {n} :
    n ∉ used →
    Search used n 0 n
  | taken {n k id} :
    n ∈ used → Search used (following n) k id →
    Search used n (k + 1) id

section

variable {used : Std.TreeSet Nat} {n k id tries : Nat}

/-- With enough tries the number is the one that the search comes to. -/
lemma Search.firstFree_eq (search : Search used n k id) (enough : k ≤ tries) :
    firstFree used tries n = id := by
  induction search generalizing tries with
  | free free =>
    cases tries with
    | zero => rfl
    | succ tries => rw [firstFree, if_neg free]
  | taken taken _ ih =>
    cases tries with
    | zero => cases enough
    | succ tries =>
      rw [firstFree, if_pos taken]
      exact ih (Nat.le_of_succ_le_succ enough)

/-- The search comes to the number behind those in use. -/
lemma search_ahead (taken : ∀ j < k, ahead n j ∈ used) (free : ahead n k ∉ used) :
    Search used (ahead n 0) k (ahead n k) := by
  suffices from_ : ∀ i ≤ k, Search used (ahead n (k - i)) i (ahead n k) by
    simpa using from_ k le_rfl
  intro i
  induction i with
  | zero => exact fun _ => .free free
  | succ i ih =>
    intro le
    refine .taken (taken _ (by omega)) ?_
    rw [following_ahead, show k - (i + 1) + 1 = k - i by omega]
    exact ih (by omega)

/-- One of more numbers than are in use is free. -/
lemma exists_free (room : used.size < 2 ^ 32 - 1) (n : Nat) :
    ∃ k ≤ used.size, ahead n k ∉ used := by
  by_contra none
  push Not at none
  have distinct : ((List.range (used.size + 1)).map (ahead n)).Nodup := by
    refine List.Nodup.map_on (fun j mem k mem' eq => ?_) List.nodup_range
    rw [List.mem_range] at mem mem'
    exact ahead_inj (by omega) (by omega) eq
  have below : (List.range (used.size + 1)).map (ahead n) ⊆ used.toList := by
    intro id mem
    obtain ⟨k, lt, rfl⟩ := List.mem_map.mp mem
    rw [List.mem_range] at lt
    exact Std.TreeSet.mem_toList.mpr (none k (by omega))
  have more := (distinct.subperm below).length_le
  rw [List.length_map, List.length_range, Std.TreeSet.length_toList] at more
  omega

/-- While there are free numbers, the search ends, after no more steps than there are numbers in
use. -/
lemma exists_search (room : used.size < 2 ^ 32 - 1) (n : Nat) :
    ∃ k ≤ used.size, (∀ j < k, ahead n j ∈ used) ∧ ahead n k ∉ used ∧
      Search used (ahead n 0) k (ahead n k) := by
  have free : ∃ k, ahead n k ∉ used := (exists_free room n).imp fun k found => found.2
  have least (j : Nat) (lt : j < Nat.find free) : ahead n j ∈ used :=
    not_not.mp (Nat.find_min free lt)
  obtain ⟨k, le, free'⟩ := exists_free room n
  exact ⟨Nat.find free, (Nat.find_min' free free').trans le, least, Nat.find_spec free,
    search_ahead least (Nat.find_spec free)⟩

end

end Allocator

/-! ## Runs -/

/-- What an allocator has done. -/
inductive Entry where
  /-- It answered a request. -/
  | answered (id : Option Nat)
  /-- It took a number back. -/
  | released (id : Nat)
  deriving DecidableEq, Repr

/-- The number that was given, if one was. -/
def Entry.given? : Entry → Option Nat
  | .answered id => id
  | .released _ => none

/-- A number was given and has not been returned since. -/
def Outstanding (entries : List Entry) (id : Nat) : Prop :=
  ∃ before since, entries = before ++ .answered (some id) :: since ∧ .released id ∉ since

/-- The number with which a search begins: the one after the last that was given. -/
def searchFrom (entries : List Entry) : Nat :=
  match (entries.filterMap Entry.given?).getLast? with
  | some id => Allocator.ahead id 1
  | none => 1

section

variable {entries : List Entry} {e : Entry} {id : Nat}

/-- What is found in an account with a last entry is that entry, or was found before. -/
lemma append_concat_cases {before since : List Entry} {x : Entry}
    (eq : entries ++ [e] = before ++ x :: since) :
    entries = before ∧ e = x ∧ since = [] ∨
      ∃ since', since = since' ++ [e] ∧ entries = before ++ x :: since' := by
  rcases List.eq_nil_or_concat since with rfl | ⟨since, last, rfl⟩
  · obtain ⟨front, same⟩ := List.append_inj' eq rfl
    exact .inl ⟨front, (List.cons.inj same).1, rfl⟩
  · rw [List.concat_eq_append] at eq ⊢
    rw [← List.cons_append, ← List.append_assoc] at eq
    obtain ⟨front, same⟩ := List.append_inj' eq rfl
    exact .inr ⟨since, by rw [same], front⟩

/-- A number is outstanding after one more entry if that gave it, or if it was before and is not
returned now. -/
lemma outstanding_concat :
    Outstanding (entries ++ [e]) id ↔
      e = .answered (some id) ∨ Outstanding entries id ∧ e ≠ .released id := by
  constructor
  · rintro ⟨before, since, eq, kept⟩
    rcases append_concat_cases eq with ⟨-, last, -⟩ | ⟨since, rfl, front⟩
    · exact .inl last
    · rw [List.mem_append, List.mem_singleton, not_or] at kept
      exact .inr ⟨⟨before, since, front, kept.1⟩, Ne.symm kept.2⟩
  · rintro (rfl | ⟨⟨before, since, rfl, kept⟩, other⟩)
    · exact ⟨entries, [], rfl, List.not_mem_nil⟩
    · refine ⟨before, since ++ [e], by simp, ?_⟩
      rw [List.mem_append, List.mem_singleton, not_or]
      exact ⟨kept, Ne.symm other⟩

/-- After a number was given the search begins with the one ahead of it. -/
lemma searchFrom_given : searchFrom (entries ++ [.answered (some id)]) = Allocator.ahead id 1 := by
  simp [searchFrom, Entry.given?]

/-- An entry that gives no number does not change where the search begins. -/
lemma searchFrom_concat (none : e.given? = none) :
    searchFrom (entries ++ [e]) = searchFrom entries := by
  simp [searchFrom, none]

/-- The search begins with a number on the circle. -/
lemma ahead_searchFrom (entries : List Entry) :
    Allocator.ahead (searchFrom entries) 0 = searchFrom entries := by
  unfold searchFrom
  split
  · rw [Allocator.ahead_ahead]
  · rfl

end

/-- An allocator with an account of what it has done, the first first. -/
structure Ledger where
  allocator : Allocator
  entries : List Entry

namespace Ledger

def new : Ledger :=
  ⟨.new, []⟩

/-- The allocator as a source of numbers, with its account. -/
def source : IdSource Ledger where
  allocate l :=
    let (id, allocator) := l.allocator.allocate
    (id, ⟨allocator, l.entries ++ [.answered id]⟩)
  release id l := ⟨l.allocator.release id, l.entries ++ [.released id]⟩

/-- The allocator knows what its account says. -/
structure Sound (l : Ledger) : Prop where
  used : ∀ id, id ∈ l.allocator.used ↔ Outstanding l.entries id
  upcoming : l.allocator.upcoming = searchFrom l.entries

/-- What a request for a number comes to. -/
inductive Answered (l : Ledger) : Option Nat × Ledger → Prop where
  | full :
    2 ^ 32 - 1 ≤ l.allocator.used.size →
    Answered l (none, ⟨l.allocator, l.entries ++ [.answered none]⟩)
  /-- The first free number after the last one given, to which the search comes in the end. -/
  | given {k id allocator} :
    l.allocator.used.size < 2 ^ 32 - 1 →
    id = Allocator.ahead (searchFrom l.entries) k →
    (∀ j < k, Outstanding l.entries (Allocator.ahead (searchFrom l.entries) j)) →
    ¬Outstanding l.entries id →
    Allocator.Search l.allocator.used l.allocator.upcoming k id →
    Answered l (some id, ⟨allocator, l.entries ++ [.answered (some id)]⟩)

section

variable {l : Ledger}

/-- A new allocator knows that it has given nothing. -/
lemma sound_new : new.Sound where
  used id := by
    refine iff_of_false Std.TreeSet.not_mem_emptyc ?_
    rintro ⟨before, since, eq, -⟩
    cases before <;> cases eq
  upcoming := rfl

/-- What is added to the account of a sound allocator. -/
lemma Sound.allocate (sound : l.Sound) :
    Answered l (source.allocate l) ∧ (source.allocate l).2.Sound := by
  obtain ⟨⟨n, used⟩, entries⟩ := l
  obtain ⟨mem, begins⟩ := sound
  obtain rfl : n = searchFrom entries := begins
  rw [source]
  rcases Nat.lt_or_ge used.size (2 ^ 32 - 1) with room | full
  · obtain ⟨k, le, taken, free, search⟩ := Allocator.exists_search room (searchFrom entries)
    rw [ahead_searchFrom] at search
    have given : Allocator.allocate ⟨searchFrom entries, used⟩ = (_, _) :=
      if_neg (Nat.not_le.mpr room)
    rw [search.firstFree_eq le] at given
    simp only [given]
    refine ⟨.given room rfl (fun j lt => (mem _).mp (taken j lt)) (mt (mem _).mpr free) search,
      fun id => ?_, ?_⟩
    · simp [outstanding_concat, ← mem]
    · rw [searchFrom_given, Allocator.following_ahead, Allocator.ahead_ahead]
  · have none : Allocator.allocate ⟨searchFrom entries, used⟩ = (_, _) := if_pos full
    simp only [none]
    refine ⟨.full full, fun id => ?_, (searchFrom_concat rfl).symm⟩
    simp [outstanding_concat, ← mem]

/-- An allocator that takes a number back stays sound. -/
lemma Sound.release (sound : l.Sound) (id : Nat) : (source.release id l).Sound where
  used id' := by
    simp only [source, Allocator.release, outstanding_concat, ← sound.used, Std.TreeSet.mem_erase,
      Std.LawfulEqCmp.compare_eq_iff_eq, Entry.released.injEq, ne_eq, reduceCtorEq, false_or]
    exact and_comm
  upcoming := sound.upcoming.trans (searchFrom_concat rfl).symm

/-- The numbers in use are counted. -/
lemma Sound.size (sound : l.Sound) :
    ∃ held : List Nat, held.Nodup ∧ (∀ id, id ∈ held ↔ Outstanding l.entries id) ∧
      l.allocator.used.size = held.length := by
  refine ⟨l.allocator.used.toList, ?_, fun id => ?_, Std.TreeSet.length_toList.symm⟩
  · exact Std.TreeSet.distinct_toList.imp fun ne eq => ne (Std.LawfulEqCmp.compare_eq_iff_eq.mpr eq)
  · rw [Std.TreeSet.mem_toList, sound.used]

end

/-- What is asked of an allocator. -/
inductive Call where
  | allocate
  | release (id : Nat)
  deriving DecidableEq, Repr

def call (l : Ledger) : Call → Ledger
  | .allocate => (source.allocate l).2
  | .release id => source.release id l

/-- What becomes of a new allocator. -/
def run (calls : List Call) : Ledger :=
  calls.foldl call new

/-- An allocator stays sound whatever is asked of it. -/
lemma Sound.call {l : Ledger} (sound : l.Sound) (c : Call) : (l.call c).Sound := by
  cases c with
  | allocate => exact sound.allocate.2
  | release id => exact sound.release id

/-- An allocator is sound after any run. -/
lemma sound_run (calls : List Call) : (run calls).Sound := by
  induction calls using List.reverseRecOn with
  | nil => exact sound_new
  | append_singleton calls c ih =>
    rw [run, List.foldl_concat]
    exact ih.call c

end Ledger

/-- After any run the allocator has in use just the numbers that were given and not returned since.
If there are others, the search for one ends and the answer is the first of them in the circle from
the last one given; otherwise there is none. -/
theorem allocate_nearest (calls : List Ledger.Call) :
    let l := Ledger.run calls
    let start := searchFrom l.entries
    ∃ held : List Nat,
      held.Nodup ∧ (∀ id, id ∈ held ↔ Outstanding l.entries id) ∧
      l.allocator.used.size = held.length ∧
      (held.length < 2 ^ 32 - 1 → ∃ k id,
        Allocator.Search l.allocator.used l.allocator.upcoming k id ∧
        l.allocator.allocate.1 = some id ∧ id = Allocator.ahead start k ∧
        1 ≤ id ∧ id ≤ 2 ^ 32 - 1 ∧ id ∉ held ∧ ∀ j < k, Allocator.ahead start j ∈ held) ∧
      (2 ^ 32 - 1 ≤ held.length → l.allocator.allocate.1 = none) := by
  intro l start
  have sound : l.Sound := Ledger.sound_run calls
  obtain ⟨held, distinct, mem, size⟩ := sound.size
  have answered := sound.allocate.1
  have answer : (Ledger.source.allocate l).1 = l.allocator.allocate.1 := rfl
  refine ⟨held, distinct, mem, size, ?_⟩
  rw [← answer, ← size]
  generalize Ledger.source.allocate l = next at answered
  cases answered with
  | full full => exact ⟨fun room => absurd full (Nat.not_le.mpr room), fun _ => rfl⟩
  | @given k id _ room eq taken free search =>
    refine ⟨fun _ => ⟨k, id, search, rfl, eq, ?_, ?_, mt (mem id).mp free, ?_⟩,
      fun full => absurd full (Nat.not_le.mpr room)⟩
    · exact eq ▸ Allocator.ahead_pos _ _
    · exact eq ▸ Allocator.ahead_le _ _
    · exact fun j lt => (mem _).mpr (taken j lt)

end Netconf
