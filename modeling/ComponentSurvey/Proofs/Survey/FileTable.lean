import ComponentSurvey.Proofs.Order.Distinct
import ComponentSurvey.Proofs.Order.Sorting
import ComponentSurvey.Proofs.Path.Order
import ComponentSurvey.Survey.Update
import Mathlib.Data.List.Sort

/-!
# File tables

A file table lists files in the order of their paths, each once, with what analyzing
it came to.  `put` replaces what a table says of one file.  `settle` is the table
after many updates, told without running them: the last word on every file, sorted.
-/

namespace ComponentSurvey

def FileResult.Concerns (file : String) : FileResult → Prop
  | analyzed usages => ∀ usage ∈ usages, Path.isSame usage.file file = true
  | failed failure => Path.isSame failure.file file = true
  | removed => True

structure FileEntry where
  file : String
  result : FileResult
  concerns : result.Concerns file

namespace FileEntry

def place (entry : FileEntry) : List (Nat ×ₗ List Char) := Path.place entry.file

def isRemoval (entry : FileEntry) : Bool := entry.result = .removed

def isAt (file : String) (entry : FileEntry) : Bool := Path.isSame file entry.file

def sameFile (first second : FileEntry) : Bool := Path.isSame first.file second.file

def mayPrecede (first second : FileEntry) : Bool :=
  Path.mayPrecede first.file second.file

theorem isAt_iff {file : String} {entry : FileEntry} :
    entry.isAt file = true ↔ Path.place file = entry.place :=
  Path.isSame_iff

theorem sameFile_iff (first second : FileEntry) :
    first.sameFile second = true ↔ first.place = second.place :=
  Path.isSame_iff

theorem mayPrecede_iff (first second : FileEntry) :
    first.mayPrecede second = true ↔ first.place ≤ second.place :=
  Path.mayPrecede_iff

theorem isAt_congr (file : String) (first second : FileEntry)
    (same : first.place = second.place) : first.isAt file = second.isAt file := by
  rw [Bool.eq_iff_iff, isAt_iff, isAt_iff, same]

/-- The entry itself, unless it takes its file away. -/
def remainder (entry : FileEntry) : List FileEntry :=
  if entry.isRemoval then [] else [entry]

theorem mem_remainder {entry other : FileEntry} :
    other ∈ entry.remainder ↔ other = entry ∧ entry.isRemoval = false := by
  cases removal : entry.isRemoval <;> simp [remainder, removal]

end FileEntry

/-- Files in the order of their paths, each once, with what is known of them. -/
structure FileTable where
  entries : List FileEntry
  sorted : entries.Pairwise fun first second => first.place < second.place
  present : ∀ entry ∈ entries, entry.isRemoval = false

namespace FileTable

/-! ## Entries -/

def lookup? (table : FileTable) (file : String) : Option FileEntry :=
  table.entries.find? (FileEntry.isAt file)

theorem find?_eq_some_iff_mem {entries : List FileEntry}
    (apart : entries.Pairwise fun first second => first.place ≠ second.place)
    {file : String} {entry : FileEntry} :
    entries.find? (FileEntry.isAt file) = some entry ↔
      entry ∈ entries ∧ entry.isAt file = true := by
  induction entries with
  | nil => simp
  | cons first rest ih =>
      obtain ⟨firstApart, restApart⟩ := List.pairwise_cons.mp apart
      by_cases isFirst : first.isAt file = true
      · rw [List.find?_cons_of_pos isFirst, Option.some_inj]
        constructor
        · rintro rfl
          exact ⟨List.mem_cons_self, isFirst⟩
        · rintro ⟨member, isEntry⟩
          rcases List.mem_cons.mp member with rfl | later
          · rfl
          · rw [FileEntry.isAt_iff] at isFirst isEntry
            exact absurd (isFirst.symm.trans isEntry) (firstApart entry later)
      · rw [List.find?_cons_of_neg isFirst, ih restApart, List.mem_cons]
        constructor
        · exact fun ⟨member, isEntry⟩ => ⟨.inr member, isEntry⟩
        · rintro ⟨rfl | member, isEntry⟩
          · exact absurd isEntry isFirst
          · exact ⟨member, isEntry⟩

theorem apart (table : FileTable) :
    table.entries.Pairwise fun first second => first.place ≠ second.place :=
  table.sorted.imp ne_of_lt

theorem lookup?_eq_some_iff {table : FileTable} {file : String} {entry : FileEntry} :
    table.lookup? file = some entry ↔
      entry ∈ table.entries ∧ entry.isAt file = true :=
  find?_eq_some_iff_mem table.apart

private theorem eq_of_sorted {first second : List FileEntry}
    (firstSorted : first.Pairwise fun one other => one.place < other.place)
    (secondSorted : second.Pairwise fun one other => one.place < other.place)
    (agree : ∀ entry, entry ∈ first ↔ entry ∈ second) : first = second := by
  have irreflexive : Std.Irrefl fun one other : FileEntry => one.place < other.place :=
    ⟨fun entry => lt_irrefl entry.place⟩
  have antisymmetric :
      Std.Antisymm fun one other : FileEntry => one.place < other.place :=
    ⟨fun _ _ less more => absurd more (lt_asymm less)⟩
  exact firstSorted.eq_of_mem_iff secondSorted agree

theorem ext_entries {first second : FileTable}
    (agree : ∀ entry, entry ∈ first.entries ↔ entry ∈ second.entries) : first = second := by
  have equal := eq_of_sorted first.sorted second.sorted agree
  cases first
  cases second
  simpa using equal

/-- Tables that say the same of every file are the same. -/
theorem ext_lookup? {first second : FileTable}
    (agree : ∀ file, first.lookup? file = second.lookup? file) : first = second := by
  have within {one other : FileTable}
      (agree : ∀ file, one.lookup? file = other.lookup? file)
      {entry : FileEntry} (member : entry ∈ one.entries) : entry ∈ other.entries := by
    have found : one.lookup? entry.file = some entry :=
      lookup?_eq_some_iff.mpr ⟨member, FileEntry.isAt_iff.mpr rfl⟩
    exact (lookup?_eq_some_iff.mp (agree entry.file ▸ found)).1
  exact ext_entries fun _ => ⟨within agree, within fun file => (agree file).symm⟩

/-! ## One update -/

def before (table : FileTable) (file : String) : List FileEntry :=
  table.entries.filter fun entry => Path.isLess entry.file file

def after (table : FileTable) (file : String) : List FileEntry :=
  table.entries.filter fun entry => Path.isLess file entry.file

theorem mem_before {table : FileTable} {file : String} {entry : FileEntry} :
    entry ∈ table.before file ↔
      entry ∈ table.entries ∧ entry.place < Path.place file := by
  rw [before, List.mem_filter, Path.isLess_iff, FileEntry.place]

theorem mem_after {table : FileTable} {file : String} {entry : FileEntry} :
    entry ∈ table.after file ↔
      entry ∈ table.entries ∧ Path.place file < entry.place := by
  rw [after, List.mem_filter, Path.isLess_iff, FileEntry.place]

private theorem sorted_around (table : FileTable) (file : String)
    (middle : List FileEntry)
    (alone : middle.Pairwise fun first second => first.place < second.place)
    (here : ∀ entry ∈ middle, entry.place = Path.place file) :
    (table.before file ++ middle ++ table.after file).Pairwise
      fun first second => first.place < second.place := by
  refine List.pairwise_append.mpr ⟨List.pairwise_append.mpr
    ⟨table.sorted.filter _, alone, ?_⟩, table.sorted.filter _, ?_⟩
  · intro first isBefore second isHere
    rw [here second isHere]
    exact (mem_before.mp isBefore).2
  · intro first earlier second isAfter
    have fileLt := (mem_after.mp isAfter).2
    rcases List.mem_append.mp earlier with isBefore | isHere
    · exact lt_trans (mem_before.mp isBefore).2 fileLt
    · rw [here first isHere]
      exact fileLt

theorem before_append_after (table : FileTable) (file : String) :
    table.before file ++ table.after file =
      table.entries.filter fun entry => !Path.isSame entry.file file := by
  have sorted := table.sorted_around file [] .nil (by simp)
  rw [List.append_nil] at sorted
  refine eq_of_sorted sorted (table.sorted.filter _) fun entry => ?_
  rw [List.mem_append, mem_before, mem_after, List.mem_filter, Bool.not_eq_true',
    ← Bool.not_eq_true, Path.isSame_iff, ← and_or_left, ← ne_iff_lt_or_gt]
  rfl

def put (table : FileTable) (entry : FileEntry) : FileTable where
  entries := table.before entry.file ++ entry.remainder ++ table.after entry.file
  sorted := by
    refine table.sorted_around entry.file entry.remainder ?_ ?_
    · cases removal : entry.isRemoval <;> simp [FileEntry.remainder, removal]
    · intro other isNew
      rw [(FileEntry.mem_remainder.mp isNew).1, FileEntry.place]
  present := by
    intro other member
    simp only [List.mem_append, mem_before, mem_after,
      FileEntry.mem_remainder] at member
    rcases member with (⟨old, _⟩ | ⟨rfl, stays⟩) | ⟨old, _⟩
    · exact table.present other old
    · exact stays
    · exact table.present other old

theorem mem_put {table : FileTable} {entry other : FileEntry} :
    other ∈ (table.put entry).entries ↔
      other ∈ entry.remainder ∨
        other ∈ table.entries ∧ other.place ≠ entry.place := by
  simp only [put, List.mem_append, mem_before, mem_after, ne_iff_lt_or_gt]
  rw [FileEntry.place.eq_def entry]
  tauto

theorem lookup?_put (table : FileTable) (entry : FileEntry) (file : String) :
    (table.put entry).lookup? file =
      ((entry :: table.entries).find? (FileEntry.isAt file)).filter
        fun found => !found.isRemoval := by
  ext other
  rw [lookup?_eq_some_iff, mem_put, FileEntry.mem_remainder,
    Option.filter_eq_some_iff, Bool.not_eq_true']
  by_cases isHere : entry.isAt file = true
  · rw [List.find?_cons_of_pos isHere, Option.some_inj]
    constructor
    · rintro ⟨⟨rfl, stays⟩ | ⟨_, different⟩, otherHere⟩
      · exact ⟨rfl, stays⟩
      · rw [FileEntry.isAt_iff] at isHere otherHere
        exact absurd (otherHere.symm.trans isHere) different
    · rintro ⟨rfl, stays⟩
      exact ⟨.inl ⟨rfl, stays⟩, isHere⟩
  · rw [List.find?_cons_of_neg isHere, ← lookup?, lookup?_eq_some_iff]
    constructor
    · rintro ⟨⟨rfl, _⟩ | ⟨old, _⟩, otherHere⟩
      · exact absurd otherHere isHere
      · exact ⟨⟨old, otherHere⟩, table.present other old⟩
    · rintro ⟨⟨old, otherHere⟩, _⟩
      refine ⟨.inr ⟨old, fun same => isHere ?_⟩, otherHere⟩
      exact FileEntry.isAt_congr file other entry same ▸ otherHere

/-! ## Many updates -/

/-- The last word on every file: the latest update of it, else the entry it had. -/
def latest (table : FileTable) (updates : List FileEntry) : List FileEntry :=
  Order.distinctBy FileEntry.sameFile (updates.reverse ++ table.entries)

/-- The table that keeps for each file the last word on it, in the order of the
files.  Files that are taken away are not in it. -/
def settle (table : FileTable) (updates : List FileEntry) : FileTable where
  entries := Order.sortBy FileEntry.mayPrecede
    ((table.latest updates).filter fun entry => !entry.isRemoval)
  sorted := by
    refine Order.pairwise_lt_sortBy FileEntry.mayPrecede_iff _ ?_
    exact (Order.pairwise_distinctBy FileEntry.sameFile_iff _).filter _
  present := by
    intro entry member
    rw [Order.mem_sortBy, List.mem_filter, Bool.not_eq_true'] at member
    exact member.2

theorem lookup?_settle (table : FileTable) (updates : List FileEntry) (file : String) :
    (table.settle updates).lookup? file =
      ((updates.reverse ++ table.entries).find? (FileEntry.isAt file)).filter
        fun found => !found.isRemoval := by
  rw [← Order.find?_distinctBy FileEntry.sameFile_iff (FileEntry.isAt file)
    (FileEntry.isAt_congr file)]
  ext entry
  rw [lookup?_eq_some_iff, settle, Order.mem_sortBy, List.mem_filter,
    Option.filter_eq_some_iff,
    find?_eq_some_iff_mem (Order.pairwise_distinctBy FileEntry.sameFile_iff _), latest]
  tauto

theorem settle_nil (table : FileTable) : table.settle [] = table := by
  apply ext_lookup?
  intro file
  ext entry
  rw [lookup?_settle, Option.filter_eq_some_iff, List.reverse_nil, List.nil_append,
    ← lookup?, lookup?_eq_some_iff, Bool.not_eq_true']
  exact ⟨fun found => found.1, fun found => ⟨found, table.present entry found.1⟩⟩

theorem settle_put (table : FileTable) (entry : FileEntry) (updates : List FileEntry) :
    (table.put entry).settle updates = table.settle (entry :: updates) := by
  apply ext_lookup?
  intro file
  rw [lookup?_settle, lookup?_settle, List.reverse_cons, List.append_assoc,
    List.singleton_append, List.find?_append, List.find?_append, ← lookup?, lookup?_put]
  -- only where no later update is about the file does the first one count
  cases updates.reverse.find? (FileEntry.isAt file) with
  | some found => rfl
  | none => simp only [Option.none_or, Option.filter_filter, Bool.and_self]

/-- Only the order of updates of the same file counts. -/
theorem settle_congr (table : FileTable) {updates others : List FileEntry}
    (agree : ∀ file, others.filter (FileEntry.isAt file) =
      updates.filter (FileEntry.isAt file)) :
    table.settle others = table.settle updates := by
  apply ext_lookup?
  intro file
  have last : others.reverse.find? (FileEntry.isAt file) =
      updates.reverse.find? (FileEntry.isAt file) := by
    rw [← List.head?_filter, ← List.head?_filter, List.filter_reverse,
      List.filter_reverse, agree]
  rw [lookup?_settle, lookup?_settle, List.find?_append, List.find?_append, last]

end FileTable

end ComponentSurvey
