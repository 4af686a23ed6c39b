import ComponentSurvey.Proofs.Path.Relative
import Mathlib.Data.List.Induction
import Mathlib.Data.List.Nodup

/-!
# Well-formed file trees

In a well-formed tree every place holds one thing, and everything stands in directories.  What a
path leads to from a directory in it is then what stands in the place below that directory.
-/

namespace ComponentSurvey

structure FileTree.WellFormed (tree : FileTree) : Prop where
  /-- The path of the top begins with a slash and does not end with one. -/
  absolute : ∃ body, tree.top.toList = '/' :: body
  unslashed : tree.top.toList.getLast? ≠ some '/'
  distinct : (tree.entries.map Prod.fst).Nodup
  plain : ∀ entry ∈ tree.entries, entry.1.IsPlain
  closed : ∀ entry ∈ tree.entries, tree.find? entry.1.dropLast = some .directory

namespace FileTree

variable {tree : FileTree} {place : Place} {entry : Entry}

/-! ## What stands in a place -/

theorem find?_eq_some_iff (formed : tree.WellFormed) (below : place ≠ []) :
    tree.find? place = some entry ↔ (place, entry) ∈ tree.entries := by
  have isEmpty : place.isEmpty = false := by simpa using below
  rw [find?, isEmpty, if_neg Bool.false_ne_true]
  have here {found : Place × Entry}
      (first : (tree.entries.find? fun entry => entry.1 = place) = some found) :
      found ∈ tree.entries ∧ found.1 = place :=
    ⟨List.mem_of_find?_eq_some first, by simpa using List.find?_some first⟩
  constructor
  · intro found
    obtain ⟨found, first, rfl⟩ := Option.map_eq_some_iff.mp found
    obtain ⟨member, rfl⟩ := here first
    exact member
  · intro member
    have stands : (tree.entries.find? fun entry => entry.1 = place).isSome = true :=
      List.find?_isSome.mpr ⟨_, member, by simp⟩
    obtain ⟨found, first⟩ := Option.isSome_iff_exists.mp stands
    obtain ⟨listed, same⟩ := here first
    rw [first, List.inj_on_of_nodup_map formed.distinct listed member same, Option.map_some]

theorem named_of_find? (formed : tree.WellFormed) (found : tree.find? place = some entry) :
    ∀ name ∈ place, Path.IsName name := by
  intro name listed
  have member := (find?_eq_some_iff formed (List.ne_nil_of_mem listed)).mp found
  exact (formed.plain _ member).named name listed

theorem directory_of_append (formed : tree.WellFormed) {front back : Place} (inside : back ≠ [])
    (found : tree.find? (front ++ back) = some entry) :
    tree.find? front = some .directory := by
  induction back using List.reverseRecOn generalizing entry with
  | nil => exact absurd rfl inside
  | append_singleton earlier name ih =>
      rw [← List.append_assoc] at found
      have member := (find?_eq_some_iff formed (by simp)).mp found
      have around := formed.closed _ member
      rw [List.dropLast_concat] at around
      cases earlier with
      | nil => rwa [List.append_nil] at around
      | cons first others => exact ih (List.cons_ne_nil _ _) around

/-! ## Following a path -/

private theorem ok_bind {ε α β : Type} (value : α) (next : α → Except ε β) :
    (Except.ok value >>= next) = next value := rfl

theorem enter_name {name : List Char} (named : Path.IsName name)
    (stands : tree.find? place = some .directory) :
    tree.enter place name = .ok (place ++ [name]) := by
  have isEmpty : name.isEmpty = false := by simpa using named.ne_nil
  simp [enter, stands, isEmpty, named.ne_here, named.ne_up]

theorem directory_of_enter {part : List Char} {next : Place}
    (entered : tree.enter place part = .ok next) : tree.find? place = some .directory := by
  cases stands : tree.find? place with
  | none => simp [enter, stands] at entered
  | some entry =>
      cases entry with
      | file content => simp [enter, stands] at entered
      | directory => rfl

theorem eq_of_enter_name {name : List Char} (named : Path.IsName name) {next : Place}
    (entered : tree.enter place name = .ok next) : next = place ++ [name] := by
  rw [enter_name named (directory_of_enter entered)] at entered
  exact (Except.ok.inj entered).symm

theorem eq_of_enter_blank {next : Place} (entered : tree.enter place [] = .ok next) :
    next = place := by
  simpa [enter, directory_of_enter entered, eq_comm] using entered

theorem foldlM_enter {names : Place} (named : ∀ name ∈ names, Path.IsName name) {next : Place}
    (followed : names.foldlM tree.enter place = .ok next) : next = place ++ names := by
  induction names generalizing place with
  | nil =>
      rw [List.append_nil]
      exact (Except.ok.inj followed).symm
  | cons name rest ih =>
      obtain ⟨isName, restNamed⟩ := List.forall_mem_cons.mp named
      rw [List.foldlM_cons] at followed
      cases entered : tree.enter place name with
      | error error =>
          rw [entered] at followed
          cases followed
      | ok middle =>
          rw [entered] at followed
          rw [ih restNamed followed, eq_of_enter_name isName entered, List.append_assoc,
            List.singleton_append]

theorem foldlM_enter_of_find? (formed : tree.WellFormed) {names : Place}
    (named : ∀ name ∈ names, Path.IsName name)
    (found : tree.find? (place ++ names) = some entry) :
    names.foldlM tree.enter place = .ok (place ++ names) := by
  induction names generalizing place with
  | nil => rw [List.append_nil]; rfl
  | cons name rest ih =>
      obtain ⟨isName, restNamed⟩ := List.forall_mem_cons.mp named
      have around := directory_of_append formed (List.cons_ne_nil name rest) found
      rw [List.append_cons] at found
      rw [List.foldlM_cons, enter_name isName around, ok_bind, ih restNamed found,
        ← List.append_cons]

/-! ## Paths behind a directory -/

theorem below?_of_eq {path : String} {rest : List Char}
    (split : path.toList = tree.top.toList ++ '/' :: rest) : tree.below? path = some rest := by
  have longer : path ≠ tree.top := by
    rintro rfl
    simpa using congrArg List.length split
  rw [below?, if_neg longer, split, if_pos]
  · simp
  · simp [List.isPrefixOf_iff_prefix]

/-- Behind a directory a path goes on from where the directory leads. -/
theorem below?_join (formed : tree.WellFormed) {root : String} {rest : List Char}
    (inside : tree.below? root = some rest) {names : Place} (plain : names.IsPlain) :
    ∃ behind front blanks, tree.below? (Path.join root names.path) = some behind ∧
      Path.splitAt '/' rest = front ++ blanks ∧ (blanks = [] ∨ blanks = [[]]) ∧
      Path.splitAt '/' behind = front ++ names := by
  rw [below?] at inside
  split at inside
  · rename_i isTop
    obtain ⟨body, absolute⟩ := formed.absolute
    have nonempty : root ≠ "" := by
      rintro rfl
      rw [← isTop] at absolute
      cases absolute
    have joined := Path.toList_join nonempty plain
    rw [isTop, if_neg formed.unslashed] at joined
    rw [← Option.some.inj inside]
    have behind : tree.below? (Path.join root names.path) = some names.path.toList := by
      rw [isTop]
      exact below?_of_eq joined
    exact ⟨names.path.toList, [], [[]], behind, rfl, .inr rfl, Path.splitAt_path plain⟩
  · rename_i notTop
    split at inside
    · rename_i inFront
      obtain ⟨behind, split⟩ := List.isPrefixOf_iff_prefix.mp inFront
      rw [List.append_assoc, List.singleton_append] at split
      have isRest : behind = rest := by
        rw [← split] at inside
        simpa using inside
      subst isRest
      obtain ⟨front, blanks, parts⟩ := Path.splitAt_continued behind plain
      exact ⟨_, front, blanks, below?_of_eq (Path.toList_join_of_eq split.symm plain), parts⟩
    · cases inside

theorem locate_join (formed : tree.WellFormed) {root : String}
    (located : tree.locate root = .ok place) {names : Place} (plain : names.IsPlain) :
    tree.locate (Path.join root names.path) = names.foldlM tree.enter place := by
  rw [locate] at located
  split at located
  · cases located
  · rename_i rest inside
    obtain ⟨behind, front, blanks, joined, within, blank, parts⟩ := below?_join formed inside plain
    have reached : front.foldlM tree.enter [] = .ok place := by
      rw [within, List.foldlM_append] at located
      rcases blank with rfl | rfl
      · simpa using located
      · cases followed : front.foldlM tree.enter [] with
        | error error =>
            rw [followed] at located
            cases located
        | ok middle =>
            rw [followed, ok_bind, List.foldlM_cons] at located
            have entered : tree.enter middle [] = .ok place := by simpa using located
            rw [eq_of_enter_blank entered]
    rw [locate, joined]
    simp only [parts, List.foldlM_append, reached, ok_bind]

theorem lookup_join (formed : tree.WellFormed) {root : String}
    (located : tree.locate root = .ok place) {names : Place} (plain : names.IsPlain) :
    tree.lookup (Path.join root names.path) = .ok entry ↔
      tree.find? (place ++ names) = some entry := by
  rw [lookup, locate_join formed located plain]
  constructor
  · intro found
    cases followed : names.foldlM tree.enter place with
    | error error =>
        rw [followed] at found
        cases found
    | ok next =>
        rw [followed, foldlM_enter plain.named followed, ok_bind] at found
        split at found
        · rename_i stands
          rw [stands, Except.ok.inj found]
        · cases found
  · intro found
    rw [foldlM_enter_of_find? formed plain.named found, ok_bind, found]
    rfl

theorem absolute_of_locate (formed : tree.WellFormed) {path : String}
    (located : tree.locate path = .ok place) : ∃ body, path.toList = '/' :: body := by
  obtain ⟨body, absolute⟩ := formed.absolute
  rw [locate, below?] at located
  split at located
  · cases located
  · rename_i inside
    split at inside
    · rename_i isTop
      exact ⟨body, isTop ▸ absolute⟩
    · split at inside
      · rename_i inFront
        obtain ⟨behind, split⟩ := List.isPrefixOf_iff_prefix.mp inFront
        rw [absolute] at split
        exact ⟨_, split.symm⟩
      · cases inside

theorem isFile_join (formed : tree.WellFormed) {root : String}
    (located : tree.locate root = .ok place) {names : Place} (plain : names.IsPlain) :
    tree.isFile (Path.join root names.path) = true ↔
      ∃ content, tree.find? (place ++ names) = some (.file content) := by
  simp only [← lookup_join formed located plain, isFile]
  split
  · rename_i content found
    simpa using ⟨content, found⟩
  · rename_i notFile
    simpa using notFile

theorem readText_join (formed : tree.WellFormed) {root : String}
    (located : tree.locate root = .ok place) {names : Place} (plain : names.IsPlain)
    {content : Content} (found : tree.find? (place ++ names) = some (.file content)) :
    tree.readText (Path.join root names.path) = content.text?.elim (.error .notText) .ok := by
  rw [readText, readContent, (lookup_join formed located plain).mpr found]
  cases content <;> rfl

/-! ## Files below a directory -/

private theorem fileBelow_eq_some_iff {directory : Place} {stands : Place × Entry} :
    (match stands.2 with
      | .file _ => if directory.isPrefixOf stands.1 then some stands.1 else none
      | .directory => none) = some place ↔
      directory <+: place ∧ ∃ content, stands = (place, .file content) := by
  obtain ⟨other, entry⟩ := stands
  cases entry with
  | directory => simp
  | file content =>
      simp only [Option.ite_none_right_eq_some, List.isPrefixOf_iff_prefix, Option.some.injEq]
      constructor
      · rintro ⟨below, rfl⟩
        exact ⟨below, content, rfl⟩
      · rintro ⟨below, _, same⟩
        rw [(Prod.mk.inj same).1]
        exact ⟨below, rfl⟩

theorem mem_filesBelow (formed : tree.WellFormed) {directory : Place} :
    place ∈ tree.filesBelow directory ↔
      directory <+: place ∧ ∃ content, tree.find? place = some (.file content) := by
  rw [filesBelow, List.mem_filterMap]
  constructor
  · rintro ⟨stands, member, listed⟩
    obtain ⟨below, content, rfl⟩ := fileBelow_eq_some_iff.mp listed
    have inside := (formed.plain _ member).nonempty
    exact ⟨below, content, (find?_eq_some_iff formed inside).mpr member⟩
  · rintro ⟨below, content, found⟩
    have inside : place ≠ [] := by
      rintro rfl
      cases found
    exact ⟨_, (find?_eq_some_iff formed inside).mp found,
      fileBelow_eq_some_iff.mpr ⟨below, content, rfl⟩⟩

theorem nodup_filesBelow (formed : tree.WellFormed) (directory : Place) :
    (tree.filesBelow directory).Nodup := by
  refine (List.pairwise_map.mp formed.distinct).filterMap _ ?_
  intro first second distinct place isFirst other isSecond
  obtain ⟨-, _, rfl⟩ := fileBelow_eq_some_iff.mp isFirst
  obtain ⟨-, _, rfl⟩ := fileBelow_eq_some_iff.mp isSecond
  exact distinct

/-! ## Changing one file -/

/-- Everywhere but in one place the same files stand. -/
def AgreeBeyond (changed : Place) (first second : FileTree) : Prop :=
  ∀ place ≠ changed, ∀ content,
    first.find? place = some (.file content) ↔ second.find? place = some (.file content)

theorem mem_putEntry {entries : List (Place × Entry)} {stands : Place × Entry}
    (member : stands ∈ putEntry place entry entries) :
    stands = (place, entry) ∨ stands ∈ entries := by
  induction entries with
  | nil => exact .inl (List.mem_singleton.mp member)
  | cons first rest ih =>
      rw [putEntry] at member
      split at member
      · exact (List.mem_cons.mp member).imp_right (List.mem_cons_of_mem first)
      · rcases List.mem_cons.mp member with rfl | later
        · exact .inr List.mem_cons_self
        · exact (ih later).imp_right (List.mem_cons_of_mem first)

theorem nodup_putEntry {entries : List (Place × Entry)} (distinct : (entries.map Prod.fst).Nodup) :
    ((putEntry place entry entries).map Prod.fst).Nodup := by
  induction entries with
  | nil => exact List.nodup_singleton place
  | cons first rest ih =>
      obtain ⟨isNew, restDistinct⟩ := List.nodup_cons.mp distinct
      rw [putEntry]
      split
      · rename_i here
        exact here ▸ distinct
      · rename_i elsewhere
        refine List.nodup_cons.mpr ⟨fun member => ?_, ih restDistinct⟩
        obtain ⟨stands, listed, same⟩ := List.mem_map.mp member
        rcases mem_putEntry listed with rfl | old
        · exact elsewhere same.symm
        · exact isNew (same ▸ List.mem_map_of_mem old)

theorem WellFormed.put (formed : tree.WellFormed) (plain : place.IsPlain)
    (around : tree.find? place.dropLast = some .directory)
    (noDirectory : tree.find? place ≠ some .directory) (entry : Entry) :
    (tree.put place entry).WellFormed where
  absolute := formed.absolute
  unslashed := formed.unslashed
  distinct := nodup_putEntry formed.distinct
  plain := by
    intro stands member
    rcases mem_putEntry member with rfl | old
    · exact plain
    · exact formed.plain stands old
  closed := by
    intro stands member
    have stillThere {directory : Place} (there : tree.find? directory = some .directory) :
        (tree.put place entry).find? directory = some .directory := by
      rw [find?_put tree directory _ plain.nonempty, if_neg, there]
      rintro rfl
      exact noDirectory there
    rcases mem_putEntry member with rfl | old
    · exact stillThere around
    · exact stillThere (formed.closed stands old)

def without (tree : FileTree) (place : Place) : FileTree :=
  { tree with entries := tree.entries.filter fun stands => stands.1 ≠ place }

theorem find?_without {other : Place} (elsewhere : other ≠ place) :
    (tree.without place).find? other = tree.find? other := by
  have passes (stands : Place × Entry) :
      (decide (stands.1 ≠ place) = true ∧ decide (stands.1 = other) = true) ↔
        stands.1 = other := by
    by_cases here : stands.1 = other <;> simp [here, elsewhere]
  simp only [find?, without, List.find?_filter, passes]

theorem WellFormed.without (formed : tree.WellFormed)
    (noDirectory : tree.find? place ≠ some .directory) : (tree.without place).WellFormed where
  absolute := formed.absolute
  unslashed := formed.unslashed
  distinct := formed.distinct.sublist (List.filter_sublist.map Prod.fst)
  plain stands member := formed.plain stands (List.mem_of_mem_filter member)
  closed stands member := by
    have around := formed.closed stands (List.mem_of_mem_filter member)
    rwa [find?_without]
    intro here
    exact noDirectory (here ▸ around)

/-! ## Directories stay where they are -/

section Kept

variable {after : FileTree}
  (kept : ∀ place, tree.find? place = some .directory → after.find? place = some .directory)

include kept

theorem enter_of_kept {part : List Char} {next : Place}
    (entered : tree.enter place part = .ok next) : after.enter place part = .ok next := by
  have stands := directory_of_enter entered
  simpa [enter, stands, kept place stands] using entered

theorem foldlM_enter_of_kept {parts : List (List Char)} {next : Place}
    (followed : parts.foldlM tree.enter place = .ok next) :
    parts.foldlM after.enter place = .ok next := by
  induction parts generalizing place with
  | nil => exact followed
  | cons part rest ih =>
      rw [List.foldlM_cons] at followed ⊢
      cases entered : tree.enter place part with
      | error error =>
          rw [entered] at followed
          cases followed
      | ok middle =>
          rw [entered, ok_bind] at followed
          rw [enter_of_kept kept entered, ok_bind, ih followed]

theorem locate_of_kept (sameTop : after.top = tree.top) {path : String}
    (located : tree.locate path = .ok place) : after.locate path = .ok place := by
  rw [locate, below?, sameTop, ← below?]
  rw [locate] at located
  split at located
  · cases located
  · exact foldlM_enter_of_kept kept located

end Kept

/-! ## Writing -/

theorem WellFormed.name_of_enter (formed : tree.WellFormed) {part : List Char}
    (noSlash : '/' ∉ part) {next : Place} (entered : tree.enter place part = .ok next)
    (noDirectory : tree.find? next ≠ some .directory) :
    next.IsPlain ∧ tree.find? next.dropLast = some .directory := by
  have stands := directory_of_enter entered
  rw [enter, stands] at entered
  dsimp only at entered
  split at entered
  · rw [← Except.ok.inj entered] at noDirectory
    exact absurd stands noDirectory
  · rename_i notHere
    split at entered
    · rw [← Except.ok.inj entered] at noDirectory
      by_cases below : place = []
      · subst below
        exact absurd rfl noDirectory
      · exact absurd (formed.closed _ ((find?_eq_some_iff formed below).mp stands)) noDirectory
    · rename_i notUp
      rw [← Except.ok.inj entered, List.dropLast_concat]
      have isName : Path.IsName part :=
        ⟨by rw [Path.innerPart?, if_neg notHere, if_neg notUp], noSlash⟩
      refine ⟨⟨by simp, fun name listed => ?_⟩, stands⟩
      rcases List.mem_append.mp listed with above | last
      · exact named_of_find? formed stands name above
      · exact List.mem_singleton.mp last ▸ isName

/-- A path leads to directories and to names in directories only. -/
theorem WellFormed.name_of_locate (formed : tree.WellFormed) {path : String}
    (located : tree.locate path = .ok place) (noDirectory : tree.find? place ≠ some .directory) :
    place.IsPlain ∧ tree.find? place.dropLast = some .directory := by
  rw [locate] at located
  split at located
  · cases located
  · rename_i rest inside
    have noSlash : ∀ part ∈ Path.splitAt '/' rest, '/' ∉ part :=
      fun part listed => Path.slash_notMem_of_mem_splitAt listed
    generalize Path.splitAt '/' rest = parts at located noSlash
    rcases List.eq_nil_or_concat' parts with rfl | ⟨front, part, rfl⟩
    · obtain rfl := Except.ok.inj located
      exact absurd rfl noDirectory
    · rw [List.foldlM_append] at located
      cases reached : front.foldlM tree.enter [] with
      | error error =>
          rw [reached] at located
          cases located
      | ok middle =>
          have entered : tree.enter middle part = .ok place := by
            simpa [reached, ok_bind] using located
          exact formed.name_of_enter (noSlash part (by simp)) entered noDirectory

@[simp] theorem find?_pastFault (place : Place) : tree.pastFault.find? place = tree.find? place :=
  rfl

theorem WellFormed.pastFault (formed : tree.WellFormed) : tree.pastFault.WellFormed where
  absolute := formed.absolute
  unslashed := formed.unslashed
  distinct := formed.distinct
  plain := formed.plain
  closed := formed.closed

theorem target_eq_ok {path : String} (found : tree.target path = .ok place) :
    tree.locate path = .ok place ∧ tree.find? place ≠ some .directory := by
  rw [target] at found
  cases located : tree.locate path with
  | error error =>
      rw [located] at found
      cases found
  | ok reached =>
      rw [located, ok_bind] at found
      split at found
      · cases found
      · rename_i noDirectory
        obtain rfl := Except.ok.inj found
        exact ⟨rfl, noDirectory⟩

/-- The ways a write can go, each with the tree and the error that come of it. -/
inductive Written (tree : FileTree) (path : String) (content : Content) :
    FileTree → Option FileError → Prop
  | refused (error : FileError) (noTarget : tree.target path = .error error) :
      Written tree path content tree (some error)
  | done (place : Place) (found : tree.target path = .ok place) (sound : tree.fault? = none) :
      Written tree path content (tree.pastFault.put place (.file content)) none
  | untouched (place : Place) (found : tree.target path = .ok place) (error : FileError)
      (fails : tree.fault? = some ⟨error, none⟩) :
      Written tree path content tree.pastFault (some error)
  | cut (place : Place) (found : tree.target path = .ok place) (error : FileError)
      (left : Content) (fails : tree.fault? = some ⟨error, some left⟩) :
      Written tree path content (tree.pastFault.put place (.file left)) (some error)

theorem written (tree : FileTree) (path : String) (content : Content) :
    Written tree path content (tree.write path content).1 (tree.write path content).2 := by
  rw [write]
  cases found : tree.target path with
  | error error => exact .refused error found
  | ok place =>
      dsimp only
      split
      · rename_i sound
        exact .done place found sound
      · rename_i error fails
        exact .untouched place found error fails
      · rename_i error left fails
        exact .cut place found error left fails

theorem put_of_write {path : String} {content : Content} {after : FileTree}
    (wrote : tree.write path content = (after, none)) :
    ∃ place, tree.locate path = .ok place ∧ tree.find? place ≠ some .directory ∧
      after = tree.pastFault.put place (.file content) := by
  have way := tree.written path content
  rw [wrote] at way
  cases way with
  | done place found sound =>
      obtain ⟨located, noDirectory⟩ := target_eq_ok found
      exact ⟨place, located, noDirectory, rfl⟩

/-- A tree stays well-formed whatever a write comes to. -/
theorem WellFormed.write (formed : tree.WellFormed) (path : String) (content : Content) :
    (tree.write path content).1.WellFormed := by
  have way := tree.written path content
  generalize tree.write path content = result at way ⊢
  obtain ⟨after, outcome⟩ := result
  have put {place : Place} (found : tree.target path = .ok place) (content : Content) :
      (tree.pastFault.put place (.file content)).WellFormed := by
    obtain ⟨located, noDirectory⟩ := target_eq_ok found
    obtain ⟨plain, around⟩ := formed.name_of_locate located noDirectory
    exact formed.pastFault.put plain around noDirectory _
  cases way with
  | refused error noTarget => exact formed
  | done place found sound => exact put found content
  | untouched place found error fails => exact formed.pastFault
  | cut place found error left fails => exact put found left

end FileTree

/-! ## Directories -/

structure FileTree.HasDirectory (tree : FileTree) (path : String) (place : Place) : Prop where
  formed : tree.WellFormed
  located : tree.locate path = .ok place
  isDirectory : tree.find? place = some .directory

theorem FileTree.HasDirectory.exists_names {tree : FileTree} {path : String}
    {directory place : Place} (there : tree.HasDirectory path directory)
    (below : directory <+: place) {content : Content}
    (found : tree.find? place = some (.file content)) :
    ∃ names : Place, names.IsPlain ∧ place = directory ++ names := by
  obtain ⟨names, rfl⟩ := below
  have nonempty : names ≠ [] := by
    rintro rfl
    rw [List.append_nil, there.isDirectory] at found
    cases found
  have member := (find?_eq_some_iff there.formed (List.append_ne_nil_of_right_ne_nil _ nonempty)).mp
    found
  exact ⟨names, ⟨nonempty, fun name listed =>
    (there.formed.plain _ member).named name (List.mem_append_right _ listed)⟩, rfl⟩

namespace FileTree.HasDirectory

variable {tree after : FileTree} {root : String} {directory names place : Place}

theorem of_changed (there : tree.HasDirectory root directory)
    (formed : after.WellFormed) (sameTop : after.top = tree.top)
    (same : ∀ other ≠ place, after.find? other = tree.find? other)
    (noDirectory : tree.find? place ≠ some .directory) :
    after.HasDirectory root directory ∧ tree.AgreeBeyond place after := by
  have kept : ∀ other, tree.find? other = some .directory →
      after.find? other = some .directory := by
    intro other stands
    rwa [same other]
    rintro rfl
    exact noDirectory stands
  refine ⟨⟨formed, locate_of_kept kept sameTop there.located, kept _ there.isDirectory⟩, ?_⟩
  intro other elsewhere content
  rw [same other elsewhere]

theorem put (there : tree.HasDirectory root directory) (plain : names.IsPlain)
    (located : tree.locate (Path.join root names.path) = .ok place)
    (noDirectory : tree.find? place ≠ some .directory) (content : Content) :
    (tree.put place (.file content)).HasDirectory root directory ∧
      tree.AgreeBeyond (directory ++ names) (tree.put place (.file content)) := by
  obtain ⟨placePlain, around⟩ := there.formed.name_of_locate located noDirectory
  rw [locate_join there.formed there.located plain] at located
  obtain rfl := foldlM_enter plain.named located
  refine there.of_changed (there.formed.put placePlain around noDirectory _) rfl ?_ noDirectory
  intro other elsewhere
  rw [find?_put tree other _ placePlain.nonempty, if_neg elsewhere]

theorem pastFault (there : tree.HasDirectory root directory) :
    tree.pastFault.HasDirectory root directory :=
  ⟨there.formed.pastFault, there.located, there.isDirectory⟩

theorem write (there : tree.HasDirectory root directory) (plain : names.IsPlain)
    (content : Content) :
    (tree.write (Path.join root names.path) content).1.HasDirectory root directory ∧
      tree.AgreeBeyond (directory ++ names)
        (tree.write (Path.join root names.path) content).1 := by
  have way := tree.written (Path.join root names.path) content
  generalize tree.write (Path.join root names.path) content = result at way ⊢
  obtain ⟨after, outcome⟩ := result
  cases way with
  | refused error noTarget => exact ⟨there, fun _ _ _ => Iff.rfl⟩
  | done place found sound =>
      obtain ⟨located, noDirectory⟩ := target_eq_ok found
      exact there.pastFault.put plain located noDirectory content
  | untouched place found error fails => exact ⟨there.pastFault, fun _ _ _ => Iff.rfl⟩
  | cut place found error left fails =>
      obtain ⟨located, noDirectory⟩ := target_eq_ok found
      exact there.pastFault.put plain located noDirectory left

theorem remove? (there : tree.HasDirectory root directory) (plain : names.IsPlain)
    (removed : tree.remove? (Path.join root names.path) = some after) :
    after.HasDirectory root directory ∧ tree.AgreeBeyond (directory ++ names) after := by
  rw [FileTree.remove?, locate_join there.formed there.located plain] at removed
  cases followed : names.foldlM tree.enter directory with
  | error error =>
      rw [followed] at removed
      cases removed
  | ok place =>
      rw [followed, foldlM_enter plain.named followed] at removed
      dsimp only at removed
      split at removed
      · rename_i content isFile
        have noDirectory : tree.find? (directory ++ names) ≠ some .directory := by
          rw [isFile]
          exact fun same => by cases same
        rw [← Option.some.inj removed]
        exact there.of_changed (there.formed.without noDirectory) rfl
          (fun other elsewhere => find?_without elsewhere) noDirectory
      · cases removed

end FileTree.HasDirectory

end ComponentSurvey
