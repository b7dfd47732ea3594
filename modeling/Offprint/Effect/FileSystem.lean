import Mathlib.Data.List.Dedup
import Mathlib.Data.List.Infix

/-!
# Path-addressed file systems

A file system is a list of entries at distinct paths in which everything but the
root has a directory above it.  What a path leads to is read with `entry`; a
whole subtree is again a file system, so moving a directory is an equation
between two subtrees.
-/

namespace Offprint.Effect

open List List

/-- What one path leads to, symbolic links not followed. -/
inductive Entry where
  | file (content : List UInt8)
  | directory
  | symlink
  | special
  deriving Repr, DecidableEq

variable {Name : Type} [DecidableEq Name]

structure FileSystem (Name : Type) [DecidableEq Name] where
  entries : List (List Name × Entry)
  distinct : (entries.map Prod.fst).Nodup
  parents : ∀ path name,
    (entries.lookup (path ++ [name])).isSome → entries.lookup path = some .directory

namespace FileSystem

@[ext]
theorem ext {first second : FileSystem Name} (same : first.entries = second.entries) :
    first = second := by
  cases first
  cases second
  subst same
  rfl

def entry (fs : FileSystem Name) (path : List Name) : Option Entry :=
  fs.entries.lookup path

variable {path : List Name} {found : Entry} {fs : FileSystem Name}

theorem entry_parent {name : Name} (present : (fs.entry (path ++ [name])).isSome) :
    fs.entry path = some .directory :=
  fs.parents path name present

theorem entry_append_eq_none (absent : fs.entry path = none) (rest : List Name) :
    fs.entry (path ++ rest) = none := by
  induction rest using reverseRecOn with
  | nil => simpa using absent
  | append_singleton rest name ih =>
    by_contra present
    rw [← append_assoc, ← ne_eq, Option.ne_none_iff_isSome] at present
    rw [entry_parent present] at ih
    cases ih

theorem entry_below_eq_none (present : fs.entry path = some found) (leaf : found ≠ .directory)
    (name : Name) (rest : List Name) : fs.entry (path ++ name :: rest) = none := by
  rw [append_cons]
  apply entry_append_eq_none
  by_contra below
  rw [← ne_eq, Option.ne_none_iff_isSome] at below
  rw [entry_parent below, Option.some.injEq] at present
  exact leaf present.symm

omit [DecidableEq Name] in
theorem not_prefix_of_apart {first second path : List Name}
    (apart : ¬ first <+: second ∧ ¬ second <+: first) (below : second <+: path) :
    ¬ first <+: path := by
  intro reaches
  rcases prefix_or_prefix_of_prefix reaches below with inside | above
  · exact apart.1 inside
  · exact apart.2 above

section Lookup

theorem lookup_cons_eq (key path : List Name) (found : Entry) (rest : List (List Name × Entry)) :
    ((key, found) :: rest).lookup path =
      if path = key then some found else rest.lookup path := by
  rw [lookup_cons]
  by_cases same : path = key
  · simp [same]
  · rw [if_neg same, beq_eq_false_iff_ne.mpr same]

section

variable (entries : List (List Name × Entry))

theorem lookup_isSome_iff_mem_keys (path : List Name) :
    (entries.lookup path).isSome ↔ path ∈ entries.map Prod.fst := by
  induction entries with
  | nil => simp
  | cons pair rest ih =>
    rw [lookup_cons_eq, map_cons, mem_cons]
    by_cases same : path = pair.1
    · simp [same]
    · rw [if_neg same, ih]
      simp [same]

theorem lookup_filter (keep : List Name → Bool) (path : List Name) :
    (entries.filter fun pair => keep pair.1).lookup path =
      if keep path then entries.lookup path else none := by
  induction entries with
  | nil => simp
  | cons pair rest ih =>
    obtain ⟨key, found⟩ := pair
    rw [filter_cons]
    by_cases kept : keep key = true
    · rw [if_pos kept, lookup_cons_eq, lookup_cons_eq, ih]
      by_cases path = key <;> simp_all
    · rw [if_neg kept, ih, lookup_cons_eq]
      by_cases path = key <;> simp_all

theorem lookup_filter_ne (removed path : List Name) :
    (entries.filter fun pair => pair.1 ≠ removed).lookup path =
      if path = removed then none else entries.lookup path := by
  rw [lookup_filter entries (fun key => key ≠ removed)]
  simp

end

theorem isPrefixOf?_eq_none_of_outside {base path : List Name} (outside : ¬ base <+: path) :
    base.isPrefixOf? path = none := by
  rw [← Option.not_isSome_iff_eq_none, isSome_isPrefixOf?_eq_isPrefixOf,
    isPrefixOf_iff_prefix]
  exact outside

theorem lookup_filterMap_below (entries : List (List Name × Entry)) (base path : List Name) :
    (entries.filterMap fun pair => (base.isPrefixOf? pair.1).map (·, pair.2)).lookup path =
      entries.lookup (base ++ path) := by
  induction entries with
  | nil => rfl
  | cons pair rest ih =>
    obtain ⟨key, found⟩ := pair
    rw [filterMap_cons, lookup_cons]
    cases below : base.isPrefixOf? key with
    | none =>
      have differs : (base ++ path == key) = false := by
        rw [beq_eq_false_iff_ne]
        rintro rfl
        have located := isPrefixOf?_eq_some_iff_append_eq.mpr
          (rfl : base ++ path = base ++ path)
        rw [below] at located
        cases located
      simp only [Option.map_none, differs]
      exact ih
    | some remainder =>
      rw [isPrefixOf?_eq_some_iff_append_eq] at below
      subst below
      simp only [Option.map_some, lookup_cons, ih]
      have agrees : (path == remainder) = (base ++ path == base ++ remainder) := by
        rw [Bool.eq_iff_iff, beq_iff_eq, beq_iff_eq, append_cancel_left_eq]
      rw [agrees]

variable {entries : List (List Name × Entry)}

theorem mem_keys_filterMap_below {base path : List Name} : path ∈ (entries.filterMap fun pair =>
        (base.isPrefixOf? pair.1).map (·, pair.2)).map Prod.fst ↔
      base ++ path ∈ entries.map Prod.fst := by
  rw [← lookup_isSome_iff_mem_keys, lookup_filterMap_below, lookup_isSome_iff_mem_keys]

theorem distinct_filterMap_below (distinct : (entries.map Prod.fst).Nodup) (base : List Name) :
    ((entries.filterMap fun pair =>
      (base.isPrefixOf? pair.1).map (·, pair.2)).map Prod.fst).Nodup := by
  induction entries with
  | nil => simp
  | cons pair rest ih =>
    rw [map_cons, nodup_cons] at distinct
    rw [filterMap_cons]
    cases below : base.isPrefixOf? pair.1 with
    | none => exact ih distinct.2
    | some remainder =>
      rw [isPrefixOf?_eq_some_iff_append_eq] at below
      refine nodup_cons.mpr ⟨?_, ih distinct.2⟩
      rw [mem_keys_filterMap_below, below]
      exact distinct.1

end Lookup

section Subtree

variable (fs : FileSystem Name) {first second : FileSystem Name} {base other : List Name}

/-- Everything at or below a path, addressed from there. -/
def subtree (base : List Name) : FileSystem Name where
  entries := fs.entries.filterMap fun pair => (base.isPrefixOf? pair.1).map (·, pair.2)
  distinct := distinct_filterMap_below fs.distinct base
  parents := by
    intro path name present
    rw [lookup_filterMap_below] at present ⊢
    rw [← append_assoc] at present
    exact fs.parents _ _ present

@[simp]
theorem entry_subtree (base path : List Name) :
    (fs.subtree base).entry path = fs.entry (base ++ path) :=
  lookup_filterMap_below fs.entries base path

theorem entry_of_subtree_eq (same : first.subtree base = second.subtree other) (path : List Name) :
    first.entry (base ++ path) = second.entry (other ++ path) := by
  rw [← entry_subtree, ← entry_subtree, same]

def children (path : List Name) : List Name :=
  ((fs.subtree path).entries.filterMap fun pair =>
    match pair.1 with
    | [name] => some name
    | _ => none).dedup

theorem mem_children {fs : FileSystem Name} {name : Name} :
    name ∈ fs.children path ↔ (fs.entry (path ++ [name])).isSome := by
  rw [← entry_subtree, entry, lookup_isSome_iff_mem_keys, children, mem_dedup,
    mem_filterMap, mem_map]
  constructor
  · rintro ⟨pair, member, located⟩
    refine ⟨pair, member, ?_⟩
    split at located
    · next child key =>
      rw [Option.some.injEq] at located
      rw [key, located]
    · cases located
  · rintro ⟨pair, member, key⟩
    exact ⟨pair, member, by simp [key]⟩

theorem nodup_children (path : List Name) : (fs.children path).Nodup :=
  nodup_dedup _

theorem subtree_subtree (base path : List Name) :
    (fs.subtree base).subtree path = fs.subtree (base ++ path) := by
  apply ext
  simp only [subtree, filterMap_filterMap]
  congr 1
  funext pair
  by_cases outer : base <+: pair.1
  · obtain ⟨remainder, key⟩ := outer
    rw [isPrefixOf?_eq_some_iff_append_eq.mpr key, ← key]
    simp only [Option.map_some, Option.bind_some]
    by_cases inner : path <+: remainder
    · obtain ⟨rest, rfl⟩ := inner
      rw [isPrefixOf?_eq_some_iff_append_eq.mpr rfl,
        isPrefixOf?_eq_some_iff_append_eq.mpr (append_assoc base path rest)]
    · rw [isPrefixOf?_eq_none_of_outside inner, isPrefixOf?_eq_none_of_outside]
      rwa [prefix_append_right_inj]
  · rw [isPrefixOf?_eq_none_of_outside outer, isPrefixOf?_eq_none_of_outside]
    · rfl
    · exact fun inside => outer ((prefix_append base path).trans inside)

theorem children_subtree (base path : List Name) :
    (fs.subtree base).children path = fs.children (base ++ path) := by
  rw [children, children, subtree_subtree]

theorem subtree_eq_of_vacant (vacant : first.entry base = none)
    (otherVacant : second.entry other = none) : first.subtree base = second.subtree other := by
  have empty : ∀ {fs : FileSystem Name} {path : List Name}, fs.entry path = none →
      (fs.subtree path).entries = [] := by
    intro fs path absent
    rw [← map_eq_nil_iff, eq_nil_iff_forall_not_mem]
    intro key member
    rw [← lookup_isSome_iff_mem_keys, ← entry, entry_subtree, entry_append_eq_none absent]
      at member
    cases member
  exact ext ((empty vacant).trans (empty otherVacant).symm)

/-- A file system that is nothing but one entry. -/
def leaf (only : Entry) : FileSystem Name where
  entries := [([], only)]
  distinct := by simp
  parents := by
    intro path name present
    rw [lookup_cons_eq, if_neg (by simp)] at present
    cases present

theorem subtree_eq_leaf {fs : FileSystem Name} (present : fs.entry path = some found)
    (below : ∀ name, fs.entry (path ++ [name]) = none) : fs.subtree path = leaf found := by
  have keys : ∀ key ∈ (fs.subtree path).entries.map Prod.fst, key = [] := by
    intro key member
    rw [← lookup_isSome_iff_mem_keys, ← entry, entry_subtree] at member
    cases key with
    | nil => rfl
    | cons name rest =>
      rw [append_cons, entry_append_eq_none (below name)] at member
      cases member
  have root : (fs.subtree path).entry [] = some found := by
    rw [entry_subtree, append_nil, present]
  apply ext
  have distinct := (fs.subtree path).distinct
  rw [entry] at root
  revert keys distinct root
  cases (fs.subtree path).entries with
  | nil =>
    intro _ root _
    cases root
  | cons pair rest =>
    obtain ⟨key, content⟩ := pair
    intro keys root distinct
    obtain rfl : key = [] := keys key mem_cons_self
    cases rest with
    | nil => rw [leaf, Option.some.inj root]
    | cons second others =>
      have secondKey := keys second.1 (mem_cons_of_mem _ mem_cons_self)
      rw [map_cons, map_cons, secondKey] at distinct
      exact absurd mem_cons_self (nodup_cons.mp distinct).1

end Subtree

variable {base : List Name}

section Insert

/-- Add an entry inside an existing directory. -/
def insert
    (fs : FileSystem Name) (path : List Name) (added : Entry)
    (absent : fs.entry path = none)
    (parent : fs.entry path.dropLast = some .directory) : FileSystem Name where
  entries := (path, added) :: fs.entries
  distinct := by
    refine nodup_cons.mpr ⟨?_, fs.distinct⟩
    rw [← lookup_isSome_iff_mem_keys, ← entry, absent]
    exact nofun
  parents := by
    intro above name present
    rw [lookup_cons_eq] at present ⊢
    have aboveDirectory : fs.entries.lookup above = some .directory := by
      by_cases same : above ++ [name] = path
      · rw [← same, dropLast_concat] at parent
        exact parent
      · rw [if_neg same] at present
        exact fs.parents _ _ present
    have differs : above ≠ path := by
      rintro rfl
      rw [entry, aboveDirectory] at absent
      cases absent
    rw [if_neg differs]
    exact aboveDirectory

variable {fs : FileSystem Name} {path : List Name} {added : Entry}
  {absent : fs.entry path = none} {parent : fs.entry path.dropLast = some .directory}

theorem entry_insert (other : List Name) :
    (fs.insert path added absent parent).entry other =
      if other = path then some added else fs.entry other :=
  lookup_cons_eq path other added fs.entries

theorem subtree_insert_of_not_below (outside : ¬ base <+: path) :
    (fs.insert path added absent parent).subtree base = fs.subtree base := by
  apply ext
  simp [subtree, insert, isPrefixOf?_eq_none_of_outside outside]

end Insert

section Erase

/-- Remove an entry that has nothing below it. -/
def erase
    (fs : FileSystem Name) (path : List Name)
    (leaf : ∀ name, fs.entry (path ++ [name]) = none) : FileSystem Name where
  entries := fs.entries.filter fun pair => pair.1 ≠ path
  distinct := fs.distinct.sublist (filter_sublist.map Prod.fst)
  parents := by
    intro above name present
    rw [lookup_filter_ne] at present ⊢
    split at present
    · cases present
    · have differs : above ≠ path := by
        rintro rfl
        rw [← entry, leaf name] at present
        cases present
      rw [if_neg differs]
      exact fs.parents _ _ present

variable {fs : FileSystem Name} {path : List Name}
  {leaf : ∀ name, fs.entry (path ++ [name]) = none}

theorem entry_erase (other : List Name) :
    (fs.erase path leaf).entry other = if other = path then none else fs.entry other :=
  lookup_filter_ne fs.entries path other

theorem subtree_erase_of_not_below (outside : ¬ base <+: path) :
    (fs.erase path leaf).subtree base = fs.subtree base := by
  apply ext
  simp only [subtree, erase, filterMap_filter]
  congr 1
  funext pair
  by_cases same : pair.1 = path
  · simp [same, isPrefixOf?_eq_none_of_outside outside]
  · simp [same]

end Erase

section Write

def write
    (fs : FileSystem Name) (path : List Name) (content : List UInt8)
    (regular : ∃ previous, fs.entry path = some (.file previous)) : FileSystem Name where
  entries := (path, .file content) :: fs.entries.filter fun pair => pair.1 ≠ path
  distinct := by
    refine nodup_cons.mpr ⟨?_, fs.distinct.sublist (filter_sublist.map Prod.fst)⟩
    rw [← lookup_isSome_iff_mem_keys, lookup_filter_ne, if_pos rfl]
    exact nofun
  parents := by
    intro above name present
    rw [lookup_cons_eq, lookup_filter_ne] at present ⊢
    obtain ⟨previous, found⟩ := regular
    have aboveDirectory : fs.entries.lookup above = some .directory := by
      by_cases same : above ++ [name] = path
      · rw [← same] at found
        exact fs.parents above name (by rw [← entry, found]; rfl)
      · rw [if_neg same, if_neg same] at present
        exact fs.parents above name present
    have differs : above ≠ path := by
      rintro rfl
      rw [entry, aboveDirectory] at found
      cases found
    rw [if_neg differs, if_neg differs]
    exact aboveDirectory

variable {fs : FileSystem Name} {path : List Name} {content : List UInt8}
  {regular : ∃ previous, fs.entry path = some (.file previous)}

theorem entry_write (other : List Name) :
    (fs.write path content regular).entry other =
      if other = path then some (.file content) else fs.entry other := by
  rw [entry, write, lookup_cons_eq, lookup_filter_ne]
  by_cases same : other = path
  · rw [if_pos same, if_pos same]
  · rw [if_neg same, if_neg same, if_neg same, entry]

theorem subtree_write_of_not_below (outside : ¬ base <+: path) :
    (fs.write path content regular).subtree base = fs.subtree base := by
  apply ext
  simp only [subtree, write, filterMap_cons, isPrefixOf?_eq_none_of_outside outside,
    Option.map_none, filterMap_filter]
  congr 1
  funext pair
  by_cases same : pair.1 = path
  · simp [same, isPrefixOf?_eq_none_of_outside outside]
  · simp [same]

end Write

section Prune

/-- Whether a removal below `path` that has reached the chosen entries has taken `key`:
an entry goes only after everything below it. -/
def taken (fs : FileSystem Name) (path : List Name) (chosen : List Name → Bool)
    (key : List Name) : Bool :=
  path <+: key ∧ ∀ pair ∈ fs.entries, key <+: pair.1 → chosen pair.1

theorem taken_iff {path key : List Name} {chosen : List Name → Bool} :
    fs.taken path chosen key = true ↔
      path <+: key ∧ ∀ pair ∈ fs.entries, key <+: pair.1 → chosen pair.1 = true :=
  decide_eq_true_iff

/-- Remove entries at or below a path, as far as they are chosen. -/
def prune (fs : FileSystem Name) (path : List Name) (chosen : List Name → Bool) :
    FileSystem Name where
  entries := fs.entries.filter fun pair => !fs.taken path chosen pair.1
  distinct := fs.distinct.sublist (filter_sublist.map Prod.fst)
  parents := by
    intro above name present
    rw [lookup_filter fs.entries (fun key => !fs.taken path chosen key)] at present ⊢
    split at present
    · next kept =>
      rw [if_pos]
      · exact fs.parents _ _ present
      · rw [Bool.not_eq_true', Bool.eq_false_iff] at kept ⊢
        intro aboveTaken
        rw [taken_iff] at aboveTaken
        apply kept
        rw [taken_iff]
        refine ⟨aboveTaken.1.trans (prefix_append above [name]), ?_⟩
        intro pair member below
        exact aboveTaken.2 pair member ((prefix_append above [name]).trans below)
    · cases present

variable {fs : FileSystem Name} {path : List Name} {chosen : List Name → Bool} {other : List Name}

theorem entry_prune (other : List Name) :
    (fs.prune path chosen).entry other =
      if fs.taken path chosen other then none else fs.entry other := by
  rw [entry, prune, lookup_filter fs.entries (fun key => !fs.taken path chosen key)]
  by_cases removed : fs.taken path chosen other = true
  · simp [removed]
  · simp [removed, entry]

theorem entry_prune_of_not_below (outside : ¬ path <+: other) :
    (fs.prune path chosen).entry other = fs.entry other := by
  rw [entry_prune, if_neg]
  intro removed
  exact outside (taken_iff.mp removed).1

theorem entry_of_entry_prune (present : (fs.prune path chosen).entry other = some found) :
    fs.entry other = some found := by
  rw [entry_prune] at present
  split at present
  · cases present
  · exact present

theorem entry_prune_all (below : path <+: other) :
    (fs.prune path fun _ => true).entry other = none := by
  rw [entry_prune, if_pos (taken_iff.mpr ⟨below, fun _ _ _ => rfl⟩)]

theorem subtree_prune_of_apart (outside : ¬ path <+: base) (above : ¬ base <+: path) :
    (fs.prune path chosen).subtree base = fs.subtree base := by
  apply ext
  simp only [subtree, prune, filterMap_filter]
  apply filterMap_congr
  rintro ⟨key, found⟩ _
  by_cases below : base <+: key
  · have kept : fs.taken path chosen key = false := by
      rw [Bool.eq_false_iff]
      intro removed
      exact not_prefix_of_apart ⟨above, outside⟩ (taken_iff.mp removed).1 below
    simp [kept]
  · simp [isPrefixOf?_eq_none_of_outside below]

end Prune

section Move

/-- Where a path lies after `source` has become `destination`. -/
def relocate (source destination path : List Name) : List Name :=
  match source.isPrefixOf? path with
  | some remainder => destination ++ remainder
  | none => path

theorem relocate_append (source destination remainder : List Name) :
    relocate source destination (source ++ remainder) = destination ++ remainder := by
  rw [relocate, isPrefixOf?_eq_some_iff_append_eq.mpr rfl]

theorem relocate_of_not_below
    {source path : List Name} (outside : ¬ source <+: path) (destination : List Name) :
    relocate source destination path = path := by
  rw [relocate, isPrefixOf?_eq_none_of_outside outside]

variable {entries : List (List Name × Entry)} {fs : FileSystem Name}
  {source destination : List Name} {vacant : fs.entry destination = none}
  {parent : fs.entry destination.dropLast = some .directory} {apart : ¬ source <+: destination}

theorem lookup_map_relocate_append (vacant : ∀ rest, entries.lookup (destination ++ rest) = none)
    (remainder : List Name) :
    (entries.map fun pair => (relocate source destination pair.1, pair.2)).lookup
        (destination ++ remainder) =
      entries.lookup (source ++ remainder) := by
  induction entries with
  | nil => rfl
  | cons pair rest ih =>
    obtain ⟨key, found⟩ := pair
    simp only [lookup_cons_eq] at vacant
    have restVacant : ∀ remainder, rest.lookup (destination ++ remainder) = none := by
      intro remainder
      have absent := vacant remainder
      split at absent
      · cases absent
      · exact absent
    rw [map_cons, lookup_cons_eq, lookup_cons_eq, ih restVacant]
    by_cases below : source <+: key
    · obtain ⟨remaining, rfl⟩ := below
      simp only [relocate_append, append_cancel_left_eq]
    · have keyDiffers : source ++ remainder ≠ key := by
        rintro rfl
        exact below (prefix_append source remainder)
      have destinationDiffers : destination ++ remainder ≠ key := by
        rintro rfl
        simpa using vacant remainder
      rw [relocate_of_not_below below, if_neg keyDiffers, if_neg destinationDiffers]

theorem lookup_map_relocate_of_not_below (entries : List (List Name × Entry))
    (outside : ¬ destination <+: path) :
    (entries.map fun pair => (relocate source destination pair.1, pair.2)).lookup path =
      if source <+: path then none else entries.lookup path := by
  induction entries with
  | nil => simp
  | cons pair rest ih =>
    obtain ⟨key, found⟩ := pair
    rw [map_cons, lookup_cons_eq, lookup_cons_eq, ih]
    by_cases below : source <+: key
    · obtain ⟨remaining, rfl⟩ := below
      have differs : path ≠ destination ++ remaining := by
        rintro rfl
        exact outside (prefix_append destination remaining)
      rw [relocate_append, if_neg differs]
      split
      · rfl
      · next apart =>
        rw [if_neg]
        rintro rfl
        exact apart (prefix_append source remaining)
    · rw [relocate_of_not_below below]
      by_cases same : path = key
      · subst same
        simp [below]
      · simp [same]

theorem distinct_map_relocate (distinct : (entries.map Prod.fst).Nodup)
    (vacant : ∀ rest, entries.lookup (destination ++ rest) = none) :
    ((entries.map fun pair => (relocate source destination pair.1, pair.2)).map
      Prod.fst).Nodup := by
  have outside : ∀ key ∈ entries.map Prod.fst, ¬ destination <+: key := by
    rintro key member ⟨rest, rfl⟩
    rw [← lookup_isSome_iff_mem_keys, vacant rest] at member
    cases member
  have keys : (entries.map fun pair => (relocate source destination pair.1, pair.2)).map Prod.fst =
      (entries.map Prod.fst).map (relocate source destination) := by
    simp only [map_map, Function.comp_def]
  rw [keys]
  refine distinct.map_on ?_
  intro first firstKey second secondKey same
  by_cases firstBelow : source <+: first <;> by_cases secondBelow : source <+: second
  · obtain ⟨firstRest, rfl⟩ := firstBelow
    obtain ⟨secondRest, rfl⟩ := secondBelow
    rw [relocate_append, relocate_append, append_cancel_left_eq] at same
    rw [same]
  · obtain ⟨firstRest, rfl⟩ := firstBelow
    rw [relocate_append, relocate_of_not_below secondBelow] at same
    exact absurd ⟨firstRest, same⟩ (outside second secondKey)
  · obtain ⟨secondRest, rfl⟩ := secondBelow
    rw [relocate_append, relocate_of_not_below firstBelow] at same
    exact absurd ⟨secondRest, same.symm⟩ (outside first firstKey)
  · rwa [relocate_of_not_below firstBelow, relocate_of_not_below secondBelow] at same

/-- Move everything at or below `source` to a vacant place in an existing directory. -/
def move
    (fs : FileSystem Name) (source destination : List Name)
    (vacant : fs.entry destination = none)
    (parent : fs.entry destination.dropLast = some .directory)
    (apart : ¬ source <+: destination) : FileSystem Name where
  entries := fs.entries.map fun pair => (relocate source destination pair.1, pair.2)
  distinct := distinct_map_relocate fs.distinct fun rest => entry_append_eq_none vacant rest
  parents := by
    intro above name present
    have vacantBelow := fun rest => entry_append_eq_none vacant rest
    by_cases inside : destination <+: above ++ [name]
    · rcases prefix_concat_iff.mp inside with whole | below
      · have outside : ¬ destination <+: above := by
          intro reaches
          have longer := reaches.length_le
          rw [whole, length_append, length_singleton] at longer
          omega
        have apartAbove : ¬ source <+: above := by
          intro reaches
          exact apart (reaches.trans (whole ▸ prefix_append above [name]))
        rw [lookup_map_relocate_of_not_below _ outside, if_neg apartAbove]
        rw [whole, dropLast_concat] at parent
        exact parent
      · obtain ⟨remainder, rfl⟩ := below
        rw [append_assoc, lookup_map_relocate_append vacantBelow,
          ← append_assoc] at present
        rw [lookup_map_relocate_append vacantBelow]
        exact fs.parents _ _ present
    · have outside : ¬ destination <+: above :=
        fun reaches => inside (reaches.trans (prefix_append above [name]))
      rw [lookup_map_relocate_of_not_below _ inside] at present
      split at present
      · cases present
      · next elsewhere =>
        have apartAbove : ¬ source <+: above :=
          fun reaches => elsewhere (reaches.trans (prefix_append above [name]))
        rw [lookup_map_relocate_of_not_below _ outside, if_neg apartAbove]
        exact fs.parents _ _ present

theorem entry_move_of_not_below (outside : ¬ destination <+: path) :
    (fs.move source destination vacant parent apart).entry path =
      if source <+: path then none else fs.entry path :=
  lookup_map_relocate_of_not_below fs.entries outside

theorem subtree_move_destination :
    (fs.move source destination vacant parent apart).subtree destination =
      fs.subtree source := by
  apply ext
  simp only [subtree, move, filterMap_map]
  apply filterMap_congr
  rintro ⟨key, found⟩ member
  simp only [Function.comp_apply]
  by_cases below : source <+: key
  · obtain ⟨remainder, rfl⟩ := below
    rw [relocate_append, isPrefixOf?_eq_some_iff_append_eq.mpr rfl,
      isPrefixOf?_eq_some_iff_append_eq.mpr rfl]
  · have outside : ¬ destination <+: key := by
      rintro ⟨remainder, rfl⟩
      have present := (lookup_isSome_iff_mem_keys fs.entries _).mpr
        (mem_map_of_mem member)
      rw [← entry, entry_append_eq_none vacant remainder] at present
      cases present
    rw [relocate_of_not_below below, isPrefixOf?_eq_none_of_outside outside,
      isPrefixOf?_eq_none_of_outside below]

theorem subtree_move_of_apart
    (awayFromDestination : ¬ base <+: destination ∧ ¬ destination <+: base)
    (awayFromSource : ¬ base <+: source ∧ ¬ source <+: base) :
    (fs.move source destination vacant parent apart).subtree base = fs.subtree base := by
  apply ext
  simp only [subtree, move, filterMap_map]
  apply filterMap_congr
  rintro ⟨key, found⟩ _
  simp only [Function.comp_apply]
  by_cases below : source <+: key
  · obtain ⟨remainder, rfl⟩ := below
    have outsideDestination :=
      not_prefix_of_apart awayFromDestination (prefix_append destination remainder)
    have outsideSource := not_prefix_of_apart awayFromSource (prefix_append source remainder)
    rw [relocate_append, isPrefixOf?_eq_none_of_outside outsideDestination,
      isPrefixOf?_eq_none_of_outside outsideSource]
  · rw [relocate_of_not_below below]

end Move
end FileSystem
end Offprint.Effect
