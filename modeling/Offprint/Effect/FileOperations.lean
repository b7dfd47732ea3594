import Offprint.Effect.FileSystem
import Offprint.Effect.Wp

/-!
# File operations

The operations a program performs on a file system, each with its result on the
current state and with what an interrupted one leaves behind.  Two of them can be
cut in the middle: writing bytes, of which some may already have been written, and
removing a directory with everything in it, of which any part may already be gone.
-/

namespace Offprint.Effect

open List

/-- An operating-system error, by its kind and its message. -/
inductive IoError where
  | notFound
  | alreadyExists
  | permissionDenied
  | notADirectory
  | isADirectory
  | directoryNotEmpty
  | invalidInput
  | other (kind message : String)
  deriving Repr, DecidableEq

namespace IoError

def kind : IoError → String
  | notFound => "NotFound"
  | alreadyExists => "AlreadyExists"
  | permissionDenied => "PermissionDenied"
  | notADirectory => "NotADirectory"
  | isADirectory => "IsADirectory"
  | directoryNotEmpty => "DirectoryNotEmpty"
  | invalidInput => "InvalidInput"
  | other kind _ => kind

def message : IoError → String
  | notFound => "No such file or directory (os error 2)"
  | alreadyExists => "File exists (os error 17)"
  | permissionDenied => "Operation not permitted (os error 1)"
  | notADirectory => "Not a directory (os error 20)"
  | isADirectory => "Is a directory (os error 21)"
  | directoryNotEmpty => "Directory not empty (os error 39)"
  | invalidInput => "Invalid argument (os error 22)"
  | other _ message => message

end IoError

inductive FileKind where
  | file
  | directory
  | symlink
  | special
  deriving Repr, DecidableEq

structure Metadata where
  kind : FileKind
  length : Nat
  deriving Repr, DecidableEq

def Entry.metadata : Entry → Metadata
  | .file content => ⟨.file, content.length⟩
  | .directory => ⟨.directory, 0⟩
  | .symlink => ⟨.symlink, 0⟩
  | .special => ⟨.special, 0⟩

variable {Name : Type} [DecidableEq Name]

namespace FileSystem

variable (fs : FileSystem Name)

/-- The error of addressing a path that leads nowhere. -/
def missing (path : List Name) : IoError :=
  if path.inits.any fun above =>
      fs.entry above ≠ none ∧ fs.entry above ≠ some .directory then
    .notADirectory
  else
    .notFound

def add (path : List Name) (added : Entry) : Except IoError (FileSystem Name) :=
  if absent : fs.entry path = none then
    if parent : fs.entry path.dropLast = some .directory then
      .ok (fs.insert path added absent parent)
    else
      .error (fs.missing path)
  else
    .error .alreadyExists

theorem leaf_of_not_directory {fs : FileSystem Name} {path : List Name}
    (leaf : fs.entry path ≠ some .directory) (name : Name) : fs.entry (path ++ [name]) = none := by
  by_contra present
  rw [← ne_eq, Option.ne_none_iff_isSome] at present
  exact leaf (entry_parent present)

theorem children_eq_nil_iff {fs : FileSystem Name} {path : List Name} :
    fs.children path = [] ↔ ∀ name, fs.entry (path ++ [name]) = none := by
  simp only [eq_nil_iff_forall_not_mem, mem_children, Option.not_isSome_iff_eq_none]

theorem leaf_of_children_eq_nil {fs : FileSystem Name} {path : List Name}
    (empty : fs.children path = []) (name : Name) : fs.entry (path ++ [name]) = none :=
  children_eq_nil_iff.mp empty name

def removeFile (path : List Name) : Except IoError (FileSystem Name) :=
  if fs.entry path = none then
    .error (fs.missing path)
  else if directory : fs.entry path = some .directory then
    .error .isADirectory
  else
    .ok (fs.erase path (leaf_of_not_directory directory))

def removeDirectory (path : List Name) : Except IoError (FileSystem Name) :=
  if fs.entry path = none then
    .error (fs.missing path)
  else if fs.entry path = some .directory then
    if empty : fs.children path = [] then
      .ok (fs.erase path (leaf_of_children_eq_nil empty))
    else
      .error .directoryNotEmpty
  else
    .error .notADirectory

def append (path : List Name) (bytes : List UInt8) : Except IoError (FileSystem Name) :=
  match found : fs.entry path with
  | some (.file content) => .ok (fs.write path (content ++ bytes) ⟨content, found⟩)
  | some _ => .error .permissionDenied
  | none => .error (fs.missing path)

/-- Move `source` to a destination where nothing stands. -/
def place (source destination : List Name) : Except IoError (FileSystem Name) :=
  if vacant : fs.entry destination = none then
    if parent : fs.entry destination.dropLast = some .directory then
      if apart : source <+: destination then
        .error .invalidInput
      else
        .ok (fs.move source destination vacant parent apart)
    else
      .error (fs.missing destination)
  else
    .error .alreadyExists

/-- A file replaces what is not a directory, a directory replaces an empty one. -/
def rename (source destination : List Name) : Except IoError (FileSystem Name) :=
  match fs.entry source with
  | none => .error (fs.missing source)
  | some moved =>
    if source = destination then
      .ok fs
    else if fs.entry destination = none then
      fs.place source destination
    else if occupied : fs.entry destination = some .directory then
      if moved ≠ .directory then
        .error .isADirectory
      else if empty : fs.children destination = [] then
        (fs.erase destination (leaf_of_children_eq_nil empty)).place source destination
      else
        .error .directoryNotEmpty
    else if moved = .directory then
      .error .notADirectory
    else
      (fs.erase destination (leaf_of_not_directory occupied)).place source destination

/-- The linked file is the same file, which no later operation writes to. -/
def hardLink (source destination : List Name) : Except IoError (FileSystem Name) :=
  match fs.entry source with
  | none => .error (fs.missing source)
  | some .directory => .error .permissionDenied
  | some linked => fs.add destination linked

/-- The entries a recursive removal has reached after some of its steps. -/
def reached (progress : Nat) (key : List Name) : Bool :=
  progress.testBit (fs.entries.findIdx fun pair => pair.1 = key)

def removeAll (path : List Name) : Except IoError (FileSystem Name) :=
  if fs.entry path = none then
    .error (fs.missing path)
  else if fs.entry path = some .directory then
    .ok (fs.prune path fun _ => true)
  else
    .error .notADirectory

end FileSystem

inductive FileOp (Name : Type) where
  | metadata (path : List Name)
  | readDirectory (path : List Name)
  | openFile (path : List Name)
  | readFile (path : List Name)
  | syncFile (path : List Name)
  | syncDirectory (path : List Name)
  | createDirectory (path : List Name)
  | createNew (path : List Name)
  | append (path : List Name) (bytes : List UInt8)
  | rename (source destination : List Name)
  | hardLink (source destination : List Name)
  | removeFile (path : List Name)
  | removeDirectory (path : List Name)
  | removeAll (path : List Name)
  deriving Repr, DecidableEq

namespace FileOp

abbrev Response : FileOp Name → Type
  | metadata _ => Metadata
  | readDirectory _ => List Name
  | readFile _ => List UInt8
  | _ => Unit

def run : (op : FileOp Name) → FileSystem Name →
    Except IoError (op.Response × FileSystem Name)
  | metadata path, fs =>
    match fs.entry path with
    | some found => .ok (found.metadata, fs)
    | none => .error (fs.missing path)
  | readDirectory path, fs =>
    match fs.entry path with
    | some .directory => .ok (fs.children path, fs)
    | some _ => .error .notADirectory
    | none => .error (fs.missing path)
  | readFile path, fs =>
    match fs.entry path with
    | some (.file content) => .ok (content, fs)
    | some .directory => .error .isADirectory
    | some _ => .error .permissionDenied
    | none => .error (fs.missing path)
  | openFile path, fs | syncFile path, fs | syncDirectory path, fs =>
    match fs.entry path with
    | some _ => .ok ((), fs)
    | none => .error (fs.missing path)
  | createDirectory path, fs => (fs.add path .directory).map ((), ·)
  | createNew path, fs => (fs.add path (.file [])).map ((), ·)
  | append path bytes, fs => (fs.append path bytes).map ((), ·)
  | rename source destination, fs => (fs.rename source destination).map ((), ·)
  | hardLink source destination, fs => (fs.hardLink source destination).map ((), ·)
  | removeFile path, fs => (fs.removeFile path).map ((), ·)
  | removeDirectory path, fs => (fs.removeDirectory path).map ((), ·)
  | removeAll path, fs => (fs.removeAll path).map ((), ·)

/-- What is left of an operation that did not complete. -/
def interrupted : FileOp Name → Nat → FileSystem Name → FileSystem Name
  | append path bytes, progress, fs =>
    match fs.append path (bytes.take progress) with
    | .ok written => written
    | .error _ => fs
  | removeAll path, progress, fs =>
    if fs.entry path = some .directory then fs.prune path (fs.reached progress) else fs
  | _, _, fs => fs

end FileOp

open FileOp

namespace FileSystem

/-- Nothing has changed but at or below the given places. -/
structure SameOutside (places : List (List Name)) (before after : FileSystem Name) : Prop where
  entry : ∀ path, (∀ place ∈ places, ¬ place <+: path) → after.entry path = before.entry path
  subtree : ∀ base, (∀ place ∈ places, ¬ place <+: base ∧ ¬ base <+: place) →
    after.subtree base = before.subtree base

theorem SameOutside.refl (places : List (List Name)) (fs : FileSystem Name) :
    SameOutside places fs fs :=
  ⟨fun _ _ => rfl, fun _ _ => rfl⟩

section Places

variable {before after : FileSystem Name} {place other path : List Name}

theorem SameOutside.entry_one (same : SameOutside [place] before after)
    (away : ¬ place <+: path) : after.entry path = before.entry path :=
  same.entry path (by simpa using away)

theorem SameOutside.subtree_one (same : SameOutside [place] before after)
    (away : ¬ place <+: path ∧ ¬ path <+: place) : after.subtree path = before.subtree path :=
  same.subtree path (by simpa using away)

variable (same : SameOutside [place, other] before after)
include same

theorem SameOutside.entry_two
    (first : ¬ place <+: path) (second : ¬ other <+: path) : after.entry path = before.entry path :=
  same.entry path (by simpa using ⟨first, second⟩)

theorem SameOutside.subtree_two
    (first : ¬ place <+: path ∧ ¬ path <+: place) (second : ¬ other <+: path ∧ ¬ path <+: other) :
    after.subtree path = before.subtree path :=
  same.subtree path (by simpa using ⟨first, second⟩)

end Places

end FileSystem

namespace FileOp

structure Added (path : List Name) (added : Entry) (before after : FileSystem Name) : Prop where
  same : FileSystem.SameOutside [path] before after
  placed : after.subtree path = FileSystem.leaf added

structure Renamed (source destination : List Name) (before after : FileSystem Name) : Prop where
  same : FileSystem.SameOutside [source, destination] before after
  moved : after.subtree destination = before.subtree source
  left : ∀ rest, after.entry (source ++ rest) = none

structure Linked (source destination : List Name) (before after : FileSystem Name) : Prop where
  same : FileSystem.SameOutside [destination] before after
  linked : after.subtree destination = before.subtree source

/-- What is left when part of what stood at a path has been removed. -/
structure Pruned (path : List Name) (before after : FileSystem Name) : Prop where
  same : FileSystem.SameOutside [path] before after
  kept : ∀ rest found, after.entry (path ++ rest) = some found →
    before.entry (path ++ rest) = some found

/-- What is left when everything that stood at a path has been removed. -/
structure Removed (path : List Name) (before after : FileSystem Name) : Prop where
  same : FileSystem.SameOutside [path] before after
  gone : ∀ rest, after.entry (path ++ rest) = none

end FileOp

namespace FileSystem

variable {fs : FileSystem Name} {path : List Name}

theorem entry_prefix_directory {above : List Name} (directory : fs.entry path = some .directory)
    (reaches : above <+: path) : fs.entry above = some .directory := by
  obtain ⟨rest, rfl⟩ := reaches
  cases rest with
  | nil => simpa using directory
  | cons name rest =>
    refine @entry_parent _ _ above fs name ?_
    by_contra absent
    rw [Option.not_isSome_iff_eq_none] at absent
    rw [append_cons, entry_append_eq_none absent] at directory
    cases directory

theorem missing_eq_notFound {name : Name} (directory : fs.entry path = some .directory)
    (absent : fs.entry (path ++ [name]) = none) (rest : List Name) :
    fs.missing (path ++ name :: rest) = .notFound := by
  rw [missing, if_neg]
  simp only [any_eq_true, mem_inits, decide_eq_true_eq, not_exists, not_and, not_not]
  intro above reaches present
  rcases prefix_or_prefix_of_prefix reaches (prefix_append path (name :: rest))
    with inside | beyond
  · exact entry_prefix_directory directory inside
  · obtain ⟨remainder, rfl⟩ := beyond
    rw [prefix_append_right_inj] at reaches
    cases remainder with
    | nil => simpa using directory
    | cons first others =>
      obtain ⟨rfl, _⟩ := cons_prefix_cons.mp reaches
      exact absurd (append_cons path first others ▸ entry_append_eq_none absent others)
        present

theorem add_ok {added : Entry} (absent : fs.entry path = none)
    (parent : fs.entry path.dropLast = some .directory) :
    ∃ after, fs.add path added = .ok after ∧ FileOp.Added path added fs after := by
  refine ⟨fs.insert path added absent parent, ?_, ⟨?_, ?_⟩, ?_⟩
  · rw [add, dif_pos absent, dif_pos parent]
  · intro other outside
    rw [entry_insert, if_neg]
    rintro rfl
    exact outside _ mem_cons_self (prefix_refl _)
  · intro base outside
    exact subtree_insert_of_not_below (outside path mem_cons_self).2
  · apply subtree_eq_leaf
    · rw [entry_insert, if_pos rfl]
    · intro name
      rw [entry_insert, if_neg (by simp), entry_append_eq_none absent]

theorem append_ok {content : List UInt8} (bytes : List UInt8)
    (regular : fs.entry path = some (.file content)) :
    ∃ after, fs.append path bytes = .ok after ∧
      FileOp.Added path (.file (content ++ bytes)) fs after := by
  refine ⟨fs.write path (content ++ bytes) ⟨content, regular⟩, ?_, ⟨?_, ?_⟩, ?_⟩
  · rw [append]
    split
    · next found same =>
      obtain rfl : found = content := by
        rw [regular] at same
        cases same
        rfl
      rfl
    · next found excluded same =>
      rw [regular, Option.some.injEq] at same
      exact absurd same.symm (excluded content)
    · next same =>
      rw [regular] at same
      cases same
  · intro other outside
    rw [entry_write, if_neg]
    rintro rfl
    exact outside _ mem_cons_self (prefix_refl _)
  · intro base outside
    exact subtree_write_of_not_below (outside path mem_cons_self).2
  · apply subtree_eq_leaf
    · rw [entry_write, if_pos rfl]
    · intro name
      rw [entry_write, if_neg (by simp), leaf_of_not_directory (by rw [regular]; nofun)]

theorem sameOutside_prune (fs : FileSystem Name) (path : List Name) (chosen : List Name → Bool) :
    SameOutside [path] fs (fs.prune path chosen) := by
  constructor
  · intro other outside
    exact entry_prune_of_not_below (outside path mem_cons_self)
  · intro base outside
    have away := outside path mem_cons_self
    exact subtree_prune_of_apart away.1 away.2

end FileSystem

namespace FileOp

open FileSystem

variable {fs : FileSystem Name} {path destination : List Name} {content : List UInt8}
  {source : List Name} {found : Entry}

section

variable (absent : fs.entry path = none) (parent : fs.entry path.dropLast = some .directory)
include absent parent

theorem run_createDirectory :
    ∃ after, (createDirectory path).run fs = .ok ((), after) ∧ Added path .directory fs after := by
  obtain ⟨after, result, new⟩ := add_ok absent parent
  exact ⟨after, by simp only [run, result, Except.map], new⟩

theorem run_createNew :
    ∃ after, (createNew path).run fs = .ok ((), after) ∧ Added path (.file []) fs after := by
  obtain ⟨after, result, new⟩ := add_ok absent parent
  exact ⟨after, by simp only [run, result, Except.map], new⟩

end

theorem run_append (bytes : List UInt8) (regular : fs.entry path = some (.file content)) :
    ∃ after, (append path bytes).run fs = .ok ((), after) ∧
      Added path (.file (content ++ bytes)) fs after := by
  obtain ⟨after, result, new⟩ := append_ok bytes regular
  exact ⟨after, by simp only [run, result, Except.map], new⟩

theorem run_rename (present : (fs.entry source).isSome) (vacant : fs.entry destination = none)
    (parent : fs.entry destination.dropLast = some .directory) (apart : ¬ source <+: destination) :
    ∃ after, (rename source destination).run fs = .ok ((), after) ∧
      Renamed source destination fs after := by
  obtain ⟨moved, located⟩ := Option.isSome_iff_exists.mp present
  have differs : source ≠ destination := by
    rintro rfl
    exact apart (prefix_refl _)
  have outside : ¬ destination <+: source := by
    rintro ⟨rest, rfl⟩
    rw [entry_append_eq_none vacant] at present
    cases present
  refine ⟨fs.move source destination vacant parent apart, ?_, ⟨?_, ?_⟩, ?_, ?_⟩
  · rw [run, FileSystem.rename, located]
    simp only [if_neg differs, if_pos vacant, place, dif_pos vacant, dif_pos parent, dif_neg apart,
      Except.map]
  · intro path away
    rw [entry_move_of_not_below (away destination (by simp)), if_neg (away source (by simp))]
  · intro base away
    have awayDestination := away destination (by simp)
    have awaySource := away source (by simp)
    exact subtree_move_of_apart ⟨awayDestination.2, awayDestination.1⟩
      ⟨awaySource.2, awaySource.1⟩
  · exact subtree_move_destination
  · intro rest
    have below := prefix_append source rest
    rw [entry_move_of_not_below (not_prefix_of_apart ⟨outside, apart⟩ below), if_pos below]

theorem run_hardLink
    (present : fs.entry source = some (.file content)) (vacant : fs.entry destination = none)
    (parent : fs.entry destination.dropLast = some .directory) :
    ∃ after, (hardLink source destination).run fs = .ok ((), after) ∧
      Linked source destination fs after := by
  obtain ⟨after, linked, same, placed⟩ := @add_ok _ _ fs destination (.file content) vacant parent
  refine ⟨after, ?_, same, ?_⟩
  · rw [run, FileSystem.hardLink, present]
    simp only [linked, Except.map]
  · rw [placed, subtree_eq_leaf present]
    exact leaf_of_not_directory (by rw [present]; nofun)

theorem removed_erase (childless : ∀ name, fs.entry (path ++ [name]) = none) :
    Removed path fs (fs.erase path childless) := by
  refine ⟨⟨?_, ?_⟩, ?_⟩
  · intro other outside
    rw [entry_erase, if_neg]
    rintro rfl
    exact outside _ mem_cons_self (prefix_refl _)
  · intro base outside
    exact subtree_erase_of_not_below (outside path mem_cons_self).2
  · intro rest
    apply entry_append_eq_none
    rw [entry_erase, if_pos rfl]

theorem run_removeFile (present : fs.entry path = some found) (leaf : found ≠ .directory) :
    ∃ after, (removeFile path).run fs = .ok ((), after) ∧ Removed path fs after := by
  have notDirectory : fs.entry path ≠ some .directory := by
    rw [present]
    simpa using leaf
  refine ⟨_, ?_, removed_erase (leaf_of_not_directory notDirectory)⟩
  rw [run, FileSystem.removeFile, if_neg (by rw [present]; nofun), dif_neg notDirectory]
  rfl

theorem run_removeDirectory (present : fs.entry path = some .directory)
    (empty : ∀ name, fs.entry (path ++ [name]) = none) :
    ∃ after, (removeDirectory path).run fs = .ok ((), after) ∧ Removed path fs after := by
  have childless := children_eq_nil_iff.mpr empty
  refine ⟨_, ?_, removed_erase (leaf_of_children_eq_nil childless)⟩
  rw [run, FileSystem.removeDirectory, if_neg (by rw [present]; nofun), if_pos present,
    dif_pos childless]
  rfl

theorem run_removeAll (present : fs.entry path = some .directory) :
    ∃ after, (removeAll path).run fs = .ok ((), after) ∧ Removed path fs after := by
  refine ⟨fs.prune path fun _ => true, ?_, sameOutside_prune fs path _, ?_⟩
  · rw [run, FileSystem.removeAll, if_neg (by rw [present]; nofun), if_pos present]
    rfl
  · intro rest
    exact entry_prune_all (prefix_append path rest)

theorem run_metadata (located : fs.entry path = some found) :
    (metadata path).run fs = .ok (found.metadata, fs) := by
  simp only [run, located]

theorem run_readDirectory (directory : fs.entry path = some .directory) :
    (readDirectory path).run fs = .ok (fs.children path, fs) := by
  simp only [run, directory]

theorem run_sync (present : (fs.entry path).isSome) :
    (syncFile path).run fs = .ok ((), fs) ∧ (syncDirectory path).run fs = .ok ((), fs) := by
  obtain ⟨found, located⟩ := Option.isSome_iff_exists.mp present
  simp only [run, located, and_self]

end FileOp

abbrev fileInterface (Name : Type) [DecidableEq Name] : Interface (FileSystem Name) IoError where
  Op := FileOp Name
  Response := FileOp.Response
  run := run
  interrupted := interrupted

def FileOp.program (op : FileOp Name) : Program (fileInterface Name) (Except IoError op.Response) :=
  @Program.operation _ _ (fileInterface Name) op

section Reading

/-- The operations that look at the file system. -/
def FileOp.reads : FileOp Name → Bool
  | .metadata _ | .readDirectory _ | .openFile _ | .readFile _ => true
  | _ => false

variable {op : FileOp Name} {fs : FileSystem Name} {base : List Name}

theorem observes_of_reads (reads : op.reads = true) : (fileInterface Name).Observes op := by
  intro fs
  cases op with
  | metadata path | readDirectory path | openFile path | readFile path =>
    refine ⟨fun _ => rfl, fun response after result => ?_⟩
    simp only [fileInterface, run] at result
    split at result
    all_goals cases result
    all_goals rfl
  | _ => cases reads

namespace Program

variable {α β : Type}

/-- A program that only looks at the file system. -/
abbrev Reading : Program (fileInterface Name) α → Prop :=
  Each fun op => reads op = true

theorem Reading.observing {program : Program (fileInterface Name) α} (reading : program.Reading) :
    program.Observing :=
  reading.mono fun _ => observes_of_reads

/-- The program that reads below a path what another one reads from the root. -/
def under (base : List Name) : Program (fileInterface Name) α → Program (fileInterface Name) α
  | .pure value => .pure value
  | .perform (.metadata path) next =>
    .perform (metadata (base ++ path)) fun response => (next response).under base
  | .perform (.readDirectory path) next =>
    .perform (readDirectory (base ++ path)) fun response => (next response).under base
  | .perform (.openFile path) next =>
    .perform (openFile (base ++ path)) fun response => (next response).under base
  | .perform (.readFile path) next =>
    .perform (readFile (base ++ path)) fun response => (next response).under base
  | .perform op next => .perform op fun response => (next response).under base

theorem under_bind (base : List Name) (program : Program (fileInterface Name) α)
    (continuation : α → Program (fileInterface Name) β) :
    (program >>= continuation).under base =
      program.under base >>= fun value => (continuation value).under base := by
  induction program with
  | pure value => rfl
  | perform op next ih =>
    cases op
    all_goals
      exact congrArg (Program.perform _) (funext ih)

end Program

section

variable (parent : fs.entry base.dropLast = some .directory) (path : List Name)
include parent

theorem FileSystem.missing_append : fs.missing (base ++ path) = (fs.subtree base).missing path := by
  have agrees :
      ((base ++ path).inits.any fun above =>
          fs.entry above ≠ none ∧ fs.entry above ≠ some .directory) =
        path.inits.any fun above =>
          (fs.subtree base).entry above ≠ none ∧ (fs.subtree base).entry above ≠
            some .directory := by
    rw [Bool.eq_iff_iff]
    simp only [any_eq_true, mem_inits, decide_eq_true_eq, entry_subtree]
    constructor
    · rintro ⟨above, reaches, blocks⟩
      rcases prefix_or_prefix_of_prefix reaches (prefix_append base path)
        with inside | ⟨remainder, rfl⟩
      · by_cases whole : above = base
        · subst whole
          exact ⟨[], nil_prefix, by simpa using blocks⟩
        · obtain ⟨rest, rfl⟩ := inside
          have longer : rest ≠ [] := by
            rintro rfl
            exact whole (append_nil above).symm
          rw [dropLast_append_of_ne_nil longer] at parent
          exact absurd (entry_prefix_directory parent (prefix_append above _)) blocks.2
      · rw [prefix_append_right_inj] at reaches
        exact ⟨remainder, reaches, blocks⟩
    · rintro ⟨above, reaches, blocks⟩
      exact ⟨base ++ above, (prefix_append_right_inj base).mpr reaches, blocks⟩
  rw [missing, missing, agrees]

theorem FileOp.run_subtree :
    (run (.metadata path) (fs.subtree base)).map Prod.fst =
        (run (.metadata (base ++ path)) fs).map Prod.fst ∧
      (run (.openFile path) (fs.subtree base)).map Prod.fst =
        (run (.openFile (base ++ path)) fs).map Prod.fst ∧
      (run (.readDirectory path) (fs.subtree base)).map Prod.fst =
        (run (.readDirectory (base ++ path)) fs).map Prod.fst ∧
      (run (.readFile path) (fs.subtree base)).map Prod.fst =
        (run (.readFile (base ++ path)) fs).map Prod.fst := by
  simp only [run, FileSystem.entry_subtree, FileSystem.children_subtree,
    FileSystem.missing_append parent]
  cases fs.entry (base ++ path) with
  | none => exact ⟨rfl, rfl, rfl, rfl⟩
  | some found => cases found <;> exact ⟨rfl, rfl, rfl, rfl⟩

end

theorem Program.exec_of_reads
    {α : Type} {next : Except IoError op.Response →
      Program (fileInterface Name) α}
    (reads : op.reads = true) (fs : FileSystem Name) :
    (Program.perform op next : Program (fileInterface Name) α).exec fs =
      (next ((op.run fs).map Prod.fst)).exec fs := by
  cases result : op.run fs with
  | ok pair =>
    have unchanged := (observes_of_reads reads fs).2 pair.1 pair.2 result
    rw [Program.exec_perform_ok result, unchanged]
    rfl
  | error error =>
    rw [Program.exec_perform_error result]
    rfl

theorem Program.exec_under {α : Type} {program : Program (fileInterface Name) α}
    (reading : program.Reading) (parent : fs.entry base.dropLast = some .directory) :
    (program.under base).exec fs = ((program.exec (fs.subtree base)).1, fs) := by
  induction program with
  | pure value => rfl
  | perform op next ih =>
    obtain ⟨reads, continues⟩ := reading
    cases op with
    | metadata path | openFile path | readDirectory path | readFile path =>
      have same := run_subtree parent path
      rw [under, exec_of_reads rfl, exec_of_reads rfl]
      first
        | rw [same.1]
        | rw [same.2.1]
        | rw [same.2.2.1]
        | rw [same.2.2.2]
      exact ih _ (continues _)
    | _ => cases reads

end Reading
end Offprint.Effect
