import Offprint.Artifact.Staging

/-!
# What a validated path holds

A path that passes validation holds what its journal entry records.  For a directory
this rests on the walk that collects its files, which finds every file below the
directory and finds it once.
-/

namespace Offprint.Artifact

open Data Effect Model List Action

section Walk

variable {fs : Files} {root : Path} {found places : List Path} {place : Path}

/-- The files found below a directory, and the places where more of them may be. -/
structure Walk (fs : Files) (root : Path) (found places : List Path) : Prop where
  file : ∀ path ∈ found, root <+: path ∧ ∃ content, fs.entry path = some (.file content)
  inside : ∀ place ∈ places, root <+: place
  covered : ∀ path content, root <+: path → fs.entry path = some (.file content) →
    path ∈ found ∨ ∃ place ∈ places, place <+: path
  apart : places.Pairwise Apart
  unread : ∀ place ∈ places, ∀ path ∈ found, ¬ place <+: path
  distinct : found.Nodup

theorem walk_start (fs : Files) (root : Path) : Walk fs root [] [root] where
  file := nofun
  inside _ member := mem_singleton.mp member ▸ prefix_refl root
  covered _ _ below _ := .inr ⟨root, mem_singleton_self root, below⟩
  apart := pairwise_singleton _ _
  unread _ _ := nofun
  distinct := nodup_nil

theorem Walk.perm {others : List Path} (walk : Walk fs root found places)
    (same : places.Perm others) : Walk fs root found others where
  file := walk.file
  inside place member := walk.inside place (same.mem_iff.mpr member)
  covered path content below located := by
    rcases walk.covered path content below located with known | ⟨place, member, above⟩
    · exact .inl known
    · exact .inr ⟨place, same.mem_iff.mp member, above⟩
  apart := (same.pairwise_iff fun apart => apart.symm).mp walk.apart
  unread place member := walk.unread place (same.mem_iff.mpr member)
  distinct := walk.distinct

theorem Walk.find {content : List UInt8} (walk : Walk fs root found (place :: places))
    (located : fs.entry place = some (.file content)) : Walk fs root (found ++ [place]) places := by
  have fresh : place ∉ found := fun member =>
    walk.unread place mem_cons_self place member (prefix_refl place)
  have others := pairwise_cons.mp walk.apart
  refine ⟨?_, fun other member => walk.inside other (mem_cons_of_mem _ member), ?_, others.2,
    ?_, ?_⟩
  · intro path member
    rcases mem_append.mp member with known | only
    · exact walk.file path known
    · rw [mem_singleton.mp only]
      exact ⟨walk.inside place mem_cons_self, content, located⟩
  · intro path bytes below present
    rcases walk.covered path bytes below present with known | ⟨other, member, above⟩
    · exact .inl (mem_append_left _ known)
    rcases mem_cons.mp member with rfl | later
    · obtain ⟨rest, rfl⟩ := above
      cases rest with
      | nil => simp
      | cons name rest =>
        rw [FileSystem.entry_below_eq_none located nofun] at present
        cases present
    · exact .inr ⟨other, later, above⟩
  · intro other member path either
    rcases mem_append.mp either with known | only
    · exact walk.unread other (mem_cons_of_mem _ member) path known
    · rw [mem_singleton.mp only]
      exact (others.1 other member).2
  · exact nodup_append'.mpr ⟨walk.distinct, nodup_singleton _, by simpa using fresh⟩

theorem Walk.descend (walk : Walk fs root found (place :: places))
    (directory : fs.entry place = some .directory) :
    Walk fs root found ((fs.children place).map (fun name => place ++ [name]) ++ places) := by
  have others := pairwise_cons.mp walk.apart
  refine ⟨walk.file, ?_, ?_, ?_, ?_, walk.distinct⟩
  · intro other member
    rcases mem_append.mp member with child | later
    · obtain ⟨name, _, rfl⟩ := mem_map.mp child
      exact (walk.inside place mem_cons_self).trans (prefix_append _ _)
    · exact walk.inside other (mem_cons_of_mem _ later)
  · intro path content below present
    rcases walk.covered path content below present with known | ⟨other, member, above⟩
    · exact .inl known
    rcases mem_cons.mp member with rfl | later
    · obtain ⟨rest, rfl⟩ := above
      cases rest with
      | nil =>
        rw [append_nil, directory] at present
        cases present
      | cons name rest =>
        rw [append_cons other name rest] at present ⊢
        refine .inr ⟨other ++ [name], mem_append_left _ (mem_map.mpr
          ⟨name, FileSystem.mem_children.mpr ?_, rfl⟩), prefix_append _ _⟩
        by_contra absent
        rw [FileSystem.entry_append_eq_none (Option.not_isSome_iff_eq_none.mp absent)] at present
        cases present
    · exact .inr ⟨other, mem_append_right _ later, above⟩
  · refine pairwise_append.mpr ⟨?_, others.2, ?_⟩
    · refine pairwise_map.mpr ((fs.nodup_children place).imp ?_)
      intro first second differs
      exact apart_of_diverging place differs [] []
    · intro child member other later
      obtain ⟨name, _, rfl⟩ := mem_map.mp member
      exact ((others.1 other later).symm.extend [name]).symm
  · intro other member path known reaches
    rcases mem_append.mp member with child | later
    · obtain ⟨name, _, rfl⟩ := mem_map.mp child
      exact walk.unread place mem_cons_self path known ((prefix_append _ _).trans reaches)
    · exact walk.unread other (mem_cons_of_mem _ later) path known reaches

end Walk

variable {files : List (String × Path)}

section Collect

variable {fs after : Files} {root directory : Path} {maximumFiles : Nat}
  {collected next : Collected} {name : OsString} {names : List OsString}

/-- The text of a relative path with one more name. -/
def extendText (text : String) (name : OsString) : String :=
  if text = "" then name.display else text ++ "/" ++ name.display

/-- The path of a file below a directory, as text. -/
def relativeText (rest : Path) : String :=
  rest.foldl extendText ""

/-- Everything a walk has come across goes by its relative path. -/
structure Collected.Named (root : Path) (collected : Collected) : Prop where
  file : ∀ file ∈ collected.files, ∃ rest, file = (relativeText rest, root ++ rest)
  pending : ∀ pair ∈ collected.pending, ∃ rest, pair = (root ++ rest, relativeText rest)

theorem counted_of_collectEntry {text : String}
    (done : (collectEntry maximumFiles directory text collected name).run.exec fs =
      (.ok next, after)) :
    after = fs ∧
      ((∃ content, fs.entry (directory ++ [name]) = some (.file content)) ∧
        next = { collected with
          files := collected.files ++ [(extendText text name, directory ++ [name])] } ∨
      collected.directories.length < maximumFiles ∧
        next = { collected with
          directories := extendText text name :: collected.directories
          pending := (directory ++ [name], extendText text name) :: collected.pending }) := by
  have same := same_of_reading (relocates_collectEntry [] _ _ _ _ _).reading done
  obtain ⟨portable, naming, rest⟩ := of_reading_bind (each_except _) done
  obtain ⟨metadata, _, looking, counting⟩ := of_exec_bind rest
  obtain ⟨entry, located, rfl⟩ := found_of_metadata looking
  have shown : (if text = "" then portable else text ++ "/" ++ portable) =
    extendText text name := by
    cases name with
    | utf8 own =>
      have accepted : portableName (.utf8 own) = .ok portable := congrArg Prod.fst naming
      simp only [portableName, OsString.toStr] at accepted
      split at accepted
      · cases accepted
      · cases accepted
        rfl
    | raw bytes invalid => cases naming
  rw [shown] at counting
  have counted : collected.count maximumFiles (directory ++ [name]) (extendText text name)
      entry.metadata.kind = .ok next := congrArg Prod.fst counting
  refine ⟨same, ?_⟩
  cases entry with
  | file content =>
    simp only [Entry.metadata, Collected.count] at counted
    split at counted
    · cases counted
    · cases counted
      exact .inl ⟨⟨content, located⟩, rfl⟩
  | directory =>
    simp only [Entry.metadata, Collected.count] at counted
    split at counted
    · cases counted
    · next room =>
      cases counted
      push Not at room
      exact .inr ⟨room.2, rfl⟩
  | symlink | special => cases counted

/-- A walk in the middle of a directory: some of its names are still to be looked at. -/
structure Collecting (fs : Files) (root directory : Path) (maximumFiles : Nat)
    (names : List OsString) (collected : Collected) : Prop where
  walk : Walk fs root (collected.files.map Prod.snd)
    (names.map (fun name => directory ++ [name]) ++ collected.pending.map Prod.fst)
  named : collected.Named root
  bounded : collected.directories.length ≤ maximumFiles

theorem Collecting.advance {rest : Path}
    (collecting : Collecting fs root (root ++ rest) maximumFiles (name :: names) collected)
    (done : (collectEntry maximumFiles (root ++ rest) (relativeText rest) collected name).run.exec
      fs = (.ok next, after)) :
    after = fs ∧ Collecting fs root (root ++ rest) maximumFiles names next ∧
      next.pending.length + collected.directories.length =
        collected.pending.length + next.directories.length := by
  obtain ⟨walk, named, bounded⟩ := collecting
  have label : (extendText (relativeText rest) name, root ++ rest ++ [name]) =
      (relativeText (rest ++ [name]), root ++ (rest ++ [name])) := by
    simp [relativeText, foldl_append]
  obtain ⟨same, ⟨⟨content, located⟩, rfl⟩ | ⟨room, rfl⟩⟩ := counted_of_collectEntry done
  · refine ⟨same, ⟨?_, ⟨?_, named.pending⟩, bounded⟩, rfl⟩
    · rw [map_append]
      exact walk.find located
    · intro file member
      rcases mem_append.mp member with known | only
      · exact named.file file known
      · exact ⟨rest ++ [name], (mem_singleton.mp only).trans label⟩
  · refine ⟨same, ⟨?_, ⟨named.file, ?_⟩, room⟩, ?_⟩
    · exact walk.perm (perm_middle.symm)
    · intro pair member
      rcases mem_cons.mp member with rfl | known
      · exact ⟨rest ++ [name], Prod.ext (Prod.ext_iff.mp label).2 (Prod.ext_iff.mp label).1⟩
      · exact named.pending pair known
    · simp only [length_cons]
      omega

theorem Collecting.foldlM {rest : Path}
    (collecting : Collecting fs root (root ++ rest) maximumFiles names collected)
    (done : (names.foldlM (collectEntry maximumFiles (root ++ rest) (relativeText rest))
      collected).run.exec fs = (.ok next, after)) :
    after = fs ∧ Collecting fs root (root ++ rest) maximumFiles [] next ∧
      next.pending.length + collected.directories.length =
        collected.pending.length + next.directories.length := by
  induction names generalizing collected with
  | nil =>
    cases done
    exact ⟨rfl, collecting, rfl⟩
  | cons name names ih =>
    obtain ⟨middle, _, first, later⟩ := of_exec_bind done
    obtain ⟨rfl, advanced, count⟩ := collecting.advance first
    obtain ⟨same, finished, total⟩ := ih advanced later
    exact ⟨same, finished, by omega⟩

theorem walk_of_collectPending
    {rounds : Nat} (collecting : Collecting fs root root maximumFiles [] collected)
    (enough : collected.pending.length + maximumFiles + 1 = collected.directories.length + rounds)
    (done : (collectPending maximumFiles rounds collected).run.exec fs = (.ok next, after)) :
    Walk fs root (next.files.map Prod.snd) [] ∧ next.Named root := by
  induction rounds generalizing collected with
  | zero =>
    have bounded := collecting.bounded
    omega
  | succ rounds ih =>
    rcases waiting : collected.pending with _ | ⟨⟨directory, text⟩, pending⟩
    · simp only [collectPending, waiting] at done
      cases done
      have walk := collecting.walk
      rw [waiting] at walk
      exact ⟨walk, collecting.named⟩
    · simp only [collectPending, waiting] at done
      obtain ⟨names, enumerating, rest⟩ := of_reading_bind (reading_perform rfl _) done
      obtain ⟨read, _, looking, later⟩ := of_exec_bind rest
      have performed := run_of_perform enumerating
      simp only [FileOp.run] at performed
      split at performed
      · next located =>
        cases performed
        obtain ⟨below, named⟩ := collecting.named.pending (directory, text)
          (waiting ▸ mem_cons_self)
        obtain ⟨rfl, rfl⟩ := Prod.mk.injEq .. ▸ named
        have walk := collecting.walk
        rw [waiting] at walk
        have opened : Collecting fs root (root ++ below) maximumFiles
            (fs.children (root ++ below)) { collected with pending := pending } :=
          ⟨walk.descend located, ⟨collecting.named.file, fun pair member =>
            collecting.named.pending pair (waiting ▸ mem_cons_of_mem _ member)⟩,
            collecting.bounded⟩
        obtain ⟨rfl, finished, count⟩ := opened.foldlM looking
        refine ih ⟨finished.walk, finished.named, finished.bounded⟩ ?_ later
        rw [waiting, length_cons] at enough
        simp only at count
        omega
      · cases performed
      · cases performed

theorem walk_of_collectDirectoryFiles
    (done : (collectDirectoryFiles root maximumFiles).run.exec fs = (.ok files, after)) :
    fs.entry root = some .directory ∧ ∃ unordered, files = orderFiles unordered ∧
      Walk fs root (unordered.map Prod.snd) [] ∧
      ∀ file ∈ unordered, ∃ rest, file = (relativeText rest, root ++ rest) := by
  obtain ⟨metadata, looking, rest⟩ := of_reading_bind (reading_perform rfl _) done
  obtain ⟨entry, located, rfl⟩ := found_of_metadata looking
  obtain ⟨checking, walking⟩ := of_failIf_bind rest
  obtain ⟨collected, last, collecting, ending⟩ := of_exec_bind walking
  obtain ⟨_, _, _, returned⟩ := of_exec_bind ending
  cases returned
  have direct := not_not.mp checking
  have start : Collecting fs root root maximumFiles [] ⟨[(root, "")], [], []⟩ :=
    ⟨walk_start fs root, ⟨nofun, fun pair member =>
      ⟨[], by rw [mem_singleton.mp member, append_nil]; rfl⟩⟩, Nat.zero_le _⟩
  obtain ⟨walk, named⟩ := walk_of_collectPending start (by simp; omega) collecting
  refine ⟨?_, collected.files, rfl, walk, named.file⟩
  cases entry with
  | directory => exact located
  | file content => cases direct
  | symlink | special => cases direct

end Collect

section Hash

variable {fs after : Files} {limit : UInt64} {path : Path} {content : List UInt8}
  {hashed : List UInt8 × UInt64}

theorem content_of_readFile {wrap : IoError → OffprintError}
    (done : (perform (.readFile path) wrap).run.exec fs = (.ok content, after)) :
    fs.entry path = some (.file content) := by
  have performed := run_of_perform done
  simp only [FileOp.run] at performed
  split at performed
  · next located =>
    cases performed
    exact located
  all_goals cases performed

theorem content_of_hashOpenFile {maximumBytes : Nat}
    (done : (hashOpenFile path maximumBytes).run.exec fs = (.ok content, after)) :
    fs.entry path = some (.file content) ∧ content.length ≤ maximumBytes := by
  obtain ⟨read, _, reading, rest⟩ := of_exec_bind done
  obtain ⟨checking, returned⟩ := of_failIf_bind rest
  cases returned
  exact ⟨content_of_readFile reading, Nat.le_of_not_lt checking⟩

theorem toNat_saturatingAdd {total : UInt64} {added : Nat}
    (fits : total.toNat + added ≤ limit.toNat) :
    (saturatingAdd total (saturate added)).toNat = total.toNat + added := by
  have small := limit.toNat_lt
  simp only [saturatingAdd, saturate, UInt64.toNat_ofNat']
  omega

theorem hashed_of_hashDirectoryPath {next : List UInt8 × UInt64} {file : String × Path}
    (within : hashed.2 ≤ limit)
    (done : (hashDirectoryPath limit hashed file).run.exec fs = (.ok next, after)) :
    after = fs ∧ next.2 ≤ limit ∧ ∃ content, fs.entry file.2 = some (.file content) ∧
      next.1 = hashed.1 ++ digestInput file.1 content ∧
      next.2.toNat = hashed.2.toNat + content.length := by
  have same := same_of_reading (relocates_hashDirectoryPath [] _ _ _).reading done
  unfold hashDirectoryPath at done
  obtain ⟨metadata, inspecting, rest⟩ :=
    of_reading_bind (relocates_directRegularFile [] _ _).reading done
  obtain ⟨checking, opening⟩ := of_failIf_bind rest
  obtain ⟨_, opened, hashing⟩ := of_reading_bind (reading_perform rfl _) opening
  obtain ⟨content, _, read, ending⟩ := of_exec_bind hashing
  obtain ⟨_, _, _, returned⟩ := of_exec_bind ending
  cases returned
  obtain ⟨located, short⟩ := content_of_hashOpenFile read
  rw [UInt64.le_iff_toNat_le] at within
  have sum := toNat_saturatingAdd (show hashed.2.toNat + content.length ≤ limit.toNat by omega)
  refine ⟨same, ?_, content, located, rfl, sum⟩
  rw [UInt64.le_iff_toNat_le, sum]
  omega

/-- The content of a file, for paths that lead to one. -/
def contentAt (fs : Files) (path : Path) : List UInt8 :=
  match fs.entry path with
  | some (.file content) => content
  | _ => []

theorem contentAt_eq (located : fs.entry path = some (.file content)) :
    contentAt fs path = content := by
  rw [contentAt, located]

theorem hashed_of_foldlM {final : List UInt8 × UInt64} (within : hashed.2 ≤ limit)
    (done : (files.foldlM (hashDirectoryPath limit) hashed).run.exec fs = (.ok final, after)) :
    final.1 = hashed.1 ++ files.flatMap (fun file => digestInput file.1 (contentAt fs file.2)) ∧
      final.2.toNat = hashed.2.toNat +
        (files.map fun file => (contentAt fs file.2).length).sum := by
  induction files generalizing hashed with
  | nil =>
    cases done
    simp
  | cons file files ih =>
    obtain ⟨next, _, first, later⟩ := of_exec_bind done
    obtain ⟨rfl, bounded, content, located, text, total⟩ :=
      hashed_of_hashDirectoryPath within first
    obtain ⟨texts, totals⟩ := ih bounded later
    rw [flatMap_cons, map_cons, sum_cons, contentAt_eq located, texts, text, totals,
      total]
    exact ⟨append_assoc _ _ _, Nat.add_assoc _ _ _⟩

variable [Sha256] {limits : ArtifactTransactionLimits} {verification : FormatVerification}
  {value : Unit}

/-- The length and the digest of files that go by their relative paths. -/
def measure (files : List (String × List UInt8)) : Nat × ContentDigest :=
  ((files.map fun file => file.2.length).sum,
    Sha256.digest ((orderFiles files).flatMap fun file => digestInput file.1 file.2))

/-- A directory with these files in it, by their paths from there. -/
structure DirectoryOf (fs : Files) (path : Path) (files : List (Path × List UInt8)) : Prop where
  directory : fs.entry path = some .directory
  distinct : files.Nodup
  exact : ∀ rest content, (rest, content) ∈ files ↔
    fs.entry (path ++ rest) = some (.file content)

/-- What stands at a path, a file or a directory, has a length and a digest. -/
def Measures (fs : Files) (path : Path) (bytes : UInt64) (sha256 : ContentDigest) : Prop :=
  (∃ content, fs.entry path = some (.file content) ∧ content.length = bytes.toNat ∧
    Sha256.digest content = sha256) ∨
  ∃ files, DirectoryOf fs path files ∧
    measure (files.map fun file => (relativeText file.1, file.2)) = (bytes.toNat, sha256)

theorem measures_of_validateFile {maximumBytes : UInt64}
    (done : (validateFile path verification maximumBytes).run.exec fs = (.ok value, after)) :
    Measures fs path verification.bytes verification.sha256 := by
  obtain ⟨metadata, inspecting, rest⟩ :=
    of_reading_bind (relocates_directRegularFile [] _ _).reading done
  obtain ⟨checking, hashing⟩ := of_failIf_bind rest
  obtain ⟨content, _, reading, comparing⟩ := of_exec_bind hashing
  obtain ⟨_, opening, read⟩ := of_reading_bind (reading_perform rfl _) reading
  obtain ⟨counted, digested⟩ := of_failIf_bind comparing
  exact .inl ⟨content, (content_of_hashOpenFile read).1, not_not.mp counted,
    not_not.mp (passed_of_failIf digested)⟩

omit [Sha256] in
theorem Walk.directoryOf {unordered : List (String × Path)}
    (directory : fs.entry path = some .directory) (walk : Walk fs path (unordered.map Prod.snd) [])
    (named : ∀ file ∈ unordered, ∃ rest, file = (relativeText rest, path ++ rest)) :
    ∃ files, DirectoryOf fs path files ∧
      files.map (fun file => (relativeText file.1, file.2)) =
        unordered.map fun file => (file.1, contentAt fs file.2) := by
  have below : ∀ file ∈ unordered, relativeText (file.2.drop path.length) = file.1 ∧
      path ++ file.2.drop path.length = file.2 := by
    intro file member
    obtain ⟨rest, rfl⟩ := named file member
    simp
  refine ⟨unordered.map fun file => (file.2.drop path.length, contentAt fs file.2),
    ⟨directory, ?_, ?_⟩, ?_⟩
  · refine List.Nodup.map_on ?_ (List.Nodup.of_map _ walk.distinct)
    intro first member second other same
    have rest : first.2.drop path.length = second.2.drop path.length := congrArg Prod.fst same
    apply Prod.ext
    · rw [← (below first member).1, ← (below second other).1, rest]
    · rw [← (below first member).2, ← (below second other).2, rest]
  · intro rest content
    constructor
    · intro member
      obtain ⟨file, known, same⟩ := mem_map.mp member
      obtain ⟨rfl, rfl⟩ := Prod.mk.injEq .. ▸ same
      obtain ⟨_, content, located⟩ := walk.file _ (mem_map_of_mem known)
      rw [(below file known).2, contentAt_eq located, located]
    · intro located
      rcases walk.covered _ content (prefix_append _ _) located with known | ⟨_, none, _⟩
      · obtain ⟨file, member, same⟩ := mem_map.mp known
        refine mem_map.mpr ⟨file, member, ?_⟩
        rw [same, contentAt_eq located, drop_left]
      · cases none
  · rw [map_map]
    refine map_congr_left fun file member => ?_
    exact Prod.ext (below file member).1 rfl

theorem measures_of_validateDirectory {expected : Nat}
    (done : (validateDirectory path expected verification limits).run.exec fs =
      (.ok value, after)) : Measures fs path verification.bytes verification.sha256 := by
  obtain ⟨checked, rest⟩ := of_failIf_bind done
  obtain ⟨files, collecting, counting⟩ :=
    of_reading_bind (relocates_collectDirectoryFiles [] _ _).reading rest
  obtain ⟨counted, hashing⟩ := of_failIf_bind counting
  obtain ⟨⟨hashed, total⟩, _, folding, comparing⟩ := of_exec_bind hashing
  obtain ⟨_, _, sized, digested⟩ := of_exec_bind comparing
  obtain ⟨directory, unordered, rfl, walk, named⟩ := walk_of_collectDirectoryFiles collecting
  obtain ⟨texts, totals⟩ := hashed_of_foldlM (Nat.zero_le _) folding
  obtain ⟨contents, holds, listed⟩ := walk.directoryOf directory named
  refine .inr ⟨contents, holds, ?_⟩
  have size := (not_or.mp (passed_of_failIf sized)).1
  have digest := passed_of_failIf digested
  rw [not_not] at size digest
  rw [listed, measure, orderFiles_map, flatMap_map, ← size, ← digest]
  refine Prod.ext ?_ ?_
  · have sameFiles := (perm_insertionSort (fun first second : String × Path =>
      slashes first.1 < slashes second.1 ∨
        (slashes first.1 = slashes second.1 ∧ first.1 ≤ second.1)) unordered)
    rw [map_map]
    exact ((sameFiles.map _).sum_nat.symm.trans (totals.trans (Nat.zero_add _)).symm)
  · exact congrArg Sha256.digest texts.symm

theorem measures_of_validateEntryPath {entry : JournalEntry}
    (done : (validateEntryPath path entry limits).run.exec fs = (.ok value, after)) :
    Measures fs path entry.verification.bytes entry.verification.sha256 := by
  unfold validateEntryPath at done
  split at done
  · exact measures_of_validateFile done
  · exact measures_of_validateDirectory done

end Hash
end Offprint.Artifact
