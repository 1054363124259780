import HostSurvey.Proofs.Command.Derive
import HostSurvey.Proofs.HostDirectory.Loading
import HostSurvey.Proofs.Run.Locality

/-!
# Which artifact of a host directory counts

Artifacts are loaded in the order of their names and the last one of a category counts, so of
several files of one category it is the one with the greatest name that facts are derived from.
-/

namespace HostSurvey.HostDirectory

/-! ## Which file of a category counts -/

/-- The file that counts for a category: of the files of the category the one with the greatest
name. -/
inductive Counts (loaded : List ArtifactFile) (category : Category) : Option ArtifactFile → Prop
  | none (h : ∀ file ∈ loaded, file.category ≠ category) : Counts loaded category none
  | some {file : ArtifactFile} (mem : file ∈ loaded) (h : file.category = category)
      (greatest : ∀ other ∈ loaded, other.category = category → other ≠ file →
        Text.bytes other.name < Text.bytes file.name) : Counts loaded category (some file)

/-- The last file of a category. -/
def lastFile? (loaded : List ArtifactFile) (category : Category) : Option ArtifactFile :=
  (loaded.filter (·.category = category)).getLast?

section

variable {directory : String} {metadata : Metadata} {loaded : List ArtifactFile}

theorem latest?_map_artifact :
    Artifact.latest? (loaded.map (ArtifactFile.artifact directory metadata)) = fun category =>
      (lastFile? loaded category).map (ArtifactFile.artifact directory metadata) := by
  funext category
  rw [Artifact.latest?_eq_lastOf, Artifact.lastOf, List.filter_map, List.getLast?_map]
  rfl

theorem counts_lastFile?
    (ascending : loaded.Pairwise fun a b => Text.bytes a.name < Text.bytes b.name)
    (category : Category) : Counts loaded category (lastFile? loaded category) := by
  cases hlast : lastFile? loaded category with
  | none =>
    apply Counts.none
    have hnone := List.filter_eq_nil_iff.1 (List.getLast?_eq_none_iff.1 hlast)
    simpa using hnone
  | some file =>
    rcases List.getLast?_eq_some_iff.1 hlast with ⟨front, hfront⟩
    have hmem : ∀ other, (other ∈ loaded ∧ other.category = category) ↔
        other ∈ front ++ [file] := by
      intro other
      rw [← hfront]
      simp
    have hsplit := ascending.filter (·.category = category)
    rw [hfront, List.pairwise_append] at hsplit
    have hfile := (hmem file).2 (by simp)
    apply Counts.some hfile.1 hfile.2
    intro other hother hcategory hne
    have hin := (hmem other).1 ⟨hother, hcategory⟩
    rw [List.mem_append, List.mem_singleton] at hin
    exact hsplit.2.2 other (hin.resolve_right hne) file (List.mem_singleton_self file)

end

/-! ## Loading and surveying -/

/-- A host directory is loaded exactly or not at all, for the reasons of `Unloadable` and no other
one unless a file in it has an undecodable name, and the run for the host uses, of the files of each
category, the one with the greatest name. -/
theorem load_exact {σ : Type} {files : FileAccess (StateM σ)} {s : σ}
    (readOnly : files.ReadOnly s) {directory : String} {view : FileAccess.View}
    (shows : (files.seenAt s).Shows directory view) (categories : Dict Category)
    (metadataFile : String) :
    ∃ result, (load files directory categories metadataFile).run s = (result, s) ∧
      (Unloadable directory view categories metadataFile → ∃ e, result = .error e) ∧
      (∀ e, result = .error e →
        Unloadable directory view categories metadataFile ∨ HasUndecodableName view) ∧
      ∀ host, result = .ok host → ∃ loaded,
        LoadedFrom directory view categories metadataFile host loaded ∧
        ∃ used : Category → Option ArtifactFile,
          (∀ category, Counts loaded category (used category)) ∧
          ∀ (config : Config) (schedule : Schedule),
            (Command.surveyHost files
                { config with artifacts := categories, metadataFile } schedule directory).run s =
              (.ok ⟨host.metadata.hostName,
                (Run.ofComponents
                  (fun category =>
                    (used category).map (ArtifactFile.artifact directory host.metadata))
                  schedule.components).findings⟩, s) := by
  refine ⟨_, readOnly.comesTo_loadHost directory categories metadataFile, ?_, ?_, ?_⟩
  · exact fun unloadable => (exists_load_error_iff shows).2 (.inl unloadable)
  · exact fun e h => (exists_load_error_iff shows).1 ⟨e, h⟩
  · intro host hloaded
    rcases exists_loadedFrom shows hloaded with ⟨loaded, from_⟩
    refine ⟨loaded, from_, lastFile? loaded, counts_lastFile? from_.ascending, ?_⟩
    intro config schedule
    rw [readOnly.comesTo_surveyHost, Command.surveyHost_eq_map, hloaded]
    rw [← latest?_map_artifact, ← from_.artifacts]
    rfl

/-! ## Paths to a host directory -/

/-- The place of a host directory in the working directory. -/
def hostPlace : List FileName := [.ofText "web01"]

/-- A path to that directory, behind steps that lead nowhere. -/
def hostPath : Nat → String
  | 0 => "web01"
  | dots + 1 => "./" ++ hostPath dots

/-- The names of artifact files. -/
def listedNames : Dict Category :=
  [("dmidecode", .inventory), ("dmidecode.old", .inventory), ("uname", .kernelIdentity)]

theorem toList_hostPath (dots : Nat) :
    (hostPath (dots + 1)).toList = '.' :: '/' :: (hostPath dots).toList := by
  rw [hostPath, String.toList_append]
  rfl

theorem utf8ByteSize_hostPath (dots : Nat) : (hostPath dots).utf8ByteSize = 2 * dots + 5 := by
  induction dots with
  | zero => decide +kernel
  | succ dots ih =>
    have hstep : ("./" : String).utf8ByteSize = 2 := by decide +kernel
    rw [hostPath, String.utf8ByteSize_append, ih, hstep]
    omega

theorem nul_not_mem_hostPath (dots : Nat) : '\x00' ∉ (hostPath dots).toList := by
  induction dots with
  | zero => decide +kernel
  | succ dots ih =>
    rw [toList_hostPath]
    simp [ih]

theorem getLast?_hostPath (dots : Nat) : (hostPath dots).toList.getLast? = some '1' := by
  induction dots with
  | zero => decide +kernel
  | succ dots ih =>
    rw [toList_hostPath]
    simp [List.getLast?_cons, ih]

theorem isAbsolute_hostPath (dots : Nat) : Path.isAbsolute (hostPath dots) = false := by
  cases dots with
  | zero => decide +kernel
  | succ dots =>
    rw [Path.isAbsolute, toList_hostPath]
    rfl

theorem namesIn_hostPath (dots : Nat) :
    FileTree.namesIn (hostPath dots).toList = List.replicate dots "." ++ ["web01"] := by
  induction dots with
  | zero => decide +kernel
  | succ dots ih =>
    have hdot : FileTree.namesIn ['.'] = ["."] := by decide +kernel
    have hsplit := FileTree.namesIn_append_slash ['.'] (hostPath dots).toList
    rw [hdot, ih] at hsplit
    rw [toList_hostPath]
    exact hsplit

theorem walkSteps_hostPath (dots : Nat) :
    FileTree.walkSteps (hostPath dots) = List.replicate dots "." ++ ["web01"] := by
  rw [FileTree.walkSteps_eq, getLast?_hostPath, if_neg (by decide), namesIn_hostPath]

theorem walk_dots (tree : FileTree) (dots links : Nat) (place : List FileName) (steps : List String) :
    tree.walk .reading links place (List.replicate dots "." ++ steps) =
      tree.walk .reading links place steps := by
  induction dots with
  | zero => rfl
  | succ dots ih =>
    rw [List.replicate_succ, List.cons_append, FileTree.walk, if_pos (.inr rfl), ih]

theorem locate_hostPath {tree : FileTree} {dots : Nat} (h : tree.get? hostPlace = some .directory)
    (hshort : dots ≤ 2045) : tree.locate .reading (hostPath dots) = .ok hostPlace := by
  have hname : ¬ FileTree.nameLimit < "web01".utf8ByteSize := by decide +kernel
  have hstart : FileTree.startOf [] (hostPath dots) = [] := by
    rw [FileTree.startOf, isAbsolute_hostPath]
    rfl
  have hget : tree.get? ([] ++ [.ofText "web01"]) = some .directory := h
  refine FileTree.locate_eq_ok_iff.2 ⟨nul_not_mem_hostPath dots, ?_, ?_, ?_⟩
  · intro hempty
    have hsize := utf8ByteSize_hostPath dots
    rw [hempty] at hsize
    simp at hsize
  · rw [utf8ByteSize_hostPath, FileTree.pathLimit]
    omega
  · rw [walkSteps_hostPath, hstart, walk_dots, FileTree.walk, if_neg (by decide),
      if_neg (by decide), if_neg (by decide), if_neg hname, hget]
    exact FileTree.walk.eq_1 ..

/-! ## One host directory -/

/-- The metadata of a host. -/
def sharedMetadata : ByteArray := "hostname = \"db01\"\n".toUTF8

/-- An inventory of a host. -/
def inventoryOf (size : String) : ByteArray := ("Memory Device\n\tSize: " ++ size ++ "\n").toUTF8

/-- A host directory with two inventories, a file that is no text and is not listed, and two links:
to the metadata and to a kernel identity. -/
def linkedHost : FileTree :=
  ⟨[([.ofText "shared.toml"], .file sharedMetadata),
    ([.ofText "uname"], .file "Linux db01 4.18.0 x86_64".toUTF8),
    (hostPlace, .directory),
    (hostPlace ++ [.ofText "dmidecode"], .file (inventoryOf "4 GB")),
    (hostPlace ++ [.ofText "dmidecode.old"], .file (inventoryOf "2 GB")),
    (hostPlace ++ [.ofText "metadata.toml"], .link "../shared.toml"),
    (hostPlace ++ [.ofText "notes"], .file ⟨#[0xff]⟩),
    (hostPlace ++ [.ofText "uname"], .link "../uname")]⟩

theorem wellFormed_linkedHost : linkedHost.WellFormed :=
  ⟨by decide +kernel, by simp [linkedHost, hostPlace, FileTree.outside]⟩

theorem get?_hostPlace_linkedHost : linkedHost.get? hostPlace = some .directory := by
  simp [FileTree.get?, linkedHost, hostPlace, FileTree.outside]

theorem locate_linkedHost : linkedHost.locate .reading "web01" = .ok hostPlace :=
  locate_hostPath get?_hostPlace_linkedHost (Nat.zero_le 2045)

theorem lookup_metadata_linkedHost :
    linkedHost.lookup (Path.join "web01" "metadata.toml") = .ok (.file sharedMetadata) := by
  have hjoin : Path.join "web01" "metadata.toml" = "web01/metadata.toml" := by decide +kernel
  have hsteps : FileTree.walkSteps "web01/metadata.toml" = ["web01", "metadata.toml"] := by
    decide +kernel
  have hstart : FileTree.startOf [] "web01/metadata.toml" = [] := by decide +kernel
  have htarget : FileTree.walkSteps "../shared.toml" = ["..", "shared.toml"] := by decide +kernel
  have hplace : linkedHost.locate .reading "web01/metadata.toml" = .ok [.ofText "shared.toml"] := by
    refine FileTree.locate_eq_ok_iff.2 ⟨by decide +kernel, by decide, by decide +kernel, ?_⟩
    rw [hsteps, hstart]
    simp [FileTree.walk, FileTree.get?, linkedHost, FileTree.outside, FileTree.linkLimit,
      FileTree.above, htarget, hostPlace]
    decide +kernel
  rw [hjoin, FileTree.lookup_eq_ok_iff hplace]
  simp [FileTree.get?, linkedHost, hostPlace, FileTree.outside]

theorem get?_linkedHost_iff {fileName : FileName} {content : ByteArray} :
    linkedHost.get? (hostPlace ++ [fileName]) = some (.file content) ↔
      fileName = .ofText "dmidecode" ∧ content = inventoryOf "4 GB" ∨
      fileName = .ofText "dmidecode.old" ∧ content = inventoryOf "2 GB" ∨
      fileName = .ofText "notes" ∧ content = ⟨#[0xff]⟩ := by
  rw [wellFormed_linkedHost.get?_eq_some_file_iff]
  simp [linkedHost, hostPlace]

theorem isName_linkedHost {name : String}
    (h : name = "dmidecode" ∨ name = "dmidecode.old" ∨ name = "notes") :
    FileTree.IsName name := by
  rcases h with rfl | rfl | rfl
  all_goals apply FileTree.IsName.mk <;> decide +kernel

theorem shows_linkedHost :
    (FileTree.access.seenAt linkedHost).Shows "web01" (linkedHost.view hostPlace) := by
  apply FileTree.shows_access wellFormed_linkedHost locate_linkedHost
  intro name content h
  rw [get?_linkedHost_iff] at h
  simp only [FileName.ofText_inj] at h
  exact isName_linkedHost (h.imp And.left (Or.imp And.left And.left))

theorem selected_linkedHost_iff {name : String} {category : Category} {content : ByteArray} :
    Selected (linkedHost.view hostPlace) listedNames "metadata.toml" name category content ↔
      category = .inventory ∧ (name = "dmidecode" ∧ content = inventoryOf "4 GB" ∨
        name = "dmidecode.old" ∧ content = inventoryOf "2 GB") := by
  apply Iff.intro
  · intro selected
    have hlisted := selected.listed
    have hentry := get?_linkedHost_iff.1 selected.entry
    simp only [FileName.ofText_inj] at hentry
    rcases hentry with ⟨rfl, hc⟩ | ⟨rfl, hc⟩ | ⟨rfl, hc⟩
    · cases hlisted
      exact ⟨rfl, .inl ⟨rfl, hc⟩⟩
    · cases hlisted
      exact ⟨rfl, .inr ⟨rfl, hc⟩⟩
    · cases hlisted
  · intro h
    rcases h with ⟨rfl, ⟨rfl, rfl⟩ | ⟨rfl, rfl⟩⟩
    · exact ⟨get?_linkedHost_iff.2 (.inl ⟨rfl, rfl⟩), by decide +kernel, by decide⟩
    · exact ⟨get?_linkedHost_iff.2 (.inr (.inl ⟨rfl, rfl⟩)), by decide +kernel, by decide⟩

theorem not_flawed_linkedHost :
    ¬ Flawed "web01" (linkedHost.view hostPlace) listedNames "metadata.toml" := by
  intro flawed
  cases flawed with
  | notDirectory hnot =>
    apply hnot
    exact FileTree.target?_view_of_locate locate_linkedHost get?_hostPlace_linkedHost
  | metadata hcontent invalid =>
    rw [FileTree.target?_view_eq_some_iff, lookup_metadata_linkedHost] at hcontent
    cases hcontent
    have hnone := invalid "hostname = \"db01\"\n" (by decide +kernel)
    revert hnone
    decide +kernel
  | artifact selected undecodable =>
    rcases (selected_linkedHost_iff.1 selected).2 with ⟨-, rfl⟩ | ⟨-, rfl⟩
    · revert undecodable
      decide +kernel
    · revert undecodable
      decide +kernel

theorem loadable_linkedHost :
    ¬ Unloadable "web01" (linkedHost.view hostPlace) listedNames "metadata.toml" := by
  intro unloadable
  cases unloadable with
  | flawed flawed => exact not_flawed_linkedHost flawed
  | metadata _ unreadable =>
    rw [FileTree.unreadable?_view_eq_some_iff, lookup_metadata_linkedHost] at unreadable
    cases unreadable
  | unlistable h => cases h
  | @artifact name category content cause selected unreadable =>
    have hname := ((selected_linkedHost_iff.1 selected).2).imp And.left And.left
    have hlength : (Path.join "web01" name).utf8ByteSize ≤ FileTree.pathLimit := by
      rcases hname with rfl | rfl
      · decide +kernel
      · decide +kernel
    rw [FileTree.unreadable?_view_eq_some_iff, FileTree.lookup_join
      (isName_linkedHost (hname.imp_right .inl)) hlength locate_linkedHost
      get?_hostPlace_linkedHost selected.entry] at unreadable
    cases unreadable

theorem decodable_linkedHost : ¬ HasUndecodableName (linkedHost.view hostPlace) := by
  intro h
  rcases h with ⟨fileName, content, hentry, htext⟩
  rcases get?_linkedHost_iff.1 hentry with ⟨rfl, -⟩ | ⟨rfl, -⟩ | ⟨rfl, -⟩
  all_goals
    rw [FileName.text?_ofText] at htext
    cases htext

theorem hostname_of_tells_sharedMetadata {told : Metadata}
    (tells : TellsMetadata (some (.file sharedMetadata)) told) : told.hostname = some "db01" := by
  cases tells with
  | missing h => exact absurd rfl (h _)
  | file decoded valid =>
    have hdecoded : String.fromUTF8? sharedMetadata = some "hostname = \"db01\"\n" := by
      decide +kernel
    have hhostname : (Metadata.ofText? "hostname = \"db01\"\n").map Metadata.hostname =
        some (some "db01") := by
      decide +kernel
    rw [hdecoded, Option.some.injEq] at decoded
    rw [decoded, valid] at hhostname
    exact Option.some.inj hhostname

section

variable {host : HostArtifacts} {loaded : List ArtifactFile} {file : ArtifactFile}
  {used : Option ArtifactFile}
  (from_ : LoadedFrom "web01" (linkedHost.view hostPlace) listedNames "metadata.toml" host loaded)

include from_

theorem hostname_of_loaded_linkedHost : host.metadata.hostname = some "db01" := by
  rcases from_.metadata with ⟨told, tells, hmetadata⟩
  rw [FileTree.target?_view_eq_some_iff.2 lookup_metadata_linkedHost] at tells
  rw [hmetadata, hostname_of_tells_sharedMetadata tells]
  rfl

theorem inventory_of_loaded_linkedHost (hfile : file ∈ loaded) :
    file.category = .inventory ∧ (file.name = "dmidecode" ∨ file.name = "dmidecode.old") := by
  rcases (from_.selected file).1 hfile with ⟨content, selected, -⟩
  exact (selected_linkedHost_iff.1 selected).imp_right (Or.imp And.left And.left)

theorem no_identity_counts_linkedHost (counts : Counts loaded .kernelIdentity used) :
    used = none := by
  cases counts with
  | none => rfl
  | some hfile h =>
    rw [(inventory_of_loaded_linkedHost from_ hfile).1] at h
    cases h

theorem greatest_inventory_counts_linkedHost (counts : Counts loaded .inventory used) :
    used.map ArtifactFile.name = some "dmidecode.old" := by
  have hold : ⟨"dmidecode.old", .inventory, "Memory Device\n\tSize: 2 GB\n"⟩ ∈ loaded := by
    rw [from_.selected]
    exact ⟨_, selected_linkedHost_iff.2 ⟨rfl, .inr ⟨rfl, rfl⟩⟩, by decide +kernel⟩
  cases counts with
  | none h => exact absurd rfl (h _ hold)
  | @some file hfile h greatest =>
    rcases (inventory_of_loaded_linkedHost from_ hfile).2 with hfirst | hsecond
    · have hne : ⟨"dmidecode.old", .inventory, "Memory Device\n\tSize: 2 GB\n"⟩ ≠ file := by
        intro hsame
        subst hsame
        exact absurd hfirst (by decide)
      have hlt := greatest _ hold rfl hne
      rw [hfirst] at hlt
      exact absurd hlt (by decide +kernel)
    · rw [Option.map_some, hsecond]

end

/-- The metadata behind a link are read and the kernel identity behind a link is not loaded. Of the
two inventories the one with the greater name counts. -/
theorem later_inventory_counts :
    FileTree.access.ReadOnly linkedHost ∧
    (FileTree.access.seenAt linkedHost).Shows "web01" (linkedHost.view hostPlace) ∧
    ¬ Unloadable "web01" (linkedHost.view hostPlace) listedNames "metadata.toml" ∧
    ∃ (host : HostArtifacts) (used : Category → Option ArtifactFile),
      (load FileTree.access "web01" listedNames "metadata.toml").run linkedHost =
        (.ok host, linkedHost) ∧
      host.metadata.hostname = some "db01" ∧
      used .kernelIdentity = none ∧
      (used .inventory).map ArtifactFile.name = some "dmidecode.old" ∧
      ∀ (config : Config) (schedule : Schedule),
        (Command.surveyHost FileTree.access
            { config with artifacts := listedNames, metadataFile := "metadata.toml" } schedule
            "web01").run linkedHost =
          (.ok ⟨"db01", (Run.ofComponents
            (fun category => (used category).map (ArtifactFile.artifact "web01" host.metadata))
            schedule.components).findings⟩, linkedHost) := by
  have readOnly := FileTree.readOnly_access linkedHost
  rcases load_exact readOnly shows_linkedHost listedNames "metadata.toml" with
    ⟨result, hload, -, hfails, hloads⟩
  cases result with
  | error e =>
    have hreason := hfails e rfl
    exact absurd hreason (not_or.2 ⟨loadable_linkedHost, decodable_linkedHost⟩)
  | ok host =>
    rcases hloads host rfl with ⟨loaded, from_, used, counts, hsurvey⟩
    have hname := hostname_of_loaded_linkedHost from_
    refine ⟨readOnly, shows_linkedHost, loadable_linkedHost, host, used, hload, hname,
      no_identity_counts_linkedHost from_ (counts .kernelIdentity),
      greatest_inventory_counts_linkedHost from_ (counts .inventory), ?_⟩
    intro config schedule
    rw [hsurvey, Metadata.hostName, hname]
    rfl

/-! ## Host directories that are not loaded -/

/-- The statement of the kernel in the directory. -/
def kernelText : String := "Linux web01 4.18.0 x86_64"

/-- A working directory with one host directory, in which one file stands. -/
def hostWith (fileName : FileName) : FileTree :=
  ⟨[(hostPlace, .directory), (hostPlace ++ [fileName], .file kernelText.toUTF8)]⟩

section

variable {fileName : FileName} {directory metadataFile : String} {cause : FileError}

theorem wellFormed_hostWith (fileName : FileName) : (hostWith fileName).WellFormed :=
  ⟨by simp [hostWith, hostPlace], by simp [hostWith, hostPlace, FileTree.outside]⟩

theorem get?_hostPlace_hostWith (fileName : FileName) :
    (hostWith fileName).get? hostPlace = some .directory := by
  simp [FileTree.get?, hostWith, hostPlace, FileTree.outside]

theorem get?_hostWith_iff {other : FileName} {content : ByteArray} :
    (hostWith fileName).get? (hostPlace ++ [other]) = some (.file content) ↔
      other = fileName ∧ content = kernelText.toUTF8 := by
  rw [(wellFormed_hostWith fileName).get?_eq_some_file_iff]
  simp [hostWith, hostPlace]

theorem shows_hostWith (hlocate : (hostWith fileName).locate .reading directory = .ok hostPlace)
    (named : ∀ name, .ofText name = fileName → FileTree.IsName name) :
    (FileTree.access.seenAt (hostWith fileName)).Shows directory
      ((hostWith fileName).view hostPlace) :=
  FileTree.shows_access (wellFormed_hostWith fileName) hlocate fun name _ h =>
    named name (get?_hostWith_iff.1 h).1

theorem not_flawed_hostWith
    (hlocate : (hostWith fileName).locate .reading directory = .ok hostPlace)
    (hmetadata : (hostWith fileName).lookup (Path.join directory metadataFile) = .error cause) :
    ¬ Flawed directory ((hostWith fileName).view hostPlace) listedNames metadataFile := by
  intro flawed
  cases flawed with
  | notDirectory hnot =>
    apply hnot
    exact FileTree.target?_view_of_locate hlocate (get?_hostPlace_hostWith fileName)
  | metadata hcontent _ =>
    rw [FileTree.target?_view_eq_some_iff, hmetadata] at hcontent
    cases hcontent
  | artifact selected undecodable =>
    rw [(get?_hostWith_iff.1 selected.entry).2] at undecodable
    revert undecodable
    decide +kernel

/-- Only the one file is to be loaded from a directory without metadata. -/
theorem load_hostWith (shows : (FileTree.access.seenAt (hostWith fileName)).Shows directory
      ((hostWith fileName).view hostPlace))
    (hlocate : (hostWith fileName).locate .reading directory = .ok hostPlace)
    (hmetadata : (hostWith fileName).lookup (Path.join directory metadataFile) = .error cause) :
    (load FileTree.access directory listedNames metadataFile).run (hostWith fileName) =
      ((loadArtifacts (FileTree.access.seenAt (hostWith fileName)) directory listedNames
          metadataFile { hostname := Path.fileName? directory } [fileName]).run.map
            (HostArtifacts.mk { hostname := Path.fileName? directory }),
        hostWith fileName) := by
  have hdirectory : ((hostWith fileName).view hostPlace).target? directory = some .directory :=
    FileTree.target?_view_of_locate hlocate (get?_hostPlace_hostWith fileName)
  have hmissing : ∀ content, ((hostWith fileName).view hostPlace).target?
      (Path.join directory metadataFile) ≠ some (.file content) := by
    intro content hcontent
    rw [FileTree.target?_view_eq_some_iff, hmetadata] at hcontent
    cases hcontent
  have hlisted : ((FileTree.access.seenAt (hostWith fileName)).regularFiles directory).run =
      .ok [fileName] := by
    have hfiles : (hostWith fileName).filesAt hostPlace = [fileName] := by
      simp [FileTree.filesAt, hostWith, hostPlace]
    rw [← hfiles]
    exact FileTree.regularFiles_of_locate hlocate (get?_hostPlace_hostWith fileName)
  rw [(FileTree.readOnly_access _).comesTo_loadHost,
    load_of_directory ((shows.isDirectory directory).2 hdirectory), loadMetadata_eq_map,
    readMetadata_of_missing shows hmissing, hlisted]
  have hsorted : FileName.sorted [fileName] = [fileName] := List.mergeSort_singleton fileName
  simp only [Except.map, Except.bind, Except.mapError, hsorted]
  rfl

end

/-- The path to a directory can be so long that no file in it is reached, and the bytes of a name
need not be a text. Neither directory is flawed, and neither is loaded. -/
theorem load_fails_unflawed :
    ((FileTree.access.seenAt (hostWith (.ofText "uname"))).Shows (hostPath 2045)
        ((hostWith (.ofText "uname")).view hostPlace) ∧
      ¬ Flawed (hostPath 2045) ((hostWith (.ofText "uname")).view hostPlace) listedNames
        "metadata.toml" ∧
      (load FileTree.access (hostPath 2045) listedNames "metadata.toml").run
          (hostWith (.ofText "uname")) =
        (.error (.artifactUnreadable (Path.join (hostPath 2045) "uname") .nameTooLong),
          hostWith (.ofText "uname"))) ∧
    ((FileTree.access.seenAt (hostWith ⟨[0xff]⟩)).Shows "web01"
        ((hostWith ⟨[0xff]⟩).view hostPlace) ∧
      ¬ Flawed "web01" ((hostWith ⟨[0xff]⟩).view hostPlace) listedNames "metadata.toml" ∧
      (load FileTree.access "web01" listedNames "metadata.toml").run (hostWith ⟨[0xff]⟩) =
        (.error (.nameNotUtf8 "web01"), hostWith ⟨[0xff]⟩)) := by
  have hmetadataName : FileTree.IsName "metadata.toml" := by
    apply FileTree.IsName.mk <;> decide +kernel
  apply And.intro
  · have hname : FileTree.IsName "uname" := by
      apply FileTree.IsName.mk <;> decide +kernel
    have hlisted : category? listedNames "metadata.toml" "uname" = some .kernelIdentity := by
      decide +kernel
    have hlocate := locate_hostPath (get?_hostPlace_hostWith (.ofText "uname")) (Nat.le_refl 2045)
    have shows := shows_hostWith hlocate fun name h => by
      rw [FileName.ofText_inj.1 h]
      exact hname
    have hmetadata := FileTree.lookup_join_of_long hmetadataName hlocate (by
      rw [utf8ByteSize_hostPath]
      decide +kernel)
    have hunread := FileTree.lookup_join_of_long hname hlocate (by
      rw [utf8ByteSize_hostPath]
      decide +kernel)
    refine ⟨shows, not_flawed_hostWith hlocate hmetadata, ?_⟩
    rw [load_hostWith shows hlocate hmetadata, loadArtifacts_cons_of_error hlisted
      (shows.unreadable _ _ (FileTree.unreadable?_view_eq_some_iff.2 hunread))]
    rfl
  · have hlocate := locate_hostPath (get?_hostPlace_hostWith ⟨[0xff]⟩) (Nat.zero_le 2045)
    have hundecodable : FileName.text? ⟨[0xff]⟩ = none := by decide +kernel
    have shows := shows_hostWith hlocate fun name h => by
      rw [← h, FileName.text?_ofText] at hundecodable
      cases hundecodable
    have hother : (⟨[0xff]⟩ : FileName) ≠ .ofText "metadata.toml" := by decide +kernel
    have hfree : (hostWith ⟨[0xff]⟩).get? (hostPlace ++ [.ofText "metadata.toml"]) = none := by
      simp [FileTree.get?, hostWith, hostPlace, FileTree.outside, hother]
    have hmetadata := FileTree.lookup_join_of_free hmetadataName (by decide +kernel) hlocate
      (get?_hostPlace_hostWith _) hfree
    refine ⟨shows, not_flawed_hostWith hlocate hmetadata, ?_⟩
    refine (load_hostWith shows hlocate hmetadata).trans ?_
    rw [loadArtifacts_cons_of_undecodable hundecodable]
    rfl

end HostSurvey.HostDirectory
