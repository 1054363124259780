import HostSurvey.Proofs.Command.ReadOnly
import HostSurvey.Proofs.Run.Discipline
import HostSurvey.Proofs.Schedule.Acceptance

/-!
# Deriving the facts of several hosts

What the derivation of facts prints for some directories is made of what it prints for each of them
alone: the reports of those that can be loaded with an empty line between two of them, and the
messages for the others.
-/

namespace HostSurvey

/-! ## Configurations that load -/

namespace Config

theorem exists_schedule_of_flaw? {config : Config} (h : config.flaw? = none) :
    ∃ schedule, config.schedule = .ok schedule := by
  unfold flaw? at h
  cases hschedule : config.schedule with
  | ok schedule => exact ⟨schedule, rfl⟩
  | error cause =>
    rw [hschedule] at h
    split at h
    · cases h
    · split at h
      · cases h
      · split at h <;> cases h

theorem exists_schedule_of_ofFile {path text : String} {config : Config}
    (h : ofFile path text = .ok config) : ∃ schedule, config.schedule = .ok schedule := by
  unfold ofFile at h
  cases hread : ofText? text with
  | none =>
    rw [hread] at h
    cases h
  | some read =>
    rw [hread] at h
    cases hflaw : read.flaw? with
    | some flaw =>
      simp only [hflaw] at h
      cases h
    | none =>
      simp only [hflaw] at h
      cases h
      exact exists_schedule_of_flaw? hflaw

theorem exists_schedule_of_load {files : FileAccess Id} {directory : String}
    {given : Option String} {config : Config} (h : (load files directory given).run = .ok config) :
    ∃ schedule, config.schedule = .ok schedule := by
  rw [load, Id.run_bind] at h
  cases hread : (files.readText (given.getD (Path.join directory fileName))).run with
  | ok text =>
    rw [hread] at h
    exact exists_schedule_of_ofFile h
  | error cause =>
    rw [hread] at h
    dsimp only at h
    split at h
    · cases h
      exact ⟨_, Schedule.ofComponents_builtins⟩
    · cases h

end Config

/-! ## Findings with a failure -/

theorem Findings.count_isFailed_pos_iff {findings : Findings} :
    0 < findings.count Outcome.isFailed ↔
      ∃ kind failure, findings.outcome? kind = some (.failed failure) := by
  unfold count
  rw [List.countP_pos_iff]
  apply Iff.intro
  · intro h
    rcases h with ⟨⟨kind, outcome⟩, hmem, hfailed⟩
    cases outcome with
    | failed failure => exact ⟨kind, failure, mem_toList.1 hmem⟩
    | found fact => cases hfailed
    | absent absence => cases hfailed
  · intro h
    rcases h with ⟨kind, failure, houtcome⟩
    exact ⟨(kind, .failed failure), mem_toList.2 houtcome, rfl⟩

namespace Command

/-- The findings of a host whose artifacts were loaded. -/
def findingsOf (schedule : Schedule) (host : HostArtifacts) : HostFindings :=
  ⟨host.metadata.hostName, (schedule.run host.artifacts).findings⟩

/-! ## Files without a state -/

section

variable {files : FileAccess Id} {config : Config} {schedule : Schedule}

theorem loadSchedule_of_ok {given : Option String}
    (h : (Config.load files "." given).run = .ok config) (hs : config.schedule = .ok schedule) :
    (loadSchedule files given).run = .ok (config, schedule) := by
  rw [loadSchedule, Id.run_bind, h]
  dsimp only
  rw [hs]
  rfl

theorem loadSchedule_of_error {given : Option String} {cause : Config.Error}
    (h : (Config.load files "." given).run = .error cause) :
    (loadSchedule files given).run = .error (.config cause) := by
  rw [loadSchedule, Id.run_bind, h]
  rfl

theorem surveyHosts_eq_map (directories : List String) :
    (surveyHosts files config schedule directories).run =
      directories.map fun directory =>
        (directory, (surveyHost files config schedule directory).run) := by
  induction directories with
  | nil => rfl
  | cons directory rest ih =>
    rw [List.map_cons, ← ih]
    rfl

theorem surveyHost_eq_map (directory : String) :
    (surveyHost files config schedule directory).run =
      (HostDirectory.load files directory config.artifacts config.metadataFile).run.map
        (findingsOf schedule) := by
  rw [surveyHost, Id.run_bind]
  cases (HostDirectory.load files directory config.artifacts config.metadataFile).run <;> rfl

variable {terminal : Bool} {options : DeriveOptions}

theorem runDerive_of_loaded (noDocument : options.json = none)
    (h : (loadSchedule files options.config).run = .ok (config, schedule)) :
    (runDerive files terminal options).run =
      let surveyed := (surveyHosts files config schedule options.hosts).run
      { stdout := Console.report (options.colour.applies terminal) (loadedHosts surveyed)
        stderr := String.join (surveyed.filterMap unloadedMessage)
        exit := if options.errorIfFailed ∧ anyFailed surveyed then some 1 else none } := by
  rw [runDerive, Id.run_bind, h]
  dsimp only
  rw [noDocument]
  simp [writeDocument]

theorem runDerive_of_error {e : Error} (h : (loadSchedule files options.config).run = .error e) :
    (runDerive files terminal options).run = { result := .error e } := by
  rw [runDerive, Id.run_bind, h]
  rfl

end

/-! ## Transcripts -/

/-- The message for a directory that cannot be loaded. -/
def unloadedText (directory : String) (e : HostDirectory.Error) : String :=
  "Could not process host directory '" ++ directory ++ "': " ++ e.message ++ "\n"

/-- The transcript of deriving the facts of some directories, given what loading each of them comes
to. -/
def transcriptOf (colours errorIfFailed : Bool) (schedule : Schedule)
    (loaded : String → Except HostDirectory.Error HostArtifacts) (hosts : List String) :
    Transcript :=
  let surveyed := hosts.map fun directory =>
    (directory, (loaded directory).map (findingsOf schedule))
  { stdout := Console.report colours (loadedHosts surveyed)
    stderr := String.join (surveyed.filterMap unloadedMessage)
    exit := if errorIfFailed ∧ anyFailed surveyed then some 1 else none }

/-- Something went wrong with a directory: it cannot be loaded, or a component has failed. -/
def Troubled (schedule : Schedule) (loaded : Except HostDirectory.Error HostArtifacts) : Prop :=
  (∃ e, loaded = .error e) ∨ ∃ host, loaded = .ok host ∧
    ∃ kind failure, (schedule.run host.artifacts).findings.outcome? kind = some (.failed failure)

/-- Deriving the facts of several directories is made of deriving those of each. -/
structure Composes (colours errorIfFailed : Bool) (schedule : Schedule)
    (loaded : String → Except HostDirectory.Error HostArtifacts)
    (derived : List String → Transcript) : Prop where
  /-- Alone, a directory that is loaded has the lines of its host printed, each of them ended. -/
  alone : ∀ directory host, loaded directory = .ok host → (derived [directory]).stdout =
    Console.ended (Console.block colours (findingsOf schedule host))
  stdout : ∀ hosts, (derived hosts).stdout = "\n".intercalate
    ((hosts.filter fun directory => (loaded directory).isOk).map fun directory =>
      (derived [directory]).stdout)
  stderr : ∀ hosts, (derived hosts).stderr = String.join (hosts.filterMap fun directory =>
    match loaded directory with
    | .error e => some (unloadedText directory e)
    | .ok _ => none)
  unloaded : ∀ before directory after e, loaded directory = .error e →
    (derived (before ++ directory :: after)).stdout = (derived (before ++ after)).stdout ∧
    (derived (before ++ directory :: after)).stderr =
      (derived before).stderr ++ unloadedText directory e ++ (derived after).stderr
  exit : ∀ hosts status, (derived hosts).exit = some status ↔
    status = 1 ∧ errorIfFailed = true ∧
      ∃ directory ∈ hosts, Troubled schedule (loaded directory)
  result : ∀ hosts, (derived hosts).result = .ok ()

section

variable {colours errorIfFailed : Bool} {schedule : Schedule}
  {loaded : String → Except HostDirectory.Error HostArtifacts}

theorem loadedHosts_map (hosts : List String) :
    loadedHosts (hosts.map fun directory =>
      (directory, (loaded directory).map (findingsOf schedule))) =
        hosts.filterMap fun directory =>
          ((loaded directory).map (findingsOf schedule)).toOption := by
  unfold loadedHosts
  rw [List.filterMap_map]
  rfl

theorem stdout_alone {directory : String} {host : HostArtifacts}
    (h : loaded directory = .ok host) :
    (transcriptOf colours errorIfFailed schedule loaded [directory]).stdout =
      Console.ended (Console.block colours (findingsOf schedule host)) := by
  show Console.report colours (loadedHosts _) = _
  rw [loadedHosts_map, List.filterMap_cons, h]
  exact String.intercalate_singleton

theorem stdout_transcriptOf (hosts : List String) :
    (transcriptOf colours errorIfFailed schedule loaded hosts).stdout = "\n".intercalate
      ((hosts.filter fun directory => (loaded directory).isOk).map fun directory =>
        (transcriptOf colours errorIfFailed schedule loaded [directory]).stdout) := by
  show Console.report colours (loadedHosts _) = _
  unfold Console.report
  rw [loadedHosts_map]
  apply congrArg
  induction hosts with
  | nil => rfl
  | cons directory rest ih =>
    rw [List.filterMap_cons, List.filter_cons]
    cases h : loaded directory with
    | error e => exact ih
    | ok host => exact List.cons_eq_cons.2 ⟨(stdout_alone h).symm, ih⟩

theorem stderr_transcriptOf (hosts : List String) :
    (transcriptOf colours errorIfFailed schedule loaded hosts).stderr =
      String.join (hosts.filterMap fun directory =>
        match loaded directory with
        | .error e => some (unloadedText directory e)
        | .ok _ => none) := by
  show String.join (List.filterMap _ (hosts.map _)) = _
  rw [List.filterMap_map]
  apply congrArg
  apply List.filterMap_congr
  intro directory _
  show unloadedMessage (directory, (loaded directory).map _) = _
  cases loaded directory with
  | error e => rfl
  | ok host => rfl

theorem anyFailed_map_iff {hosts : List String} :
    anyFailed (hosts.map fun directory =>
      (directory, (loaded directory).map (findingsOf schedule))) = true ↔
        ∃ directory ∈ hosts, Troubled schedule (loaded directory) := by
  unfold anyFailed
  rw [List.any_map, List.any_eq_true]
  apply exists_congr
  intro directory
  apply and_congr_right
  intro _
  unfold Troubled
  cases h : loaded directory with
  | error e => simp [h, Except.map]
  | ok host =>
    simp [h, Except.map, Findings.count_isFailed_pos_iff, findingsOf]

theorem exit_transcriptOf_iff {hosts : List String} {status : Nat} :
    (transcriptOf colours errorIfFailed schedule loaded hosts).exit = some status ↔
      status = 1 ∧ errorIfFailed = true ∧
        ∃ directory ∈ hosts, Troubled schedule (loaded directory) := by
  show (if errorIfFailed = true ∧ anyFailed _ = true then some 1 else none) = some status ↔ _
  rw [Option.ite_none_right_eq_some, anyFailed_map_iff, Option.some.injEq, @eq_comm _ 1,
    and_comm]

theorem composes_transcriptOf :
    Composes colours errorIfFailed schedule loaded
      (transcriptOf colours errorIfFailed schedule loaded) := by
  apply Composes.mk
  · intro directory host h
    exact stdout_alone h
  · exact stdout_transcriptOf
  · exact stderr_transcriptOf
  · intro before directory after e h
    apply And.intro
    · rw [stdout_transcriptOf, stdout_transcriptOf, List.filter_append, List.filter_append,
        List.filter_cons, h]
      rfl
    · rw [stderr_transcriptOf, stderr_transcriptOf, stderr_transcriptOf, List.filterMap_append,
        List.filterMap_cons, h]
      simp [String.join_append, String.join_cons, String.append_assoc]
  · intro hosts status
    exact exit_transcriptOf_iff
  · intro hosts
    rfl

end

/-! ## Deriving -/

theorem runDerive_eq_transcriptOf {files : FileAccess Id} {config : Config} {schedule : Schedule}
    (terminal : Bool) {options : DeriveOptions} (noDocument : options.json = none)
    (h : (loadSchedule files options.config).run = .ok (config, schedule)) (hosts : List String) :
    (runDerive files terminal { options with hosts }).run =
      transcriptOf (options.colour.applies terminal) options.errorIfFailed schedule
        (fun directory =>
          (HostDirectory.load files directory config.artifacts config.metadataFile).run) hosts := by
  have hderived : (runDerive files terminal { options with hosts }).run = _ :=
    runDerive_of_loaded noDocument h
  rw [hderived, surveyHosts_eq_map]
  simp only [surveyHost_eq_map]
  rfl

/-- Deriving facts without writing a document leaves files as they are, if reading does. When the
configuration loads, its components can be scheduled, and what is printed for several directories
is made of what is printed for each of them. When it does not load, nothing is printed. -/
theorem runDerive_composes {σ : Type} {files : FileAccess (StateM σ)} {s : σ}
    (readOnly : files.ReadOnly s) (terminal : Bool) {options : DeriveOptions}
    (noDocument : options.json = none) :
    ∃ derived : List String → Transcript,
      (∀ hosts, (runDerive files terminal { options with hosts }).run s = (derived hosts, s)) ∧
      (∀ config, ((Config.load files "." options.config).run s).1 = .ok config →
        ∃ schedule, config.schedule = .ok schedule ∧
          Composes (options.colour.applies terminal) options.errorIfFailed schedule
            (fun directory => ((HostDirectory.load files directory config.artifacts
              config.metadataFile).run s).1) derived) ∧
      ∀ cause, ((Config.load files "." options.config).run s).1 = .error cause → ∀ hosts,
        derived hosts =
          { stdout := "", stderr := "", exit := none, result := .error (.config cause) } := by
  refine ⟨fun hosts => (runDerive (files.seenAt s) terminal { options with hosts }).run, ?_, ?_, ?_⟩
  · intro hosts
    exact readOnly.comesTo_runDerive terminal noDocument
  · intro config h
    rw [readOnly.comesTo_loadConfig] at h
    rcases Config.exists_schedule_of_load h with ⟨schedule, hschedule⟩
    refine ⟨schedule, hschedule, ?_⟩
    have hderived := runDerive_eq_transcriptOf terminal noDocument
      (loadSchedule_of_ok h hschedule)
    have hloaded : ∀ directory, (HostDirectory.load files directory config.artifacts
        config.metadataFile).run s = _ := fun directory => readOnly.comesTo_loadHost _ _ _
    simp only [hderived, hloaded]
    exact composes_transcriptOf
  · intro cause h hosts
    rw [readOnly.comesTo_loadConfig] at h
    exact runDerive_of_error (loadSchedule_of_error h)

/-! ## One host beside a missing one -/

/-- A working directory with the directory of one host, whose memory module is not of a whole
size. -/
def oneHost : FileTree :=
  ⟨[([.ofText "web01"], .directory),
    ([.ofText "web01", .ofText "dmidecode"], .file "Memory Device\n\tSize: 1.5 GB\n".toUTF8)]⟩

/-- The options for that host and another one, whose directory is missing. -/
def bothHosts : DeriveOptions where
  hosts := ["missing", "web01"]
  colour := .never
  errorIfFailed := true

theorem walk_free_name {tree : FileTree} {name : String} (free : tree.get? [.ofText name] = none)
    (hname : name ≠ "" ∧ name ≠ "." ∧ name ≠ ".." ∧ name.utf8ByteSize ≤ FileTree.nameLimit) :
    tree.walk .reading FileTree.linkLimit [] [name] = .ok [.ofText name] := by
  rw [FileTree.walk]
  simp [hname, free]

-- A path to a name in the working directory, possibly behind a dot, at which nothing stands.
theorem lookup_free_name {tree : FileTree} {path name : String} (free : tree.get? [.ofText name] = none)
    (hname : name ≠ "" ∧ name ≠ "." ∧ name ≠ ".." ∧ name.utf8ByteSize ≤ FileTree.nameLimit)
    (hpath : '\x00' ∉ path.toList ∧ path ≠ "" ∧ path.utf8ByteSize ≤ FileTree.pathLimit)
    (hstart : FileTree.startOf [] path = [])
    (hsteps : FileTree.walkSteps path = [name] ∨ FileTree.walkSteps path = [".", name]) :
    tree.lookup path = .error .notFound := by
  have hwalk := walk_free_name free hname
  have hplace : tree.locate .reading path = .ok [.ofText name] := by
    unfold FileTree.locate
    rw [if_neg hpath.1, if_neg hpath.2.1, if_neg (Nat.not_lt.2 hpath.2.2), hstart]
    rcases hsteps with h | h
    · rw [h]
      exact hwalk
    · rw [h, FileTree.walk, if_pos (.inr rfl)]
      exact hwalk
  rw [FileTree.lookup, hplace]
  simp only [free]

theorem load_config_oneHost :
    ((Config.load FileTree.access "." none).run oneHost).1 = .ok .default := by
  have free : oneHost.get? [.ofText "hostfacts.toml"] = none := by
    simp [oneHost, FileTree.get?, FileTree.outside]
  have hlookup : oneHost.lookup (Path.join "." Config.fileName) = .error .notFound :=
    lookup_free_name free (by decide +kernel) (by decide +kernel) (by decide +kernel)
      (.inr (by decide +kernel))
  simp [Config.load, FileTree.access, FileTree.readText, hlookup]
  rfl

theorem load_missing_oneHost (categories : Dict Category) (metadataFile : String) :
    ((HostDirectory.load FileTree.access "missing" categories metadataFile).run oneHost).1 =
      .error (.notDirectory "missing") := by
  have free : oneHost.get? [.ofText "missing"] = none := by
    simp [oneHost, FileTree.get?, FileTree.outside]
  have hlookup : oneHost.lookup "missing" = .error .notFound :=
    lookup_free_name free (by decide +kernel) (by decide +kernel) (by decide +kernel)
      (.inl (by decide +kernel))
  simp [HostDirectory.load, FileTree.access, FileTree.isDirectory, hlookup]
  rfl

/-- The missing directory adds its message and the exit status, and nothing to what is printed for
the other one. -/
theorem derive_beside_missing_directory :
    FileTree.access.ReadOnly oneHost ∧ bothHosts.json = none ∧
    ∃ alone both,
      (runDerive FileTree.access false { bothHosts with hosts := ["web01"] }).run oneHost =
        (alone, oneHost) ∧
      (runDerive FileTree.access false bothHosts).run oneHost = (both, oneHost) ∧
      both.stdout = alone.stdout ∧
      both.stderr = unloadedText "missing" (.notDirectory "missing") ++ alone.stderr ∧
      both.exit = some 1 ∧ both.result = .ok () := by
  have readOnly := FileTree.readOnly_access oneHost
  have noDocument : bothHosts.json = none := rfl
  rcases runDerive_composes readOnly false noDocument with ⟨derived, hrun, hloads, -⟩
  rcases hloads .default load_config_oneHost with ⟨schedule, -, composes⟩
  have unloaded := composes.unloaded [] "missing" ["web01"] _ (load_missing_oneHost _ _)
  refine ⟨readOnly, noDocument, derived ["web01"], derived bothHosts.hosts, hrun _, hrun _,
    unloaded.1, ?_, ?_, composes.result _⟩
  · have hnone := composes.stderr []
    rw [List.filterMap_nil, String.join_nil] at hnone
    have hstderr := unloaded.2
    rw [hnone, String.empty_append] at hstderr
    exact hstderr
  · rw [composes.exit]
    exact ⟨rfl, rfl, "missing", List.mem_cons_self, .inl ⟨_, load_missing_oneHost _ _⟩⟩

end Command

end HostSurvey
