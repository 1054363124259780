import HostSurvey.Evaluation.Builtin
import HostSurvey.Proofs.Json.Printer
import HostSurvey.Proofs.Report.FactDocuments
import HostSurvey.Proofs.Run.Discipline
import HostSurvey.Report.Document

/-!
# What a report document tells

A report document has every outcome of every host in its place, and the hosts with their outcomes
can be told from its text. Facts are told by the kinds that they stand under, and absences and
failures by their messages.
-/

namespace HostSurvey

/-- Outcomes that a reader of messages cannot tell apart: the same fact, the same absence, or
failures with one message. -/
inductive Outcome.Same : Outcome → Outcome → Prop
  | found (fact : Fact) : Same (.found fact) (.found fact)
  | absent (absence : Absence) : Same (.absent absence) (.absent absence)
  | failed {failure other : Failure} (message : failure.message = other.message) :
      Same (.failed failure) (.failed other)

/-- Hosts with the same name whose kinds have the same outcomes, or none on either side. -/
structure HostFindings.Same (host other : HostFindings) : Prop where
  name : host.host = other.host
  outcomes : ∀ kind,
    Option.Rel Outcome.Same (host.findings.outcome? kind) (other.findings.outcome? kind)

theorem HostFindings.Same.fact?_eq {host other : HostFindings} (same : host.Same other)
    (kind : Kind) : host.findings.fact? kind = other.findings.fact? kind := by
  have houtcomes := same.outcomes kind
  unfold Findings.fact?
  generalize host.findings.outcome? kind = one at houtcomes ⊢
  generalize other.findings.outcome? kind = two at houtcomes ⊢
  cases houtcomes with
  | none => rfl
  | some h => cases h <;> rfl

/-- The findings of a host come from a run of built-in components. -/
def HostFindings.Surveyed (host : HostFindings) : Prop :=
  ∃ components schedule artifacts, components ⊆ Component.builtins ∧
    Schedule.ofComponents components = .ok schedule ∧
    host.findings = (schedule.run artifacts).findings

theorem HostFindings.Surveyed.typed {host : HostFindings} (h : host.Surveyed) :
    ∀ kind fact, host.findings.outcome? kind = some (.found fact) → fact.kind = kind := by
  rcases h with ⟨components, schedule, artifacts, -, accepted, hfindings⟩
  rw [hfindings]
  intro kind fact found
  exact Schedule.kind_of_found accepted artifacts found

/-! ## Messages of absences -/

namespace Absence

theorem message_abstained (reason : String) :
    (abstained reason).message = "abstained: " ++ reason := rfl

theorem message_missingArtifact (category : Category) :
    (missingArtifact category).message = "missing context `" ++ category.name ++ "`" := rfl

theorem message_missingFact (kind : Kind) :
    (missingFact kind).message = "missing fact `" ++ kind.name ++ "`" := rfl

-- The three wordings differ in one of their first nine characters.
theorem message_injective : Function.Injective message := by
  intro a b h
  have hstart : a.message.toList.take 9 = b.message.toList.take 9 := by rw [h]
  cases a with
  | abstained reason =>
    cases b with
    | abstained other =>
      rw [message_abstained, message_abstained, String.append_right_inj] at h
      rw [h]
    | missingArtifact category => simp [message_abstained, message_missingArtifact] at hstart
    | missingFact kind => simp [message_abstained, message_missingFact] at hstart
  | missingArtifact category =>
    cases b with
    | abstained reason => simp [message_abstained, message_missingArtifact] at hstart
    | missingArtifact other =>
      rw [message_missingArtifact, message_missingArtifact, String.append_left_inj,
        String.append_right_inj] at h
      rw [Category.name_injective h]
    | missingFact kind => simp [message_missingFact, message_missingArtifact] at hstart
  | missingFact kind =>
    cases b with
    | abstained reason => simp [message_abstained, message_missingFact] at hstart
    | missingArtifact category => simp [message_missingFact, message_missingArtifact] at hstart
    | missingFact other =>
      rw [message_missingFact, message_missingFact, String.append_left_inj,
        String.append_right_inj] at h
      rw [Kind.name_injective h]

end Absence

namespace Report

/-! ## The fields of a host -/

section Fields

variable {findings others : Findings} {value? : Outcome → Option Json}

theorem mem_fields_iff {name : String} {value : Json} :
    (name, value) ∈ fields findings value? ↔ ∃ kind, name = Kind.name kind ∧
      ∃ outcome, findings.outcome? kind = some outcome ∧ value? outcome = some value := by
  unfold fields
  rw [List.mem_filterMap]
  apply Iff.intro
  · intro h
    rcases h with ⟨kind, -, hfield⟩
    rcases Option.map_eq_some_iff.1 hfield with ⟨found, hvalue, hpair⟩
    rcases Option.bind_eq_some_iff.1 hvalue with ⟨outcome, houtcome, hfound⟩
    cases hpair
    exact ⟨kind, rfl, outcome, houtcome, hfound⟩
  · intro h
    rcases h with ⟨kind, rfl, outcome, houtcome, hvalue⟩
    refine ⟨kind, mem_kindsByName kind, ?_⟩
    rw [houtcome, Option.bind_some, hvalue, Option.map_some]

-- The fields under the name of a kind are those of its outcome.
theorem bind_outcome?_eq (h : fields findings value? = fields others value?) (kind : Kind) :
    (findings.outcome? kind).bind value? = (others.outcome? kind).bind value? := by
  have hsub : ∀ {one other : Findings}, fields one value? = fields other value? → ∀ value,
      (one.outcome? kind).bind value? = some value →
        (other.outcome? kind).bind value? = some value := by
    intro one other h value hvalue
    rcases Option.bind_eq_some_iff.1 hvalue with ⟨outcome, houtcome, hfound⟩
    have hmem : (kind.name, value) ∈ fields one value? :=
      mem_fields_iff.2 ⟨kind, rfl, outcome, houtcome, hfound⟩
    rw [h] at hmem
    rcases mem_fields_iff.1 hmem with ⟨named, hname, outcome', houtcome', hfound'⟩
    rw [Kind.name_injective hname, houtcome', Option.bind_some, hfound']
  apply Option.ext
  intro value
  exact ⟨hsub h value, hsub h.symm value⟩

theorem names_nodup : ((fields findings value?).map (·.1)).Nodup := by
  have hnames : (fields findings value?).map (·.1) =
      (kindsByName.filter fun kind =>
        ((findings.outcome? kind).bind value?).isSome).map Kind.name := by
    unfold fields
    induction kindsByName with
    | nil => rfl
    | cons kind rest ih =>
      rw [List.filterMap_cons, List.filter_cons]
      cases (findings.outcome? kind).bind value? with
      | none => simpa using ih
      | some value => simpa using ih
  rw [hnames]
  have hsorted : (kindsByName.map Kind.name).Nodup :=
    kindsByName_sorted.imp fun hlt => String.ne_of_lt hlt
  exact hsorted.sublist (List.filter_sublist.map _)

end Fields

/-! ## One host -/

/-- The three objects in which the outcomes of a host stand: a fact that was found as its document,
an absence and a failure as their messages, each under the name of its kind. All kinds that have an
outcome stand in one of them, once. -/
structure Shows (findings : Findings) (absent facts failed : List (String × Json)) : Prop where
  absent_iff : ∀ name value, (name, value) ∈ absent ↔ ∃ kind absence, name = Kind.name kind ∧
    findings.outcome? kind = some (.absent absence) ∧ value = .text absence.message
  facts_iff : ∀ name value, (name, value) ∈ facts ↔ ∃ kind fact, name = Kind.name kind ∧
    findings.outcome? kind = some (.found fact) ∧ value = fact.toJson
  failed_iff : ∀ name value, (name, value) ∈ failed ↔ ∃ kind failure, name = Kind.name kind ∧
    findings.outcome? kind = some (.failed failure) ∧ value = .text failure.message
  once : ((absent ++ facts ++ failed).map (·.1)).Perm
    (findings.toList.map fun entry => entry.1.name)

theorem absentField?_eq_some_iff {outcome : Outcome} {value : Json} :
    absentField? outcome = some value ↔
      ∃ absence, outcome = .absent absence ∧ value = .text absence.message := by
  cases outcome <;> simp [absentField?, eq_comm]

theorem foundField?_eq_some_iff {outcome : Outcome} {value : Json} :
    foundField? outcome = some value ↔ ∃ fact, outcome = .found fact ∧ value = fact.toJson := by
  cases outcome <;> simp [foundField?, eq_comm]

theorem failedField?_eq_some_iff {outcome : Outcome} {value : Json} :
    failedField? outcome = some value ↔
      ∃ failure, outcome = .failed failure ∧ value = .text failure.message := by
  cases outcome <;> simp [failedField?, eq_comm]

theorem mem_names_iff {findings : Findings} {value? : Outcome → Option Json} {name : String} :
    name ∈ (fields findings value?).map (·.1) ↔ ∃ kind outcome, name = Kind.name kind ∧
      findings.outcome? kind = some outcome ∧ (value? outcome).isSome := by
  rw [List.mem_map]
  apply Iff.intro
  · intro h
    rcases h with ⟨⟨name, value⟩, hmem, rfl⟩
    rcases mem_fields_iff.1 hmem with ⟨kind, hname, outcome, houtcome, hvalue⟩
    exact ⟨kind, outcome, hname, houtcome, Option.isSome_of_eq_some hvalue⟩
  · intro h
    rcases h with ⟨kind, outcome, hname, houtcome, hvalue⟩
    rcases Option.isSome_iff_exists.1 hvalue with ⟨value, hvalue⟩
    exact ⟨(name, value), mem_fields_iff.2 ⟨kind, hname, outcome, houtcome, hvalue⟩, rfl⟩

-- A kind has one outcome, so two objects share a name only if both have a place for the outcome.
theorem names_disjoint {findings : Findings} {value? other? : Outcome → Option Json}
    (h : ∀ outcome, (value? outcome).isSome → other? outcome = none) :
    ((fields findings value?).map (·.1)).Disjoint ((fields findings other?).map (·.1)) := by
  intro name hone hother
  rcases mem_names_iff.1 hone with ⟨kind, outcome, hname, houtcome, hvalue⟩
  rcases mem_names_iff.1 hother with ⟨kind', outcome', hname', houtcome', hvalue'⟩
  rcases Kind.name_injective (hname.symm.trans hname') with rfl
  rcases Option.some.inj (houtcome.symm.trans houtcome') with rfl
  rw [h outcome hvalue] at hvalue'
  cases hvalue'

theorem names_perm (findings : Findings) :
    ((fields findings absentField? ++ fields findings foundField? ++
      fields findings failedField?).map (·.1)).Perm
        (findings.toList.map fun entry => entry.1.name) := by
  have hnames : (findings.toList.map fun entry => entry.1.name) =
      (Kind.all.filter fun kind => (findings.outcome? kind).isSome).map Kind.name := by
    rw [← Findings.map_fst_toList, List.map_map]
    rfl
  rw [hnames, List.map_append, List.map_append]
  apply (List.perm_ext_iff_of_nodup ?_ ?_).2
  · intro name
    rw [List.mem_append, List.mem_append, mem_names_iff, mem_names_iff, mem_names_iff,
      List.mem_map]
    apply Iff.intro
    · intro h
      rcases h with (⟨kind, outcome, hname, houtcome, -⟩ | ⟨kind, outcome, hname, houtcome, -⟩) |
        ⟨kind, outcome, hname, houtcome, -⟩ <;>
        exact ⟨kind, by simp [Kind.mem_all, houtcome], hname.symm⟩
    · intro h
      rcases h with ⟨kind, hevaluated, rfl⟩
      have hevaluated := (List.mem_filter.1 hevaluated).2
      rcases Option.isSome_iff_exists.1 hevaluated with ⟨outcome, houtcome⟩
      cases outcome with
      | absent absence => exact .inl (.inl ⟨kind, _, rfl, houtcome, rfl⟩)
      | found fact => exact .inl (.inr ⟨kind, _, rfl, houtcome, rfl⟩)
      | failed failure => exact .inr ⟨kind, _, rfl, houtcome, rfl⟩
  · apply List.Nodup.append (names_nodup.append names_nodup ?_) names_nodup
    · rw [List.disjoint_append_left]
      apply And.intro
      · apply names_disjoint
        intro outcome
        cases outcome <;> simp [absentField?, failedField?]
      · apply names_disjoint
        intro outcome
        cases outcome <;> simp [foundField?, failedField?]
    · apply names_disjoint
      intro outcome
      cases outcome <;> simp [absentField?, foundField?]
  · exact (Kind.nodup_all.filter _).map fun _ _ => Kind.name_injective

theorem shows_fields (findings : Findings) :
    Shows findings (fields findings absentField?) (fields findings foundField?)
      (fields findings failedField?) := by
  refine ⟨?_, ?_, ?_, names_perm findings⟩
  · intro name value
    simp only [mem_fields_iff, absentField?_eq_some_iff]
    grind
  · intro name value
    simp only [mem_fields_iff, foundField?_eq_some_iff]
    grind
  · intro name value
    simp only [mem_fields_iff, failedField?_eq_some_iff]
    grind

/-- The document of a host is its name beside three objects that show its findings. -/
def ShownAs (host : HostFindings) (hostDocument : Json) : Prop :=
  ∃ absent facts failed,
    hostDocument = .object [("absent", .object absent), ("facts", .object facts),
      ("failed", .object failed), ("host", .text host.host)] ∧
    Shows host.findings absent facts failed

theorem shownAs_hostDocument (host : HostFindings) : ShownAs host (hostDocument host) :=
  ⟨_, _, _, rfl, shows_fields host.findings⟩

/-! ## Hosts by their documents -/

-- Which of the three objects an outcome stands in tells whether it is a fact, an absence or a
-- failure.
theorem same_of_values_eq {kind : Kind} {one other : Option Outcome}
    (typed : ∀ fact, one = some (.found fact) → fact.kind = kind)
    (typed' : ∀ fact, other = some (.found fact) → fact.kind = kind)
    (habsent : one.bind absentField? = other.bind absentField?)
    (hfound : one.bind foundField? = other.bind foundField?)
    (hfailed : one.bind failedField? = other.bind failedField?) :
    Option.Rel Outcome.Same one other := by
  cases one with
  | none =>
    cases other with
    | none => exact .none
    | some outcome =>
      cases outcome <;> simp [absentField?, foundField?, failedField?] at habsent hfound hfailed
  | some outcome =>
    cases other with
    | none =>
      cases outcome <;> simp [absentField?, foundField?, failedField?] at habsent hfound hfailed
    | some outcome' =>
      apply Option.Rel.some
      cases outcome with
      | found fact =>
        cases outcome' with
        | found fact' =>
          have hkind := (typed fact rfl).trans (typed' fact' rfl).symm
          rw [Fact.eq_of_toJson_eq hkind (Option.some.inj hfound)]
          exact .found fact'
        | absent absence => simp [foundField?] at hfound
        | failed failure => simp [foundField?] at hfound
      | absent absence =>
        cases outcome' with
        | absent absence' =>
          rw [Absence.message_injective (Json.text.inj (Option.some.inj habsent))]
          exact .absent absence'
        | found fact => simp [absentField?] at habsent
        | failed failure => simp [absentField?] at habsent
      | failed failure =>
        cases outcome' with
        | failed failure' => exact .failed (Json.text.inj (Option.some.inj hfailed))
        | found fact => simp [failedField?] at hfailed
        | absent absence => simp [failedField?] at hfailed

theorem same_of_hostDocument_eq {host other : HostFindings} (surveyed : host.Surveyed)
    (surveyed' : other.Surveyed) (h : hostDocument host = hostDocument other) :
    host.Same other := by
  unfold hostDocument at h
  simp only [Json.object.injEq, List.cons.injEq, Prod.mk.injEq, Json.text.injEq, true_and,
    and_true] at h
  rcases h with ⟨habsent, hfacts, hfailed, hname⟩
  apply HostFindings.Same.mk hname
  intro kind
  exact same_of_values_eq (surveyed.typed kind) (surveyed'.typed kind)
    (bind_outcome?_eq habsent kind) (bind_outcome?_eq hfacts kind) (bind_outcome?_eq hfailed kind)

theorem forall₂_same_of_document_eq {hosts others : List HostFindings}
    (surveyed : ∀ host ∈ hosts, host.Surveyed) (surveyed' : ∀ host ∈ others, host.Surveyed)
    (h : document hosts = document others) : List.Forall₂ HostFindings.Same hosts others := by
  have hdocuments : hosts.map hostDocument = others.map hostDocument := by
    simpa [document] using h
  clear h
  induction hosts generalizing others with
  | nil =>
    rw [List.map_nil, eq_comm, List.map_eq_nil_iff] at hdocuments
    rw [hdocuments]
    exact .nil
  | cons host rest ih =>
    cases others with
    | nil => cases hdocuments
    | cons other rest' =>
      rw [List.map_cons, List.map_cons, List.cons.injEq] at hdocuments
      rw [List.forall_mem_cons] at surveyed surveyed'
      exact .cons (same_of_hostDocument_eq surveyed.1 surveyed'.1 hdocuments.1)
        (ih surveyed.2 surveyed'.2 hdocuments.2)

/-- What is written for some hosts is an object with a document for each of them, in order, that
shows all of its outcomes. From what is written, the hosts are told with their names and outcomes;
from what is written for a node of a performance log, the node is told. -/
theorem documentText_tells_findings {hosts others : List HostFindings}
    (surveyed : ∀ host ∈ hosts, host.Surveyed) (surveyed' : ∀ host ∈ others, host.Surveyed) :
    (∃ documents, documentText hosts = (Json.object [("hosts", .array documents)]).pretty ∧
      List.Forall₂ ShownAs hosts documents) ∧
    (documentText hosts = documentText others → List.Forall₂ HostFindings.Same hosts others) ∧
    ∀ node other : PerformanceLog.Node, node.toJson.pretty = other.toJson.pretty → node = other := by
  refine ⟨⟨hosts.map hostDocument, rfl, ?_⟩, ?_, ?_⟩
  · rw [List.forall₂_map_right_iff]
    exact List.forall₂_same.2 fun host _ => shownAs_hostDocument host
  · intro h
    exact forall₂_same_of_document_eq surveyed surveyed' (Json.pretty_injective h)
  · intro node other h
    exact PerformanceLog.Node.eq_of_toJson_eq node other (Json.pretty_injective h)

/-- A host with a performance log and nothing else. -/
def hostWithLog (log : String) : HostFindings :=
  ⟨"web01", ((⟨[Component.reading .performanceLog]⟩ : Schedule).run
    [Artifact.ofText .performanceLog log]).findings⟩

theorem surveyed_hostWithLog (log : String) : (hostWithLog log).Surveyed := by
  refine ⟨[Component.reading .performanceLog], _, [Artifact.ofText .performanceLog log], ?_, ?_,
    rfl⟩
  · intro component hmem
    rw [List.mem_singleton.1 hmem]
    exact List.mem_append_left _ (List.mem_map_of_mem (by decide))
  · cbv

/-- A reading is not written as a branch with nodes `unit` and `value`. -/
theorem reading_not_written_as_branch :
    (∀ host ∈ [hostWithLog "cpu 7 unit"], host.Surveyed) ∧
    (∀ host ∈ [hostWithLog "cpu.unit 1 unit\ncpu.value 7 unit"], host.Surveyed) ∧
    documentText [hostWithLog "cpu 7 unit"] ≠
      documentText [hostWithLog "cpu.unit 1 unit\ncpu.value 7 unit"] := by
  have surveyed : ∀ log, ∀ host ∈ [hostWithLog log], host.Surveyed := by
    intro log host hmem
    rw [List.mem_singleton.1 hmem]
    exact surveyed_hostWithLog log
  refine ⟨surveyed _, surveyed _, ?_⟩
  intro h
  have same := (documentText_tells_findings (surveyed _) (surveyed _)).2.1 h
  have hfact := (List.forall₂_cons.1 same).1.fact?_eq (.reading .performanceLog)
  have hreading := congrArg (fun fact? => ((fact?.bind Fact.performanceLog?).bind fun log =>
    log.readingAt? "cpu").isSome) hfact
  revert hreading
  decide +kernel

end Report

end HostSurvey
