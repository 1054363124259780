import HostSurvey.Proofs.Run.Discipline
import HostSurvey.Proofs.Text.Lines
import HostSurvey.Report.Console

/-!
# The lines of the console report

Whatever was found, a report without colours consists of the lines that belong in it. A detail of
several lines gives its first one, so it neither adds a line nor takes one away, and the names in a
block are padded to the longest of them. The counts at the end of a block are those of its marks.
-/

namespace HostSurvey.Console

open Text

/-! ## What the lines of a host tell -/

/-- All outcomes of some findings in the order of their kinds. -/
structure Recorded (findings : Findings) (entries : List (Kind × Outcome)) : Prop where
  ascending : entries.Pairwise fun a b => a.1.index < b.1.index
  complete : ∀ kind outcome, (kind, outcome) ∈ entries ↔ findings.outcome? kind = some outcome

/-- The length of the longest name of a kind. -/
structure LongestName (entries : List (Kind × Outcome)) (width : Nat) : Prop where
  bound : ∀ entry ∈ entries, entry.1.name.length ≤ width
  reached : entries ≠ [] → ∃ entry ∈ entries, entry.1.name.length = width

/-- A line shows an outcome: after two spaces its mark, after another one the name of its kind, with
spaces up to a width, and after a colon the first line of its detail. -/
def ShowsOutcome (width : Nat) (entry : Kind × Outcome) (line : String) : Prop :=
  ∃ spaces told, entry.1.name.length + spaces = width ∧
    FirstLine (detail entry.2).toList told ∧
    line = "  " ++ mark entry.2 ++ " " ++
      (entry.1.name ++ String.ofList (List.replicate spaces ' ')) ++ " : " ++ String.ofList told

/-- A line has a mark after two spaces. -/
def Marked (mark line : String) : Bool := ("  " ++ mark ++ " ").toList.isPrefixOf line.toList

/-- The lines about one host. -/
structure Block where
  name : String
  outcomeLines : List String
  found : Nat
  absent : Nat
  failed : Nat

def Block.lines (b : Block) : List String :=
  b.name :: (b.outcomeLines ++ [s!"  {b.found} found, {b.absent} absent, {b.failed} failed"])

/-- A block tells the findings of a host. -/
structure Block.Tells (b : Block) (host : HostFindings) : Prop where
  name : b.name = host.host
  outcomes : ∃ entries width, Recorded host.findings entries ∧ LongestName entries width ∧
    List.Forall₂ (ShowsOutcome width) entries b.outcomeLines
  found : b.found = b.outcomeLines.countP (Marked "✔")
  absent : b.absent = b.outcomeLines.countP (Marked "–")
  failed : b.failed = b.outcomeLines.countP (Marked "✘")
  total : b.found + b.absent + b.failed = b.outcomeLines.length

/-! ## Findings in the order of their kinds -/

theorem recorded_toList (findings : Findings) : Recorded findings findings.toList := by
  apply Recorded.mk
  · have hall : Kind.all.Pairwise fun a b => a.index < b.index := by decide
    have hkinds := hall.filter fun kind => (findings.outcome? kind).isSome
    rw [← Findings.map_fst_toList, List.pairwise_map] at hkinds
    exact hkinds
  · exact fun kind outcome => Findings.mem_toList

theorem longestName_nameWidth (findings : Findings) :
    LongestName findings.toList (nameWidth findings) := by
  have hwidth : nameWidth findings =
      ((findings.toList.map fun entry => entry.1.name.length).max?).getD 0 := rfl
  rw [hwidth]
  cases hmax : (findings.toList.map fun entry => entry.1.name.length).max? with
  | none =>
    rw [List.max?_eq_none_iff, List.map_eq_nil_iff] at hmax
    rw [hmax]
    exact ⟨fun entry hmem => absurd hmem List.not_mem_nil, fun hne => absurd rfl hne⟩
  | some width =>
    rcases List.max?_eq_some_iff.1 hmax with ⟨hmem, hbound⟩
    rcases List.mem_map.1 hmem with ⟨entry, hentry, hwidth⟩
    exact ⟨fun entry hmem => hbound _ (List.mem_map_of_mem hmem), fun _ => ⟨entry, hentry, hwidth⟩⟩

/-! ## Texts without control characters -/

/-- No character is a control character, as line feeds and escape characters are. -/
def isPrinted (text : String) : Bool := text.toList.all fun c => !(c.toNat < 0x20)

theorem not_mem_of_isPrinted {c : Char} {text : String} (control : c.toNat < 0x20)
    (h : isPrinted text = true) : c ∉ text.toList := by
  intro hmem
  have hc := List.all_eq_true.1 h c hmem
  simp [control] at hc

theorem isPrinted_append (front back : String) :
    isPrinted (front ++ back) = (isPrinted front && isPrinted back) := by
  rw [isPrinted, String.toList_append, List.all_append, isPrinted, isPrinted]

theorem isPrinted_toString (n : Nat) : isPrinted (toString n) = true := by
  rw [isPrinted, List.all_eq_true]
  intro c hc
  rw [Nat.toString_eq_ofList_toDigits, String.toList_ofList] at hc
  have hdigit : c.isDigit = true := Nat.isDigit_of_mem_toDigits (Nat.succ_pos 9) le_rfl hc
  have hzero : 0x30 ≤ c.toNat := (Char.isDigit_iff_toNat.1 hdigit).1
  simp
  omega

theorem isPrinted_name (kind : Kind) : isPrinted kind.name = true := by
  have hall : (Kind.all.all fun kind => isPrinted kind.name) = true := rfl
  exact List.all_eq_true.1 hall kind (Kind.mem_all kind)

theorem isPrinted_mark (outcome : Outcome) : isPrinted (mark outcome) = true := by
  have hmarks : isPrinted "✔" ∧ isPrinted "–" ∧ isPrinted "✘" := ⟨rfl, rfl, rfl⟩
  cases outcome with
  | found fact => exact hmarks.1
  | absent absence => exact hmarks.2.1
  | failed failure => exact hmarks.2.2

theorem isPrinted_countLine (findings : Findings) : isPrinted (countLine findings) = true := by
  have hcount : countLine findings = "  " ++ toString (findings.count Outcome.isFound) ++
    " found, " ++ toString (findings.count Outcome.isAbsent) ++ " absent, " ++
    toString (findings.count Outcome.isFailed) ++ " failed" := rfl
  simp only [hcount, isPrinted_append, isPrinted_toString, Bool.and_true]
  rfl

/-! ## Outcome lines -/

section

variable {width : Nat} {kind : Kind} {outcome : Outcome} {line : String}

theorem showsOutcome_outcomeLine (h : kind.name.length ≤ width) (outcome : Outcome) :
    ShowsOutcome width (kind, outcome) (outcomeLine false width kind outcome) :=
  ⟨width - kind.name.length, firstLine (detail outcome).toList, Nat.add_sub_cancel' h,
    firstLine_iff.2 rfl, rfl⟩

/-- A line shows an outcome by exactly one of the three marks. -/
theorem ShowsOutcome.marked (h : ShowsOutcome width (kind, outcome) line) :
    Marked "✔" line = outcome.isFound ∧ Marked "–" line = outcome.isAbsent ∧
      Marked "✘" line = outcome.isFailed := by
  rcases h with ⟨spaces, told, -, -, rfl⟩
  cases outcome <;>
    simp [Marked, mark, String.toList_append, List.isPrefixOf, Outcome.isFound,
      Outcome.isAbsent, Outcome.isFailed]

theorem ShowsOutcome.unbroken (h : ShowsOutcome width (kind, outcome) line) :
    '\n' ∉ line.toList := by
  rcases h with ⟨spaces, told, -, first, rfl⟩
  have hname : '\n' ∉ kind.name.toList := not_mem_of_isPrinted (by decide) (isPrinted_name kind)
  have hmark : '\n' ∉ (mark outcome).toList :=
    not_mem_of_isPrinted (by decide) (isPrinted_mark outcome)
  simp [String.toList_append, hname, hmark, first.not_mem]

end

/-! ## Blocks -/

/-- The lines about a host as they are printed without colours. -/
def blockOf (host : HostFindings) : Block where
  name := host.host
  outcomeLines := host.findings.toList.map fun (kind, outcome) =>
    outcomeLine false (nameWidth host.findings) kind outcome
  found := host.findings.count Outcome.isFound
  absent := host.findings.count Outcome.isAbsent
  failed := host.findings.count Outcome.isFailed

theorem block_eq_lines (host : HostFindings) : block false host = (blockOf host).lines := rfl

theorem showsOutcome_of_mem {findings : Findings} {entry : Kind × Outcome}
    (h : entry ∈ findings.toList) :
    ShowsOutcome (nameWidth findings) entry
      (outcomeLine false (nameWidth findings) entry.1 entry.2) :=
  showsOutcome_outcomeLine ((longestName_nameWidth findings).bound entry h) entry.2

theorem countP_outcomeLines {findings : Findings} {shown : String → Bool} {test : Outcome → Bool}
    (h : ∀ width kind outcome line, ShowsOutcome width (kind, outcome) line →
      shown line = test outcome) :
    findings.count test = (findings.toList.map fun (kind, outcome) =>
      outcomeLine false (nameWidth findings) kind outcome).countP shown := by
  rw [List.countP_map]
  apply List.countP_congr
  intro entry hentry
  have hshown := h _ _ _ _ (showsOutcome_of_mem hentry)
  show test entry.2 = true ↔ shown _ = true
  rw [hshown]

theorem tells_blockOf (host : HostFindings) : (blockOf host).Tells host := by
  apply Block.Tells.mk
  · rfl
  · refine ⟨host.findings.toList, nameWidth host.findings, recorded_toList _,
      longestName_nameWidth _, ?_⟩
    show List.Forall₂ _ _ (List.map _ _)
    rw [List.forall₂_map_right_iff, List.forall₂_same]
    exact fun entry hentry => showsOutcome_of_mem hentry
  · exact countP_outcomeLines fun _ _ _ _ h => h.marked.1
  · exact countP_outcomeLines fun _ _ _ _ h => h.marked.2.1
  · exact countP_outcomeLines fun _ _ _ _ h => h.marked.2.2
  · show _ = (List.map _ _).length
    rw [List.length_map]
    exact host.findings.count_add_count_add_count

theorem unbroken_blockOf {host : HostFindings} (named : '\n' ∉ host.host.toList) :
    ∀ line ∈ (blockOf host).lines, '\n' ∉ line.toList := by
  intro line hline
  rcases List.mem_cons.1 hline with rfl | hline
  · exact named
  rcases List.mem_append.1 hline with hline | hline
  · rcases List.mem_map.1 hline with ⟨entry, hentry, rfl⟩
    exact (showsOutcome_of_mem hentry).unbroken
  · rw [List.mem_singleton.1 hline]
    exact not_mem_of_isPrinted (by decide) (isPrinted_countLine host.findings)

/-! ## Reports -/

theorem ended_append (front back : List String) :
    ended (front ++ back) = ended front ++ ended back := by
  unfold ended
  rw [List.map_append, String.join_append]

theorem intercalate_ended (blocks : List (List String)) :
    "\n".intercalate (blocks.map ended) = ended ([""].intercalate blocks) := by
  induction blocks with
  | nil => rfl
  | cons block rest ih =>
    cases rest with
    | nil => simp
    | cons next rest =>
      rw [List.map_cons, List.map_cons, String.intercalate_cons_cons, ← List.map_cons, ih,
        List.intercalate_cons_cons, ended_append, ended_append]
      rfl

theorem toList_ended_cons (line : String) (rest : List String) :
    (ended (line :: rest)).toList = line.toList ++ '\n' :: (ended rest).toList := by
  simp [ended, String.join_cons, String.toList_append]

theorem pieces_ended_eq_flatMap (shown : List String) :
    pieces (· == '\n') (ended shown).toList =
      (shown.flatMap fun line => pieces (· == '\n') line.toList) ++ [[]] := by
  induction shown with
  | nil => rfl
  | cons line rest ih =>
    rw [toList_ended_cons, pieces_append_cons (p := (· == '\n')) (beq_self_eq_true '\n'), ih,
      List.flatMap_cons, List.append_assoc]

theorem pieces_ended {shown : List String} (h : ∀ line ∈ shown, '\n' ∉ line.toList) :
    pieces (· == '\n') (ended shown).toList = shown.map String.toList ++ [[]] := by
  rw [pieces_ended_eq_flatMap, ← List.flatMap_pure_eq_map]
  congr 1
  exact List.flatMap_congr fun line hline => pieces_of_not_mem (h line hline)

theorem report_cons_cons (colours : Bool) (host next : HostFindings) (hosts : List HostFindings) :
    report colours (host :: next :: hosts) =
      ended (block colours host) ++ "\n" ++ report colours (next :: hosts) :=
  String.intercalate_cons_cons

theorem report_eq_ended (colours : Bool) (hosts : List HostFindings) :
    report colours hosts = ended ([""].intercalate (hosts.map (block colours))) := by
  rw [← intercalate_ended, List.map_map]
  rfl

theorem pieces_report {hosts : List HostFindings}
    (named : ∀ host ∈ hosts, '\n' ∉ host.host.toList) :
    pieces (· == '\n') (report false hosts).toList =
      ([""].intercalate (hosts.map (block false))).map String.toList ++ [[]] := by
  rw [report_eq_ended]
  apply pieces_ended
  intro line hline
  rcases mem_intercalate hline with hline | ⟨lines, hlines, hline⟩
  · rw [List.mem_singleton.1 hline]
    exact List.not_mem_nil
  · rcases List.mem_map.1 hlines with ⟨host, hhost, rfl⟩
    rw [block_eq_lines] at hline
    exact unbroken_blockOf (named host hhost) line hline

/-- A report without colours consists of the lines of each host, with an empty line between two
hosts, if no host name has a line break. -/
theorem report_tells_lines {hosts : List HostFindings}
    (named : ∀ host ∈ hosts, '\n' ∉ host.host.toList) :
    ∃ blocks : List Block, List.Forall₂ Block.Tells blocks hosts ∧
      pieces (· == '\n') (report false hosts).toList =
        ([""].intercalate (blocks.map Block.lines)).map String.toList ++ [[]] := by
  refine ⟨hosts.map blockOf, ?_, ?_⟩
  · rw [List.forall₂_map_left_iff, List.forall₂_same]
    exact fun host _ => tells_blockOf host
  · rw [pieces_report named, List.map_map]
    rfl

/-- Findings with details of two lines. -/
def noisyHost : HostFindings where
  host := "db01"
  findings := (Findings.empty.record .memory
    (.failed (.faulted .memory (.stated "no module\r\nin any slot")))).record
      (.reading .kernelIdentity) (.absent (.abstained "no machine\nnamed"))

theorem block_noisyHost : block false noisyHost =
    ["db01", "  – uname       : abstained: no machine", "  ✘ memory_size : no module",
      "  0 found, 1 absent, 1 failed"] := by
  decide +kernel

/-- The report on two such hosts has no line for the rest of a detail. -/
theorem report_of_noisy_hosts :
    (∀ host ∈ [noisyHost, noisyHost], '\n' ∉ host.host.toList) ∧
    ∃ blocks : List Block, List.Forall₂ Block.Tells blocks [noisyHost, noisyHost] ∧
      ([""].intercalate (blocks.map Block.lines)).map String.toList ++ [[]] =
        ["db01", "  – uname       : abstained: no machine", "  ✘ memory_size : no module",
          "  0 found, 1 absent, 1 failed", "", "db01", "  – uname       : abstained: no machine",
          "  ✘ memory_size : no module", "  0 found, 1 absent, 1 failed", ""].map String.toList := by
  have named : ∀ host ∈ [noisyHost, noisyHost], '\n' ∉ host.host.toList := by decide
  rcases report_tells_lines named with ⟨blocks, tells, hpieces⟩
  refine ⟨named, blocks, tells, ?_⟩
  rw [← hpieces, pieces_report named, List.map_cons, List.map_singleton, block_noisyHost]
  rfl

end HostSurvey.Console
