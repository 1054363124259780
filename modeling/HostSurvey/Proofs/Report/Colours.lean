import HostSurvey.Proofs.Report.ConsoleLines

/-!
# Colours of the console report

The coloured report is the plain one with escape sequences in it. Deleting these from the coloured
report gives the plain one, line by line, so names and details stand where they stood, and every
rendition that is started on a line is ended there, except in a host name of several lines.
-/

namespace HostSurvey.Console

open Text

variable {cs coloured plain code rest : List Char} {c : Char}

/-! ## Escape sequences -/

/-- The code of an escape sequence is a number in digits. -/
structure IsCode (code : List Char) : Prop where
  ne_nil : code ≠ []
  digits : ∀ c ∈ code, c.isDigit = true

instance (code : List Char) : Decidable (IsCode code) :=
  decidable_of_iff (code ≠ [] ∧ code.all Char.isDigit = true)
    ⟨fun h => ⟨h.1, List.all_eq_true.1 h.2⟩, fun h => ⟨h.ne_nil, List.all_eq_true.2 h.digits⟩⟩

/-- The escape sequence of a code. -/
def sequenceOf (code : List Char) : List Char := '\x1b' :: '[' :: (code ++ ['m'])

/-- The code of the escape sequence that a text starts with, and what follows the sequence. -/
def sequence? (cs : List Char) : Option (List Char × List Char) := do
  let body ← after? ['\x1b', '['] cs
  let rest ← after? ['m'] (body.dropWhile Char.isDigit)
  let code := body.takeWhile Char.isDigit
  if code = [] then none else some (code, rest)

theorem sequence?_eq_some_iff :
    sequence? cs = some (code, rest) ↔ IsCode code ∧ cs = sequenceOf code ++ rest := by
  have hsequence : sequenceOf code ++ rest = ['\x1b', '['] ++ (code ++ 'm' :: rest) := by
    simp [sequenceOf]
  apply Iff.intro
  · intro h
    rcases Option.bind_eq_some_iff.1 h with ⟨body, hbody, h⟩
    rcases Option.bind_eq_some_iff.1 h with ⟨after, hafter, h⟩
    rw [after?_eq_some_iff] at hbody hafter
    dsimp only at h
    split at h
    · cases h
    · next hne =>
      cases h
      refine ⟨⟨hne, fun c hc => List.mem_takeWhile_imp hc⟩, ?_⟩
      have hend : 'm' :: rest = body.dropWhile Char.isDigit := hafter.symm
      rw [hsequence, hend, List.takeWhile_append_dropWhile]
      exact hbody
  · intro h
    rcases h with ⟨hcode, rfl⟩
    have hstop : ∀ c ∈ ('m' :: rest).head?, c.isDigit = false := by
      intro c hc
      cases hc
      rfl
    have hafter : after? ['m'] ('m' :: rest) = some rest := after?_eq_some_iff.2 rfl
    rw [sequence?, hsequence, after?_eq_some_iff.2 rfl, Option.bind_eq_bind, Option.bind_some,
      dropWhile_run hcode.digits hstop, takeWhile_run hcode.digits hstop, hafter]
    exact if_neg hcode.ne_nil

/-- What stands in a text: a character that is shown, or an escape sequence. -/
inductive Sign
  | shown (c : Char)
  | sequence (code : List Char)

def Sign.shown? : Sign → Option Char
  | .shown c => some c
  | .sequence _ => none

theorem length_lt_of_sequence? (h : sequence? cs = some (code, rest)) : rest.length < cs.length := by
  rw [(sequence?_eq_some_iff.1 h).2, List.length_append, sequenceOf, List.length_cons]
  omega

def signs : List Char → List Sign
  | [] => []
  | c :: cs =>
    match h : sequence? (c :: cs) with
    | some (code, rest) =>
      have : rest.length ≤ cs.length := Nat.le_of_lt_succ (length_lt_of_sequence? h)
      .sequence code :: signs rest
    | none => .shown c :: signs cs
termination_by cs => cs.length

/-- A text without its escape sequences. -/
def withoutSequences (cs : List Char) : List Char := (signs cs).filterMap Sign.shown?

/-- The codes of the colours have two digits, of which the first is a three. -/
def isColour : List Char → Bool
  | ['3', _] => true
  | _ => false

/-- The renditions in force after a sign: the code `0` ends all of them, `39` ends the colours, and
any other code starts one. -/
def inForceAfter (codes : List (List Char)) : Sign → List (List Char)
  | .shown _ => codes
  | .sequence code =>
    if code = ['0'] then []
    else if code = ['3', '9'] then codes.filter fun code => !isColour code
    else code :: codes

/-- The renditions that a text starts and does not end. -/
def inForce (cs : List Char) : List (List Char) := (signs cs).foldl inForceAfter []

/-! ## Signs of texts put together -/

theorem signs_of_sequence? (h : sequence? cs = some (code, rest)) :
    signs cs = .sequence code :: signs rest := by
  cases cs with
  | nil => cases (sequence?_eq_some_iff.1 h).2
  | cons c cs =>
    rw [signs]
    split
    · next heq =>
      rw [h] at heq
      cases heq
      rfl
    · next hnone =>
      rw [h] at hnone
      cases hnone

theorem signs_of_no_sequence (h : sequence? (c :: cs) = none) :
    signs (c :: cs) = .shown c :: signs cs := by
  rw [signs]
  split
  · next hsome =>
    rw [h] at hsome
    cases hsome
  · rfl

theorem sequence?_cons_of_ne (h : c ≠ '\x1b') (cs : List Char) : sequence? (c :: cs) = none := by
  rw [Option.eq_none_iff_forall_ne_some]
  intro found hfound
  rcases sequence?_eq_some_iff.1 hfound with ⟨-, heq⟩
  exact h (List.cons.inj heq).1

theorem feed_not_mem_sequenceOf (hcode : IsCode code) : '\n' ∉ sequenceOf code := by
  have hdigits : '\n' ∉ code := by
    intro hmem
    cases hcode.digits '\n' hmem
  simp [sequenceOf, hdigits]

-- A line feed is in no sequence, so a sequence is either before it or after it.
theorem sequence?_append_feed (cs rest : List Char) :
    sequence? (cs ++ '\n' :: rest) =
      (sequence? cs).map fun found => (found.1, found.2 ++ '\n' :: rest) := by
  cases hcs : sequence? cs with
  | some found =>
    rcases found with ⟨code, after⟩
    rcases sequence?_eq_some_iff.1 hcs with ⟨hcode, rfl⟩
    exact sequence?_eq_some_iff.2 ⟨hcode, List.append_assoc _ _ _⟩
  | none =>
    rw [Option.map_none, Option.eq_none_iff_forall_ne_some]
    intro found hfound
    rcases sequence?_eq_some_iff.1 hfound with ⟨hcode, heq⟩
    have hbefore : ∀ after, cs ≠ sequenceOf found.1 ++ after := by
      intro after happend
      rw [sequence?_eq_some_iff.2 ⟨hcode, happend⟩] at hcs
      cases hcs
    rcases List.append_eq_append_iff.1 heq with ⟨across, hacross, hfeed⟩ | ⟨after, happend, -⟩
    · cases across with
      | nil =>
        rw [List.append_nil] at hacross
        exact hbefore [] (by rw [hacross, List.append_nil])
      | cons d across =>
        cases hfeed
        exact feed_not_mem_sequenceOf hcode (by simp [hacross])
    · exact hbefore after happend

theorem signs_append_feed (cs rest : List Char) :
    signs (cs ++ '\n' :: rest) = signs cs ++ .shown '\n' :: signs rest := by
  induction cs using signs.induct with
  | case1 =>
    rw [List.nil_append, signs_of_no_sequence (sequence?_cons_of_ne (by decide) rest), signs]
    rfl
  | case2 c cs code after h _ ih =>
    have happend : sequence? ((c :: cs) ++ '\n' :: rest) = some (code, after ++ '\n' :: rest) := by
      rw [sequence?_append_feed, h]
      rfl
    rw [signs_of_sequence? happend, ih, signs_of_sequence? h, List.cons_append]
  | case3 c cs h ih =>
    have happend : sequence? (c :: (cs ++ '\n' :: rest)) = none := by
      rw [← List.cons_append, sequence?_append_feed, h]
      rfl
    rw [List.cons_append, signs_of_no_sequence happend, ih, signs_of_no_sequence h, List.cons_append]

theorem mem_of_mem_withoutSequences (h : c ∈ withoutSequences cs) : c ∈ cs := by
  induction cs using signs.induct with
  | case1 =>
    rw [withoutSequences, signs] at h
    cases h
  | case2 d cs code after hsequence _ ih =>
    rw [withoutSequences, signs_of_sequence? hsequence] at h
    rw [(sequence?_eq_some_iff.1 hsequence).2]
    exact List.mem_append_right _ (ih h)
  | case3 d cs hnone ih =>
    rw [withoutSequences, signs_of_no_sequence hnone] at h
    change c ∈ d :: withoutSequences cs at h
    cases List.mem_cons.1 h with
    | inl heq => exact heq ▸ List.mem_cons_self
    | inr hmem => exact List.mem_cons_of_mem d (ih hmem)

theorem withoutSequences_append_feed (cs rest : List Char) :
    withoutSequences (cs ++ '\n' :: rest) = withoutSequences cs ++ '\n' :: withoutSequences rest := by
  rw [withoutSequences, signs_append_feed, List.filterMap_append]
  rfl

/-- The lines of a text without its sequences are its lines without theirs. -/
theorem pieces_withoutSequences (cs : List Char) :
    pieces (· == '\n') (withoutSequences cs) = (pieces (· == '\n') cs).map withoutSequences := by
  induction cs using feed_induction with
  | unbroken cs hcs =>
    have hwithout : '\n' ∉ withoutSequences cs := fun hmem => hcs (mem_of_mem_withoutSequences hmem)
    rw [pieces_of_not_mem hcs, pieces_of_not_mem hwithout, List.map_singleton]
  | feed line rest hline ih =>
    have hwithout : '\n' ∉ withoutSequences line := fun hmem => hline (mem_of_mem_withoutSequences hmem)
    rw [withoutSequences_append_feed, pieces_append_mark hwithout, pieces_append_mark hline,
      List.map_cons, ih]

/-! ## Coloured texts beside plain ones -/

/-- A coloured text shows a plain one: whatever follows it, its characters are those of the plain
text, and it ends every rendition that it starts. -/
def Shows (coloured plain : List Char) : Prop :=
  ∃ found, (∀ rest, signs (coloured ++ rest) = found ++ signs rest) ∧
    found.filterMap Sign.shown? = plain ∧ found.foldl inForceAfter [] = []

theorem Shows.signs_of_coloured (h : Shows coloured plain) :
    (signs coloured).filterMap Sign.shown? = plain ∧
      (signs coloured).foldl inForceAfter [] = [] := by
  rcases h with ⟨found, hsigns, hshown, hforce⟩
  have hfound : signs coloured = found := by
    have hall := hsigns []
    rwa [List.append_nil, signs, List.append_nil] at hall
  rw [hfound]
  exact ⟨hshown, hforce⟩

theorem Shows.withoutSequences_eq (h : Shows coloured plain) : withoutSequences coloured = plain :=
  h.signs_of_coloured.1

theorem Shows.inForce_eq (h : Shows coloured plain) : inForce coloured = [] :=
  h.signs_of_coloured.2

theorem shows_nil : Shows [] [] := ⟨[], fun _ => rfl, rfl, rfl⟩

theorem Shows.append {coloured' plain' : List Char} (h : Shows coloured plain)
    (h' : Shows coloured' plain') : Shows (coloured ++ coloured') (plain ++ plain') := by
  rcases h with ⟨found, hsigns, hshown, hforce⟩
  rcases h' with ⟨found', hsigns', hshown', hforce'⟩
  refine ⟨found ++ found', fun rest => ?_, ?_, ?_⟩
  · rw [List.append_assoc, hsigns, hsigns', List.append_assoc]
  · rw [List.filterMap_append, hshown, hshown']
  · rw [List.foldl_append, hforce, hforce']

theorem signs_append_of_plain (h : '\x1b' ∉ cs) (rest : List Char) :
    signs (cs ++ rest) = cs.map Sign.shown ++ signs rest := by
  induction cs with
  | nil => rfl
  | cons c cs ih =>
    rw [List.mem_cons, not_or] at h
    rw [List.cons_append, signs_of_no_sequence (sequence?_cons_of_ne (Ne.symm h.1) _), ih h.2,
      List.map_cons, List.cons_append]

theorem filterMap_shown (cs : List Char) : (cs.map Sign.shown).filterMap Sign.shown? = cs := by
  rw [List.filterMap_map]
  exact List.filterMap_some

theorem foldl_inForceAfter_shown (codes : List (List Char)) (cs : List Char) :
    (cs.map Sign.shown).foldl inForceAfter codes = codes := by
  induction cs with
  | nil => rfl
  | cons c cs ih => exact ih

theorem shows_plain (h : '\x1b' ∉ cs) : Shows cs cs :=
  ⟨cs.map Sign.shown, signs_append_of_plain h, filterMap_shown cs, foldl_inForceAfter_shown [] cs⟩

theorem shows_feed : Shows ['\n'] ['\n'] := shows_plain (by decide)

/-- One code ends what another one starts. -/
structure Ends (start stop : String) : Prop where
  isCode_start : IsCode start.toList
  isCode_stop : IsCode stop.toList
  ended : inForceAfter (inForceAfter [] (.sequence start.toList)) (.sequence stop.toList) = []

instance (start stop : String) : Decidable (Ends start stop) :=
  decidable_of_iff (IsCode start.toList ∧ IsCode stop.toList ∧
      inForceAfter (inForceAfter [] (.sequence start.toList)) (.sequence stop.toList) = [])
    ⟨fun h => ⟨h.1, h.2.1, h.2.2⟩, fun h => ⟨h.isCode_start, h.isCode_stop, h.ended⟩⟩

theorem toList_inRendition (start stop text : String) :
    (inRendition start stop text).toList =
      sequenceOf start.toList ++ (text.toList ++ sequenceOf stop.toList) := by
  simp [inRendition, escape, sequenceOf, String.toList_append]

theorem shows_inRendition {start stop text : String} (ends : Ends start stop)
    (h : '\x1b' ∉ text.toList) : Shows (inRendition start stop text).toList text.toList := by
  refine ⟨.sequence start.toList :: (text.toList.map Sign.shown ++ [.sequence stop.toList]),
    fun rest => ?_, ?_, ?_⟩
  · rw [toList_inRendition, List.append_assoc, List.append_assoc,
      signs_of_sequence? (sequence?_eq_some_iff.2 ⟨ends.isCode_start, rfl⟩), signs_append_of_plain h,
      signs_of_sequence? (sequence?_eq_some_iff.2 ⟨ends.isCode_stop, rfl⟩)]
    simp
  · rw [List.filterMap_cons_none rfl, List.filterMap_append, filterMap_shown]
    exact List.append_nil _
  · rw [List.foldl_cons, List.foldl_append, foldl_inForceAfter_shown]
    exact ends.ended

/-! ## The coloured report beside the plain one -/

/-- No escape character is in the name of a host and in what is told of its outcomes. -/
structure Escapeless (host : HostFindings) : Prop where
  name : '\x1b' ∉ host.host.toList
  told : ∀ kind outcome, host.findings.outcome? kind = some outcome →
    '\x1b' ∉ firstLine (detail outcome).toList

theorem shows_printed {text : String} (h : isPrinted text = true) : Shows text.toList text.toList :=
  shows_plain (not_mem_of_isPrinted (by decide) h)

theorem shows_colouredMark (outcome : Outcome) :
    Shows (colouredMark outcome).toList (mark outcome).toList := by
  have hmark : '\x1b' ∉ (mark outcome).toList :=
    not_mem_of_isPrinted (by decide) (isPrinted_mark outcome)
  cases outcome with
  | found fact => exact shows_inRendition (by decide) hmark
  | absent absence => exact shows_inRendition (by decide) hmark
  | failed failure => exact shows_inRendition (by decide) hmark

theorem outcomeLine_eq (colours : Bool) (width : Nat) (kind : Kind) (outcome : Outcome) :
    outcomeLine colours width kind outcome =
      "  " ++ (if colours then colouredMark outcome else mark outcome) ++ " " ++
        padded width kind.name ++ " : " ++
        String.ofList (firstLine (detail outcome).toList) := rfl

theorem isPrinted_padded (width : Nat) (kind : Kind) : isPrinted (padded width kind.name) = true := by
  rw [padded, isPrinted_append, isPrinted_name, Bool.true_and, isPrinted, String.toList_ofList]
  refine List.all_eq_true.2 fun c hc => ?_
  rw [List.eq_of_mem_replicate hc]
  rfl

theorem shows_outcomeLine {outcome : Outcome} (h : '\x1b' ∉ firstLine (detail outcome).toList)
    (width : Nat) (kind : Kind) :
    Shows (outcomeLine true width kind outcome).toList
      (outcomeLine false width kind outcome).toList := by
  have hname : Shows (padded width kind.name).toList (padded width kind.name).toList :=
    shows_printed (isPrinted_padded width kind)
  have htold := shows_plain h
  simp only [outcomeLine_eq, String.toList_append, String.toList_ofList, if_true]
  exact (((((shows_printed rfl).append (shows_colouredMark outcome)).append
    (shows_printed rfl)).append hname).append (shows_printed rfl)).append htold

theorem shows_nameLine {name : String} (h : '\x1b' ∉ name.toList) :
    Shows (bold name).toList name.toList := shows_inRendition (by decide) h

/-- Every line about a host shows the plain line in its place. -/
theorem forall₂_shows_block {host : HostFindings} (h : Escapeless host) :
    List.Forall₂ (fun coloured plain => Shows coloured.toList plain.toList)
      (block true host) (block false host) := by
  have hcount := shows_printed (isPrinted_countLine host.findings)
  refine .cons (shows_nameLine h.name) (List.rel_append ?_ (.cons hcount .nil))
  rw [List.forall₂_map_left_iff, List.forall₂_map_right_iff, List.forall₂_same]
  intro entry hentry
  exact shows_outcomeLine (h.told entry.1 entry.2 (Findings.mem_toList.1 hentry)) _ _

theorem shows_ended {coloured plain : List String}
    (h : List.Forall₂ (fun coloured plain => Shows coloured.toList plain.toList) coloured plain) :
    Shows (ended coloured).toList (ended plain).toList := by
  induction h with
  | nil => exact shows_nil
  | cons hline _ ih =>
    rw [toList_ended_cons, toList_ended_cons]
    exact hline.append (shows_feed.append ih)

theorem shows_report {hosts : List HostFindings} (h : ∀ host ∈ hosts, Escapeless host) :
    Shows (report true hosts).toList (report false hosts).toList := by
  induction hosts with
  | nil => exact shows_nil
  | cons host hosts ih =>
    have hhost := shows_ended (forall₂_shows_block (h host List.mem_cons_self))
    have hrest := ih fun other hmem => h other (List.mem_cons_of_mem host hmem)
    cases hosts with
    | nil =>
      rw [report, report, List.map_singleton, List.map_singleton, String.intercalate_singleton,
        String.intercalate_singleton]
      exact hhost
    | cons next hosts =>
      rw [report_cons_cons, report_cons_cons, String.toList_append, String.toList_append,
        String.toList_append, String.toList_append]
      exact (hhost.append shows_feed).append hrest

/-! ## Renditions by lines -/

theorem feed_mem_withoutSequences (h : '\n' ∈ cs) : '\n' ∈ withoutSequences cs := by
  rcases List.eq_append_cons_of_mem h with ⟨before, after, rfl, -⟩
  rw [withoutSequences_append_feed]
  exact List.mem_append_right _ List.mem_cons_self

theorem Shows.inForce_of_unbroken (h : Shows coloured plain) (unbroken : '\n' ∉ plain) :
    ∀ line ∈ pieces (· == '\n') coloured, inForce line = [] := by
  have hcoloured : '\n' ∉ coloured := by
    intro hmem
    rw [← h.withoutSequences_eq] at unbroken
    exact unbroken (feed_mem_withoutSequences hmem)
  rw [pieces_of_not_mem hcoloured, List.forall_mem_singleton]
  exact h.inForce_eq

/-- What stands between two line feeds of a block ends every rendition that it starts, or it is a
part of a host name of several lines. -/
theorem inForce_of_mem_block {host : HostFindings} (h : Escapeless host) {shown : String}
    (hshown : shown ∈ block true host) {line : List Char}
    (hline : line ∈ pieces (· == '\n') shown.toList) :
    inForce line = [] ∨
      ('\n' ∈ host.host.toList ∧ line ∈ pieces (· == '\n') (bold host.host).toList) := by
  have hparts : shown = bold host.host ∨ shown ∈ (host.findings.toList.map fun entry =>
      outcomeLine true (nameWidth host.findings) entry.1 entry.2) ++ [countLine host.findings] :=
    List.mem_cons.1 hshown
  rw [List.mem_append, List.mem_map, List.mem_singleton] at hparts
  rcases hparts with rfl | ⟨entry, hentry, rfl⟩ | rfl
  · by_cases hname : '\n' ∈ host.host.toList
    · exact .inr ⟨hname, hline⟩
    · exact .inl ((shows_nameLine h.name).inForce_of_unbroken hname line hline)
  · have htold := h.told entry.1 entry.2 (Findings.mem_toList.1 hentry)
    have hunbroken := (showsOutcome_of_mem hentry).unbroken
    exact .inl ((shows_outcomeLine htold _ entry.1).inForce_of_unbroken hunbroken line hline)
  · have hprinted := isPrinted_countLine host.findings
    have hunbroken : '\n' ∉ (countLine host.findings).toList :=
      not_mem_of_isPrinted (by decide) hprinted
    exact .inl ((shows_printed hprinted).inForce_of_unbroken hunbroken line hline)

/-- Deleting the escape sequences of the coloured report gives the plain report, line by line, if
host names and details have no escape characters of their own. A rendition that is started on a line
is ended on it, unless the line is a part of a host name of several lines. -/
theorem report_colours_add_only_sequences {hosts : List HostFindings}
    (escapeless : ∀ host ∈ hosts, Escapeless host) :
    withoutSequences (report true hosts).toList = (report false hosts).toList ∧
    (pieces (· == '\n') (report true hosts).toList).map withoutSequences =
      pieces (· == '\n') (report false hosts).toList ∧
    ∀ line ∈ pieces (· == '\n') (report true hosts).toList, inForce line = [] ∨
      ∃ host ∈ hosts, '\n' ∈ host.host.toList ∧
        line ∈ pieces (· == '\n') (bold host.host).toList := by
  have hplain := (shows_report escapeless).withoutSequences_eq
  refine ⟨hplain, ?_, fun line hline => ?_⟩
  · rw [← pieces_withoutSequences, hplain]
  · rw [report_eq_ended, pieces_ended_eq_flatMap, List.mem_append, List.mem_singleton] at hline
    rcases hline with hline | rfl
    · rcases List.mem_flatMap.1 hline with ⟨shown, hshown, hline⟩
      rcases mem_intercalate hshown with hempty | ⟨lines, hlines, hshown⟩
      · -- the empty line between two hosts
        rw [List.mem_singleton.1 hempty] at hline
        exact .inl (shows_nil.inForce_of_unbroken List.not_mem_nil line hline)
      · rcases List.mem_map.1 hlines with ⟨host, hhost, rfl⟩
        refine (inForce_of_mem_block (escapeless host hhost) hshown hline).imp_right ?_
        exact fun hname => ⟨host, hhost, hname⟩
    · exact .inl shows_nil.inForce_eq

theorem escapeless_noisyHost : Escapeless noisyHost where
  name := by decide
  told := by
    have hall : (noisyHost.findings.toList.all fun entry =>
      !(firstLine (detail entry.2).toList).contains '\x1b') = true := by decide +kernel
    intro kind outcome hrecorded
    have hentry := List.all_eq_true.1 hall (kind, outcome) (Findings.mem_toList.2 hrecorded)
    simpa using hentry

/-- The sequences stand around the name and the marks, and the names of the facts stay in line. -/
theorem colours_of_noisy_host :
    (∀ host ∈ [noisyHost], Escapeless host) ∧
    report true [noisyHost] = "\x1b[1mdb01\x1b[0m\n" ++
      "  \x1b[2m–\x1b[0m uname       : abstained: no machine\n" ++
      "  \x1b[31m✘\x1b[39m memory_size : no module\n  0 found, 1 absent, 1 failed\n" ∧
    withoutSequences (report true [noisyHost]).toList = ("db01\n" ++
      "  – uname       : abstained: no machine\n" ++
      "  ✘ memory_size : no module\n  0 found, 1 absent, 1 failed\n").toList ∧
    ∀ line ∈ pieces (· == '\n') (report true [noisyHost]).toList, inForce line = [] := by
  have escapeless : ∀ host ∈ [noisyHost], Escapeless host := by
    rw [List.forall_mem_singleton]
    exact escapeless_noisyHost
  rcases report_colours_add_only_sequences escapeless with ⟨hplain, -, hforce⟩
  refine ⟨escapeless, by decide +kernel, ?_, fun line hline => ?_⟩
  · rw [hplain, report, List.map_singleton, String.intercalate_singleton, block_noisyHost]
    rfl
  · refine (hforce line hline).resolve_right fun hname => ?_
    rcases hname with ⟨host, hhost, hbroken, -⟩
    rw [List.mem_singleton.1 hhost] at hbroken
    exact absurd hbroken (by decide)

end HostSurvey.Console
