import HostSurvey.Proofs.Text.Cutting
import HostSurvey.Text.Key
import Mathlib.Data.List.DropRight
import Mathlib.Data.List.Forall2

/-!
# Canonical keys and runs

The canonical form of a label is made of the runs of the label and of nothing else, and these runs
can be read off it again. So it has no underscore but between two runs, it is its own canonical form,
and labels share it when their runs are the same up to case. A pass that adds an underscore for each
separator, and takes back those at the end, comes to the same form.
-/

namespace HostSurvey.Text

variable {cs ds piece : List Char} {c : Char} {parts rest : List (List Char)}

/-- The runs of a label in lower case. -/
def lowerRuns (cs : List Char) : List (List Char) := (runs cs).map (List.map Char.toLower)

/-- Two texts are the same up to the case of ASCII letters. -/
def SameLetters (a b : List Char) : Prop := List.Forall₂ (fun c d => c.toLower = d.toLower) a b

/-! ## The runs of a label -/

/-- What separates the runs of a label. -/
def isSeparator (c : Char) : Bool := !c.isAlphanum

theorem runs_append_cons (h : c.isAlphanum = false) (before after : List Char) :
    runs (before ++ c :: after) = runs before ++ runs after := by
  have hseparator : isSeparator c = true := by rw [isSeparator, h, Bool.not_false]
  show (pieces isSeparator (before ++ c :: after)).filter (· ≠ []) = _
  rw [pieces_append_cons hseparator, List.filter_append]
  rfl

theorem runs_cons_of_separator (h : c.isAlphanum = false) (cs : List Char) :
    runs (c :: cs) = runs cs := runs_append_cons h [] cs

theorem pieces_cons_of_alphanum (h : c.isAlphanum = true)
    (hpieces : pieces isSeparator cs = piece :: rest) :
    pieces isSeparator (c :: cs) = (c :: piece) :: rest := by
  rw [pieces, if_neg (by simp [isSeparator, h]), hpieces]

theorem runs_cons_of_alphanum (h : c.isAlphanum = true)
    (hpieces : pieces isSeparator cs = piece :: rest) :
    runs (c :: cs) = (c :: piece) :: rest.filter (· ≠ []) := by
  show (pieces isSeparator (c :: cs)).filter (· ≠ []) = _
  rw [pieces_cons_of_alphanum h hpieces, List.filter_cons_of_pos (by simp)]

theorem ne_nil_of_mem_runs {run : List Char} (h : run ∈ runs cs) : run ≠ [] := by
  simpa using (List.mem_filter.1 h).2

theorem isAlphanum_of_mem_runs {run : List Char} (h : run ∈ runs cs) :
    ∀ c ∈ run, c.isAlphanum = true := by
  intro c hc
  simpa using not_break_of_mem_pieces _ cs run (List.mem_filter.1 h).1 c hc

theorem runs_eq_nil_iff : runs cs = [] ↔ ∀ c ∈ cs, c.isAlphanum = false := by
  induction cs with
  | nil => simp [runs, pieces]
  | cons c cs ih =>
    cases hc : c.isAlphanum with
    | false => rw [runs_cons_of_separator hc, ih, List.forall_mem_cons, and_iff_right hc]
    | true =>
      rcases List.exists_cons_of_ne_nil (pieces_ne_nil isSeparator cs) with ⟨piece, rest, hpieces⟩
      rw [runs_cons_of_alphanum hc hpieces]
      refine iff_of_false (List.cons_ne_nil _ _) fun h => ?_
      rw [h c List.mem_cons_self] at hc
      cases hc

theorem isAlphanum_iff : c.isAlphanum = true ↔
    ((0x41 ≤ c.toNat ∧ c.toNat ≤ 0x5A) ∨ (0x61 ≤ c.toNat ∧ c.toNat ≤ 0x7A)) ∨
      (0x30 ≤ c.toNat ∧ c.toNat ≤ 0x39) := by
  show ((decide (c.val ≥ 'A'.val ∧ c.val ≤ 'Z'.val) ||
    (decide (c.val ≥ 'a'.val) && decide (c.val ≤ 'z'.val))) || c.isDigit) = true ↔ _
  rw [Bool.or_eq_true, Bool.or_eq_true, Bool.and_eq_true, decide_eq_true_iff, decide_eq_true_iff,
    decide_eq_true_iff, Char.isDigit_iff_toNat]
  exact Iff.rfl

theorem isAlphanum_of_isBlank (h : isBlank c = true) : c.isAlphanum = false := by
  simp only [isBlank, Bool.or_eq_true, Bool.and_eq_true, decide_eq_true_eq, beq_iff_eq] at h
  by_contra hc
  rw [Bool.not_eq_false, isAlphanum_iff] at hc
  omega

theorem runs_append_of_separators (h : ∀ c ∈ ds, c.isAlphanum = false) (cs : List Char) :
    runs (cs ++ ds) = runs cs := by
  cases ds with
  | nil => rw [List.append_nil]
  | cons d ds =>
    rw [List.forall_mem_cons] at h
    rw [runs_append_cons h.1, runs_eq_nil_iff.2 h.2, List.append_nil]

theorem runs_separators_append (h : ∀ c ∈ ds, c.isAlphanum = false) (cs : List Char) :
    runs (ds ++ cs) = runs cs := by
  induction ds with
  | nil => rfl
  | cons d ds ih =>
    rw [List.forall_mem_cons] at h
    rw [List.cons_append, runs_cons_of_separator h.1, ih h.2]

theorem runs_trim (cs : List Char) : runs (trim cs) = runs cs := by
  rcases exists_trim_between cs with ⟨before, after, hbefore, hafter, hcs⟩
  conv_rhs => rw [hcs]
  rw [runs_separators_append fun c hc => isAlphanum_of_isBlank (hbefore c hc),
    runs_append_of_separators fun c hc => isAlphanum_of_isBlank (hafter c hc)]

/-! ## The pass over a label -/

theorem joinWith_cons (separator first : List Char) (parts : List (List Char)) :
    joinWith separator (first :: parts) = first ++ parts.flatMap (separator ++ ·) := by
  induction parts generalizing first with
  | nil => simp [joinWith]
  | cons next parts ih =>
    rw [joinWith, ih, List.flatMap_cons, List.append_assoc, List.append_assoc]
    exact List.cons_ne_nil next parts

/-- What follows a run in a key: an underscore and the next run, over and over. -/
def keyTail (runs : List (List Char)) : List Char :=
  runs.flatMap fun run => '_' :: run.map Char.toLower

-- Inside a run the pass first ends the run; after one, an underscore waits for the next.
theorem keyFrom_inRun_and_afterRun (h : pieces isSeparator cs = piece :: rest) :
    keyFrom .inRun cs = piece.map Char.toLower ++ keyTail (rest.filter (· ≠ [])) ∧
      keyFrom .afterRun cs = keyTail (runs cs) := by
  induction cs generalizing piece rest with
  | nil =>
    cases h
    exact ⟨rfl, rfl⟩
  | cons c cs ih =>
    rcases List.exists_cons_of_ne_nil (pieces_ne_nil isSeparator cs) with ⟨next, others, hpieces⟩
    rcases ih hpieces with ⟨hin, hafter⟩
    cases hc : c.isAlphanum with
    | true =>
      rw [pieces_cons_of_alphanum hc hpieces] at h
      cases h
      rw [keyFrom, if_pos hc, keyFrom, if_pos hc, hin, runs_cons_of_alphanum hc hpieces]
      exact ⟨rfl, rfl⟩
    | false =>
      rw [pieces, if_pos (by simp [isSeparator, hc])] at h
      cases h
      rw [keyFrom, if_neg (by simp [hc]), keyFrom, if_neg (by simp [hc]), hafter,
        runs_cons_of_separator hc]
      exact ⟨rfl, rfl⟩

theorem canonicalKey_eq_joinWith (cs : List Char) :
    canonicalKey cs = joinWith ['_'] (lowerRuns cs) := by
  induction cs with
  | nil => rfl
  | cons c cs ih =>
    cases hc : c.isAlphanum with
    | true =>
      rcases List.exists_cons_of_ne_nil (pieces_ne_nil isSeparator cs) with ⟨piece, rest, hpieces⟩
      rw [canonicalKey, keyFrom, if_pos hc, (keyFrom_inRun_and_afterRun hpieces).1, lowerRuns,
        runs_cons_of_alphanum hc hpieces, List.map_cons, joinWith_cons, List.flatMap_map]
      rfl
    | false =>
      rw [canonicalKey, keyFrom, if_neg (by simp [hc]), lowerRuns, runs_cons_of_separator hc]
      exact ih

/-! ## The pass with underscores taken back -/

/-- Adds a character of a label to a key: a letter or digit in lower case, and an underscore for any
other character, unless the key is empty or has one at the end already. -/
def pushKey (key : List Char) (c : Char) : List Char :=
  if c.isAlphanum then key ++ [c.toLower]
  else if key ≠ [] ∧ key.getLast? ≠ some '_' then key ++ ['_']
  else key

/-- The key of a label in a pass that adds each underscore at once, and takes those at the end back
again. -/
def canonicalKeyStepwise (cs : List Char) : List Char :=
  ((trim cs).foldl pushKey []).rdropWhile (· == '_')

/-- What is settled of a key, and what such a pass has of it. -/
inductive Grown : KeyState → List Char → List Char → Prop
  | start : Grown .start [] []
  | inRun (front : List Char) {last : Char} (ne : last ≠ '_') :
    Grown .inRun (front ++ [last]) (front ++ [last])
  | afterRun (front : List Char) {last : Char} (ne : last ≠ '_') :
    Grown .afterRun (front ++ [last]) (front ++ [last] ++ ['_'])

variable {state : KeyState} {settled key : List Char}

theorem toNat_toLower (c : Char) :
    c.toLower.toNat = if 0x41 ≤ c.toNat ∧ c.toNat ≤ 0x5A then c.toNat + 32 else c.toNat := by
  by_cases hupper : c.val ≥ 'A'.val ∧ c.val ≤ 'Z'.val
  · have hbounds : 0x41 ≤ c.toNat ∧ c.toNat ≤ 0x5A := hupper
    have hlower : c.toLower = ⟨c.val + ('a'.val - 'A'.val), _⟩ := dif_pos hupper
    rw [if_pos hbounds, hlower]
    show (c.toNat + 32) % 0x100000000 = c.toNat + 32
    omega
  · have hbounds : ¬ (0x41 ≤ c.toNat ∧ c.toNat ≤ 0x5A) := hupper
    have hkept : c.toLower = c := dif_neg hupper
    rw [if_neg hbounds, hkept]

theorem isAlphanum_toLower (c : Char) : c.toLower.isAlphanum = c.isAlphanum := by
  rw [Bool.eq_iff_iff, isAlphanum_iff, isAlphanum_iff, toNat_toLower]
  split <;> omega

theorem toLower_toLower (c : Char) : c.toLower.toLower = c.toLower := by
  rw [← Char.toNat_inj, toNat_toLower c.toLower, if_neg]
  rw [toNat_toLower]
  split <;> omega

theorem toLower_ne_underscore (h : c.isAlphanum = true) : c.toLower ≠ '_' := by
  intro heq
  rw [← isAlphanum_toLower, heq] at h
  cases h

theorem Grown.step (grown : Grown state settled key) (c : Char) :
    ∃ next added, Grown next (settled ++ added) (pushKey key c) ∧
      ∀ cs, keyFrom state (c :: cs) = added ++ keyFrom next cs := by
  cases hc : c.isAlphanum with
  | true =>
    have hpush : pushKey key c = key ++ [c.toLower] := if_pos hc
    have hlower := toLower_ne_underscore hc
    rw [hpush]
    cases grown with
    | start =>
      exact ⟨.inRun, [c.toLower], .inRun [] hlower, fun cs => by rw [keyFrom, if_pos hc]; rfl⟩
    | inRun front ne =>
      exact ⟨.inRun, [c.toLower], .inRun _ hlower, fun cs => by rw [keyFrom, if_pos hc]; rfl⟩
    | afterRun front ne =>
      -- only now it is settled that the underscore stays
      refine ⟨.inRun, ['_', c.toLower], ?_, fun cs => by rw [keyFrom, if_pos hc]; rfl⟩
      rw [List.append_cons _ '_' [c.toLower]]
      exact .inRun _ hlower
  | false =>
    have hpass : ¬ c.isAlphanum = true := by simp [hc]
    rw [pushKey, if_neg hpass]
    cases grown with
    | start => exact ⟨.start, [], .start, fun cs => by rw [keyFrom, if_neg hpass]; rfl⟩
    | inRun front ne =>
      refine ⟨.afterRun, [], ?_, fun cs => by rw [keyFrom, if_neg hpass]; rfl⟩
      rw [if_pos (by simp [ne]), List.append_nil]
      exact .afterRun front ne
    | afterRun front ne =>
      refine ⟨.afterRun, [], ?_, fun cs => by rw [keyFrom, if_neg hpass]; rfl⟩
      rw [if_neg (by simp), List.append_nil]
      exact .afterRun front ne

theorem Grown.rdropWhile_eq (grown : Grown state settled key) :
    key.rdropWhile (· == '_') = settled := by
  cases grown with
  | start => rfl
  | inRun front ne => exact List.rdropWhile_concat_neg _ _ _ (by simpa using ne)
  | afterRun front ne =>
    rw [List.rdropWhile_concat_pos _ _ _ (by simp)]
    exact List.rdropWhile_concat_neg _ _ _ (by simpa using ne)

theorem Grown.rdropWhile_foldl (grown : Grown state settled key) (cs : List Char) :
    (cs.foldl pushKey key).rdropWhile (· == '_') = settled ++ keyFrom state cs := by
  induction cs generalizing state settled key with
  | nil => rw [List.foldl_nil, grown.rdropWhile_eq, keyFrom, List.append_nil]
  | cons c cs ih =>
    rcases grown.step c with ⟨next, added, hnext, hkey⟩
    rw [List.foldl_cons, ih hnext, hkey, List.append_assoc]

theorem canonicalKeyStepwise_eq (cs : List Char) : canonicalKeyStepwise cs = canonicalKey cs :=
  calc canonicalKeyStepwise cs
      = canonicalKey (trim cs) := Grown.start.rdropWhile_foldl (trim cs)
    _ = joinWith ['_'] (lowerRuns cs) := by
        rw [canonicalKey_eq_joinWith, lowerRuns, runs_trim, lowerRuns]
    _ = canonicalKey cs := (canonicalKey_eq_joinWith cs).symm

/-! ## The runs of a key -/

theorem isAlphanum_of_mem_lowerRuns {run : List Char} (h : run ∈ lowerRuns cs) :
    ∀ c ∈ run, c.isAlphanum = true := by
  rcases List.mem_map.1 h with ⟨run, hrun, rfl⟩
  intro c hc
  rcases List.mem_map.1 hc with ⟨d, hd, rfl⟩
  rw [isAlphanum_toLower]
  exact isAlphanum_of_mem_runs hrun d hd

theorem ne_nil_of_mem_lowerRuns {run : List Char} (h : run ∈ lowerRuns cs) : run ≠ [] := by
  rcases List.mem_map.1 h with ⟨run, hrun, rfl⟩
  rw [ne_eq, List.map_eq_nil_iff]
  exact ne_nil_of_mem_runs hrun

theorem pieces_canonicalKey (h : lowerRuns cs ≠ []) :
    pieces isSeparator (canonicalKey cs) = lowerRuns cs := by
  rw [canonicalKey_eq_joinWith, joinWith_eq_intercalate]
  apply pieces_intercalate_break (by decide) h
  intro run hrun c hc
  simp [isSeparator, isAlphanum_of_mem_lowerRuns hrun c hc]

theorem canonicalKey_eq_nil_iff : canonicalKey cs = [] ↔ lowerRuns cs = [] := by
  apply Iff.intro
  · intro h
    by_contra hne
    have hpieces := pieces_canonicalKey hne
    rw [h] at hpieces
    have hmem : [] ∈ lowerRuns cs := hpieces ▸ List.mem_singleton_self []
    exact ne_nil_of_mem_lowerRuns hmem rfl
  · intro h
    rw [canonicalKey_eq_joinWith, h]
    rfl

/-- Nothing is lost in a key but the case of the runs and what stood between them. -/
theorem runs_canonicalKey (cs : List Char) : runs (canonicalKey cs) = lowerRuns cs := by
  by_cases h : lowerRuns cs = []
  · rw [canonicalKey_eq_nil_iff.2 h, h]
    rfl
  · show (pieces isSeparator (canonicalKey cs)).filter (· ≠ []) = _
    rw [pieces_canonicalKey h, List.filter_eq_self]
    exact fun run hrun => decide_eq_true (ne_nil_of_mem_lowerRuns hrun)

theorem lowerRuns_canonicalKey (cs : List Char) : lowerRuns (canonicalKey cs) = lowerRuns cs := by
  rw [lowerRuns, runs_canonicalKey, lowerRuns, List.map_map]
  apply List.map_congr_left
  intro run _
  show (run.map Char.toLower).map Char.toLower = run.map Char.toLower
  rw [List.map_map]
  exact List.map_congr_left fun c _ => toLower_toLower c

/-! ## Underscores -/

-- An underscore at an end of a key, or beside another one, would leave an empty piece there.
theorem underscore_between_runs {before after : List Char}
    (h : canonicalKey cs = before ++ '_' :: after) :
    [] ∉ pieces isSeparator before ∧ [] ∉ pieces isSeparator after := by
  have hne : lowerRuns cs ≠ [] := by
    rw [ne_eq, ← canonicalKey_eq_nil_iff, h]
    simp
  have hpieces := pieces_canonicalKey hne
  rw [h, pieces_append_cons (by decide)] at hpieces
  have hnil : [] ∉ lowerRuns cs := fun hmem => ne_nil_of_mem_lowerRuns hmem rfl
  rw [← hpieces, List.mem_append, not_or] at hnil
  exact hnil

theorem head?_canonicalKey (cs : List Char) : (canonicalKey cs).head? ≠ some '_' := by
  intro h
  rcases List.head?_eq_some_iff.1 h with ⟨after, hhead⟩
  have hkey : canonicalKey cs = [] ++ '_' :: after := hhead
  exact (underscore_between_runs hkey).1 (List.mem_singleton_self [])

theorem getLast?_canonicalKey (cs : List Char) : (canonicalKey cs).getLast? ≠ some '_' := by
  intro h
  rcases List.getLast?_eq_some_iff.1 h with ⟨before, hkey⟩
  exact (underscore_between_runs hkey).2 (List.mem_singleton_self [])

theorem not_double_canonicalKey (cs : List Char) : ¬ ['_', '_'] <:+: canonicalKey cs := by
  intro h
  rcases h with ⟨before, after, hkey⟩
  rw [List.append_assoc] at hkey
  exact (underscore_between_runs hkey.symm).2 List.mem_cons_self

/-! ## Labels with the same key -/

theorem map_eq_map_iff_forall₂ {α β : Type} {f : α → β} {as bs : List α} :
    as.map f = bs.map f ↔ List.Forall₂ (fun a b => f a = f b) as bs := by
  rw [← List.forall₂_eq_eq_eq, List.forall₂_map_left_iff, List.forall₂_map_right_iff]

theorem lowerRuns_eq_iff :
    lowerRuns cs = lowerRuns ds ↔ List.Forall₂ SameLetters (runs cs) (runs ds) := by
  have hletters : SameLetters = fun a b => a.map Char.toLower = b.map Char.toLower := by
    funext a b
    exact propext map_eq_map_iff_forall₂.symm
  rw [lowerRuns, lowerRuns, map_eq_map_iff_forall₂, hletters]

theorem canonicalKey_eq_iff :
    canonicalKey cs = canonicalKey ds ↔ List.Forall₂ SameLetters (runs cs) (runs ds) := by
  rw [← lowerRuns_eq_iff]
  apply Iff.intro
  · intro h
    rw [← runs_canonicalKey, h, runs_canonicalKey]
  · intro h
    rw [canonicalKey_eq_joinWith, h, canonicalKey_eq_joinWith]

/-- A key is made of the runs of a label in lower case with single underscores between them. It is
empty for a label without runs, it is its own key, and labels share it when their runs are the same
up to case. A pass that adds each underscore at once comes to the same key. -/
theorem canonicalKey_joins_runs (cs : List Char) :
    canonicalKey cs = joinWith ['_'] (lowerRuns cs) ∧
    (canonicalKey cs = [] ↔ ∀ c ∈ cs, c.isAlphanum = false) ∧
    (canonicalKey cs).head? ≠ some '_' ∧ (canonicalKey cs).getLast? ≠ some '_' ∧
    ¬ ['_', '_'] <:+: canonicalKey cs ∧
    canonicalKey (canonicalKey cs) = canonicalKey cs ∧
    (∀ ds, canonicalKey cs = canonicalKey ds ↔ List.Forall₂ SameLetters (runs cs) (runs ds)) ∧
    canonicalKeyStepwise cs = canonicalKey cs := by
  refine ⟨canonicalKey_eq_joinWith cs, ?_, head?_canonicalKey cs, getLast?_canonicalKey cs,
    not_double_canonicalKey cs, ?_, fun ds => canonicalKey_eq_iff, canonicalKeyStepwise_eq cs⟩
  · rw [canonicalKey_eq_nil_iff, lowerRuns, List.map_eq_nil_iff, runs_eq_nil_iff]
  · rw [canonicalKey_eq_joinWith (canonicalKey cs), lowerRuns_canonicalKey, canonicalKey_eq_joinWith]

example : canonicalKey "Type Detail (ext.)".toList = "type_detail_ext".toList := by decide

end HostSurvey.Text
