import HostSurvey.Proofs.Text.Digits
import HostSurvey.Reading.ReleaseStatement
import Mathlib.Data.List.Infix

/-!
# The grammar of release statements

A line states a release when its trimmed text is a product, blanks, the word `release`, blanks and a
version that starts with a decimal digit. Where it can be taken apart in several ways, the product is
the shortest (`StatesFirst`) and the version the longest (`Version`). A code name may follow the word of
the version (`HasCodeName`).
-/

namespace HostSurvey.ReleaseStatement

open Text

variable {cs text product stated further : List Char} {groups : List (List Char)}

/-! ## Products -/

/-- A text goes on with blanks, the word `release` and blanks, and what it states starts with a digit
after them. -/
def Follows (cs stated : List Char) : Prop :=
  ∃ gap gap', cs = gap ++ ("release".toList ++ (gap' ++ stated)) ∧ gap ≠ [] ∧ Blanks gap ∧
    gap' ≠ [] ∧ Blanks gap' ∧ ∃ digit ∈ stated.head?, isDecimalDigit digit = true

/-- A text has a product on its first line that a statement follows. -/
def States (text product stated : List Char) : Prop :=
  ∃ following, text = product ++ following ∧ product ≠ [] ∧ '\n' ∉ product ∧
    Follows following stated

/-- No shorter product has a statement after it. -/
def StatesFirst (text product stated : List Char) : Prop :=
  States text product stated ∧
    ∀ product' stated', States text product' stated' → product.length ≤ product'.length

theorem trimStart_stated (h : ∃ digit ∈ stated.head?, isDecimalDigit digit = true) {gap : List Char}
    (hgap : Blanks gap) : trimStart (gap ++ stated) = stated := by
  rcases h with ⟨digit, hdigit, hdecimal⟩
  rw [trimStart_blanks_append hgap, trimStart_eq_self]
  intro c hc
  rw [Option.mem_unique hc hdigit]
  exact isBlank_of_isDecimalDigit hdecimal

theorem takeWhile_isBlank_ne_nil (h : (trimStart cs).length < cs.length) :
    cs.takeWhile isBlank ≠ [] := by
  intro hnil
  have hcs := takeWhile_append_trimStart cs
  rw [hnil, List.nil_append] at hcs
  rw [hcs] at h
  exact Nat.lt_irrefl _ h

theorem fromVersion?_eq_some_iff : fromVersion? cs = some stated ↔ Follows cs stated := by
  unfold fromVersion?
  dsimp only
  apply Iff.intro
  · intro h
    split at h
    · cases h
    · next rest hrest =>
      split at h
      · next hparts =>
        rcases hparts with ⟨hgap, hgap', hdigit⟩
        cases h
        refine ⟨cs.takeWhile isBlank, rest.takeWhile isBlank, ?_, takeWhile_isBlank_ne_nil hgap,
          blanks_takeWhile cs, takeWhile_isBlank_ne_nil hgap', blanks_takeWhile rest, ?_⟩
        · rw [takeWhile_append_trimStart, ← after?_eq_some_iff.1 hrest, takeWhile_append_trimStart]
        · exact (Option.any_eq_true _ _).1 hdigit
      · cases h
  · intro h
    rcases h with ⟨gap, gap', rfl, hne, hgap, hne', hgap', hdigit⟩
    have hword : trimStart (gap ++ ("release".toList ++ (gap' ++ stated))) =
        "release".toList ++ (gap' ++ stated) := by
      rw [trimStart_blanks_append hgap]
      rfl
    have hrest := after?_eq_some_iff.2 (rfl : "release".toList ++ (gap' ++ stated) = _)
    have hversion := trimStart_stated hdigit hgap'
    have hpos := List.length_pos_iff.2 hne
    have hpos' := List.length_pos_iff.2 hne'
    rw [hword, hrest]
    dsimp only
    rw [hversion, if_pos]
    refine ⟨?_, ?_, (Option.any_eq_true _ _).2 hdigit⟩
    · simp only [List.length_append]
      omega
    · simp only [List.length_append]
      omega

theorem Follows.append (h : Follows cs stated) (rest : List Char) :
    Follows (cs ++ rest) (stated ++ rest) := by
  rcases h with ⟨gap, gap', rfl, hne, hgap, hne', hgap', digit, hdigit, hdecimal⟩
  refine ⟨gap, gap', ?_, hne, hgap, hne', hgap', digit, ?_, hdecimal⟩
  · simp only [List.append_assoc]
  · rw [List.head?_append, Option.mem_def.1 hdigit]
    rfl

theorem Follows.ne_nil (h : Follows cs stated) : cs ≠ [] := by
  rcases h with ⟨gap, gap', rfl, hne, -⟩
  exact fun hnil => hne (List.append_eq_nil_iff.1 hnil).1

theorem states_cons_iff {c : Char} (hc : c ≠ '\n') : States (c :: cs) product stated ↔
    (product = [c] ∧ Follows cs stated) ∨ ∃ rest, product = c :: rest ∧ States cs rest stated := by
  apply Iff.intro
  · intro h
    rcases h with ⟨following, htext, hne, hline, hfollows⟩
    cases product with
    | nil => exact absurd rfl hne
    | cons d rest =>
      rw [List.cons_append] at htext
      cases htext
      cases rest with
      | nil => exact .inl ⟨rfl, hfollows⟩
      | cons d rest =>
        have hline' : '\n' ∉ d :: rest := fun hmem => hline (List.mem_cons_of_mem c hmem)
        exact .inr ⟨d :: rest, rfl, following, rfl, List.cons_ne_nil d rest, hline', hfollows⟩
  · have hfirst : ∀ rest : List Char, '\n' ∉ rest → '\n' ∉ c :: rest := by
      intro rest hrest hmem
      rcases List.mem_cons.1 hmem with heq | hmem
      · exact hc heq.symm
      · exact hrest hmem
    intro h
    rcases h with ⟨rfl, hfollows⟩ | ⟨rest, rfl, following, rfl, -, hline, hfollows⟩
    · exact ⟨cs, rfl, List.cons_ne_nil c [], hfirst [] List.not_mem_nil, hfollows⟩
    · exact ⟨following, rfl, List.cons_ne_nil c rest, hfirst rest hline, hfollows⟩

theorem not_states_nil : ¬ States [] product stated := by
  intro h
  rcases h with ⟨following, htext, hne, -⟩
  exact hne (List.append_eq_nil_iff.1 htext.symm).1

theorem not_states_newline : ¬ States ('\n' :: cs) product stated := by
  intro h
  rcases h with ⟨following, htext, hne, hline, -⟩
  cases product with
  | nil => exact hne rfl
  | cons c rest =>
    cases htext
    exact hline List.mem_cons_self

-- The product grows by one character at a time until a statement follows, so the first that is found
-- is the shortest.
theorem splitProduct?_spec (text : List Char) :
    (∀ product stated, splitProduct? text = some (product, stated) → StatesFirst text product stated) ∧
    (splitProduct? text = none → ∀ product stated, ¬ States text product stated) := by
  induction text with
  | nil =>
    refine ⟨?_, fun _ _ _ => not_states_nil⟩
    intro product stated h
    cases h
  | cons c cs ih =>
    rw [splitProduct?]
    by_cases hc : c = '\n'
    · rw [if_pos hc, hc]
      refine ⟨?_, fun _ _ _ => not_states_newline⟩
      intro product stated h
      cases h
    · rw [if_neg hc]
      cases hversion : fromVersion? cs with
      | some version =>
        refine ⟨?_, fun h => nomatch h⟩
        intro product stated h
        cases h
        refine ⟨(states_cons_iff hc).2 (.inl ⟨rfl, fromVersion?_eq_some_iff.1 hversion⟩), ?_⟩
        intro product' stated' h
        rcases h with ⟨following, -, hne, -⟩
        exact List.length_pos_iff.2 hne
      | none =>
        have hnot : ∀ stated, ¬ Follows cs stated := by
          intro stated hfollows
          rw [fromVersion?_eq_some_iff.2 hfollows] at hversion
          cases hversion
        have hcons : ∀ product' stated', States (c :: cs) product' stated' →
            ∃ rest, product' = c :: rest ∧ States cs rest stated' := by
          intro product' stated' hstates
          rcases (states_cons_iff hc).1 hstates with ⟨-, hfollows⟩ | hrest
          · exact absurd hfollows (hnot stated')
          · exact hrest
        cases hsplit : splitProduct? cs with
        | none =>
          apply And.intro
          · intro product stated h
            cases h
          · intro _ product stated hstates
            rcases hcons product stated hstates with ⟨rest, -, hrest⟩
            exact ih.2 hsplit rest stated hrest
        | some parts =>
          refine ⟨?_, fun h => nomatch h⟩
          intro product stated h
          cases h
          rcases ih.1 _ _ hsplit with ⟨hstates, hshortest⟩
          refine ⟨(states_cons_iff hc).2 (.inr ⟨_, rfl, hstates⟩), ?_⟩
          intro product' stated' hstates'
          rcases hcons product' stated' hstates' with ⟨rest, rfl, hrest⟩
          exact Nat.succ_le_succ (hshortest rest stated' hrest)

theorem StatesFirst.unique {product' stated' : List Char} (h : StatesFirst text product stated)
    (h' : StatesFirst text product' stated') : product = product' ∧ stated = stated' := by
  rcases h with ⟨⟨following, htext, hne, hline, hfollows⟩, hshortest⟩
  rcases h' with ⟨⟨following', htext', hne', hline', hfollows'⟩, hshortest'⟩
  have hlength : product.length = product'.length :=
    Nat.le_antisymm (hshortest _ _ ⟨following', htext', hne', hline', hfollows'⟩)
      (hshortest' _ _ ⟨following, htext, hne, hline, hfollows⟩)
  rcases List.append_inj (htext.symm.trans htext') hlength with ⟨rfl, rfl⟩
  have hstated := fromVersion?_eq_some_iff.2 hfollows
  rw [fromVersion?_eq_some_iff.2 hfollows'] at hstated
  exact ⟨rfl, (Option.some.inj hstated).symm⟩

theorem splitProduct?_eq_some_iff :
    splitProduct? text = some (product, stated) ↔ StatesFirst text product stated := by
  rcases splitProduct?_spec text with ⟨hsome, hnone⟩
  refine ⟨hsome product stated, ?_⟩
  intro h
  cases hsplit : splitProduct? text with
  | none => exact absurd h.1 (hnone hsplit product stated)
  | some parts =>
    rcases h.unique (hsome _ _ hsplit) with ⟨hproduct, hstated⟩
    rw [hproduct, hstated]

/-! ## Versions -/

/-- Groups of decimal digits, one at least, none of them empty. -/
structure Dotted (groups : List (List Char)) : Prop where
  ne_nil : groups ≠ []
  group : ∀ group ∈ groups, group ≠ [] ∧ ∀ c ∈ group, isDecimalDigit c = true

/-- A text starts with digits in groups, with one point between each two of them, and no more of it can
be taken so. -/
structure Version (stated : List Char) (groups : List (List Char)) (further : List Char) : Prop where
  text : stated = ['.'].intercalate groups ++ further
  dotted : Dotted groups
  longest : ∀ groups' further', Dotted groups' → stated = ['.'].intercalate groups' ++ further' →
    (['.'].intercalate groups').length ≤ (['.'].intercalate groups).length

theorem versionOf_cons_digit {c : Char} (h : isDecimalDigit c = true) (cs : List Char) :
    versionOf (c :: cs) = c :: versionOf cs := by
  rw [versionOf, if_pos (.inl h)]

theorem versionOf_cons_point (h : ∃ digit ∈ cs.head?, isDecimalDigit digit = true) :
    versionOf ('.' :: cs) = '.' :: versionOf cs := by
  rw [versionOf, if_pos (.inr ⟨rfl, (Option.any_eq_true _ _).2 h⟩)]

theorem versionOf_digits_append {group : List Char} (h : ∀ c ∈ group, isDecimalDigit c = true)
    (rest : List Char) : versionOf (group ++ rest) = group ++ versionOf rest := by
  induction group with
  | nil => rfl
  | cons c group ih =>
    rw [List.cons_append, versionOf_cons_digit (h c List.mem_cons_self),
      ih fun d hd => h d (List.mem_cons_of_mem c hd), List.cons_append]

theorem Dotted.tail {group next : List Char} (h : Dotted (group :: next :: groups)) :
    Dotted (next :: groups) where
  ne_nil := List.cons_ne_nil next groups
  group := fun other hmem => h.group other (List.mem_cons_of_mem group hmem)

theorem Dotted.exists_head (h : Dotted groups) (rest : List Char) :
    ∃ digit ∈ (['.'].intercalate groups ++ rest).head?, isDecimalDigit digit = true := by
  cases groups with
  | nil => exact absurd rfl h.ne_nil
  | cons group groups =>
    rcases h.group group List.mem_cons_self with ⟨hne, hdigits⟩
    cases group with
    | nil => exact absurd rfl hne
    | cons digit group =>
      refine ⟨digit, ?_, hdigits digit List.mem_cons_self⟩
      cases groups with
      | nil => rfl
      | cons next groups =>
        rw [List.intercalate_cons_cons]
        rfl

theorem versionOf_dotted_append (h : Dotted groups) (rest : List Char) :
    versionOf (['.'].intercalate groups ++ rest) = ['.'].intercalate groups ++ versionOf rest := by
  induction groups with
  | nil => exact absurd rfl h.ne_nil
  | cons group groups ih =>
    have hgroup := (h.group group List.mem_cons_self).2
    cases groups with
    | nil => rw [List.intercalate_singleton, versionOf_digits_append hgroup]
    | cons next groups =>
      rw [List.intercalate_cons_cons, List.append_assoc, List.append_assoc,
        versionOf_digits_append hgroup, List.singleton_append,
        versionOf_cons_point (h.tail.exists_head rest), ih h.tail, List.append_assoc,
        List.append_assoc, List.singleton_append]

-- The first piece may be empty, namely before a point, but no other one.
theorem pieces_versionOf (cs : List Char) :
    ∃ first others, pieces (· == '.') (versionOf cs) = first :: others ∧
      (∀ c ∈ first, isDecimalDigit c = true) ∧
      (∀ group ∈ others, group ≠ [] ∧ ∀ c ∈ group, isDecimalDigit c = true) ∧
      ((∃ digit ∈ cs.head?, isDecimalDigit digit = true) → first ≠ []) := by
  induction cs with
  | nil => exact ⟨[], [], rfl, by simp, by simp, by simp⟩
  | cons c cs ih =>
    rcases ih with ⟨first, others, hpieces, hfirst, hothers, hhead⟩
    by_cases hc : isDecimalDigit c = true
    · have hpoint : (c == '.') = false := by
        apply beq_false_of_ne
        intro h
        subst h
        exact absurd hc (by decide)
      refine ⟨c :: first, others, ?_, List.forall_mem_cons.2 ⟨hc, hfirst⟩, hothers, by simp⟩
      rw [versionOf_cons_digit hc, pieces, hpieces, hpoint]
      rfl
    · have hnone : ¬ ∃ digit ∈ (c :: cs).head?, isDecimalDigit digit = true := by
        simpa using hc
      by_cases hpoint : c = '.' ∧ ∃ digit ∈ cs.head?, isDecimalDigit digit = true
      · rcases hpoint with ⟨rfl, hdigit⟩
        refine ⟨[], first :: others, ?_, by simp,
          List.forall_mem_cons.2 ⟨⟨hhead hdigit, hfirst⟩, hothers⟩, fun h => absurd h hnone⟩
        rw [versionOf_cons_point hdigit, pieces, hpieces]
        rfl
      · refine ⟨[], [], ?_, by simp, by simp, fun h => absurd h hnone⟩
        rw [versionOf, if_neg]
        · rfl
        · intro h
          rcases h with hdigit | ⟨heq, hdigit⟩
          · exact hc hdigit
          · exact hpoint ⟨heq, (Option.any_eq_true _ _).1 hdigit⟩

theorem dotted_pieces (h : ∃ digit ∈ stated.head?, isDecimalDigit digit = true) :
    Dotted (pieces (· == '.') (versionOf stated)) := by
  rcases pieces_versionOf stated with ⟨first, others, hpieces, hfirst, hothers, hhead⟩
  rw [hpieces]
  exact ⟨List.cons_ne_nil first others, List.forall_mem_cons.2 ⟨⟨hhead h, hfirst⟩, hothers⟩⟩

theorem versionOf_append_drop (cs : List Char) :
    versionOf cs ++ cs.drop (versionOf cs).length = cs := by
  induction cs with
  | nil => rfl
  | cons c cs ih =>
    rw [versionOf]
    split
    · rw [List.length_cons, List.drop_succ_cons, List.cons_append, ih]
    · rfl

theorem Dotted.pieces_eq (h : Dotted groups) :
    pieces (· == '.') (['.'].intercalate groups) = groups := by
  apply pieces_intercalate h.ne_nil
  intro group hmem hpoint
  exact absurd ((h.group group hmem).2 '.' hpoint) (by decide)

theorem version_iff (h : ∃ digit ∈ stated.head?, isDecimalDigit digit = true) :
    Version stated groups further ↔
      groups = pieces (· == '.') (versionOf stated) ∧
        further = stated.drop (versionOf stated).length := by
  have hjoin : ['.'].intercalate (pieces (· == '.') (versionOf stated)) = versionOf stated :=
    intercalate_pieces '.' (versionOf stated)
  apply Iff.intro
  · intro hversion
    have hgrown := versionOf_dotted_append hversion.dotted further
    rw [← hversion.text] at hgrown
    have hlongest := hversion.longest _ (stated.drop (versionOf stated).length) (dotted_pieces h)
      (by rw [hjoin, versionOf_append_drop])
    -- nothing of what follows is version any more
    have hnil : versionOf further = [] := by
      rw [hjoin, hgrown, List.length_append] at hlongest
      apply List.length_eq_zero_iff.1
      omega
    rw [hnil, List.append_nil] at hgrown
    apply And.intro
    · rw [hgrown, hversion.dotted.pieces_eq]
    · rw [hgrown, hversion.text, List.drop_left]
  · intro h
    rcases h with ⟨rfl, rfl⟩
    refine ⟨by rw [hjoin, versionOf_append_drop], dotted_pieces h, ?_⟩
    intro groups' further' hdotted htext
    rw [hjoin, htext, versionOf_dotted_append hdotted, List.length_append]
    omega

/-! ## Code names -/

/-- A code name stands in parentheses, after blanks that end the word of the version. -/
def HasCodeName (further name : List Char) : Prop :=
  ∃ word gap rest, further = word ++ (gap ++ '(' :: (name ++ ')' :: rest)) ∧
    (∀ c ∈ word, isBlank c = false) ∧ gap ≠ [] ∧ Blanks gap ∧ ')' ∉ name

theorem codeName?_eq_some_iff {name : List Char} :
    codeName? further = some name ↔ HasCodeName further name := by
  unfold codeName?
  apply Iff.intro
  · intro h
    have hfurther := List.takeWhile_append_dropWhile (p := fun c => !isBlank c) (l := further)
    have hblank := head?_dropWhile_not (fun c => !isBlank c) further
    generalize further.dropWhile (fun c => !isBlank c) = ended at h hfurther hblank
    split at h
    · next rest hopen =>
      rcases Option.map_eq_some_iff.1 h with ⟨⟨before, after⟩, hsplit, rfl⟩
      rcases splitAtFirst?_eq_some_iff.1 hsplit with ⟨rfl, hclosing⟩
      refine ⟨further.takeWhile fun c => !isBlank c, ended.takeWhile isBlank, after, ?_, ?_, ?_,
        blanks_takeWhile ended, hclosing⟩
      · rw [← hopen, takeWhile_append_trimStart, hfurther]
      · intro c hc
        simpa using List.mem_takeWhile_imp hc
      · cases ended with
        | nil => cases hopen
        | cons c ended =>
          have hc : isBlank c = true := by simpa using hblank c rfl
          rw [List.takeWhile_cons_of_pos hc]
          exact List.cons_ne_nil c _
    · cases h
  · intro h
    rcases h with ⟨word, gap, rest, rfl, hword, hne, hgap, hclosing⟩
    have hpass : ∀ c ∈ word, (!isBlank c) = true := by
      intro c hc
      rw [hword c hc, Bool.not_false]
    have hstop : ∀ c ∈ (gap ++ '(' :: (name ++ ')' :: rest)).head?, (!isBlank c) = false := by
      intro c hc
      rw [List.head?_append_of_ne_nil _ hne] at hc
      rw [hgap c (List.mem_of_mem_head? hc), Bool.not_true]
    have hopen : trimStart (gap ++ '(' :: (name ++ ')' :: rest)) = '(' :: (name ++ ')' :: rest) := by
      rw [trimStart_blanks_append hgap]
      rfl
    rw [dropWhile_run hpass hstop, hopen]
    show (splitAtFirst? ')' (name ++ ')' :: rest)).map (·.1) = some name
    rw [splitAtFirst?_eq_some_iff.2 ⟨rfl, hclosing⟩]
    rfl

end HostSurvey.ReleaseStatement
