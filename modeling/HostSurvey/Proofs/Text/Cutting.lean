import HostSurvey.Text.Pieces
import Mathlib.Data.List.TakeWhile

/-!
# Cutting and trimming

Pieces are what the library calls a split, and joining them again gives the text back. Trimming takes
the blanks at the ends of a text and nothing else, so whatever blanks are added there do not matter.
-/

namespace HostSurvey.Text

/-- A text of blanks only, which may be empty. -/
def Blanks (cs : List Char) : Prop := ∀ c ∈ cs, isBlank c = true

instance (cs : List Char) : Decidable (Blanks cs) :=
  List.decidableBAll (fun c => isBlank c = true) cs

variable {cs before after : List Char} {c : Char}

/-! ## Pieces -/

theorem pieces_eq_splitOnP (p : Char → Bool) (cs : List Char) : pieces p cs = cs.splitOnP p := by
  induction cs with
  | nil => rfl
  | cons c cs ih =>
    rw [pieces, List.splitOnP_cons_eq_if_modifyHead, ih]
    split
    · rfl
    · cases hpieces : cs.splitOnP p with
      | nil => exact absurd (ih.trans hpieces) (pieces_ne_nil p cs)
      | cons piece rest => rfl

theorem joinWith_eq_intercalate (separator : List Char) (parts : List (List Char)) :
    joinWith separator parts = separator.intercalate parts := by
  induction parts with
  | nil => rfl
  | cons piece rest ih =>
    cases rest with
    | nil => rw [joinWith, List.intercalate_singleton]
    | cons next rest =>
      rw [joinWith, ih, List.intercalate_cons_cons]
      exact List.cons_ne_nil next rest

theorem pieces_append_cons {p : Char → Bool} (h : p c = true) (before after : List Char) :
    pieces p (before ++ c :: after) = pieces p before ++ pieces p after := by
  rw [pieces_eq_splitOnP, List.splitOnP_append_cons before after h, ← pieces_eq_splitOnP,
    ← pieces_eq_splitOnP]

theorem pieces_intercalate_break {p : Char → Bool} {mark : Char} {parts : List (List Char)}
    (hmark : p mark = true) (hne : parts ≠ []) (h : ∀ part ∈ parts, ∀ c ∈ part, p c = false) :
    pieces p ([mark].intercalate parts) = parts := by
  induction parts with
  | nil => exact absurd rfl hne
  | cons part rest ih =>
    have hpart := pieces_of_forall_not p (h part List.mem_cons_self)
    cases rest with
    | nil => rw [List.intercalate_singleton, hpart]
    | cons next rest =>
      rw [List.intercalate_cons_cons, List.append_assoc, List.singleton_append,
        pieces_append_cons hmark, hpart, List.singleton_append,
        ih (List.cons_ne_nil next rest) fun other hmem => h other (List.mem_cons_of_mem part hmem)]

theorem pieces_intercalate {mark : Char} {parts : List (List Char)} (hne : parts ≠ [])
    (h : ∀ part ∈ parts, mark ∉ part) : pieces (· == mark) ([mark].intercalate parts) = parts :=
  pieces_intercalate_break (beq_self_eq_true mark) hne fun part hmem _ hc =>
    beq_false_of_ne fun heq => h part hmem (heq ▸ hc)

theorem intercalate_pieces (mark : Char) (cs : List Char) :
    [mark].intercalate (pieces (· == mark) cs) = cs := by
  rw [pieces_eq_splitOnP, ← List.splitOn_eq_splitOnP, List.intercalate_splitOn]

theorem mem_intercalate {α : Type} {a : α} {separator : List α} {parts : List (List α)}
    (h : a ∈ separator.intercalate parts) : a ∈ separator ∨ ∃ part ∈ parts, a ∈ part := by
  induction parts with
  | nil => cases h
  | cons part rest ih =>
    cases rest with
    | nil =>
      rw [List.intercalate_singleton] at h
      exact .inr ⟨part, List.mem_cons_self, h⟩
    | cons next rest =>
      rw [List.intercalate_cons_cons, List.mem_append, List.mem_append] at h
      rcases h with (h | h) | h
      · exact .inr ⟨part, List.mem_cons_self, h⟩
      · exact .inl h
      · rcases ih h with h | ⟨other, hmem, h⟩
        · exact .inl h
        · exact .inr ⟨other, List.mem_cons_of_mem _ hmem, h⟩

theorem mem_of_mem_pieces {p : Char → Bool} {piece : List Char} (hpiece : piece ∈ pieces p cs)
    (h : c ∈ piece) : c ∈ cs := by
  induction cs generalizing piece with
  | nil =>
    rw [pieces, List.mem_singleton] at hpiece
    rw [hpiece] at h
    exact h
  | cons d cs ih =>
    rw [pieces] at hpiece
    split at hpiece
    · rcases List.mem_cons.1 hpiece with rfl | hpiece
      · cases h
      · exact List.mem_cons_of_mem d (ih hpiece h)
    · split at hpiece
      · rw [List.mem_singleton] at hpiece
        rw [hpiece] at h
        rw [List.mem_singleton.1 h]
        exact List.mem_cons_self
      · next first rest hpieces =>
        rcases List.mem_cons.1 hpiece with rfl | hpiece
        · rcases List.mem_cons.1 h with rfl | h
          · exact List.mem_cons_self
          · exact List.mem_cons_of_mem d (ih (hpieces ▸ List.mem_cons_self) h)
        · exact List.mem_cons_of_mem d (ih (hpieces ▸ List.mem_cons_of_mem _ hpiece) h)

theorem pieces_of_not_mem {mark : Char} (h : mark ∉ cs) : pieces (· == mark) cs = [cs] := by
  apply pieces_of_forall_not
  intro c hc
  exact beq_false_of_ne fun heq => h (heq ▸ hc)

theorem pieces_append_mark {mark : Char} {before : List Char} (h : mark ∉ before)
    (after : List Char) :
    pieces (· == mark) (before ++ mark :: after) = before :: pieces (· == mark) after := by
  rw [pieces_append_cons (p := (· == mark)) (beq_self_eq_true mark), pieces_of_not_mem h,
    List.singleton_append]

/-- What stands after the last mark of a text, which is all of the text when there is no mark. -/
def AfterLast (mark : Char) (text rest : List Char) : Prop :=
  mark ∉ rest ∧ (text = rest ∨ ∃ stem, text = stem ++ mark :: rest)

theorem exists_afterLast (mark : Char) (text : List Char) : ∃ rest, AfterLast mark text rest := by
  induction text with
  | nil => exact ⟨[], List.not_mem_nil, .inl rfl⟩
  | cons c text ih =>
    rcases ih with ⟨rest, hmem, rfl | ⟨stem, rfl⟩⟩
    · by_cases hc : c = mark
      · rw [hc]
        exact ⟨text, hmem, .inr ⟨[], rfl⟩⟩
      · refine ⟨c :: text, ?_, .inl rfl⟩
        rw [List.mem_cons, not_or]
        exact ⟨Ne.symm hc, hmem⟩
    · exact ⟨rest, hmem, .inr ⟨c :: stem, rfl⟩⟩

theorem AfterLast.getLast?_pieces {mark : Char} {text rest : List Char}
    (h : AfterLast mark text rest) : (pieces (· == mark) text).getLast? = some rest := by
  rcases h.2 with rfl | ⟨stem, rfl⟩
  · rw [pieces_of_not_mem h.1, List.getLast?_singleton]
  · rw [pieces_append_cons (p := (· == mark)) (beq_self_eq_true mark), pieces_of_not_mem h.1,
      List.getLast?_concat]

theorem getLast?_pieces_eq_some_iff {mark : Char} {text rest : List Char} :
    (pieces (· == mark) text).getLast? = some rest ↔ AfterLast mark text rest := by
  apply Iff.intro
  · intro h
    rcases exists_afterLast mark text with ⟨last, hlast⟩
    rw [hlast.getLast?_pieces] at h
    rw [← Option.some.inj h]
    exact hlast
  · exact fun h => h.getLast?_pieces

/-! ## Blanks at the ends -/

theorem blanks_nil : Blanks [] := fun _ hc => absurd hc List.not_mem_nil

theorem blanks_takeWhile (cs : List Char) : Blanks (cs.takeWhile isBlank) :=
  fun _ hc => List.mem_takeWhile_imp hc

theorem takeWhile_append_trimStart (cs : List Char) : cs.takeWhile isBlank ++ trimStart cs = cs :=
  List.takeWhile_append_dropWhile

theorem trimStart_blanks_append (hb : Blanks before) (cs : List Char) :
    trimStart (before ++ cs) = trimStart cs :=
  List.dropWhile_append_of_pos hb

theorem trimStart_eq_self (h : ∀ c ∈ cs.head?, isBlank c = false) : trimStart cs = cs :=
  dropWhile_eq_self isBlank h

theorem trimEnd_append_blanks (ha : Blanks after) (cs : List Char) :
    trimEnd (cs ++ after) = trimEnd cs := by
  have hreverse : Blanks after.reverse := fun c hc => ha c (List.mem_reverse.1 hc)
  rw [trimEnd, List.reverse_append, List.dropWhile_append_of_pos hreverse, trimEnd]

theorem trimEnd_eq_self (h : ∀ c ∈ cs.getLast?, isBlank c = false) : trimEnd cs = cs := by
  rw [trimEnd, dropWhile_eq_self isBlank (by rwa [List.head?_reverse]), List.reverse_reverse]

theorem trimEnd_cons (h : isBlank c = false) (cs : List Char) :
    trimEnd (c :: cs) = c :: trimEnd cs := by
  rw [trimEnd, List.reverse_cons, List.dropWhile_append]
  split
  · next hall =>
    rw [trimEnd, List.isEmpty_iff.1 hall]
    simp [h]
  · rw [trimEnd, List.reverse_append]
    rfl

-- Only the blanks before the first character of another kind are taken.
theorem trimStart_append_cons (h : isBlank c = false) (cs rest : List Char) :
    trimStart (cs ++ c :: rest) = trimStart cs ++ c :: rest := by
  rw [trimStart, List.dropWhile_append]
  split
  · next hall =>
    rw [trimStart, List.isEmpty_iff.1 hall]
    simp [h]
  · rfl

theorem blanks_suffix_trimEnd (cs : List Char) : ∃ after, Blanks after ∧ cs = trimEnd cs ++ after := by
  refine ⟨_, fun c hc => ?_, (trimEnd_append_suffix cs).symm⟩
  exact List.mem_takeWhile_imp (List.mem_reverse.1 hc)

theorem trim_blanks_append (hb : Blanks before) (cs : List Char) : trim (before ++ cs) = trim cs := by
  rw [trim, trimStart_blanks_append hb, trim]

theorem trim_append_blanks (ha : Blanks after) (cs : List Char) : trim (cs ++ after) = trim cs := by
  rw [trim, trim, trimStart, List.dropWhile_append]
  split
  · next hall =>
    -- nothing but blanks is left, so nothing at all
    have hnone : after.dropWhile isBlank = [] := List.dropWhile_eq_nil_iff.2 ha
    rw [hnone, trimStart, List.isEmpty_iff.1 hall]
  · exact trimEnd_append_blanks ha _

theorem trim_trimStart (cs : List Char) : trim (trimStart cs) = trim cs := by
  rw [trim, trimStart_eq_self (head?_trimStart cs), trim]

theorem trim_trimEnd (cs : List Char) : trim (trimEnd cs) = trim cs := by
  rcases blanks_suffix_trimEnd cs with ⟨after, ha, hcs⟩
  have hsame := trim_append_blanks ha (trimEnd cs)
  rw [← hcs] at hsame
  exact hsame.symm

/-- A text is its trimmed form between blanks. -/
theorem exists_trim_between (cs : List Char) :
    ∃ before after, Blanks before ∧ Blanks after ∧ cs = before ++ (trim cs ++ after) := by
  rcases blanks_suffix_trimEnd (trimStart cs) with ⟨after, ha, hafter⟩
  refine ⟨cs.takeWhile isBlank, after, blanks_takeWhile cs, ha, ?_⟩
  rw [trim, ← hafter, takeWhile_append_trimStart]

theorem mem_of_mem_trimEnd (h : c ∈ trimEnd cs) : c ∈ cs := by
  rcases blanks_suffix_trimEnd cs with ⟨after, -, hcs⟩
  rw [hcs]
  exact List.mem_append_left _ h

theorem mem_of_mem_trim (h : c ∈ trim cs) : c ∈ cs := by
  rcases exists_trim_between cs with ⟨before, after, -, -, hcs⟩
  rw [hcs]
  exact List.mem_append_right _ (List.mem_append_left _ h)

theorem trimEnd_append_of_blankless (h : ∀ c ∈ before, isBlank c = false) (cs : List Char) :
    trimEnd (before ++ cs) = before ++ trimEnd cs := by
  induction before with
  | nil => rfl
  | cons c before ih =>
    rw [List.cons_append, trimEnd_cons (h c List.mem_cons_self),
      ih fun d hd => h d (List.mem_cons_of_mem c hd), List.cons_append]

theorem trim_append_of_blankless (hne : before ≠ []) (h : ∀ c ∈ before, isBlank c = false)
    (cs : List Char) : trim (before ++ cs) = before ++ trimEnd cs := by
  have hhead : ∀ c ∈ (before ++ cs).head?, isBlank c = false := by
    rcases List.exists_cons_of_ne_nil hne with ⟨first, rest, rfl⟩
    intro c h
    rcases h with ⟨⟩
    exact h first List.mem_cons_self
  rw [trim, trimStart_eq_self hhead, trimEnd_append_of_blankless h]

theorem trim_eq_nil_iff : trim cs = [] ↔ Blanks cs := by
  apply Iff.intro
  · intro h
    rcases exists_trim_between cs with ⟨before, after, hb, ha, hcs⟩
    rw [hcs, h, List.nil_append]
    intro c hc
    rcases List.mem_append.1 hc with hc | hc
    · exact hb c hc
    · exact ha c hc
  · intro h
    have hnil := trim_blanks_append h []
    rwa [List.append_nil] at hnil

/-! ## Fields -/

theorem fields_cons_of_blank (h : isBlank c = true) (cs : List Char) : fields (c :: cs) = fields cs := by
  rw [fields, pieces, if_pos h, List.filter_cons_of_neg (by simp), fields]

theorem fields_blanks_append (hb : Blanks before) (cs : List Char) :
    fields (before ++ cs) = fields cs := by
  induction before with
  | nil => rfl
  | cons c before ih =>
    rw [List.cons_append, fields_cons_of_blank (hb c List.mem_cons_self)]
    exact ih fun d hd => hb d (List.mem_cons_of_mem c hd)

theorem fields_word_append {word : List Char} (hne : word ≠ [])
    (hword : ∀ c ∈ word, isBlank c = false) (hafter : ∀ c ∈ after.head?, isBlank c = true) :
    fields (word ++ after) = word :: fields after := by
  cases after with
  | nil =>
    rw [List.append_nil, fields, pieces_of_forall_not isBlank hword,
      List.filter_cons_of_pos (by simpa using hne)]
    rfl
  | cons c rest =>
    have hc : isBlank c = true := hafter c rfl
    rw [fields_cons_of_blank hc, fields, pieces_eq_splitOnP,
      List.splitOnP_append_cons_of_forall_mem hword c hc rest, ← pieces_eq_splitOnP,
      List.filter_cons_of_pos (by simpa using hne), fields]

/-- The first field stands after blanks and before a blank or the end. -/
theorem exists_of_fields_eq_cons {field : List Char} {further : List (List Char)}
    (h : fields cs = field :: further) :
    ∃ gap after, cs = gap ++ (field ++ after) ∧ Blanks gap ∧ ∀ c ∈ after.head?, isBlank c = true := by
  have hcs := takeWhile_append_trimStart cs
  have hparts := List.takeWhile_append_dropWhile (p := fun c => !isBlank c) (l := trimStart cs)
  generalize hword : (trimStart cs).takeWhile (fun c => !isBlank c) = word at hparts
  have hafter := head?_dropWhile_not (fun c => !isBlank c) (trimStart cs)
  generalize (trimStart cs).dropWhile (fun c => !isBlank c) = after at hparts hafter
  have hend : ∀ c ∈ after.head?, isBlank c = true := fun c hc => by simpa using hafter c hc
  have hfields : fields cs = fields (word ++ after) := by
    rw [hparts, ← fields_blanks_append (blanks_takeWhile cs) (trimStart cs), hcs]
  have hne : word ≠ [] := by
    intro h
    subst h
    -- without a word nothing is left, as what is left starts with no blank
    cases hrest : trimStart cs with
    | nil =>
      rw [hfields, hparts, hrest] at h
      cases h
    | cons c rest =>
      have hc : isBlank c = false := head?_trimStart cs c (by rw [hrest]; rfl)
      rw [hrest, List.takeWhile_cons_of_pos (by simpa using hc)] at hword
      cases hword
  have hblank : ∀ c ∈ word, isBlank c = false := by
    rw [← hword]
    intro c hc
    simpa using List.mem_takeWhile_imp hc
  rw [hfields, fields_word_append hne hblank hend] at h
  cases h
  exact ⟨cs.takeWhile isBlank, after, by rw [hparts, hcs], blanks_takeWhile cs, hend⟩

/-- The words of a text, in order: what stands between its blanks. -/
inductive Words : List Char → List (List Char) → Prop
  | nil {gap : List Char} (blank : Blanks gap) : Words gap []
  | cons {gap word after : List Char} {words : List (List Char)} (blank : Blanks gap)
      (ne_nil : word ≠ []) (blankless : ∀ c ∈ word, isBlank c = false)
      (apart : ∀ c ∈ after.head?, isBlank c = true) (rest : Words after words) :
      Words (gap ++ (word ++ after)) (word :: words)

theorem fields_eq_nil_iff : fields cs = [] ↔ Blanks cs := by
  induction cs with
  | nil => exact iff_of_true rfl blanks_nil
  | cons c cs ih =>
    by_cases hc : isBlank c = true
    · rw [fields_cons_of_blank hc, ih]
      exact ⟨fun h => List.forall_mem_cons.2 ⟨hc, h⟩, fun h => (List.forall_mem_cons.1 h).2⟩
    · -- the first piece holds the character, so it is a field
      have hfields : fields (c :: cs) ≠ [] := by
        rw [fields, pieces, if_neg hc]
        split <;> exact List.cons_ne_nil _ _
      exact iff_of_false hfields fun h => hc (h c List.mem_cons_self)

theorem words_iff {words : List (List Char)} : Words cs words ↔ fields cs = words := by
  apply Iff.intro
  · intro h
    induction h with
    | nil blank => exact fields_eq_nil_iff.2 blank
    | cons blank ne_nil blankless apart _ ih =>
      rw [fields_blanks_append blank, fields_word_append ne_nil blankless apart, ih]
  · intro h
    induction words generalizing cs with
    | nil => exact .nil (fields_eq_nil_iff.1 h)
    | cons word words ih =>
      rcases exists_of_fields_eq_cons h with ⟨gap, after, rfl, blank, apart⟩
      have hmem : word ∈ fields (gap ++ (word ++ after)) := by
        rw [h]
        exact List.mem_cons_self
      have hne := ne_nil_of_mem_fields hmem
      have hword := not_blank_of_mem_fields hmem
      rw [fields_blanks_append blank, fields_word_append hne hword apart] at h
      exact .cons blank hne hword apart (ih (List.cons.inj h).2)

/-! ## Leading texts and marks -/

theorem after?_eq_some_iff {lead rest : List Char} : after? lead cs = some rest ↔ cs = lead ++ rest := by
  rw [after?]
  by_cases h : lead.isPrefixOf cs = true
  · rcases List.isPrefixOf_iff_prefix.1 h with ⟨further, rfl⟩
    rw [if_pos h, List.drop_left, Option.some.injEq, List.append_right_inj]
  · rw [if_neg h]
    apply Iff.intro
    · intro hnone
      cases hnone
    · intro h
      subst h
      exact absurd (List.isPrefixOf_iff_prefix.2 (List.prefix_append lead rest)) h

theorem after?_eq_none_iff {lead : List Char} : after? lead cs = none ↔ ¬ lead <+: cs := by
  rw [Option.eq_none_iff_forall_ne_some]
  apply Iff.intro
  · intro hnone leads
    rcases leads with ⟨rest, hrest⟩
    exact hnone rest (after?_eq_some_iff.2 hrest.symm)
  · intro h rest hrest
    exact h ⟨rest, (after?_eq_some_iff.1 hrest).symm⟩

theorem takeWhile_ne_eq_iff {mark : Char} {name : List Char} :
    cs.takeWhile (· ≠ mark) = name ↔
      mark ∉ name ∧ (cs = name ∨ ∃ rest, cs = name ++ mark :: rest) := by
  apply Iff.intro
  · intro h
    subst h
    refine ⟨fun hmem => by simpa using List.mem_takeWhile_imp hmem, ?_⟩
    have hcs := List.takeWhile_append_dropWhile (p := (· ≠ mark)) (l := cs)
    have hhead := head?_dropWhile_not (· ≠ mark) cs
    cases hdrop : cs.dropWhile (· ≠ mark) with
    | nil =>
      rw [hdrop, List.append_nil] at hcs
      exact .inl hcs.symm
    | cons c rest =>
      have hc : c = mark := by simpa using hhead c (by rw [hdrop]; rfl)
      rw [hdrop, hc] at hcs
      exact .inr ⟨rest, hcs.symm⟩
  · intro h
    rcases h with ⟨hmem, hcs⟩
    have hpass : ∀ c ∈ name, decide (c ≠ mark) = true := by
      intro c hc
      have hne : c ≠ mark := fun heq => hmem (heq ▸ hc)
      simp [hne]
    rcases hcs with rfl | ⟨rest, rfl⟩
    · exact List.takeWhile_eq_self_iff.2 hpass
    · exact takeWhile_run hpass (by simp)

end HostSurvey.Text
