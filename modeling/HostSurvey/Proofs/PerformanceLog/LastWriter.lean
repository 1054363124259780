import HostSurvey.Proofs.PerformanceLog.Frame
import Mathlib.Data.List.Induction

/-!
# The log that lines leave

Lines are entered one after another, and a later one may replace a leaf, put a branch where a leaf
stood or a leaf where a branch stood. What is left in the end is told by the lines alone: the reading
of a line survives when no later line has a path comparable with its own, the leaves of the log are
the surviving readings, and its branches are the proper starts of their paths.
-/

namespace HostSurvey.PerformanceLog

/-- A line holds the reading at the path, and no later line has a path comparable with it. -/
def Survives (lines : List String) (path : List String) (reading : Reading) : Prop :=
  ∃ before line after, lines = before ++ line :: after ∧
    line? line.toList = some (path, reading) ∧
    ∀ later ∈ after, ∀ other r, line? later.toList = some (other, r) → ¬ Comparable other path

variable {lines : List String} {path other : List String} {reading r : Reading} {last : String}

theorem ne_nil_of_line? {line : List Char} (h : line? line = some (path, reading)) : path ≠ [] := by
  unfold line? at h
  dsimp only at h
  split at h
  · cases h
  · rcases Option.map_eq_some_iff.1 h with ⟨⟨name, tail⟩, -, heq⟩
    cases heq
    rw [ne_eq, List.map_eq_nil_iff]
    exact List.append_ne_nil_of_left_ne_nil (Text.pieces_ne_nil _ _) _

theorem Survives.ne_nil (h : Survives lines path reading) : path ≠ [] := by
  rcases h with ⟨_, _, _, _, hline, _⟩
  exact ne_nil_of_line? hline

theorem not_survives_nil : ¬ Survives [] path reading := by
  intro hsurvives
  rcases hsurvives with ⟨before, line, after, h, -⟩
  exact List.append_ne_nil_of_right_ne_nil before (List.cons_ne_nil line after) h.symm

-- Of one more line, either the reading itself survives, or an earlier one that it leaves alone.
theorem survives_concat_iff :
    Survives (lines ++ [last]) path reading ↔
      line? last.toList = some (path, reading) ∨
        (Survives lines path reading ∧
          ∀ other r, line? last.toList = some (other, r) → ¬ Comparable other path) := by
  apply Iff.intro
  · intro hsurvives
    rcases hsurvives with ⟨before, line, after, heq, hline, hafter⟩
    -- nothing after the line means that it is the last one itself
    rcases List.eq_nil_or_concat after with rfl | ⟨after, final, rfl⟩
    · have hsplit := List.append_inj' heq rfl
      rw [List.singleton_inj.1 hsplit.2]
      exact .inl hline
    · rw [List.concat_eq_append] at hafter heq
      rw [← List.cons_append, ← List.append_assoc] at heq
      rcases List.append_inj' heq rfl with ⟨rfl, hfinal⟩
      rw [List.singleton_inj] at hfinal
      subst hfinal
      refine .inr ⟨⟨before, line, after, rfl, hline, ?_⟩, ?_⟩
      · exact fun later hmem => hafter later (List.mem_append_left _ hmem)
      · exact hafter last (List.mem_append_right _ List.mem_cons_self)
  · intro hor
    rcases hor with hline | ⟨⟨before, line, after, rfl, hline, hafter⟩, hlast⟩
    · exact ⟨lines, last, [], rfl, hline, fun _ hmem => absurd hmem List.not_mem_nil⟩
    · refine ⟨before, line, after ++ [last], by simp, hline, fun later hmem => ?_⟩
      rcases List.mem_append.1 hmem with hmem | hmem
      · exact hafter later hmem
      · rw [List.mem_singleton] at hmem
        subst hmem
        exact hlast

theorem survives_concat_of_passed (h : line? last.toList = none) :
    Survives (lines ++ [last]) path reading ↔ Survives lines path reading := by
  rw [survives_concat_iff, h]
  simp

theorem survives_concat_of_accepted (h : line? last.toList = some (other, r)) :
    Survives (lines ++ [last]) path reading ↔
      (path = other ∧ reading = r) ∨ (Survives lines path reading ∧ ¬ Comparable other path) := by
  rw [survives_concat_iff, h]
  apply Iff.intro
  · intro hor
    rcases hor with heq | ⟨hsurvives, hapart⟩
    · cases heq
      exact .inl ⟨rfl, rfl⟩
    · exact .inr ⟨hsurvives, hapart other r rfl⟩
  · intro hor
    rcases hor with ⟨rfl, rfl⟩ | ⟨hsurvives, hapart⟩
    · exact .inl rfl
    · refine .inr ⟨hsurvives, fun other' r' heq => ?_⟩
      cases heq
      exact hapart

section Accepted

variable (h : line? last.toList = some (other, r))

include h

theorem survives_at_accepted : Survives (lines ++ [last]) other reading ↔ reading = r := by
  rw [survives_concat_of_accepted h]
  apply Iff.intro
  · intro hor
    rcases hor with ⟨-, hr⟩ | ⟨-, hapart⟩
    · exact hr
    · exact absurd (Comparable.refl other) hapart
  · intro hr
    exact .inl ⟨rfl, hr⟩

theorem not_survives_near_accepted (hc : Comparable other path) (hne : path ≠ other) :
    ¬ Survives (lines ++ [last]) path reading := by
  rw [survives_concat_of_accepted h]
  intro hor
  rcases hor with ⟨heq, -⟩ | ⟨-, hapart⟩
  · exact hne heq
  · exact hapart hc

theorem survives_apart_from_accepted (hapart : ¬ Comparable other path) :
    Survives (lines ++ [last]) path reading ↔ Survives lines path reading := by
  rw [survives_concat_of_accepted h]
  apply Iff.intro
  · intro hor
    rcases hor with ⟨heq, -⟩ | ⟨hsurvives, -⟩
    · subst heq
      exact absurd (Comparable.refl path) hapart
    · exact hsurvives
  · intro hsurvives
    exact .inr ⟨hsurvives, hapart⟩

end Accepted

/-! ## The invariant of entering lines -/

/-- The nodes hold what survives of the lines, and nothing else. -/
structure Reflects (lines : List String) (nodes : Dict Node) : Prop where
  leaf : ∀ path reading, nodeAt? path nodes = some (.leaf reading) ↔ Survives lines path reading
  branch : ∀ path, (∃ children, nodeAt? path nodes = some (.branch children)) ↔
    path ≠ [] ∧ ∃ key rest reading, Survives lines (path ++ key :: rest) reading
  filled : ∀ path children, nodeAt? path nodes = some (.branch children) → children ≠ []
  sorted : Sorted nodes

variable {nodes : Dict Node}

theorem reflects_empty : Reflects [] [] where
  leaf := by
    intro path reading
    rw [nodeAt?_empty]
    refine iff_of_false ?_ not_survives_nil
    intro h
    cases h
  branch := by
    intro path
    rw [nodeAt?_empty]
    refine iff_of_false ?_ ?_
    · intro h
      rcases h with ⟨children, h⟩
      cases h
    · intro h
      rcases h with ⟨-, key, rest, reading, h⟩
      exact not_survives_nil h
  filled := fun path children h => by rw [nodeAt?_empty] at h; cases h
  sorted := sorted_empty

theorem Reflects.passed (h : Reflects lines nodes) (hlast : line? last.toList = none) :
    Reflects (lines ++ [last]) nodes where
  leaf := fun path reading => (h.leaf path reading).trans (survives_concat_of_passed hlast).symm
  branch := by
    intro path
    rw [h.branch]
    simp only [survives_concat_of_passed hlast]
  filled := h.filled
  sorted := h.sorted

theorem Reflects.leaf_of_accepted (h : Reflects lines nodes)
    (hlast : line? last.toList = some (other, r)) (path : List String) (reading : Reading) :
    nodeAt? path (place r other nodes) = some (.leaf reading) ↔
      Survives (lines ++ [last]) path reading := by
  have hne : other ≠ [] := ne_nil_of_line? hlast
  by_cases hpath : path = []
  · subst hpath
    refine iff_of_false ?_ fun hsurvives => hsurvives.ne_nil rfl
    intro hleaf
    cases hleaf
  rcases path_cases other path with rfl | ⟨key, rest, rfl⟩ | ⟨key, rest, rfl⟩ | hapart
  · rw [nodeAt?_place_self hne, survives_at_accepted hlast]
    apply Iff.intro
    · intro hleaf
      cases hleaf
      rfl
    · intro hr
      rw [hr]
  · rw [nodeAt?_place_start hpath (List.cons_ne_nil key rest)]
    refine iff_of_false ?_ ?_
    · intro hleaf
      cases hleaf
    · exact not_survives_near_accepted hlast (comparable_append path _).symm (by simp)
  · rw [nodeAt?_place_below hne (List.cons_ne_nil key rest)]
    refine iff_of_false ?_ ?_
    · intro hleaf
      cases hleaf
    · exact not_survives_near_accepted hlast (comparable_append other _) (by simp)
  · rw [nodeAt?_place_of_not_comparable hapart, h.leaf, survives_apart_from_accepted hlast hapart]

theorem Reflects.branch_of_accepted (h : Reflects lines nodes)
    (hlast : line? last.toList = some (other, r)) (path : List String) :
    (∃ children, nodeAt? path (place r other nodes) = some (.branch children)) ↔
      path ≠ [] ∧ ∃ key rest reading, Survives (lines ++ [last]) (path ++ key :: rest) reading := by
  have hne : other ≠ [] := ne_nil_of_line? hlast
  -- nothing survives below the new leaf
  have hgone : ∀ start key rest reading,
      ¬ Survives (lines ++ [last]) (other ++ (start ++ key :: rest)) reading := by
    intro start key rest reading
    exact not_survives_near_accepted hlast (comparable_append other _) (by simp)
  rcases path_cases other path with rfl | ⟨key, rest, rfl⟩ | ⟨key, rest, rfl⟩ | hapart
  · rw [nodeAt?_place_self hne]
    refine iff_of_false ?_ ?_
    · intro hbranch
      rcases hbranch with ⟨children, hbranch⟩
      cases hbranch
    · intro hbelow
      rcases hbelow with ⟨-, key, rest, reading, hsurvives⟩
      exact hgone [] key rest reading hsurvives
  · by_cases hpath : path = []
    · subst hpath
      refine iff_of_false ?_ fun hbelow => hbelow.1 rfl
      intro hbranch
      rcases hbranch with ⟨children, hbranch⟩
      cases hbranch
    · rw [nodeAt?_place_start hpath (List.cons_ne_nil key rest)]
      -- the new leaf itself lies below this branch
      refine iff_of_true ⟨_, rfl⟩ ⟨hpath, key, rest, r, ?_⟩
      exact (survives_at_accepted hlast).2 rfl
  · rw [nodeAt?_place_below hne (List.cons_ne_nil key rest)]
    refine iff_of_false ?_ ?_
    · intro hbranch
      rcases hbranch with ⟨children, hbranch⟩
      cases hbranch
    · intro hbelow
      rcases hbelow with ⟨-, key', rest', reading, hsurvives⟩
      rw [List.append_assoc] at hsurvives
      exact hgone (key :: rest) key' rest' reading hsurvives
  · rw [nodeAt?_place_of_not_comparable hapart, h.branch]
    -- what lies below a path apart from the new leaf is apart from it as well
    refine and_congr_right fun _ => ?_
    refine exists_congr fun key => exists_congr fun rest => exists_congr fun reading => ?_
    exact (survives_apart_from_accepted hlast fun hc => hapart hc.of_append).symm

theorem Reflects.accepted (h : Reflects lines nodes)
    (hlast : line? last.toList = some (other, r)) :
    Reflects (lines ++ [last]) (place r other nodes) where
  leaf := h.leaf_of_accepted hlast
  branch := h.branch_of_accepted hlast
  filled := by
    intro path children hnode
    rcases branch_place_cases (ne_nil_of_line? hlast) hnode with ⟨rest, hrest, rfl⟩ | hkept
    · exact place_ne_nil hrest
    · exact h.filled path children hkept
  sorted := h.sorted.place (ne_nil_of_line? hlast)

/-! ## The log of some lines -/

/-- The log that is left when all lines have been entered. -/
def entered (lines : List String) : PerformanceLog :=
  (entries lines).foldl (fun log (path, reading) => log.insert path reading) empty

theorem entries_concat_of_passed (h : line? last.toList = none) :
    entries (lines ++ [last]) = entries lines := by
  unfold entries
  rw [List.filterMap_append, List.filterMap_cons, h]
  simp

theorem entries_concat_of_accepted (h : line? last.toList = some (other, r)) :
    entries (lines ++ [last]) = entries lines ++ [(other, r)] := by
  unfold entries
  rw [List.filterMap_append, List.filterMap_cons, h]
  simp

theorem reflects_entered (lines : List String) : Reflects lines (entered lines).roots := by
  -- lines are entered one by one, so the last one is entered over what the others left
  induction lines using List.reverseRecOn with
  | nil => exact reflects_empty
  | append_singleton lines last ih =>
    cases hlast : line? last.toList with
    | none =>
      rw [entered, entries_concat_of_passed hlast]
      exact ih.passed hlast
    | some entry =>
      rcases entry with ⟨other, r⟩
      rw [entered, entries_concat_of_accepted hlast, List.foldl_append]
      exact ih.accepted hlast

theorem ofLines?_eq_none_iff :
    ofLines? lines = none ↔ ∀ line ∈ lines, line? line.toList = none := by
  rw [← List.filterMap_eq_nil_iff]
  change _ ↔ entries lines = []
  unfold ofLines?
  cases entries lines with
  | nil => exact iff_of_true rfl rfl
  | cons entry rest =>
    refine iff_of_false ?_ (List.cons_ne_nil entry rest)
    intro h
    cases h

theorem eq_entered_of_ofLines? {log : PerformanceLog} (h : ofLines? lines = some log) :
    log = entered lines := by
  unfold ofLines? at h
  unfold entered
  cases hentries : entries lines with
  | nil =>
    rw [hentries] at h
    cases h
  | cons entry rest =>
    rw [hentries] at h
    exact (Option.some.inj h).symm

theorem Reflects.isSome_nodeAt?_iff (h : Reflects lines nodes) (hpath : path ≠ []) :
    (nodeAt? path nodes).isSome ↔ ∃ rest reading, Survives lines (path ++ rest) reading := by
  apply Iff.intro
  · intro hsome
    rcases Option.isSome_iff_exists.1 hsome with ⟨node, hnode⟩
    cases node with
    | leaf reading =>
      refine ⟨[], reading, ?_⟩
      rw [List.append_nil]
      exact (h.leaf path reading).1 hnode
    | branch children =>
      rcases (h.branch path).1 ⟨children, hnode⟩ with ⟨-, key, rest, reading, hsurvives⟩
      exact ⟨key :: rest, reading, hsurvives⟩
  · intro hsurvives
    rcases hsurvives with ⟨rest, reading, hsurvives⟩
    cases rest with
    | nil =>
      rw [List.append_nil] at hsurvives
      rw [(h.leaf path reading).2 hsurvives]
      rfl
    | cons key rest =>
      rcases (h.branch path).2 ⟨hpath, key, rest, reading, hsurvives⟩ with ⟨children, hnode⟩
      rw [hnode]
      rfl

theorem Reflects.mem_keys_iff (h : Reflects lines nodes) {key : String} :
    key ∈ Dict.keys nodes ↔ ∃ rest reading, Survives lines (key :: rest) reading := by
  have htop : (nodeAt? [key] nodes).isSome ↔ _ := h.isSome_nodeAt?_iff (List.cons_ne_nil key [])
  rw [Dict.mem_keys_iff]
  exact htop

-- The keys of a branch are the next segments of the surviving paths below it.
theorem Reflects.mem_keys_branch_iff (h : Reflects lines nodes) {children : Dict Node}
    (hnode : nodeAt? path nodes = some (.branch children)) {key : String} :
    key ∈ Dict.keys children ↔ ∃ rest reading, Survives lines (path ++ key :: rest) reading := by
  have hpath : path ≠ [] := ((h.branch path).1 ⟨children, hnode⟩).1
  have hbelow : nodeAt? (path ++ [key]) nodes = Dict.get? children key := by
    rw [nodeAt?_append hpath (List.cons_ne_nil key []), nodesBelow, hnode]
    rfl
  rw [Dict.mem_keys_iff, ← hbelow, h.isSome_nodeAt?_iff (List.append_ne_nil_of_left_ne_nil hpath _)]
  simp only [List.append_assoc, List.singleton_append]

theorem keys_pairwise {d : Dict Node} (h : d.Ordered) : (Dict.keys d).Pairwise (· < ·) :=
  List.pairwise_map.2 h

/-- Lines without a reading give no log. From all others the last writer under comparable paths
decides on the leaves of the log, and the leaves decide on its branches. -/
theorem ofLines?_leaves_last_writers (lines : List String) :
    (ofLines? lines = none ↔ ∀ line ∈ lines, line? line.toList = none) ∧
    ∀ log, ofLines? lines = some log →
      (∀ path,
        (∀ reading, log.find? path = some (.leaf reading) ↔ Survives lines path reading) ∧
        ((∃ children, log.find? path = some (.branch children)) ↔
          path ≠ [] ∧ ∃ key rest reading, Survives lines (path ++ key :: rest) reading) ∧
        (∀ children, log.find? path = some (.branch children) →
          children ≠ [] ∧ (Dict.keys children).Pairwise (· < ·) ∧
          ∀ key, key ∈ Dict.keys children ↔
            ∃ rest reading, Survives lines (path ++ key :: rest) reading) ∧
        (log.find? path = none ↔
          (∀ reading, ¬ Survives lines path reading) ∧
          ¬ (path ≠ [] ∧ ∃ key rest reading, Survives lines (path ++ key :: rest) reading))) ∧
      log.groups.Pairwise (· < ·) ∧
      ∀ group, group ∈ log.groups ↔ ∃ rest reading, Survives lines (group :: rest) reading := by
  refine ⟨ofLines?_eq_none_iff, fun log hlog => ?_⟩
  have reflects : Reflects lines log.roots := by
    rw [eq_entered_of_ofLines? hlog]
    exact reflects_entered lines
  refine ⟨fun path => ⟨reflects.leaf path, reflects.branch path, ?_, ?_⟩, ?_, ?_⟩
  · intro children hnode
    refine ⟨reflects.filled path children hnode, ?_, fun key => ?_⟩
    · exact keys_pairwise (reflects.sorted.branches path children hnode)
    · exact reflects.mem_keys_branch_iff hnode
  · rw [← reflects.branch path]
    simp only [← reflects.leaf path]
    change nodeAt? path log.roots = none ↔ _
    cases nodeAt? path log.roots with
    | none => simp
    | some node => cases node <;> simp
  · exact keys_pairwise reflects.sorted.top
  · exact fun group => reflects.mem_keys_iff

/-- A reading below a leaf takes the place of the leaf. -/
theorem leaf_replaced_by_branch :
    ofLines? ["disk.total x count", "disk.total [\"vda\"] y count"] =
      some ⟨[("disk", .branch [("total", .branch [("vda", .leaf ⟨.text "y", "count"⟩)])])]⟩ ∧
    ¬ Survives ["disk.total x count", "disk.total [\"vda\"] y count"] ["disk", "total"]
      ⟨.text "x", "count"⟩ := by
  have hlog : ofLines? ["disk.total x count", "disk.total [\"vda\"] y count"] =
      some ⟨[("disk", .branch [("total", .branch [("vda", .leaf ⟨.text "y", "count"⟩)])])]⟩ := by
    have hentries : entries ["disk.total x count", "disk.total [\"vda\"] y count"] =
        [(["disk", "total"], ⟨.text "x", "count"⟩),
          (["disk", "total", "vda"], ⟨.text "y", "count"⟩)] := by decide +kernel
    rw [ofLines?, hentries]
    rfl
  refine ⟨hlog, ?_⟩
  rw [← ((ofLines?_leaves_last_writers _).2 _ hlog).1 ["disk", "total"] |>.1]
  intro h
  cases h

end HostSurvey.PerformanceLog
