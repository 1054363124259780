import HostSurvey.Proofs.PerformanceLog.Frame

/-!
# Insertions into a performance log

An insertion decides on the paths comparable with its own and leaves all others alone. It makes no
branch empty, since every branch on its way holds the next node of the way. Insertions at paths that
are not comparable may change places.
-/

namespace HostSurvey.PerformanceLog

variable {reading r : Reading} {nodes : Dict Node} {key : String} {path other : List String}

/-! ## Branches without children -/

/-- No branch is empty, neither the node itself nor one below it. -/
inductive Node.Filled : Node → Prop
  | leaf (reading : Reading) : Filled (.leaf reading)
  | branch {children : Dict Node} (ne_nil : children ≠ [])
      (below : ∀ key node, (key, node) ∈ children → Filled node) : Filled (.branch children)

/-- No branch is empty among some nodes and below them. -/
def Filled (nodes : Dict Node) : Prop := ∀ key node, (key, node) ∈ nodes → node.Filled

theorem filled_nil : Filled [] := fun _ _ hmem => absurd hmem List.not_mem_nil

theorem Filled.insert {node : Node} (h : Filled nodes) (hnode : node.Filled) :
    Filled (Dict.insert key node nodes) := by
  intro k child hmem
  cases Dict.mem_insert hmem with
  | inl heq =>
    cases heq
    exact hnode
  | inr hmem => exact h k child hmem

theorem Filled.childrenAt (h : Filled nodes) (key : String) : Filled (childrenAt nodes key) := by
  unfold PerformanceLog.childrenAt
  cases hget : Dict.get? nodes key with
  | none => exact filled_nil
  | some node =>
    have hnode : node.Filled := h key node (Dict.mem_of_get? hget)
    cases hnode with
    | leaf reading => exact filled_nil
    | branch ne_nil below => exact below

theorem Filled.place (h : Filled nodes) (path : List String) : Filled (place reading path nodes) := by
  induction path generalizing nodes with
  | nil => exact h
  | cons key rest ih =>
    by_cases hrest : rest = []
    · subst hrest
      exact h.insert (.leaf reading)
    · rw [place_cons hrest]
      exact h.insert (.branch (place_ne_nil hrest) (ih (h.childrenAt key)))

/-! ## Two insertions -/

theorem place_comm (h : ¬ Comparable path other) :
    place r other (place reading path nodes) = place reading path (place r other nodes) := by
  induction path generalizing other nodes with
  | nil => exact absurd (.inl List.nil_prefix) h
  | cons key rest ih =>
    cases other with
    | nil => exact absurd (.inr List.nil_prefix) h
    | cons k others =>
      by_cases hkey : key = k
      · -- both go into the branch at the key, where the second insertion finds what the first left
        subst hkey
        have hparts : ¬ Comparable rest others := fun hc => h (comparable_cons_iff.2 hc)
        rcases ne_nil_of_not_comparable hparts with ⟨hrest, hothers⟩
        have hchildren (children : Dict Node) :
            childrenAt (Dict.insert key (.branch children) nodes) key = children := by
          rw [childrenAt_insert, if_pos rfl]
          rfl
        rw [place_cons hrest, place_cons hrest, place_cons hothers, place_cons hothers, hchildren,
          hchildren, Dict.insert_insert, Dict.insert_insert, ih hparts]
      · -- each sees the children at its own key as they were
        rw [place_cons_eq_insert, place_cons_eq_insert, place_cons_eq_insert, place_cons_eq_insert,
          childrenAt_insert, if_neg hkey, childrenAt_insert, if_neg (Ne.symm hkey)]
        exact Dict.insert_comm (Ne.symm hkey) _ _ nodes

/-! ## The law of an insertion -/

theorem exists_of_proper_prefix (h : path <+: other) (hne : path ≠ other) :
    ∃ rest, rest ≠ [] ∧ other = path ++ rest := by
  rcases h with ⟨rest, rfl⟩
  cases rest with
  | nil => exact absurd (List.append_nil path).symm hne
  | cons key rest => exact ⟨key :: rest, List.cons_ne_nil key rest, rfl⟩

/-- An insertion makes its path a leaf and every proper start of it a branch, takes away what stood
below, and changes no other path. It leaves no branch empty, and it may change places with an
insertion at a path that is not comparable. -/
theorem insert_changes_comparable_paths (log : PerformanceLog) (reading : Reading)
    (hpath : path ≠ []) :
    (log.insert path reading).find? path = some (.leaf reading) ∧
    (∀ start, start ≠ [] → start <+: path → start ≠ path →
      ∃ children, (log.insert path reading).find? start = some (.branch children)) ∧
    (∀ below, path <+: below → below ≠ path → (log.insert path reading).find? below = none) ∧
    (∀ other, ¬ Comparable path other →
      (log.insert path reading).find? other = log.find? other) ∧
    (Filled log.roots → Filled (log.insert path reading).roots) ∧
    ∀ other r, ¬ Comparable path other →
      (log.insert path reading).insert other r = (log.insert other r).insert path reading := by
  refine ⟨nodeAt?_place_self hpath, ?_, ?_, ?_, ?_, ?_⟩
  · intro start hstart hprefix hne
    rcases exists_of_proper_prefix hprefix hne with ⟨rest, hrest, rfl⟩
    exact ⟨_, nodeAt?_place_start hstart hrest⟩
  · intro below hprefix hne
    rcases exists_of_proper_prefix hprefix (Ne.symm hne) with ⟨rest, hrest, rfl⟩
    exact nodeAt?_place_below hpath hrest
  · exact fun other hapart => nodeAt?_place_of_not_comparable hapart
  · exact fun hfilled => hfilled.place path
  · intro other r hapart
    exact congrArg PerformanceLog.mk (place_comm hapart)

/-- A log with two leaves, one of them on the way to a device below it. -/
def leafOnTheWay : PerformanceLog :=
  (empty.insert ["disk", "total"] ⟨.text "x", "count"⟩).insert ["mem"] ⟨.text "y", "none"⟩

theorem filled_leafOnTheWay : Filled leafOnTheWay.roots :=
  (filled_nil.place ["disk", "total"]).place ["mem"]

/-- The leaf on the way becomes a branch, and the leaf beside it stays. -/
theorem leaf_on_the_way_becomes_branch :
    (["disk", "total", "vda"] ≠ [] ∧ ["disk", "total"] <+: ["disk", "total", "vda"] ∧
      ¬ Comparable ["disk", "total", "vda"] ["mem"] ∧ Filled leafOnTheWay.roots) ∧
    (∃ children, (leafOnTheWay.insert ["disk", "total", "vda"] ⟨.text "z", "count"⟩).find?
      ["disk", "total"] = some (.branch children)) ∧
    (leafOnTheWay.insert ["disk", "total", "vda"] ⟨.text "z", "count"⟩).find? ["mem"] =
      some (.leaf ⟨.text "y", "none"⟩) ∧
    Filled (leafOnTheWay.insert ["disk", "total", "vda"] ⟨.text "z", "count"⟩).roots := by
  have hpath : ["disk", "total", "vda"] ≠ [] := by decide
  have hstart : ["disk", "total"] <+: ["disk", "total", "vda"] := by decide
  have hapart : ¬ Comparable ["disk", "total", "vda"] ["mem"] := by
    unfold Comparable
    decide
  rcases insert_changes_comparable_paths leafOnTheWay ⟨.text "z", "count"⟩ hpath with
    ⟨-, branches, -, others, filled, -⟩
  refine ⟨⟨hpath, hstart, hapart, filled_leafOnTheWay⟩, ?_, ?_, filled filled_leafOnTheWay⟩
  · exact branches ["disk", "total"] (by decide) hstart (by decide)
  · rw [others ["mem"] hapart]
    rfl

end HostSurvey.PerformanceLog
