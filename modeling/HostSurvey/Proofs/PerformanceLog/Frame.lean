import HostSurvey.Reading.PerformanceLog

/-!
# What an insertion changes

Putting a reading at a path makes that path a leaf, every path on the way to it a branch, and leaves
nothing below it. Paths that neither start with it nor are the start of it keep their nodes. The
nodes of every branch stay in ascending order.
-/

namespace HostSurvey.PerformanceLog

variable {reading : Reading} {nodes : Dict Node} {key : String} {path other : List String}

/-- One of two paths is the start of the other, or they are the same. -/
def Comparable (a b : List String) : Prop := a <+: b ∨ b <+: a

theorem Comparable.symm {a b : List String} (h : Comparable a b) : Comparable b a := Or.symm h

theorem Comparable.refl (a : List String) : Comparable a a := .inl List.prefix_rfl

theorem comparable_append (a rest : List String) : Comparable a (a ++ rest) :=
  .inl (List.prefix_append a rest)

theorem Comparable.of_append {a b rest : List String} (h : Comparable a (b ++ rest)) :
    Comparable a b := by
  cases h with
  | inl h => exact List.prefix_or_prefix_of_prefix h (List.prefix_append b rest)
  | inr h => exact .inr ((List.prefix_append b rest).trans h)

theorem comparable_cons_iff {a b : List String} :
    Comparable (key :: a) (key :: b) ↔ Comparable a b := by
  unfold Comparable
  rw [List.prefix_cons_inj, List.prefix_cons_inj]

theorem ne_nil_of_not_comparable (h : ¬ Comparable path other) : path ≠ [] ∧ other ≠ [] :=
  ⟨fun hnil => h (.inl (hnil ▸ List.nil_prefix)), fun hnil => h (.inr (hnil ▸ List.nil_prefix))⟩

theorem path_cases (path other : List String) :
    other = path ∨ (∃ key rest, path = other ++ key :: rest) ∨
      (∃ key rest, other = path ++ key :: rest) ∨ ¬ Comparable path other := by
  by_cases hbelow : other <+: path
  · rcases hbelow with ⟨rest, rfl⟩
    cases rest with
    | nil => exact .inl (List.append_nil other).symm
    | cons key rest => exact .inr (.inl ⟨key, rest, rfl⟩)
  · by_cases habove : path <+: other
    · rcases habove with ⟨rest, rfl⟩
      cases rest with
      | nil => exact .inl (List.append_nil path)
      | cons key rest => exact .inr (.inr (.inl ⟨key, rest, rfl⟩))
    · refine .inr (.inr (.inr fun h => ?_))
      exact h.elim habove hbelow

/-! ## Descent -/

/-- The nodes below a path; there are none below a leaf or where nothing stands. -/
def nodesBelow (path : List String) (nodes : Dict Node) : Dict Node :=
  ((nodeAt? path nodes).bind Node.children?).getD []

@[simp] theorem nodeAt?_empty (path : List String) : nodeAt? path [] = none := by
  cases path with
  | nil => rfl
  | cons key rest => cases rest <;> rfl

theorem nodeAt?_cons (h : path ≠ []) :
    nodeAt? (key :: path) nodes = nodeAt? path (childrenAt nodes key) := by
  cases path with
  | nil => exact absurd rfl h
  | cons next rest =>
    rw [nodeAt?, childrenAt]
    · cases hchildren : (Dict.get? nodes key).bind Node.children? with
      | none => rw [Option.getD_none, nodeAt?_empty]; rfl
      | some children => rfl
    · exact h

theorem place_cons (h : path ≠ []) :
    place reading (key :: path) nodes =
      Dict.insert key (.branch (place reading path (childrenAt nodes key))) nodes := by
  rw [place]
  exact h

/-- The node that an insertion puts at the first key of its path, from the rest of the path. -/
def nodeOn (reading : Reading) (rest : List String) (children : Dict Node) : Node :=
  if rest = [] then .leaf reading else .branch (place reading rest children)

theorem place_cons_eq_insert (reading : Reading) (key : String) (rest : List String)
    (nodes : Dict Node) :
    place reading (key :: rest) nodes =
      Dict.insert key (nodeOn reading rest (childrenAt nodes key)) nodes := by
  unfold nodeOn
  by_cases hrest : rest = []
  · rw [if_pos hrest, hrest]
    rfl
  · rw [if_neg hrest, place_cons hrest]

theorem nodesBelow_singleton : nodesBelow [key] nodes = childrenAt nodes key := rfl

-- The way down to a path can be broken anywhere.
theorem nodeAt?_append (hpath : path ≠ []) (hother : other ≠ []) :
    nodeAt? (path ++ other) nodes = nodeAt? other (nodesBelow path nodes) := by
  induction path generalizing nodes with
  | nil => exact absurd rfl hpath
  | cons key rest ih =>
    rw [List.cons_append]
    -- the last key is looked up, the keys before it are gone down
    by_cases hrest : rest = []
    · subst hrest
      rw [List.nil_append, nodeAt?_cons hother, nodesBelow_singleton]
    · have hne : rest ++ other ≠ [] := List.append_ne_nil_of_left_ne_nil hrest other
      rw [nodeAt?_cons hne, ih hrest, nodesBelow, nodesBelow, nodeAt?_cons hrest]

theorem childrenAt_insert (node : Node) (k : String) :
    childrenAt (Dict.insert key node nodes) k =
      if key = k then node.children?.getD [] else childrenAt nodes k := by
  unfold childrenAt
  rw [Dict.get?_insert]
  by_cases h : key = k
  · rw [if_pos h, if_pos h]; rfl
  · rw [if_neg h, if_neg h]

/-! ## The frame law -/

theorem place_ne_nil (h : path ≠ []) : place reading path nodes ≠ [] := by
  cases path with
  | nil => exact absurd rfl h
  | cons key rest => cases rest <;> exact Dict.insert_ne_nil _ _ _

theorem nodeAt?_place_self (h : path ≠ []) :
    nodeAt? path (place reading path nodes) = some (.leaf reading) := by
  induction path generalizing nodes with
  | nil => exact absurd rfl h
  | cons key rest ih =>
    by_cases hrest : rest = []
    · subst hrest
      rw [place, nodeAt?, Dict.get?_insert, if_pos rfl]
    · rw [place_cons hrest, nodeAt?_cons hrest, childrenAt_insert, if_pos rfl]
      exact ih hrest

-- On the way to the path, a branch keeps its other nodes; a leaf becomes a branch.
theorem nodeAt?_place_start (hother : other ≠ []) (hrest : path ≠ []) :
    nodeAt? other (place reading (other ++ path) nodes) =
      some (.branch (place reading path (nodesBelow other nodes))) := by
  induction other generalizing nodes with
  | nil => exact absurd rfl hother
  | cons key rest ih =>
    have hne : rest ++ path ≠ [] := List.append_ne_nil_of_right_ne_nil rest hrest
    rw [List.cons_append, place_cons hne]
    by_cases hnil : rest = []
    · subst hnil
      rw [nodeAt?, Dict.get?_insert, if_pos rfl, List.nil_append, nodesBelow_singleton]
    · rw [nodeAt?_cons hnil, childrenAt_insert, if_pos rfl]
      -- the branch that was put there has the children that were there before
      change nodeAt? rest (place reading (rest ++ path) (childrenAt nodes key)) = _
      rw [ih hnil, nodesBelow, nodesBelow, nodeAt?_cons hnil]

theorem nodeAt?_place_below (hpath : path ≠ []) (hother : other ≠ []) :
    nodeAt? (path ++ other) (place reading path nodes) = none := by
  rw [nodeAt?_append hpath hother, nodesBelow, nodeAt?_place_self hpath]
  exact nodeAt?_empty other

theorem nodeAt?_place_of_not_comparable (h : ¬ Comparable path other) :
    nodeAt? other (place reading path nodes) = nodeAt? other nodes := by
  induction path generalizing other nodes with
  | nil => exact absurd (.inl (List.nil_prefix)) h
  | cons key rest ih =>
    cases other with
    | nil => exact absurd (.inr (List.nil_prefix)) h
    | cons k others =>
      by_cases hkey : key = k
      · -- the paths part further down, so neither ends here
        subst hkey
        have hparts : ¬ Comparable rest others := fun hc => h (comparable_cons_iff.2 hc)
        rcases ne_nil_of_not_comparable hparts with ⟨hrest, hothers⟩
        rw [place_cons hrest, nodeAt?_cons hothers, nodeAt?_cons hothers, childrenAt_insert,
          if_pos rfl]
        exact ih hparts
      · -- the first keys differ already, and only one of them is touched
        rw [place_cons_eq_insert]
        by_cases hothers : others = []
        · subst hothers
          rw [nodeAt?, nodeAt?, Dict.get?_insert, if_neg hkey]
        · rw [nodeAt?_cons hothers, nodeAt?_cons hothers, childrenAt_insert, if_neg hkey]

-- A branch that is there after an insertion lies on the way to the path, or was there before.
theorem branch_place_cases (hpath : path ≠ []) {children : Dict Node}
    (h : nodeAt? other (place reading path nodes) = some (.branch children)) :
    (∃ rest, rest ≠ [] ∧ children = place reading rest (nodesBelow other nodes)) ∨
      nodeAt? other nodes = some (.branch children) := by
  rcases path_cases path other with rfl | ⟨key, rest, rfl⟩ | ⟨key, rest, rfl⟩ | hapart
  · rw [nodeAt?_place_self hpath] at h
    cases h
  · have hother : other ≠ [] := by
      intro hnil
      rw [hnil, nodeAt?] at h
      cases h
    rw [nodeAt?_place_start hother (List.cons_ne_nil key rest)] at h
    cases h
    exact .inl ⟨key :: rest, List.cons_ne_nil key rest, rfl⟩
  · rw [nodeAt?_place_below hpath (List.cons_ne_nil key rest)] at h
    cases h
  · rw [nodeAt?_place_of_not_comparable hapart] at h
    exact .inr h

/-! ## Order -/

/-- The nodes at the top and those of every branch are in ascending order. -/
structure Sorted (nodes : Dict Node) : Prop where
  top : nodes.Ordered
  branches : ∀ path children, nodeAt? path nodes = some (.branch children) → Dict.Ordered children

theorem sorted_empty : Sorted [] where
  top := List.Pairwise.nil
  branches := fun path children h => by rw [nodeAt?_empty] at h; cases h

theorem Sorted.nodesBelow (h : Sorted nodes) (path : List String) :
    (nodesBelow path nodes).Ordered := by
  unfold PerformanceLog.nodesBelow
  cases hnode : nodeAt? path nodes with
  | none => exact List.Pairwise.nil
  | some node =>
    cases node with
    | leaf reading => exact List.Pairwise.nil
    | branch children => exact h.branches path children hnode

theorem ordered_place (h : nodes.Ordered) : (place reading path nodes).Ordered := by
  cases path with
  | nil => exact h
  | cons key rest => cases rest <;> exact h.insert _ _

theorem Sorted.place (h : Sorted nodes) (hpath : path ≠ []) :
    Sorted (place reading path nodes) where
  top := ordered_place h.top
  branches := by
    intro other children hnode
    rcases branch_place_cases hpath hnode with ⟨rest, -, rfl⟩ | hkept
    · exact ordered_place (h.nodesBelow other)
    · exact h.branches other children hkept

end HostSurvey.PerformanceLog
