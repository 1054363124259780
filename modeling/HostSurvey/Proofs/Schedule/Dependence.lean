import HostSurvey.Evaluation.Schedule
import Mathlib.Data.List.Nodup
import Mathlib.Logic.Relation

/-!
# Dependence among components

What it takes for components to have an execution order, said without the walk that looks for one:
unique producers, a producer for every required fact, and a dependency graph without cycles.
`Settled` lists are the orders themselves, grown one component at a time.
-/

namespace HostSurvey

namespace Component

/-- A fact of the kind is among the required or the optional dependencies of the component. -/
def DependsOn (component : Component) (kind : Kind) : Prop :=
  .fact kind ∈ component.requires ∨ .fact kind ∈ component.optional

end Component

theorem Dependency.mem_kinds {dependencies : List Dependency} {kind : Kind} :
    kind ∈ Dependency.kinds dependencies ↔ .fact kind ∈ dependencies := by
  unfold Dependency.kinds
  rw [List.mem_filterMap]
  apply Iff.intro
  · intro hsome
    rcases hsome with ⟨dependency, hmem, heq⟩
    cases dependency with
    | artifact category => cases heq
    | fact k => rw [Option.some.inj heq] at hmem; exact hmem
  · intro hmem
    exact ⟨.fact kind, hmem, rfl⟩

theorem Component.mem_uses {component : Component} {kind : Kind} :
    kind ∈ component.uses ↔ component.DependsOn kind := by
  unfold Component.uses Component.DependsOn
  rw [List.mem_append, Dependency.mem_kinds, Dependency.mem_kinds]

theorem Component.declares_iff {component : Component} {dependency : Dependency} :
    component.declares dependency = true ↔
      dependency ∈ component.requires ∨ dependency ∈ component.optional := by
  unfold Component.declares
  rw [Bool.or_eq_true, List.contains_iff_mem, List.contains_iff_mem]

namespace Schedule

/-! ## What has an order -/

/-- No two components produce facts of the same kind. -/
def UniqueProducers (components : List Component) : Prop :=
  (components.map (·.produces)).Nodup

/-- Every required fact has a producer. -/
def RequirementsProduced (components : List Component) : Prop :=
  ∀ consumer ∈ components, ∀ kind, .fact kind ∈ consumer.requires →
    ∃ producer ∈ components, producer.produces = kind

/-- An edge of the dependency graph leads from a component to the producer of a fact that the
component depends on. A fact that nothing produces gives no edge. -/
structure Edge (components : List Component) (consumer producer : Component) : Prop where
  consumer_mem : consumer ∈ components
  producer_mem : producer ∈ components
  depends : consumer.DependsOn producer.produces

/-- No component depends on itself, be it directly or through others. -/
def Acyclic (components : List Component) : Prop :=
  ∀ component, ¬ Relation.TransGen (Edge components) component component

theorem UniqueProducers.eq_of_produces_eq {components : List Component}
    (unique : UniqueProducers components) {a b : Component}
    (ha : a ∈ components) (hb : b ∈ components) (h : a.produces = b.produces) : a = b :=
  List.inj_on_of_nodup_map unique ha hb h

theorem UniqueProducers.nodup {components : List Component}
    (unique : UniqueProducers components) : components.Nodup :=
  List.Nodup.of_map _ unique

theorem UniqueProducers.of_perm {components others : List Component}
    (unique : UniqueProducers components) (perm : components.Perm others) :
    UniqueProducers others :=
  ((perm.map Component.produces).nodup_iff).1 unique

theorem RequirementsProduced.of_perm {components others : List Component}
    (produced : RequirementsProduced components) (perm : components.Perm others) :
    RequirementsProduced others := by
  intro consumer hc kind hrequired
  rcases produced consumer (perm.symm.subset hc) kind hrequired with ⟨producer, hp, hk⟩
  exact ⟨producer, perm.subset hp, hk⟩

theorem mem_of_producer? {components : List Component} {kind : Kind} {component : Component}
    (h : producer? components kind = some component) :
    component ∈ components ∧ component.produces = kind := by
  have hp := List.find?_some h
  exact ⟨List.mem_of_find?_eq_some h, by simpa using hp⟩

theorem producer?_eq_none_iff {components : List Component} {kind : Kind} :
    producer? components kind = none ↔ ∀ component ∈ components, component.produces ≠ kind := by
  unfold producer?
  rw [List.find?_eq_none]
  simp only [beq_iff_eq, ne_eq]

-- With unique producers, looking up a kind finds whatever component produces it.
theorem UniqueProducers.producer?_eq_some_iff {components : List Component}
    (unique : UniqueProducers components) {kind : Kind} {component : Component} :
    producer? components kind = some component ↔
      component ∈ components ∧ component.produces = kind := by
  apply Iff.intro
  · exact mem_of_producer?
  · intro hproducer
    rcases hproducer with ⟨hmem, hkind⟩
    cases hfound : producer? components kind with
    | none => exact absurd hkind (producer?_eq_none_iff.1 hfound component hmem)
    | some other =>
      -- another one found for the kind would be a second producer
      rcases mem_of_producer? hfound with ⟨homem, hokind⟩
      rw [unique.eq_of_produces_eq homem hmem (hokind.trans hkind.symm)]

/-! ## The checks before the walk -/

theorem firstRepeat?_eq_none_iff (kinds seen : List Kind) :
    firstRepeat? seen kinds = none ↔ kinds.Nodup ∧ ∀ kind ∈ kinds, kind ∉ seen := by
  -- what has been seen grows along the list, so it stays general
  induction kinds generalizing seen with
  | nil => simp [firstRepeat?]
  | cons kind rest ih =>
    rw [firstRepeat?]
    by_cases hseen : kind ∈ seen
    · rw [if_pos hseen]
      apply Iff.intro
      · intro h; cases h
      · intro hfresh
        rcases hfresh with ⟨-, h⟩
        exact absurd hseen (h kind List.mem_cons_self)
    · rw [if_neg hseen, ih, List.nodup_cons]
      apply Iff.intro
      · intro hrest
        rcases hrest with ⟨hnodup, hfresh⟩
        refine ⟨⟨fun hmem => hfresh kind hmem List.mem_cons_self, hnodup⟩, ?_⟩
        intro k hk
        rcases List.mem_cons.1 hk with rfl | hk
        · exact hseen
        · exact fun hmem => hfresh k hk (List.mem_cons_of_mem _ hmem)
      · intro hwhole
        rcases hwhole with ⟨⟨hnot, hnodup⟩, hfresh⟩
        refine ⟨hnodup, fun k hk hmem => ?_⟩
        rcases List.mem_cons.1 hmem with rfl | hmem
        · exact hnot hk
        · exact hfresh k (List.mem_cons_of_mem _ hk) hmem

theorem firstRepeat?_nil_eq_none_iff (components : List Component) :
    firstRepeat? [] (components.map (·.produces)) = none ↔ UniqueProducers components := by
  rw [firstRepeat?_eq_none_iff]
  exact ⟨fun h => h.1, fun h => ⟨h, fun _ _ => List.not_mem_nil⟩⟩

theorem firstMissing?_eq_none_iff (components : List Component) :
    firstMissing? components = none ↔ RequirementsProduced components := by
  unfold firstMissing?
  rw [List.findSome?_eq_none_iff]
  refine forall₂_congr fun consumer _ => ?_
  rw [Option.map_eq_none_iff, List.find?_eq_none]
  simp only [Dependency.mem_kinds]
  refine forall₂_congr fun kind _ => ?_
  rw [Option.isNone_iff_eq_none, producer?_eq_none_iff]
  simp only [not_forall, not_not, exists_prop, ne_eq]

/-! ## Orders -/

/-- A list grown at its end from `components`, where each component is new and all producers of
the facts it depends on are there before it. -/
inductive Settled (components : List Component) : List Component → Prop
  | nil : Settled components []
  | snoc {placed : List Component} {component : Component} (earlier : Settled components placed)
      (mem : component ∈ components)
      (fresh : ∀ other ∈ placed, other.produces ≠ component.produces)
      (ready : ∀ producer ∈ components, component.DependsOn producer.produces →
        producer ∈ placed) :
      Settled components (placed ++ [component])

namespace Settled

variable {components placed : List Component}

theorem subset (h : Settled components placed) : placed ⊆ components := by
  induction h with
  | nil => exact List.nil_subset _
  | snoc _ mem _ _ ih => exact List.append_subset.2 ⟨ih, by simpa using mem⟩

theorem uniqueProducers (h : Settled components placed) : UniqueProducers placed := by
  induction h with
  | nil => exact List.nodup_nil
  | snoc _ _ fresh _ ih =>
    unfold UniqueProducers
    rw [List.map_append, List.map_singleton, ← List.concat_eq_append]
    refine List.Nodup.concat ?_ ih
    rw [List.mem_map]
    intro hused
    rcases hused with ⟨other, hmem, heq⟩
    exact fresh other hmem heq

theorem closed (h : Settled components placed) {consumer producer : Component}
    (hc : consumer ∈ placed) (hp : producer ∈ components)
    (hd : consumer.DependsOn producer.produces) : producer ∈ placed := by
  induction h with
  | nil => cases hc
  | snoc _ _ _ ready ih =>
    rw [List.mem_append] at hc ⊢
    rcases hc with hc | hc
    · exact .inl (ih hc)
    · rw [List.mem_singleton] at hc
      subst hc
      exact .inl (ready producer hp hd)

theorem lt_of_dependsOn (h : Settled components placed) {i j : Nat}
    (hi : i < placed.length) (hj : j < placed.length)
    (hd : placed[i].DependsOn placed[j].produces) : j < i := by
  induction h generalizing i j with
  | nil => cases hi
  | @snoc placed component earlier mem fresh ready ih =>
    -- whatever does not stand in the shorter list is the component at the end
    have hlast : ∀ k (hk : k < (placed ++ [component]).length), ¬ k < placed.length →
        (placed ++ [component])[k] = component := by
      intro k hk hend
      rw [List.getElem_append_right (Nat.le_of_not_lt hend)]
      exact List.getElem_singleton _
    by_cases hil : i < placed.length
    · rw [List.getElem_append_left hil] at hd
      by_cases hjl : j < placed.length
      · rw [List.getElem_append_left hjl] at hd
        exact ih hil hjl hd
      · -- `placed[i]` would depend on the component that was new after it
        rw [hlast j hj hjl] at hd
        have hmem := earlier.closed (List.getElem_mem hil) mem hd
        exact absurd rfl (fresh component hmem)
    · rw [hlast i hi hil] at hd
      by_cases hjl : j < placed.length
      · omega
      · -- the component at the end would depend on itself, and be there before itself
        rw [hlast j hj hjl] at hd
        exact absurd rfl (fresh component (ready component mem hd))

-- The place of a component in a settled list, told by its kind, falls along every edge.
theorem idxOf_lt_of_edge (h : Settled components placed) (all : components ⊆ placed)
    {consumer producer : Component} (e : Edge components consumer producer) :
    (placed.map (·.produces)).idxOf producer.produces <
      (placed.map (·.produces)).idxOf consumer.produces := by
  rcases List.getElem_of_mem (all e.consumer_mem) with ⟨i, hi, rfl⟩
  rcases List.getElem_of_mem (all e.producer_mem) with ⟨j, hj, rfl⟩
  -- no kind repeats, so the place of a kind is the place of its component
  have hidx : ∀ k (hk : k < placed.length),
      (placed.map (·.produces)).idxOf placed[k].produces = k := by
    intro k hk
    have hk' : k < (placed.map (·.produces)).length := by rw [List.length_map]; exact hk
    rw [show placed[k].produces = (placed.map (·.produces))[k] by rw [List.getElem_map]]
    exact h.uniqueProducers.idxOf_getElem k hk'
  rw [hidx i hi, hidx j hj]
  exact h.lt_of_dependsOn hi hj e.depends

-- Places fall along a whole path, so no path comes back.
theorem idxOf_lt_of_transGen (h : Settled components placed) (all : components ⊆ placed)
    {consumer producer : Component} (p : Relation.TransGen (Edge components) consumer producer) :
    (placed.map (·.produces)).idxOf producer.produces <
      (placed.map (·.produces)).idxOf consumer.produces := by
  induction p with
  | single e => exact h.idxOf_lt_of_edge all e
  | tail _ e ih => exact Nat.lt_trans (h.idxOf_lt_of_edge all e) ih

theorem acyclic (h : Settled components placed) (all : components ⊆ placed) :
    Acyclic components := by
  intro component p
  exact absurd (h.idxOf_lt_of_transGen all p) (Nat.lt_irrefl _)

end Settled

end Schedule

end HostSurvey
