import HostSurvey.Proofs.Schedule.Dependence
import Mathlib.Data.List.Chain
import Mathlib.Data.List.TakeWhile

/-!
# The walk over the dependency graph

Every call of `visit` does one of four things, and each theorem about the walk goes through them:
the kind has no producer, it is placed already, it stands on the path, or its producer is placed
after those of its facts. A walk that ends well extends a settled list (`Placement`); one that
breaks off has come around a cycle of the graph (`IsCycle`).
-/

namespace HostSurvey.Schedule

variable {components placed placed' : List Component} {path : List Kind} {kind : Kind}

/-! ## Single calls -/

theorem visit_ok_cases (h : visit components path kind placed = .ok placed') :
    (producer? components kind = none ∧ placed' = placed) ∨
    (∃ component, producer? components kind = some component ∧
      (∃ other ∈ placed, other.produces = kind) ∧ placed' = placed) ∨
    (∃ component middle, producer? components kind = some component ∧
      (∀ other ∈ placed, other.produces ≠ kind) ∧ kind ∉ path ∧
      visitAll components (path ++ [kind]) component.uses placed = .ok middle ∧
      placed' = middle ++ [component]) := by
  rw [visit] at h
  split at h
  · next hnone => exact .inl ⟨hnone, (Except.ok.inj h).symm⟩
  · next component hsome =>
    split at h
    · next hany =>
      refine .inr (.inl ⟨component, hsome, ?_, (Except.ok.inj h).symm⟩)
      simpa using hany
    · next hany =>
      split at h
      · cases h
      · next hpath =>
        split at h
        · cases h
        · next middle hall =>
          refine .inr (.inr ⟨component, middle, hsome, ?_, hpath, hall, (Except.ok.inj h).symm⟩)
          simpa using hany

theorem visit_error_cases {e : Error} (h : visit components path kind placed = .error e) :
    ∃ component, producer? components kind = some component ∧
      ((kind ∈ path ∧ e = .cycle (path.dropWhile (· ≠ kind) ++ [kind])) ∨
        (kind ∉ path ∧ visitAll components (path ++ [kind]) component.uses placed = .error e)) := by
  rw [visit] at h
  split at h
  · cases h
  · next component hsome =>
    refine ⟨component, hsome, ?_⟩
    split at h
    · cases h
    · split at h
      · next hpath => exact .inl ⟨hpath, (Except.error.inj h).symm⟩
      · next hpath =>
        split at h
        · next e' hall => exact .inr ⟨hpath, hall.trans h⟩
        · cases h

theorem visitAll_nil : visitAll components path [] placed = .ok placed := by
  rw [visitAll]

theorem visitAll_cons_ok {rest : List Kind}
    (h : visitAll components path (kind :: rest) placed = .ok placed') :
    ∃ middle, visit components path kind placed = .ok middle ∧
      visitAll components path rest middle = .ok placed' := by
  rw [visitAll] at h
  split at h
  · cases h
  · next middle hvisit => exact ⟨middle, hvisit, h⟩

theorem visitAll_cons_error {rest : List Kind} {e : Error}
    (h : visitAll components path (kind :: rest) placed = .error e) :
    visit components path kind placed = .error e ∨
      ∃ middle, visit components path kind placed = .ok middle ∧
        visitAll components path rest middle = .error e := by
  rw [visitAll] at h
  split at h
  · next e' hvisit => exact .inl (hvisit.trans h)
  · next middle hvisit => exact .inr ⟨middle, hvisit, h⟩

/-- What holds of a path when it holds of all its longer paths holds of every path: paths have no
repetitions, and there are finitely many kinds. -/
theorem path_induction {motive : List Kind → Prop}
    (step : ∀ path, (∀ kind, kind ∉ path → motive (path ++ [kind])) → motive path)
    (path : List Kind) : motive path := by
  -- the kinds that are not on the path become fewer
  induction hn : unvisited path using Nat.strong_induction_on generalizing path with
  | h n ih =>
    apply step
    intro kind hnot
    exact ih _ (hn ▸ unvisited_append_lt hnot) _ rfl

theorem nodup_path_append (hnodup : path.Nodup) (hnot : kind ∉ path) :
    (path ++ [kind]).Nodup := by
  rw [← List.concat_eq_append]
  exact hnodup.concat hnot

/-! ## Walks that end well -/

/-- What a walk along some kinds has done when it ends well, started from a path. -/
structure Placement (components : List Component) (path kinds : List Kind)
    (placed placed' : List Component) : Prop where
  settled : Settled components placed'
  grows : placed <+: placed'
  /-- Nothing on the path is placed before the walk is back from it. -/
  avoids : ∀ component ∈ placed', component.produces ∈ path → component ∈ placed
  reaches : ∀ kind ∈ kinds, ∀ component ∈ components, component.produces = kind →
    component ∈ placed'

theorem Placement.refl (settled : Settled components placed) :
    Placement components path [] placed placed where
  settled := settled
  grows := List.prefix_rfl
  avoids := fun _ hmem _ => hmem
  reaches := fun _ hk => absurd hk List.not_mem_nil

theorem Placement.cons {rest : List Kind} {middle : List Component}
    (first : Placement components path [kind] placed middle)
    (others : Placement components path rest middle placed') :
    Placement components path (kind :: rest) placed placed' where
  settled := others.settled
  grows := first.grows.trans others.grows
  avoids := fun component hmem hpath =>
    first.avoids component (others.avoids component hmem hpath) hpath
  reaches := by
    intro k hk component hmem hkind
    rcases List.mem_cons.1 hk with rfl | hk
    · exact others.grows.subset (first.reaches k List.mem_cons_self component hmem hkind)
    · exact others.reaches k hk component hmem hkind

-- The producer of a kind is placed once the producers of its facts are.
theorem Placement.place (unique : UniqueProducers components) {component : Component}
    {middle : List Component} (hsome : producer? components kind = some component)
    (hfresh : ∀ other ∈ placed, other.produces ≠ kind) (hpath : kind ∉ path)
    (facts : Placement components (path ++ [kind]) component.uses placed middle) :
    Placement components path [kind] placed (middle ++ [component]) := by
  rcases unique.producer?_eq_some_iff.1 hsome with ⟨hmem, rfl⟩
  -- the kind was on the path of the inner walk, which placed nothing for it
  have hmiddle : ∀ other ∈ middle, other.produces ≠ component.produces := by
    intro other hother heq
    refine hfresh other (facts.avoids other hother ?_) heq
    rw [heq]
    exact List.mem_append_right _ List.mem_cons_self
  apply Placement.mk
  · refine facts.settled.snoc hmem hmiddle ?_
    intro producer hproducer hdepends
    exact facts.reaches _ (Component.mem_uses.2 hdepends) producer hproducer rfl
  · exact facts.grows.trans (List.prefix_append _ _)
  · intro other hother hin
    rcases List.mem_append.1 hother with hother | hother
    · exact facts.avoids other hother (List.mem_append_left _ hin)
    · rw [List.mem_singleton] at hother
      subst hother
      exact absurd hin hpath
  · intro k hk other hother heq
    rw [List.mem_singleton] at hk
    subst hk
    rw [unique.eq_of_produces_eq hother hmem heq]
    exact List.mem_append_right _ List.mem_cons_self

theorem visitAll_placement_of_visit (kinds : List Kind)
    (single : ∀ kind placed placed', Settled components placed →
      visit components path kind placed = .ok placed' →
      Placement components path [kind] placed placed')
    (settled : Settled components placed)
    (h : visitAll components path kinds placed = .ok placed') :
    Placement components path kinds placed placed' := by
  -- each kind is walked from what the kinds before it have left
  induction kinds generalizing placed with
  | nil =>
    rw [visitAll_nil] at h
    cases h
    exact Placement.refl settled
  | cons kind rest ih =>
    rcases visitAll_cons_ok h with ⟨middle, hvisit, hrest⟩
    have first := single kind placed middle settled hvisit
    exact first.cons (ih first.settled hrest)

theorem visit_placement (unique : UniqueProducers components) (path : List Kind) :
    ∀ kind placed placed', Settled components placed →
      visit components path kind placed = .ok placed' →
      Placement components path [kind] placed placed' := by
  induction path using path_induction with
  | step path ih =>
    intro kind placed placed' settled h
    rcases visit_ok_cases h with ⟨hnone, rfl⟩ | ⟨component, hsome, ⟨other, hother, hkind⟩, rfl⟩ |
      ⟨component, middle, hsome, hfresh, hpath, hall, rfl⟩
    · -- nothing produces the kind, so there is nothing to reach
      refine { Placement.refl settled with reaches := ?_ }
      intro k hk c hc heq
      rw [List.mem_singleton] at hk
      exact absurd (heq.trans hk) (producer?_eq_none_iff.1 hnone c hc)
    · -- the kind is placed already, and by its only producer
      refine { Placement.refl settled with reaches := ?_ }
      intro k hk c hc heq
      rw [List.mem_singleton] at hk
      have hsame : c.produces = other.produces := heq.trans (hk.trans hkind.symm)
      rw [unique.eq_of_produces_eq hc (settled.subset hother) hsame]
      exact hother
    · -- the producer is new, and its own walk is one on a longer path
      exact Placement.place unique hsome hfresh hpath
        (visitAll_placement_of_visit _ (ih kind hpath) settled hall)

theorem visitAll_placement (unique : UniqueProducers components) {kinds : List Kind}
    (settled : Settled components placed)
    (h : visitAll components path kinds placed = .ok placed') :
    Placement components path kinds placed placed' :=
  visitAll_placement_of_visit kinds (visit_placement unique path) settled h

/-! ## Walks that break off -/

/-- One kind uses another when its producer depends on the other, which is produced too. -/
def Uses (components : List Component) (user used : Kind) : Prop :=
  ∃ consumer producer, Edge components consumer producer ∧
    consumer.produces = user ∧ producer.produces = used

/-- A closed walk in the graph that meets no kind twice before it closes. -/
def IsCycle (components : List Component) (cycle : List Kind) : Prop :=
  ∃ start rest, cycle = start :: rest ++ [start] ∧ (start :: rest).Nodup ∧
    cycle.IsChain (Uses components)

theorem uses_of_depends {consumer producer : Component} (hc : consumer ∈ components)
    (hp : producer ∈ components) (hd : consumer.DependsOn producer.produces) :
    Uses components consumer.produces producer.produces :=
  ⟨consumer, producer, ⟨hc, hp, hd⟩, rfl, rfl⟩

-- Coming back to a kind on the path closes a cycle, which starts where the kind first stood.
theorem isCycle_of_mem_path (hmem : kind ∈ path) (hnodup : path.Nodup)
    (hchain : (path ++ [kind]).IsChain (Uses components)) :
    IsCycle components (path.dropWhile (· ≠ kind) ++ [kind]) := by
  have hsuffix : path.dropWhile (· ≠ kind) <:+ path := List.dropWhile_suffix _
  cases hdrop : path.dropWhile (· ≠ kind) with
  | nil =>
    -- then everything on the path would differ from the kind
    have hall := List.dropWhile_eq_nil_iff.1 hdrop kind hmem
    simp at hall
  | cons start rest =>
    -- what is left after dropping starts where dropping stopped
    have hstart : start = kind := by
      have hhead := List.head_dropWhile_not (p := fun k => decide (k ≠ kind)) (l := path)
        (by rw [hdrop]; exact List.cons_ne_nil _ _)
      simp only [hdrop, List.head_cons] at hhead
      simpa using hhead
    subst hstart
    rw [hdrop] at hsuffix
    refine ⟨start, rest, rfl, hnodup.sublist hsuffix.sublist, ?_⟩
    exact hchain.suffix ((List.suffix_append_inj_of_length_eq rfl).2 ⟨hsuffix, rfl⟩)

theorem visitAll_isCycle_of_visit (kinds : List Kind) {e : Error}
    (single : ∀ kind placed, (producer? components kind).isSome →
      (path ++ [kind]).IsChain (Uses components) →
      visit components path kind placed = .error e → ∃ cycle, e = .cycle cycle ∧
        IsCycle components cycle)
    (hchain : ∀ kind ∈ kinds, (producer? components kind).isSome →
      (path ++ [kind]).IsChain (Uses components))
    (h : visitAll components path kinds placed = .error e) :
    ∃ cycle, e = .cycle cycle ∧ IsCycle components cycle := by
  induction kinds generalizing placed with
  | nil =>
    rw [visitAll_nil] at h
    cases h
  | cons kind rest ih =>
    rcases visitAll_cons_error h with hvisit | ⟨middle, -, hrest⟩
    · rcases visit_error_cases hvisit with ⟨component, hsome, -⟩
      have hproduced : (producer? components kind).isSome := by rw [hsome]; rfl
      exact single kind placed hproduced (hchain kind List.mem_cons_self hproduced) hvisit
    · exact ih (fun k hk => hchain k (List.mem_cons_of_mem _ hk)) hrest

/-- Along a path of dependent kinds, the only error is a cycle, and the cycle is there. -/
theorem visit_isCycle {e : Error} (path : List Kind) (hnodup : path.Nodup) :
    ∀ kind placed, (producer? components kind).isSome →
      (path ++ [kind]).IsChain (Uses components) →
      visit components path kind placed = .error e → ∃ cycle, e = .cycle cycle ∧
        IsCycle components cycle := by
  induction path using path_induction with
  | step path ih =>
    intro kind placed _ hchain h
    rcases visit_error_cases h with ⟨component, hsome, ⟨hmem, rfl⟩ | ⟨hnot, hall⟩⟩
    · exact ⟨_, rfl, isCycle_of_mem_path hmem hnodup hchain⟩
    · -- the error comes from further down, where the path is longer
      refine visitAll_isCycle_of_visit _ (ih kind hnot (nodup_path_append hnodup hnot)) ?_ hall
      -- each produced kind that the component uses continues the path
      intro used hused hproduced
      rcases Option.isSome_iff_exists.1 hproduced with ⟨producer, hproducer⟩
      rcases mem_of_producer? hsome with ⟨hcmem, hckind⟩
      rcases mem_of_producer? hproducer with ⟨hpmem, hpkind⟩
      refine hchain.append (List.isChain_singleton used) ?_
      intro last hlast next hnext
      rw [List.getLast?_append_of_ne_nil _ (List.cons_ne_nil _ _)] at hlast
      have hl : last = kind := by simpa using hlast.symm
      have hn : next = used := by simpa using hnext.symm
      rw [hl, hn, ← hckind, ← hpkind]
      refine uses_of_depends hcmem hpmem ?_
      rw [hpkind]
      exact Component.mem_uses.1 hused

theorem visitAll_isCycle {kinds : List Kind} {e : Error}
    (h : visitAll components [] kinds placed = .error e) :
    ∃ cycle, e = .cycle cycle ∧ IsCycle components cycle :=
  visitAll_isCycle_of_visit kinds (visit_isCycle [] List.nodup_nil)
    (fun kind _ _ => List.isChain_singleton kind) h

-- A chain of kinds that use each other is a path between their producers.
theorem UniqueProducers.transGen_of_uses (unique : UniqueProducers components) {a b : Kind}
    (h : Relation.TransGen (Uses components) a b) {consumer : Component}
    (hc : consumer ∈ components) (hck : consumer.produces = a) :
    ∃ producer ∈ components, producer.produces = b ∧
      Relation.TransGen (Edge components) consumer producer := by
  -- kinds say no more than components where producers are unique
  have hstep : ∀ {c : Component} {x y : Kind}, c ∈ components → c.produces = x →
      Uses components x y →
      ∃ producer ∈ components, producer.produces = y ∧ Edge components c producer := by
    intro c x y hmem hx u
    rcases u with ⟨consumer', producer, e, hx', hy⟩
    rw [← unique.eq_of_produces_eq hmem e.consumer_mem (hx.trans hx'.symm)] at e
    exact ⟨producer, e.producer_mem, hy, e⟩
  induction h with
  | single u =>
    rcases hstep hc hck u with ⟨producer, hp, hpk, e⟩
    exact ⟨producer, hp, hpk, .single e⟩
  | tail _ u ih =>
    rcases ih with ⟨between, hb, hbk, p⟩
    rcases hstep hb hbk u with ⟨producer, hp, hpk, e⟩
    exact ⟨producer, hp, hpk, p.tail e⟩

theorem IsCycle.transGen {cycle : List Kind} (h : IsCycle components cycle) :
    ∃ kind, Relation.TransGen (Uses components) kind kind := by
  rcases h with ⟨start, rest, rfl, -, hchain⟩
  refine ⟨start, ?_⟩
  have hrel := List.IsChain.rel_cons (R := Relation.TransGen (Uses components)) (b := start)
    (hchain.imp fun _ _ u => .single u) (by simp)
  exact hrel

-- An acyclic graph has no cycle for the walk to come around.
theorem Acyclic.not_isCycle (acyclic : Acyclic components) (unique : UniqueProducers components)
    {cycle : List Kind} : ¬ IsCycle components cycle := by
  intro h
  rcases h.transGen with ⟨kind, hcycle⟩
  rcases Relation.TransGen.head'_iff.1 hcycle with ⟨_, ⟨consumer, _, e, hck, _⟩, _⟩
  have hc : consumer ∈ components := e.consumer_mem
  rcases unique.transGen_of_uses hcycle hc hck with ⟨producer, hp, hpk, p⟩
  rw [unique.eq_of_produces_eq hp hc (hpk.trans hck.symm)] at p
  exact acyclic consumer p

end HostSurvey.Schedule
