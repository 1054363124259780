import HostSurvey.Proofs.Schedule.Acceptance

/-!
# Schedules and the order of declaration

A schedule keeps components in the order in which they are declared as far as their dependencies
allow. A component is placed before one that is declared earlier only when it is pulled ahead: a
component that is declared no later than the earlier one depends on it, be it directly or through
others. Components that are declared in an order of their dependencies are therefore scheduled as
they are declared, and a schedule is the schedule of its own components.
-/

namespace HostSurvey.Schedule

/-- Both components stand in the list, the second one somewhere after the first. -/
def Precedes (order : List Component) (first second : Component) : Prop :=
  ∃ before after, order = before ++ first :: after ∧ second ∈ after

variable {components order placed placed' : List Component} {schedule : Schedule}
  {path : List Kind} {kind : Kind} {a b : Component}

/-! ## Places in a list -/

theorem precedes_of_lt {i j : Nat} (hij : i < j) (hj : j < order.length) :
    Precedes order order[i] order[j] := by
  refine ⟨order.take i, order.drop (i + 1), ?_, ?_⟩
  · rw [List.getElem_cons_drop, List.take_append_drop]
  · exact List.mem_drop_iff_getElem.2 ⟨j - (i + 1), by omega, by congr 1; omega⟩

theorem precedes_or_precedes (ha : a ∈ order) (hb : b ∈ order) (hne : a ≠ b) :
    Precedes order a b ∨ Precedes order b a := by
  rcases List.getElem_of_mem ha with ⟨i, hi, rfl⟩
  rcases List.getElem_of_mem hb with ⟨j, hj, rfl⟩
  rcases Nat.lt_trichotomy i j with hlt | rfl | hlt
  · exact .inl (precedes_of_lt hlt hj)
  · exact absurd rfl hne
  · exact .inr (precedes_of_lt hlt hi)

theorem Precedes.mem_left (h : Precedes order a b) : a ∈ order := by
  rcases h with ⟨before, after, rfl, -⟩
  exact List.mem_append_right _ List.mem_cons_self

theorem Precedes.mem_right (h : Precedes order a b) : b ∈ order := by
  rcases h with ⟨before, after, rfl, hb⟩
  exact List.mem_append_right _ (List.mem_cons_of_mem _ hb)

-- Where no kind has two producers, the places of the kinds tell which component precedes which.
theorem Precedes.idxOf_lt (h : Precedes order a b) (unique : UniqueProducers order) :
    (order.map (·.produces)).idxOf a.produces < (order.map (·.produces)).idxOf b.produces := by
  rcases h with ⟨before, after, rfl, hb⟩
  unfold UniqueProducers at unique
  rw [List.map_append, List.map_cons] at unique ⊢
  rcases List.nodup_append.1 unique with ⟨-, hrest, hapart⟩
  have ha : a.produces ∉ before.map (·.produces) := fun hmem =>
    hapart _ hmem _ List.mem_cons_self rfl
  have hbefore : b.produces ∉ before.map (·.produces) := fun hmem =>
    hapart _ hmem _ (List.mem_cons_of_mem _ (List.mem_map_of_mem hb)) rfl
  have hne : a.produces ≠ b.produces := by
    intro heq
    exact (List.nodup_cons.1 hrest).1 (heq ▸ List.mem_map_of_mem hb)
  rw [List.idxOf_append_of_notMem ha, List.idxOf_append_of_notMem hbefore, List.idxOf_cons_self,
    List.idxOf_cons_ne _ hne]
  omega

theorem Precedes.ne (h : Precedes order a b) (unique : UniqueProducers order) : a ≠ b := by
  intro h
  subst h
  exact Nat.lt_irrefl _ (h.idxOf_lt unique)

-- Whatever precedes a component of the front of a list belongs to the front too.
theorem Precedes.mem_front {front back : List Component} (h : Precedes (front ++ back) b a)
    (nodup : (front ++ back).Nodup) (ha : a ∈ front) : b ∈ front := by
  have hback : a ∉ back := fun hmem => (List.nodup_append.1 nodup).2.2 a ha a hmem rfl
  rcases h with ⟨before, after, heq, hmem⟩
  rcases List.append_eq_append_iff.1 heq with ⟨more, -, rfl⟩ | ⟨more, rfl, hmore⟩
  · exact absurd (List.mem_append_right _ (List.mem_cons_of_mem _ hmem)) hback
  · cases more with
    | nil =>
      rw [List.nil_append] at hmore
      exact absurd (hmore ▸ List.mem_cons_of_mem _ hmem) hback
    | cons c more =>
      rw [(List.cons.inj hmore).1]
      exact List.mem_append_right _ List.mem_cons_self

/-! ## What a walk places -/

/-- The producer of one of the kinds is the component, or depends on it directly or through others. -/
def Pulls (components : List Component) (kinds : List Kind) (component : Component) : Prop :=
  ∃ puller ∈ components, puller.produces ∈ kinds ∧
    Relation.ReflTransGen (Edge components) puller component

theorem Pulls.mono {kinds more : List Kind} {component : Component}
    (h : Pulls components kinds component) (sub : kinds ⊆ more) :
    Pulls components more component := by
  rcases h with ⟨puller, hmem, hkind, hpath⟩
  exact ⟨puller, hmem, sub hkind, hpath⟩

theorem visitAll_pulled_of_visit (kinds : List Kind)
    (single : ∀ kind placed placed', visit components path kind placed = .ok placed' →
      ∀ component ∈ placed', component ∈ placed ∨ Pulls components [kind] component)
    (h : visitAll components path kinds placed = .ok placed') :
    ∀ component ∈ placed', component ∈ placed ∨ Pulls components kinds component := by
  induction kinds generalizing placed with
  | nil =>
    rw [visitAll_nil] at h
    cases h
    exact fun component hmem => .inl hmem
  | cons kind rest ih =>
    rcases visitAll_cons_ok h with ⟨middle, hvisit, hrest⟩
    intro component hmem
    rcases ih hrest component hmem with hmiddle | hpulled
    · rcases single kind placed middle hvisit component hmiddle with hplaced | hpulled
      · exact .inl hplaced
      · exact .inr (hpulled.mono (by simp))
    · exact .inr (hpulled.mono (List.subset_cons_self kind rest))

/-- A walk places nothing but the producer of its kind and what that one depends on. -/
theorem visit_pulled (path : List Kind) :
    ∀ kind placed placed', visit components path kind placed = .ok placed' →
      ∀ component ∈ placed', component ∈ placed ∨ Pulls components [kind] component := by
  induction path using path_induction with
  | step path ih =>
    intro kind placed placed' h component hmem
    rcases visit_ok_cases h with ⟨-, rfl⟩ | ⟨-, -, -, rfl⟩ |
      ⟨producer, middle, hsome, -, hpath, hall, rfl⟩
    · exact .inl hmem
    · exact .inl hmem
    · rcases mem_of_producer? hsome with ⟨hproducer, hkind⟩
      have hroot : producer.produces ∈ [kind] := List.mem_singleton.2 hkind
      rcases List.mem_append.1 hmem with hmiddle | hlast
      · rcases visitAll_pulled_of_visit _ (ih kind hpath) hall component hmiddle with
          hplaced | ⟨puller, hpuller, hused, hreach⟩
        · exact .inl hplaced
        · -- the producer depends on whatever pulls the component
          have hedge : Edge components producer puller :=
            ⟨hproducer, hpuller, Component.mem_uses.1 hused⟩
          exact .inr ⟨producer, hproducer, hroot, .head hedge hreach⟩
      · rw [List.mem_singleton.1 hlast]
        exact .inr ⟨producer, hproducer, hroot, .refl⟩

theorem visitAll_pulled {kinds : List Kind} (h : visitAll components path kinds [] = .ok placed) :
    ∀ component ∈ placed, Pulls components kinds component := by
  intro component hmem
  rcases visitAll_pulled_of_visit kinds (visit_pulled path) h component hmem with hnone | hpulled
  · cases hnone
  · exact hpulled

-- A walk along some kinds is a walk along the first of them, and from there along the others.
theorem visitAll_append_ok {first second : List Kind}
    (h : visitAll components path (first ++ second) placed = .ok placed') :
    ∃ middle, visitAll components path first placed = .ok middle ∧
      visitAll components path second middle = .ok placed' := by
  induction first generalizing placed with
  | nil => exact ⟨placed, visitAll_nil, h⟩
  | cons kind rest ih =>
    rcases visitAll_cons_ok h with ⟨next, hvisit, hrest⟩
    rcases ih hrest with ⟨middle, hfirst, hsecond⟩
    refine ⟨middle, ?_, hsecond⟩
    rw [visitAll, hvisit]
    exact hfirst

/-! ## Declared and scheduled order -/

-- The component that pulls `b` ahead is the one whose turn in the walk brings `b` in, and that turn
-- is not after the turn of `a`.
theorem exists_puller (accepted : ofComponents components = .ok schedule)
    (declared : Precedes components a b) (scheduled : Precedes schedule.components b a) :
    ∃ puller, (puller = a ∨ Precedes components puller a) ∧
      Relation.TransGen (Edge components) puller b := by
  rcases ofComponents_ok_iff.1 accepted with ⟨unique, -, hwalk⟩
  rcases declared with ⟨before, after, heq, hb⟩
  have hsplit : components = (before ++ [a]) ++ after := by rw [heq]; simp
  rw [show components.map (·.produces) =
      (before ++ [a]).map (·.produces) ++ after.map (·.produces) by
    rw [← List.map_append, ← hsplit]] at hwalk
  rcases visitAll_append_ok hwalk with ⟨middle, hfirst, hsecond⟩
  have start := visitAll_placement unique .nil hfirst
  have whole := visitAll_placement unique start.settled hsecond
  -- when the turn of `a` is over, `a` is placed, and so is what precedes it in the schedule
  have hmiddle : b ∈ middle := by
    rcases whole.grows with ⟨more, hmore⟩
    rw [← hmore] at scheduled
    refine scheduled.mem_front (hmore ▸ whole.settled.uniqueProducers.nodup) ?_
    exact start.reaches a.produces (by simp) a (by rw [hsplit]; simp) rfl
  rcases visitAll_pulled hfirst b hmiddle with ⟨puller, hpuller, hkind, hreach⟩
  have hturn : puller ∈ before ++ [a] := by
    rcases List.mem_map.1 hkind with ⟨root, hroot, hsame⟩
    have hrootmem : root ∈ components := by
      rw [hsplit]
      exact List.mem_append_left _ hroot
    rw [← unique.eq_of_produces_eq hrootmem hpuller hsame]
    exact hroot
  refine ⟨puller, ?_, ?_⟩
  · rcases List.mem_append.1 hturn with hbefore | hlast
    · rcases List.append_of_mem hbefore with ⟨s, t, rfl⟩
      exact .inr ⟨s, t ++ a :: after, by rw [heq]; simp, by simp⟩
    · exact .inl (List.mem_singleton.1 hlast)
  · rcases Relation.reflTransGen_iff_eq_or_transGen.1 hreach with hsame | hpath
    · -- `b` itself had no turn yet
      have hnodup : ((before ++ [a]) ++ after).Nodup := hsplit ▸ unique.nodup
      exact absurd hsame ((List.nodup_append.1 hnodup).2.2 puller hturn b hb).symm
    · exact hpath

-- Components that come after what they depend on are a settled list of themselves.
theorem ProducersFirst.settled (ordered : ProducersFirst components)
    (unique : UniqueProducers components) : Settled components components := by
  have htake : ∀ n, n ≤ components.length → Settled components (components.take n) := by
    intro n
    induction n with
    | zero =>
      intro _
      rw [List.take_zero]
      exact .nil
    | succ n ih =>
      intro hn
      rw [← List.take_append_getElem hn]
      refine (ih (Nat.le_of_lt hn)).snoc (List.getElem_mem hn) ?_ ?_
      · intro other hother heq
        rcases List.mem_take_iff_getElem.1 hother with ⟨i, hi, rfl⟩
        have hsame := unique.eq_of_produces_eq (List.getElem_mem _) (List.getElem_mem hn) heq
        have hplace := (unique.nodup.getElem_inj_iff).1 hsame
        omega
      · intro producer hproducer hdepends
        rcases List.getElem_of_mem hproducer with ⟨j, hj, rfl⟩
        have hlt := ordered n j hn hj hdepends
        exact List.mem_take_iff_getElem.2 ⟨j, by omega, rfl⟩
  have hall := htake components.length (Nat.le_refl _)
  rwa [List.take_length] at hall

/-- Components that are declared after what they depend on are scheduled as they are declared. -/
theorem ofComponents_eq_self (unique : UniqueProducers components)
    (produced : RequirementsProduced components) (ordered : ProducersFirst components) :
    ofComponents components = .ok ⟨components⟩ := by
  have settled := ordered.settled unique
  have all : components ⊆ components := List.Subset.refl components
  rcases exists_ofComponents unique produced (settled.acyclic all) with ⟨schedule, accepted⟩
  have perm := perm_of_ofComponents accepted
  have unique' := (settled_of_ofComponents accepted).1.uniqueProducers
  -- a component pulled ahead of an earlier one would be declared before whatever pulls it
  have kept : ∀ a b, Precedes schedule.components a b → Precedes components a b := by
    intro a b h
    have ha : a ∈ components := perm.subset h.mem_left
    have hb : b ∈ components := perm.subset h.mem_right
    rcases precedes_or_precedes ha hb (h.ne unique') with hab | hba
    · exact hab
    · rcases exists_puller accepted hba h with ⟨puller, hturn, hpath⟩
      have hpulled := settled.idxOf_lt_of_transGen all hpath
      have hlt := hba.idxOf_lt unique
      rcases hturn with rfl | hturn
      · omega
      · have hturn' := hturn.idxOf_lt unique
        omega
  have hdeclared : components.Pairwise (Precedes components) :=
    List.pairwise_iff_getElem.2 fun _ _ _ hj hij => precedes_of_lt hij hj
  have hscheduled : schedule.components.Pairwise (Precedes components) :=
    List.pairwise_iff_getElem.2 fun _ _ _ hj hij => kept _ _ (precedes_of_lt hij hj)
  have heq : schedule.components = components := by
    refine perm.eq_of_pairwise ?_ hscheduled hdeclared
    intro a b _ _ hab hba
    exact absurd (hab.idxOf_lt unique) (Nat.lt_asymm (hba.idxOf_lt unique))
  rw [accepted, ← heq]

theorem producersFirst_of_ofComponents (accepted : ofComponents components = .ok schedule) :
    ProducersFirst schedule.components := fun _ _ hi hj hdepends =>
  (settled_of_ofComponents accepted).1.lt_of_dependsOn hi hj hdepends

-- A schedule is an order of declaration that suits the dependencies.
theorem ofComponents_components (accepted : ofComponents components = .ok schedule) :
    ofComponents schedule.components = .ok schedule := by
  rcases ofComponents_ok_iff.1 accepted with ⟨unique, produced, -⟩
  have perm := (perm_of_ofComponents accepted).symm
  exact ofComponents_eq_self (unique.of_perm perm) (produced.of_perm perm)
    (producersFirst_of_ofComponents accepted)

/-- A component is scheduled before one that is declared earlier only when something that is declared
no later than that one depends on it. Hence an order of declaration that suits the dependencies is
kept, and so is a schedule when it is declared itself. -/
theorem ofComponents_keeps_declared_order (components : List Component) :
    (∀ schedule, ofComponents components = .ok schedule →
      (∀ a b, Precedes components a b → Precedes schedule.components b a →
        ∃ puller, (puller = a ∨ Precedes components puller a) ∧
          Relation.TransGen (Edge components) puller b) ∧
      ofComponents schedule.components = .ok schedule) ∧
    (UniqueProducers components → RequirementsProduced components → ProducersFirst components →
      ofComponents components = .ok ⟨components⟩) := by
  refine ⟨fun schedule accepted => ⟨fun a b declared scheduled => ?_, ?_⟩, ?_⟩
  · exact exists_puller accepted declared scheduled
  · exact ofComponents_components accepted
  · exact ofComponents_eq_self

/-- The memory of a host, its kernel and its inventory, where the memory depends on the inventory. -/
def memoryFirst : List Component :=
  [Component.memory, Component.reading .kernelIdentity, Component.reading .inventory]

/-- The same components in an order that suits their dependencies. -/
def inventoryFirst : List Component :=
  [Component.reading .inventory, Component.memory, Component.reading .kernelIdentity]

/-- The inventory comes before the kernel, which is declared earlier, because of the memory, which is
declared earlier still. -/
theorem inventory_pulled_by_memory :
    ofComponents memoryFirst = .ok ⟨inventoryFirst⟩ ∧
    (∃ puller, (puller = Component.reading .kernelIdentity ∨
        Precedes memoryFirst puller (Component.reading .kernelIdentity)) ∧
      Relation.TransGen (Edge memoryFirst) puller (Component.reading .inventory)) ∧
    ofComponents inventoryFirst = .ok ⟨inventoryFirst⟩ := by
  have accepted : ofComponents memoryFirst = .ok ⟨inventoryFirst⟩ :=
    ofComponents_of_walk (by decide) (by decide) (by cbv)
  have declared : Precedes memoryFirst (Component.reading .kernelIdentity)
      (Component.reading .inventory) :=
    ⟨[Component.memory], [Component.reading .inventory], rfl, List.mem_cons_self⟩
  have scheduled : Precedes inventoryFirst (Component.reading .inventory)
      (Component.reading .kernelIdentity) :=
    ⟨[], [Component.memory, Component.reading .kernelIdentity], rfl, by simp⟩
  have unique : UniqueProducers inventoryFirst := (firstRepeat?_nil_eq_none_iff _).1 (by decide)
  have produced : RequirementsProduced inventoryFirst := (firstMissing?_eq_none_iff _).1 (by decide)
  have suits : ∀ i j : Fin 3,
      inventoryFirst[i].DependsOn inventoryFirst[j].produces → j < i := by
    simp only [← Component.mem_uses]
    decide
  refine ⟨accepted, ?_, ?_⟩
  · exact ((ofComponents_keeps_declared_order _).1 _ accepted).1 _ _ declared scheduled
  · exact (ofComponents_keeps_declared_order _).2 unique produced
      fun i j hi hj => suits ⟨i, hi⟩ ⟨j, hj⟩

end HostSurvey.Schedule
