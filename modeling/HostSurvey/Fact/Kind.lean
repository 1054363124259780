import HostSurvey.Artifact.Category

/-!
# Kinds of facts

A fact is either the reading of an artifact, one kind for each category, or derived from other
facts. The kind of a fact names the one component that produces it.
-/

namespace HostSurvey

/-- What a fact is about. -/
inductive Kind
  /-- What an artifact of a category says. -/
  | reading (category : Category)
  | distribution
  | memory
  | subscription
  | utilization
deriving DecidableEq, Inhabited

namespace Kind

def all : List Kind :=
  Category.all.map reading ++ [distribution, memory, subscription, utilization]

/-- The name of a kind in configuration files and reports. -/
def name : Kind → String
  | reading category => category.name
  | distribution => "rhel_release"
  | memory => "memory_size"
  | subscription => "rhel_subscription"
  | utilization => "performance_profile"

def ofName? (s : String) : Option Kind := all.find? (·.name == s)

def index (k : Kind) : Nat := all.idxOf k

theorem mem_all (k : Kind) : k ∈ all := by
  rcases k with c | _ | _ | _ | _
  · cases c <;> decide
  · decide
  · decide
  · decide
  · decide

theorem nodup_all : all.Nodup := by decide

theorem name_injective {a b : Kind} (h : a.name = b.name) : a = b := by
  have key : ∀ a ∈ all, ∀ b ∈ all, a.name = b.name → a = b := by decide
  exact key a (mem_all a) b (mem_all b) h

@[simp] theorem ofName?_name (k : Kind) : ofName? k.name = some k := by
  have key : ∀ k ∈ all, ofName? k.name = some k := by decide
  exact key k (mem_all k)

end Kind

end HostSurvey
