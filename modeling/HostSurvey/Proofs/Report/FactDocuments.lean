import HostSurvey.Fact.Document
import Mathlib.Data.List.Basic

/-!
# Facts can be told from their documents

The JSON form of a fact does not say what its kind is, and neither do the nodes of a performance log
say whether they are readings or branches. Given the kind, the fact is told by its document all the
same: a reading has a text where a branch has objects only, and a number is not a text.
-/

namespace HostSurvey

/-! ## Values that may be missing, and lists -/

namespace Json

theorem ofOption_injective {α : Type} {toJson : α → Json} (injective : Function.Injective toJson)
    (present : ∀ value, toJson value ≠ .null) : Function.Injective (ofOption toJson) := by
  intro a b h
  cases a with
  | none =>
    cases b with
    | none => rfl
    | some value => exact absurd h.symm (present value)
  | some value =>
    cases b with
    | none => exact absurd h (present value)
    | some other => rw [injective h]

@[simp] theorem wholeOrNull_inj {a b : Option Nat} : wholeOrNull a = wholeOrNull b ↔ a = b :=
  (ofOption_injective (fun _ _ => Json.whole.inj) fun _ => nofun).eq_iff

@[simp] theorem textOrNull_inj {a b : Option String} : textOrNull a = textOrNull b ↔ a = b :=
  (ofOption_injective (fun _ _ => Json.text.inj) fun _ => nofun).eq_iff

@[simp] theorem realOrNull_inj {a b : Option Number.Double} :
    realOrNull a = realOrNull b ↔ a = b :=
  (ofOption_injective (fun _ _ => Json.real.inj) fun _ => nofun).eq_iff

@[simp] theorem texts_inj {a b : List String} : texts a = texts b ↔ a = b := by
  unfold texts
  rw [Json.array.injEq, List.map_inj_right fun _ _ => Json.text.inj]

end Json

/-! ## Performance logs -/

namespace PerformanceLog

@[simp] theorem Value.toJson_inj {a b : Value} : a.toJson = b.toJson ↔ a = b := by
  cases a <;> cases b <;> simp [Value.toJson]

@[simp] theorem Reading.toJson_inj {a b : Reading} : a.toJson = b.toJson ↔ a = b := by
  cases a
  cases b
  simp [Reading.toJson, and_comm]

theorem Node.toJson_eq_object (node : Node) : ∃ fields, node.toJson = .object fields := by
  cases node with
  | leaf reading => exact ⟨_, rfl⟩
  | branch children => exact ⟨_, rfl⟩

-- The first field of a reading is a text, and the fields of a branch are objects.
theorem Reading.toJson_ne_branch (reading : Reading) (children : List (String × Node)) :
    reading.toJson ≠ (Node.branch children).toJson := by
  intro h
  cases children with
  | nil => simp [Reading.toJson, Node.toJson, childrenToJson] at h
  | cons child rest =>
    rcases child with ⟨key, node⟩
    rcases node.toJson_eq_object with ⟨fields, hfields⟩
    simp [Reading.toJson, Node.toJson, childrenToJson, hfields] at h

mutual

theorem Node.eq_of_toJson_eq : ∀ (a b : Node), a.toJson = b.toJson → a = b
  | .leaf _, .leaf _, h => congrArg Node.leaf (Reading.toJson_inj.1 h)
  | .leaf reading, .branch children, h => absurd h (reading.toJson_ne_branch children)
  | .branch children, .leaf reading, h => absurd h.symm (reading.toJson_ne_branch children)
  | .branch children, .branch others, h => by
    simp only [Node.toJson, Json.object.injEq] at h
    rw [eq_of_childrenToJson_eq children others h]

theorem eq_of_childrenToJson_eq :
    ∀ (a b : List (String × Node)), childrenToJson a = childrenToJson b → a = b
  | [], [], _ => rfl
  | [], _ :: _, h => by simp [childrenToJson] at h
  | _ :: _, [], h => by simp [childrenToJson] at h
  | (key, node) :: rest, (other, found) :: more, h => by
    simp only [childrenToJson, List.cons.injEq, Prod.mk.injEq] at h
    rw [h.1.1, node.eq_of_toJson_eq found h.1.2, eq_of_childrenToJson_eq rest more h.2]

end

theorem toJson_injective : Function.Injective toJson := by
  intro a b h
  cases a
  cases b
  simp only [toJson, Json.object.injEq] at h
  rw [eq_of_childrenToJson_eq _ _ h]

end PerformanceLog

/-! ## The other facts -/

theorem InventorySection.toJson_injective : Function.Injective InventorySection.toJson := by
  intro a b h
  unfold InventorySection.toJson at h
  rw [Json.object.injEq] at h
  refine List.map_injective_iff.2 ?_ h
  intro x y hxy
  cases x
  cases y
  simpa using hxy

theorem Inventory.toJson_injective : Function.Injective Inventory.toJson := by
  intro a b h
  cases a with
  | mk sections =>
  cases b with
  | mk others =>
  unfold Inventory.toJson at h
  rw [Json.object.injEq] at h
  congr 1
  refine List.map_injective_iff.2 ?_ h
  intro x y hxy
  cases x
  cases y
  simp only [Prod.mk.injEq, Json.array.injEq] at hxy
  rw [hxy.1, List.map_injective_iff.2 InventorySection.toJson_injective hxy.2]

theorem RepoTable.toJson_injective : Function.Injective RepoTable.toJson := by
  intro a b h
  cases a
  cases b
  simp_all [RepoTable.toJson]

theorem ReleaseStatement.toJson_injective : Function.Injective ReleaseStatement.toJson := by
  intro a b h
  cases a
  cases b
  simp_all [ReleaseStatement.toJson]

theorem KernelIdentity.toJson_injective : Function.Injective KernelIdentity.toJson := by
  intro a b h
  cases a
  cases b
  simp_all [KernelIdentity.toJson]

theorem PinnedRelease.toJson_injective : Function.Injective PinnedRelease.toJson := by
  intro a b h
  cases a
  cases b
  simp_all [PinnedRelease.toJson]

theorem InstalledMemory.toJson_injective : Function.Injective InstalledMemory.toJson := by
  intro a b h
  cases a
  cases b
  simp_all [InstalledMemory.toJson]

theorem Family.name_injective : Function.Injective Family.name := by
  intro a b h
  revert h
  cases a <;> cases b <;> decide

theorem TierFlags.toJson_injective : Function.Injective TierFlags.toJson := by
  intro a b h
  cases a
  cases b
  simp_all [TierFlags.toJson]

theorem DiskLoad.toJson_injective : Function.Injective DiskLoad.toJson := by
  intro a b h
  cases a
  cases b
  simp_all [DiskLoad.toJson]

theorem Distribution.toJson_injective : Function.Injective Distribution.toJson := by
  intro a b h
  cases a
  cases b
  simp_all [Distribution.toJson, Family.name_injective.eq_iff]

theorem Subscription.toJson_injective : Function.Injective Subscription.toJson := by
  intro a b h
  cases a
  cases b
  simp_all [Subscription.toJson, TierFlags.toJson_injective.eq_iff]

theorem Utilization.toJson_injective : Function.Injective Utilization.toJson := by
  intro a b h
  have hdisk : Function.Injective (Json.ofOption DiskLoad.toJson) :=
    Json.ofOption_injective DiskLoad.toJson_injective fun _ => nofun
  cases a
  cases b
  simp_all [Utilization.toJson, hdisk.eq_iff]

/-- Facts of one kind with the same document are the same. -/
theorem Fact.eq_of_toJson_eq {a b : Fact} (kind : a.kind = b.kind) (h : a.toJson = b.toJson) :
    a = b := by
  -- of the facts that `b` may be, the kind leaves the one of the form of `a`
  cases a with
  | performanceLog a =>
    cases b <;> cases kind
    exact congrArg performanceLog (PerformanceLog.toJson_injective h)
  | inventory a =>
    cases b <;> cases kind
    exact congrArg inventory (Inventory.toJson_injective h)
  | repoTable a =>
    cases b <;> cases kind
    exact congrArg repoTable (RepoTable.toJson_injective h)
  | releaseStatement a =>
    cases b <;> cases kind
    exact congrArg releaseStatement (ReleaseStatement.toJson_injective h)
  | kernelIdentity a =>
    cases b <;> cases kind
    exact congrArg kernelIdentity (KernelIdentity.toJson_injective h)
  | pinnedRelease a =>
    cases b <;> cases kind
    exact congrArg pinnedRelease (PinnedRelease.toJson_injective h)
  | distribution a =>
    cases b <;> cases kind
    exact congrArg distribution (Distribution.toJson_injective h)
  | memory a =>
    cases b <;> cases kind
    exact congrArg memory (InstalledMemory.toJson_injective h)
  | subscription a =>
    cases b <;> cases kind
    exact congrArg subscription (Subscription.toJson_injective h)
  | utilization a =>
    cases b <;> cases kind
    exact congrArg utilization (Utilization.toJson_injective h)

end HostSurvey
