import HostSurvey.Derived.Utilization
import HostSurvey.Proofs.Number.TotalOrder
import HostSurvey.Proofs.PerformanceLog.LastWriter
import HostSurvey.Proofs.Text.ByteOrder

/-!
# Which figures a performance log shows

A share is shown when both of its metrics are numbers and the whole is greater than zero, the
operations of all disks when their metric is a number, and the busiest disk when a number stands
directly below the metric of the single disks. The busiest disk has the greatest number in the total
order of doubles, and of several disks with that number the last name.
-/

namespace HostSurvey

open Number Text

/-! ## Numbers in a log -/

namespace PerformanceLog

variable {log : PerformanceLog} {path : String} {segments : List String}

/-- A reading with a number stands at a path. -/
def NumberAt (log : PerformanceLog) (path : List String) (x : Double) : Prop :=
  ∃ unit, log.find? path = some (.leaf ⟨.number x, unit⟩)

theorem Node.number?_eq_some_iff {node : Node} {x : Double} :
    node.reading?.bind (·.value.number?) = some x ↔ ∃ unit, node = .leaf ⟨.number x, unit⟩ := by
  cases node with
  | branch children => simp [Node.reading?]
  | leaf reading =>
    rcases reading with ⟨value, unit⟩
    cases value <;> simp [Node.reading?, Value.number?]

theorem number?_eq_some_iff (h : (pieces (· == '.') path.toList).map String.ofList = segments)
    {x : Double} : log.number? path = some x ↔ NumberAt log segments x := by
  have hnumber : log.number? path =
      (log.find? segments).bind fun node => node.reading?.bind (·.value.number?) := by
    rw [number?, readingAt?, get?, h, Option.bind_assoc]
  rw [hnumber, Option.bind_eq_some_iff, NumberAt]
  simp only [Node.number?_eq_some_iff]
  apply Iff.intro
  · intro h
    rcases h with ⟨node, hnode, unit, rfl⟩
    exact ⟨unit, hnode⟩
  · intro h
    rcases h with ⟨unit, hnode⟩
    exact ⟨_, hnode, unit, rfl⟩

theorem children?_eq_some_iff (h : (pieces (· == '.') path.toList).map String.ofList = segments)
    {children : Dict Node} :
    log.children? path = some children ↔ log.find? segments = some (.branch children) := by
  rw [children?, get?, h, Option.bind_eq_some_iff]
  apply Iff.intro
  · intro h
    rcases h with ⟨node, hnode, hchildren⟩
    cases node with
    | leaf reading => cases hchildren
    | branch nodes =>
      cases hchildren
      exact hnode
  · intro hnode
    exact ⟨_, hnode, rfl⟩

theorem sorted_of_ofLines? {lines : List String} (h : ofLines? lines = some log) :
    Sorted log.roots := by
  rw [eq_entered_of_ofLines? h]
  exact (reflects_entered lines).sorted

end PerformanceLog

namespace Utilization

open PerformanceLog (NumberAt)

variable {log : PerformanceLog} {disk other : DiskLoad} {loads : List DiskLoad}

/-! ## The busiest of some disks -/

/-- A disk does not come after another one, in the total order of their operations and then in the
order of the bytes of their names. -/
def NotBusier (a b : DiskLoad) : Prop :=
  a.iops.TotalLT b.iops ∨ a.iops = b.iops ∧ bytes a.device ≤ bytes b.device

theorem notBusier_iff {a b : DiskLoad} :
    NotBusier a b ↔
      a.iops.rank < b.iops.rank ∨ a.iops.rank = b.iops.rank ∧ a.device ≤ b.device := by
  have hrank : a.iops.rank = b.iops.rank ↔ a.iops = b.iops :=
    ⟨Double.rank_injective, congrArg Double.rank⟩
  rw [NotBusier, Double.rank_lt_rank_iff, hrank, le_iff_bytes_le]

theorem NotBusier.refl (a : DiskLoad) : NotBusier a a :=
  .inr ⟨rfl, le_iff_bytes_le.1 (String.le_refl a.device)⟩

theorem NotBusier.trans {a b c : DiskLoad} (hab : NotBusier a b) (hbc : NotBusier b c) :
    NotBusier a c := by
  rw [notBusier_iff] at *
  rcases hab with hab | ⟨hab, hdevice⟩
  · left
    omega
  · rcases hbc with hbc | ⟨hbc, hdevice'⟩
    · left
      omega
    · exact .inr ⟨hab.trans hbc, String.le_trans hdevice hdevice'⟩

theorem NotBusier.antisymm {a b : DiskLoad} (hab : NotBusier a b) (hba : NotBusier b a) :
    a = b := by
  rw [notBusier_iff] at *
  have hrank : a.iops.rank = b.iops.rank := by omega
  have hdevice : a.device = b.device :=
    String.le_antisymm (hab.resolve_left (by omega)).2 (hba.resolve_left (by omega)).2
  cases a
  cases b
  simp only [DiskLoad.mk.injEq]
  exact ⟨hdevice, Double.rank_injective hrank⟩

-- Of two disks in the order of their names, neither is busier than the chosen one.
theorem notBusier_busier {a b : DiskLoad} (h : a.device < b.device) :
    (busier a b = a ∨ busier a b = b) ∧ NotBusier a (busier a b) ∧ NotBusier b (busier a b) := by
  unfold busier
  split
  · next hle =>
    refine ⟨.inr rfl, notBusier_iff.2 ?_, .refl b⟩
    rcases Int.lt_or_eq_of_le hle with hlt | heq
    · exact .inl hlt
    · exact .inr ⟨heq, String.not_lt.1 (String.lt_asymm h)⟩
  · next hgt =>
    exact ⟨.inl rfl, .refl a, notBusier_iff.2 (.inl (Int.not_le.1 hgt))⟩

theorem foldl_busier {first : DiskLoad} {rest : List DiskLoad}
    (ordered : (first :: rest).Pairwise fun a b => a.device < b.device) :
    rest.foldl busier first ∈ first :: rest ∧
      ∀ other ∈ first :: rest, NotBusier other (rest.foldl busier first) := by
  induction rest generalizing first with
  | nil =>
    refine ⟨List.mem_singleton_self first, fun other hother => ?_⟩
    rw [List.mem_singleton.1 hother]
    exact .refl first
  | cons next rest ih =>
    rcases List.pairwise_cons.1 ordered with ⟨hfirst, hrest⟩
    rcases notBusier_busier (hfirst next List.mem_cons_self) with ⟨hchosen, hleft, hright⟩
    -- whichever of the first two is kept stands before the others
    have hkept : (busier first next :: rest).Pairwise fun a b => a.device < b.device := by
      rcases hchosen with h | h
      · rw [h]
        exact List.pairwise_cons.2
          ⟨fun d hd => hfirst d (List.mem_cons_of_mem next hd), (List.pairwise_cons.1 hrest).2⟩
      · rw [h]
        exact hrest
    rcases ih hkept with ⟨hmem, hgreatest⟩
    have hover := hgreatest (busier first next) List.mem_cons_self
    rw [List.foldl_cons]
    apply And.intro
    · rcases List.mem_cons.1 hmem with hmem | hmem
      · rw [hmem]
        rcases hchosen with h | h
        · rw [h]
          exact List.mem_cons_self
        · rw [h]
          exact List.mem_cons_of_mem first List.mem_cons_self
      · exact List.mem_cons_of_mem first (List.mem_cons_of_mem next hmem)
    · refine List.forall_mem_cons.2 ⟨hleft.trans hover, List.forall_mem_cons.2 ⟨hright.trans hover, ?_⟩⟩
      exact fun other hother => hgreatest other (List.mem_cons_of_mem _ hother)

theorem busiest?_eq_some_iff (ordered : loads.Pairwise fun a b => a.device < b.device) :
    busiest? loads = some disk ↔ disk ∈ loads ∧ ∀ other ∈ loads, NotBusier other disk := by
  cases loads with
  | nil => exact iff_of_false (by simp [busiest?]) fun h => absurd h.1 List.not_mem_nil
  | cons first rest =>
    rcases foldl_busier ordered with ⟨hmem, hgreatest⟩
    rw [busiest?, Option.some.injEq]
    apply Iff.intro
    · intro h
      subst h
      exact ⟨hmem, hgreatest⟩
    · intro h
      rcases h with ⟨hdisk, hover⟩
      exact (hover _ hmem).antisymm (hgreatest _ hdisk)

/-! ## The disks of a log -/

/-- A reading with a number stands directly below the metric of the single disks. -/
def LoadAt (log : PerformanceLog) (disk : DiskLoad) : Prop :=
  ∃ children unit, log.find? ["disk", "dev", "total"] = some (.branch children) ∧
    (disk.device, .leaf ⟨.number disk.iops, unit⟩) ∈ children

/-- A disk of the log that no other one is busier than. -/
def IsBusiest (log : PerformanceLog) (disk : DiskLoad) : Prop :=
  LoadAt log disk ∧ ∀ other, LoadAt log other → NotBusier other disk

theorem mem_diskLoads_iff : disk ∈ diskLoads log ↔ LoadAt log disk := by
  have hpath : (pieces (· == '.') "disk.dev.total".toList).map String.ofList =
      ["disk", "dev", "total"] := by decide +kernel
  rw [diskLoads, List.mem_filterMap]
  apply Iff.intro
  · intro h
    rcases h with ⟨⟨device, node⟩, hmem, hload⟩
    rcases Option.map_eq_some_iff.1 hload with ⟨iops, hnumber, rfl⟩
    rcases PerformanceLog.Node.number?_eq_some_iff.1 hnumber with ⟨unit, rfl⟩
    cases hchildren : log.children? "disk.dev.total" with
    | none =>
      rw [hchildren] at hmem
      cases hmem
    | some children =>
      rw [hchildren] at hmem
      exact ⟨children, unit, (PerformanceLog.children?_eq_some_iff hpath).1 hchildren, hmem⟩
  · intro h
    rcases h with ⟨children, unit, hchildren, hmem⟩
    rw [(PerformanceLog.children?_eq_some_iff hpath).2 hchildren]
    exact ⟨_, hmem, rfl⟩

theorem diskLoads_pairwise (sorted : PerformanceLog.Sorted log.roots) :
    (diskLoads log).Pairwise fun a b => a.device < b.device := by
  have hpath : (pieces (· == '.') "disk.dev.total".toList).map String.ofList =
      ["disk", "dev", "total"] := by decide +kernel
  have ordered : ((log.children? "disk.dev.total").getD []).Ordered := by
    cases hchildren : log.children? "disk.dev.total" with
    | none => exact List.Pairwise.nil
    | some children =>
      exact sorted.branches _ children ((PerformanceLog.children?_eq_some_iff hpath).1 hchildren)
  refine List.Pairwise.filterMap _ ?_ ordered
  -- a disk keeps the name that its node has in the branch
  intro a b hab disk hdisk other hother
  rcases Option.map_eq_some_iff.1 hdisk with ⟨iops, -, rfl⟩
  rcases Option.map_eq_some_iff.1 hother with ⟨iops', -, rfl⟩
  exact hab

theorem busiest?_diskLoads_eq_some_iff (sorted : PerformanceLog.Sorted log.roots) :
    busiest? (diskLoads log) = some disk ↔ IsBusiest log disk := by
  rw [busiest?_eq_some_iff (diskLoads_pairwise sorted), mem_diskLoads_iff, IsBusiest]
  simp only [mem_diskLoads_iff]

theorem exists_busiest_iff (sorted : PerformanceLog.Sorted log.roots) :
    (∃ disk, IsBusiest log disk) ↔ ∃ disk, LoadAt log disk := by
  apply Iff.intro
  · intro h
    rcases h with ⟨disk, busiest⟩
    exact ⟨disk, busiest.1⟩
  · intro h
    rcases h with ⟨disk, load⟩
    have hmem := mem_diskLoads_iff.2 load
    cases hloads : diskLoads log with
    | nil =>
      rw [hloads] at hmem
      cases hmem
    | cons first rest =>
      have hbusiest : busiest? (diskLoads log) = some (rest.foldl busier first) := by
        rw [hloads]
        rfl
      exact ⟨_, (busiest?_diskLoads_eq_some_iff sorted).1 hbusiest⟩

/-! ## Shares -/

/-- Two metrics are numbers, and the second one, which is the whole, is greater than zero. -/
structure PartAt (log : PerformanceLog) (partPath wholePath : List String) (part whole : Double) :
    Prop where
  part_at : NumberAt log partPath part
  whole_at : NumberAt log wholePath whole
  positive : 0 < whole.signedUnits

/-- The numbers that the share of the memory in use is made of. -/
def MemoryAt (log : PerformanceLog) : Double → Double → Prop :=
  PartAt log ["mem", "util", "used"] ["mem", "physmem"]

/-- The numbers that the share of the processors in use is made of. -/
def CpuAt (log : PerformanceLog) : Double → Double → Prop :=
  PartAt log ["kernel", "all", "cpu", "idle"] ["hinv", "ncpu"]

theorem guarded_eq_some_iff {partName wholeName : String} {partPath wholePath : List String}
    (hpart : (pieces (· == '.') partName.toList).map String.ofList = partPath)
    (hwhole : (pieces (· == '.') wholeName.toList).map String.ofList = wholePath)
    {shareOf : Double → Double → Double} {x : Double} :
    (log.number? partName).bind (fun part => (log.number? wholeName).bind fun whole =>
        if whole.isPositive then some (shareOf part whole) else none) = some x ↔
      ∃ part whole, PartAt log partPath wholePath part whole ∧ x = shareOf part whole := by
  simp only [Option.bind_eq_some_iff, PerformanceLog.number?_eq_some_iff hpart,
    PerformanceLog.number?_eq_some_iff hwhole]
  apply Iff.intro
  · intro h
    rcases h with ⟨part, partAt, whole, wholeAt, h⟩
    split at h
    · next hpositive =>
      exact ⟨part, whole, ⟨partAt, wholeAt, Double.isPositive_iff.1 hpositive⟩,
        (Option.some.inj h).symm⟩
    · cases h
  · intro h
    rcases h with ⟨part, whole, h, rfl⟩
    exact ⟨part, h.part_at, whole, h.whole_at, if_pos (Double.isPositive_iff.2 h.positive)⟩

theorem memoryShare?_eq_some_iff {x : Double} :
    memoryShare? log = some x ↔ ∃ used all, MemoryAt log used all ∧ x = share used all :=
  guarded_eq_some_iff (by decide +kernel) (by decide +kernel)

theorem cpuShare?_eq_some_iff {x : Double} :
    cpuShare? log = some x ↔ ∃ idle count, CpuAt log idle count ∧ x = busyShare idle count :=
  guarded_eq_some_iff (by decide +kernel) (by decide +kernel)

theorem diskIops_eq_some_iff {x : Double} :
    log.number? "disk.all.total" = some x ↔ NumberAt log ["disk", "all", "total"] x :=
  PerformanceLog.number?_eq_some_iff (by decide +kernel)

/-! ## All figures -/

/-- What the figures of a log are. -/
structure Shows (log : PerformanceLog) (figures : Utilization) : Prop where
  memory : ∀ x, figures.memory = some x ↔ ∃ used all, MemoryAt log used all ∧ x = share used all
  cpu : ∀ x, figures.cpu = some x ↔ ∃ idle count, CpuAt log idle count ∧ x = busyShare idle count
  diskIops : ∀ x, figures.diskIops = some x ↔ NumberAt log ["disk", "all", "total"] x
  busiestDisk : ∀ disk, figures.busiestDisk = some disk ↔ IsBusiest log disk
  /-- A disk is the busiest one as soon as there is a disk at all. -/
  anyDisk : (∃ disk, figures.busiestDisk = some disk) ↔ ∃ disk, LoadAt log disk

/-- The log has the metrics of none of the figures. -/
structure ShowsNothing (log : PerformanceLog) : Prop where
  memory : ∀ used all, ¬ MemoryAt log used all
  cpu : ∀ idle count, ¬ CpuAt log idle count
  diskIops : ∀ x, ¬ NumberAt log ["disk", "all", "total"] x
  disks : ∀ disk, ¬ LoadAt log disk

/-- The figures of a log, some of which may be missing. -/
def figuresOf (log : PerformanceLog) : Utilization where
  memory := memoryShare? log
  cpu := cpuShare? log
  diskIops := log.number? "disk.all.total"
  busiestDisk := busiest? (diskLoads log)

theorem shows_figuresOf (sorted : PerformanceLog.Sorted log.roots) : Shows log (figuresOf log) where
  memory := fun _ => memoryShare?_eq_some_iff
  cpu := fun _ => cpuShare?_eq_some_iff
  diskIops := fun _ => diskIops_eq_some_iff
  busiestDisk := fun _ => busiest?_diskLoads_eq_some_iff sorted
  anyDisk := by
    simp only [figuresOf, busiest?_diskLoads_eq_some_iff sorted, exists_busiest_iff sorted]

theorem Shows.nothing_iff {figures : Utilization} (h : Shows log figures) :
    figures = ⟨none, none, none, none⟩ ↔ ShowsNothing log := by
  apply Iff.intro
  · intro h
    subst h
    refine ⟨fun used all at_ => ?_, fun idle count at_ => ?_, fun x at_ => ?_, fun disk load => ?_⟩
    · cases (h.memory _).2 ⟨used, all, at_, rfl⟩
    · cases (h.cpu _).2 ⟨idle, count, at_, rfl⟩
    · cases (h.diskIops x).2 at_
    · rcases h.anyDisk.2 ⟨disk, load⟩ with ⟨busiest, hbusiest⟩
      cases hbusiest
  · intro nothing
    have hmemory : figures.memory = none := by
      apply Option.eq_none_iff_forall_ne_some.2
      intro x hx
      rcases (h.memory x).1 hx with ⟨used, all, at_, -⟩
      exact nothing.memory used all at_
    have hcpu : figures.cpu = none := by
      apply Option.eq_none_iff_forall_ne_some.2
      intro x hx
      rcases (h.cpu x).1 hx with ⟨idle, count, at_, -⟩
      exact nothing.cpu idle count at_
    have hiops : figures.diskIops = none := by
      apply Option.eq_none_iff_forall_ne_some.2
      intro x hx
      exact nothing.diskIops x ((h.diskIops x).1 hx)
    have hdisk : figures.busiestDisk = none := by
      apply Option.eq_none_iff_forall_ne_some.2
      intro disk hx
      exact nothing.disks disk ((h.busiestDisk disk).1 hx).1
    cases figures
    simp only [Utilization.mk.injEq]
    exact ⟨hmemory, hcpu, hiops, hdisk⟩

/-- A log that was read shows no utilization exactly when it has the metrics of none of the four
figures. Otherwise each figure is there exactly when its own metrics are. -/
theorem ofLog?_shows_figures {lines : List String} {log : PerformanceLog}
    (h : PerformanceLog.ofLines? lines = some log) :
    (ofLog? log = none ↔ ShowsNothing log) ∧
    ∀ figures, ofLog? log = some figures → Shows log figures := by
  have shows := shows_figuresOf (PerformanceLog.sorted_of_ofLines? h)
  have hfigures : ofLog? log =
      if figuresOf log = ⟨none, none, none, none⟩ then none else some (figuresOf log) := rfl
  rw [hfigures, ← shows.nothing_iff]
  split
  · next hnothing => exact ⟨iff_of_true rfl hnothing, fun figures hnone => by cases hnone⟩
  · next hsome =>
    refine ⟨iff_of_false (Option.some_ne_none _) hsome, fun figures heq => ?_⟩
    rw [← Option.some.inj heq]
    exact shows

/-! ## Disks with the same load -/

/-- Two disks have the same load, and neither a text nor what stands further down is one. -/
def tiedLines : List String :=
  ["disk.dev.total [\"vda\"] 2.5 count / sec", "disk.dev.total [\"vdb\"] 2.5 count / sec",
    "disk.dev.total [\"vdc\"] idle count / sec", "disk.dev.total.md0.total 9.5 count / sec",
    "mem.util.used 2.5 Kbyte", "mem.physmem -0.0 Kbyte"]

def twoAndHalf : Double := ⟨false, 0x4004000000000000, by decide⟩

def nineAndHalf : Double := ⟨false, 0x4023000000000000, by decide⟩

def negativeZero : Double := { Double.zero with negative := true }

/-- The nodes below the metric of the single disks. -/
def tiedDisks : Dict PerformanceLog.Node :=
  [("md0", .branch [("total", .leaf ⟨.number nineAndHalf, "count / sec"⟩)]),
    ("vda", .leaf ⟨.number twoAndHalf, "count / sec"⟩),
    ("vdb", .leaf ⟨.number twoAndHalf, "count / sec"⟩),
    ("vdc", .leaf ⟨.text "idle", "count / sec"⟩)]

def tiedLog : PerformanceLog :=
  ⟨[("disk", .branch [("dev", .branch [("total", .branch tiedDisks)])]),
    ("mem", .branch [("physmem", .leaf ⟨.number negativeZero, "Kbyte"⟩),
      ("util", .branch [("used", .leaf ⟨.number twoAndHalf, "Kbyte"⟩)])])]⟩

theorem ofLines?_tiedLines : PerformanceLog.ofLines? tiedLines = some tiedLog := by
  have hentries : PerformanceLog.entries tiedLines =
      [(["disk", "dev", "total", "vda"], ⟨.number twoAndHalf, "count / sec"⟩),
        (["disk", "dev", "total", "vdb"], ⟨.number twoAndHalf, "count / sec"⟩),
        (["disk", "dev", "total", "vdc"], ⟨.text "idle", "count / sec"⟩),
        (["disk", "dev", "total", "md0", "total"], ⟨.number nineAndHalf, "count / sec"⟩),
        (["mem", "util", "used"], ⟨.number twoAndHalf, "Kbyte"⟩),
        (["mem", "physmem"], ⟨.number negativeZero, "Kbyte"⟩)] := by decide +kernel
  rw [PerformanceLog.ofLines?, hentries]
  rfl

theorem loadAt_tiedLog_iff :
    LoadAt tiedLog disk ↔ disk = ⟨"vda", twoAndHalf⟩ ∨ disk = ⟨"vdb", twoAndHalf⟩ := by
  rw [← mem_diskLoads_iff]
  have hloads : diskLoads tiedLog = [⟨"vda", twoAndHalf⟩, ⟨"vdb", twoAndHalf⟩] := by
    decide +kernel
  rw [hloads]
  simp

/-- The busiest disk is the last one by name, and a whole that is a zero gives no share. -/
theorem last_of_tied_disks_is_busiest :
    PerformanceLog.ofLines? tiedLines = some tiedLog ∧
    ∃ figures, ofLog? tiedLog = some figures ∧
      figures.busiestDisk = some ⟨"vdb", twoAndHalf⟩ ∧ figures.memory = none := by
  refine ⟨ofLines?_tiedLines, ?_⟩
  rcases ofLog?_shows_figures ofLines?_tiedLines with ⟨hnone, hsome⟩
  cases hfigures : ofLog? tiedLog with
  | none => exact absurd (loadAt_tiedLog_iff.2 (.inl rfl)) ((hnone.1 hfigures).disks _)
  | some figures =>
    have shows := hsome figures hfigures
    refine ⟨figures, rfl, (shows.busiestDisk _).2 ⟨loadAt_tiedLog_iff.2 (.inr rfl), ?_⟩, ?_⟩
    · intro other load
      rcases loadAt_tiedLog_iff.1 load with rfl | rfl
      · exact .inr ⟨rfl, le_iff_bytes_le.1 (String.not_lt.1 (by decide))⟩
      · exact .refl _
    · apply Option.eq_none_iff_forall_ne_some.2
      intro x hx
      rcases (shows.memory x).1 hx with ⟨used, all, memory, -⟩
      rcases memory.whole_at with ⟨unit, hall⟩
      cases hall
      exact absurd memory.positive (by decide)

end Utilization

end HostSurvey
