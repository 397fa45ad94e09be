import KovaService.Api.Target

/-!
The specs of a batch and their grouping into jobs: `jobs.go`.

The specs of one image, whatever their format, make one job, and the Nydus specs of a job come before
its OCI specs.
-/

namespace KovaService.Batch

open Lib Api

structure Spec where
  dir : String := ""
  target : String
  platform : String
  format : BuildFormat
  deriving DecidableEq

def formatIsOCI (format : BuildFormat) : Bool := format == .oci

structure BuildJob where
  key : String
  platform : String
  specs : List Spec
  deriving DecidableEq

def specLess (a b : Spec) : Bool :=
  if a.format != b.format then !formatIsOCI a.format else decide (a.target < b.target)

def jobOf (specs : List Spec) (key : String) : BuildJob :=
  let jobSpecs := (specs.filter fun spec => stripNydusV3Suffix spec.target == key).insertionSort
    fun a b => specLess b a = false
  { key := key, platform := (jobSpecs.head?.map Spec.platform).getD "", specs := jobSpecs }

def groupBuildSpecs (specs : List Spec) : List BuildJob :=
  ((specs.map fun spec => stripNydusV3Suffix spec.target).dedup.insertionSort (· ≤ ·)).map
    (jobOf specs)

theorem mem_jobOf {specs : List Spec} {key : String} {spec : Spec} :
    spec ∈ (jobOf specs key).specs ↔ spec ∈ specs ∧ stripNydusV3Suffix spec.target = key := by
  simp [jobOf, List.mem_insertionSort]

theorem exists_job {specs : List Spec} {spec : Spec} (h : spec ∈ specs) :
    ∃ job ∈ groupBuildSpecs specs, spec ∈ job.specs := by
  refine ⟨jobOf specs (stripNydusV3Suffix spec.target), ?_, mem_jobOf.mpr ⟨h, rfl⟩⟩
  simp only [groupBuildSpecs, List.mem_map, List.mem_insertionSort, List.mem_dedup]
  exact ⟨_, ⟨spec, h, rfl⟩, rfl⟩

theorem groupBuildSpecs_nil : groupBuildSpecs [] = [] := by
  simp [groupBuildSpecs]

end KovaService.Batch
