import KovaService.Runner.Overlap
import KovaService.Runner.Refinement
import KovaService.Safety.Receipts
import KovaService.Safety.Release
import KovaService.Safety.Stages
import KovaService.Safety.Alarm
import KovaService.Safety.Execution
import KovaService.Safety.Stored
import KovaService.Submission.Hop
import KovaService.Fairness.Turns
import KovaService.Batch.CommandOutput
import KovaService.Batch.Platforms
import KovaService.Disposal.Discipline
import KovaService.Disposal.Partition
import KovaService.Stage.Effects
import KovaService.Admission.Audit
import KovaService.Admission.Coordinator
import KovaService.Outputs.Target
import KovaService.Receipts.Rounds
import KovaService.Archive.Links
import KovaService.Protocol.Patch
