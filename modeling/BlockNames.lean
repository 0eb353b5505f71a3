import BlockNames.Session
import BlockNames.Wire.Compaction
import BlockNames.Proofs.RoundTrip
import BlockNames.Proofs.Diagnostic
import BlockNames.Proofs.DeclaredTable
import BlockNames.Proofs.Restorability
import BlockNames.Proofs.Recompaction
import BlockNames.Proofs.Renaming
import BlockNames.Proofs.Opacity
import BlockNames.Proofs.Unannotated
import BlockNames.Proofs.Idempotence
import BlockNames.Proofs.Noninterference
import BlockNames.Proofs.Rejection
import BlockNames.Proofs.Extension
import BlockNames.Proofs.Rearrangement
import BlockNames.Proofs.MixedNumbering
import BlockNames.Proofs.SessionTable
import BlockNames.Proofs.ProgramFrame
import BlockNames.Proofs.WrittenForm
import BlockNames.Proofs.PointwiseRestoration
import BlockNames.Proofs.FirstFault
import BlockNames.Proofs.RepeatedRestoration
import BlockNames.Proofs.ArgumentNames
import BlockNames.Proofs.DeclaredArguments
import BlockNames.Proofs.RestorationLog
