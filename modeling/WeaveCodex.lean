import WeaveCodex.ApplyPatch.Proofs.DeltaReplay
import WeaveCodex.ApplyPatch.Proofs.DeltaStream
import WeaveCodex.ApplyPatch.Proofs.PreservedLines
import WeaveCodex.ApplyPatch.Proofs.Preview
import WeaveCodex.ApplyPatch.Proofs.RoundTrip
import WeaveCodex.Context.Proofs.PairedCalls
import WeaveCodex.Context.Proofs.PatchReplay
import WeaveCodex.ControlPlane.Proofs.CanvasArrows
import WeaveCodex.ControlPlane.Proofs.CanvasCheck
import WeaveCodex.ControlPlane.Proofs.CheckpointFeedback
import WeaveCodex.ControlPlane.Proofs.CommandCheck
import WeaveCodex.ControlPlane.Proofs.GoalOnlyAdaptation
import WeaveCodex.ControlPlane.Proofs.GraphLaw
import WeaveCodex.ControlPlane.Proofs.ReceiptFaithful
import WeaveCodex.ControlPlane.Proofs.SafeIds
import WeaveCodex.ControlPlane.Proofs.SheetCells
import WeaveCodex.ControlPlane.Proofs.StopKept
import WeaveCodex.ControlPlane.Proofs.StoredUploads
import WeaveCodex.ExecPolicy.Proofs.CompiledDomains
import WeaveCodex.ExecPolicy.Proofs.NormalizedHosts
import WeaveCodex.ExecPolicy.Proofs.RememberedApproval
import WeaveCodex.NetworkProxy.Proofs.ManagedDomains
import WeaveCodex.NetworkProxy.Proofs.RequestBuffer
import WeaveCodex.NoiseRelay.Proofs.MessageStream
import WeaveCodex.Paths.PathUri
import WeaveCodex.Permissions.Proofs.EnforcedWrites
import WeaveCodex.Permissions.Proofs.FullDisk
import WeaveCodex.RemoteControl.Proofs.CloseCauses
import WeaveCodex.Rollout.Proofs.MetadataAgreement
import WeaveCodex.Rollout.Proofs.ReverseScan
import WeaveCodex.Rollout.Proofs.WrittenRecords
import WeaveCodex.ShellCommand.Proofs.QuoteRemoval
import WeaveCodex.StreamParser.Proofs.WholeText
import WeaveCodex.ThreadHistory.Proofs.BatchReplay
import WeaveCodex.ThreadHistory.Proofs.HistoryAgreement
import WeaveCodex.TurnDiff.Proofs.IndependentRuns
