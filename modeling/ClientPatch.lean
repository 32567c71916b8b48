import ClientPatch.FileTree.Change
import ClientPatch.FileTree.WellFormed
import ClientPatch.Main
import ClientPatch.Proofs.CallPattern
import ClientPatch.Proofs.CallScan
import ClientPatch.Proofs.CallStructure
import ClientPatch.Proofs.CommandEnds
import ClientPatch.Proofs.CommandForecast
import ClientPatch.Proofs.CommandSettled
import ClientPatch.Proofs.CommandStages
import ClientPatch.Proofs.EditInverse
import ClientPatch.Proofs.EditRefusal
import ClientPatch.Proofs.EditWeave
import ClientPatch.Proofs.FileReplacement
import ClientPatch.Proofs.KeyInsertion
import ClientPatch.Proofs.PatchAgreement
import ClientPatch.Proofs.PatchForecast
import ClientPatch.Proofs.PatchFrame
import ClientPatch.Proofs.PatchInterference
import ClientPatch.Proofs.RealPath
import ClientPatch.Proofs.ReplaceStages
import ClientPatch.Proofs.RulesCommute
import ClientPatch.Proofs.RulesExact
import ClientPatch.Proofs.RulesSettled
import ClientPatch.Proofs.RulesTotal
import ClientPatch.Proofs.StatusLine
import ClientPatch.Proofs.StatusReport
import ClientPatch.Proofs.TargetVerdict
import ClientPatch.Proofs.WorkspaceCheck
import ClientPatch.Proofs.EditSplicing
import ClientPatch.Proofs.ChangedLines
import ClientPatch.Proofs.ConfigFaults
import ClientPatch.Proofs.DocumentKeys
import ClientPatch.Proofs.ConfigFields
