import DatapackDebug.Main
import DatapackDebug.Proofs.BreakpointChanges
import DatapackDebug.Proofs.CheckedSearch
import DatapackDebug.Proofs.EventOrder
import DatapackDebug.Proofs.FanOut
import DatapackDebug.Proofs.FunctionNumbers
import DatapackDebug.Proofs.GrammarPreorder
import DatapackDebug.Proofs.HiddenEntities
import DatapackDebug.Proofs.Lifecycle
import DatapackDebug.Proofs.LogTailing
import DatapackDebug.Proofs.LongBounds
import DatapackDebug.Proofs.MovedBreakpoints
import DatapackDebug.Proofs.RequestProtocol
import DatapackDebug.Proofs.ScoreAttribution
import DatapackDebug.Proofs.SourceChanges
import DatapackDebug.Proofs.StackFrames
import DatapackDebug.Proofs.StackPaging
import DatapackDebug.Proofs.Stepping
import DatapackDebug.Proofs.StopResume
import DatapackDebug.Proofs.TagGrammar
