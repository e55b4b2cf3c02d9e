import Spacing.Program
import Spacing.TreeEdits
import Spacing.Listing
import Spacing.Main
import Spacing.Proofs.OperatorPass
import Spacing.Proofs.SearchCost
import Spacing.Proofs.FormatOutcome
import Spacing.Proofs.BlankRuns
import Spacing.Proofs.CommaPass
import Spacing.Proofs.CommaOrder
import Spacing.Proofs.EqualRuns
import Spacing.Proofs.SecondRun
import Spacing.Proofs.CalmTexts
import Spacing.Proofs.CheckRun
import Spacing.Proofs.GapChanges
import Spacing.Proofs.Borders
import Spacing.Proofs.FileCalls
import Spacing.Proofs.Jobs
import Spacing.Proofs.FileFrame
import Spacing.Proofs.PreviewRuns
import Spacing.Proofs.SettingCrashes
import Spacing.Proofs.ExitStatus
import Spacing.Proofs.WriteModes
import Spacing.Proofs.CharacterClasses
import Spacing.Proofs.RepeatedRuns
import Spacing.Proofs.LogSettings
import Spacing.Proofs.CommaTurns
import Spacing.Proofs.SignPairs
import Spacing.Proofs.SignChains
import Spacing.Proofs.LineEndings
import Spacing.Proofs.LogPrecedence
import Spacing.Proofs.VerboseLog
import Spacing.Proofs.Splices
