import Pythos.Runtime.TypeSafety
import Pythos.Runtime.EffectOrder
import Pythos.Core.ObjectServiceDurability
import Pythos.Core.ObjectServiceRestart
import Pythos.Core.PackageLaunch
import Pythos.Session.Viewing
import Pythos.Core.PythGraphLoader
import Pythos.Core.CheckpointFailure
import Pythos.Pythc.Occurrences
import Pythos.Runtime.Budget
import Pythos.Runtime.TextCoherence
import Pythos.Pythc.ParserRoundTrip
import Pythos.Pythc.Authority
import Pythos.Core.StorageJournal
import Pythos.Core.TaskActivity
import Pythos.Core.TaskContextReads
import Pythos.Core.IpcChannels
import Pythos.Shell.LineEditor
import Pythos.Shared.EvidenceLog
