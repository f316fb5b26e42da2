import GuestHost.Config.Printer
import GuestHost.LineBuffer
import GuestHost.Main
import GuestHost.Memory.Lemmas
import GuestHost.Session.Basic
import GuestHost.Proofs.Endings
import GuestHost.Proofs.Failure
import GuestHost.Proofs.Congruence
import GuestHost.Proofs.FatalPolicy
import GuestHost.Proofs.Depth
import GuestHost.Proofs.IndirectCall
import GuestHost.Proofs.EngineLimits
import GuestHost.Proofs.Reach
import GuestHost.Proofs.Routes
import GuestHost.Proofs.Bindings
import GuestHost.Proofs.MemoryFrame
import GuestHost.Proofs.ExitStatus
import GuestHost.Proofs.Sinks
import GuestHost.Proofs.Installed
import GuestHost.Proofs.Registrations
import GuestHost.Proofs.Linked
import GuestHost.Proofs.Features
import GuestHost.Proofs.RecordedCongruence
import GuestHost.Proofs.HistoryInvariant
import GuestHost.Proofs.HostHistory
import GuestHost.Proofs.ImportProblems
import GuestHost.Proofs.Reporting
import GuestHost.Proofs.FatalReport
import GuestHost.Proofs.Isolation
import GuestHost.Proofs.Verdict
import GuestHost.Proofs.JsonSyntax
import GuestHost.Proofs.JsonReading
import GuestHost.Proofs.ConfigReading
import GuestHost.Proofs.ConfigValues
import GuestHost.Proofs.ConfigDocument
import GuestHost.Proofs.ConfigMeaning
import GuestHost.Proofs.InstallStops
import GuestHost.Proofs.Truncation
import GuestHost.Proofs.PlainMemory
import GuestHost.Proofs.MemorySessions
import GuestHost.Proofs.GatheredWrite
import GuestHost.Proofs.BulkCopy
import GuestHost.Proofs.HeapGrowth
import GuestHost.Proofs.SentOutput
import GuestHost.Proofs.RaisedErrors
import GuestHost.Proofs.ReachableGuests
import GuestHost.Proofs.ExportCalls
import GuestHost.Proofs.Spellings
import GuestHost.Proofs.BufferTables
import GuestHost.Proofs.StagedWords
import GuestHost.Proofs.WordTypes
import GuestHost.Proofs.MemoryWords
import GuestHost.Proofs.WriteCount
import GuestHost.Proofs.CallWords
