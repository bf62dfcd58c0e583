import SiteServer.Text.Cut
import SiteServer.Text.Blank
import SiteServer.Text.Utf8
import SiteServer.Text.Case
import SiteServer.Text.Numeral
import SiteServer.Dictionary
import SiteServer.Vocabulary
import SiteServer.Log.Event
import SiteServer.Http.Word
import SiteServer.Http.Status
import SiteServer.Http.MediaType
import SiteServer.Http.Request.Reader
import SiteServer.Http.Response
import SiteServer.Decimal.Shortest
import SiteServer.Json.Document
import SiteServer.Files.Tree
import SiteServer.Media.Database
import SiteServer.Template.Store
import SiteServer.Connection.Respond
import SiteServer.Settings.CommandLine
import SiteServer.Workers.Rehearsal
import SiteServer.Server.Course
import SiteServer.Program
import SiteServer.Main
import SiteServer.Proofs.Text.LossyCut
import SiteServer.Proofs.Http.Terminator
import SiteServer.Proofs.Http.HeaderLines
import SiteServer.Proofs.Http.RequestGrammar
import SiteServer.Proofs.Workers.Moves
import SiteServer.Proofs.Connection.Delivered
import SiteServer.Proofs.Connection.Conversation
import SiteServer.Proofs.Http.Framing
import SiteServer.Proofs.Workers.Accounts
import SiteServer.Proofs.Workers.Wakefulness
import SiteServer.Proofs.Server.Conclusion
import SiteServer.Proofs.Server.Course
import SiteServer.Proofs.Server.Startup
import SiteServer.Proofs.Connection.Confinement
import SiteServer.Proofs.Connection.Routing
import SiteServer.Proofs.Template.Occurrences
import SiteServer.Proofs.Template.Filling
import SiteServer.Proofs.Http.ResponseRoundTrip
import SiteServer.Proofs.Http.RequestRoundTrip
import SiteServer.Proofs.Connection.Turns
import SiteServer.Proofs.Text.CutShort
import SiteServer.Proofs.Http.Truncation
import SiteServer.Proofs.Connection.Repetition
import SiteServer.Proofs.Server.Life
import SiteServer.Proofs.Http.FieldNames
import SiteServer.Proofs.Files.Served
import SiteServer.Proofs.Files.Resolved
import SiteServer.Proofs.Settings.Directories
import SiteServer.Proofs.Http.MediaReading
import SiteServer.Proofs.Http.FirstValues
import SiteServer.Proofs.Connection.Reports
import SiteServer.Proofs.Connection.Replacements
import SiteServer.Proofs.Template.Keys
import SiteServer.Proofs.Workers.Isolation
import SiteServer.Proofs.Media.Prefixes
import SiteServer.Proofs.Media.PlainText
