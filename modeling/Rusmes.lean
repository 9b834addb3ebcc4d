import Rusmes.Library.WireText
import Rusmes.Proto.Address
import Rusmes.Proto.Mail
import Rusmes.Proto.Mime
import Rusmes.Core.Processor
import Rusmes.Core.Failures
import Rusmes.Core.Composite
import Rusmes.Core.Recipients
import Rusmes.Library.Machine
import Rusmes.Library.Effect
import Rusmes.Library.Table
import Rusmes.Core.Router
import Rusmes.Core.Actions
import Rusmes.Smtp.Command
import Rusmes.Smtp.Parser
import Rusmes.Smtp.Auth
import Rusmes.Smtp.Bdat
import Rusmes.Smtp.Network
import Rusmes.Smtp.Session
import Rusmes.Smtp.Data
import Rusmes.Smtp.Connection
import Rusmes.Smtp.Dialogue
import Rusmes.Smtp.Relay
import Rusmes.Smtp.Login
import Rusmes.Smtp.Order
import Rusmes.Smtp.Payload
import Rusmes.Smtp.Transparency
import Rusmes.Smtp.Chunking
import Rusmes.Auth.Sasl
import Rusmes.Auth.Evidence
import Rusmes.Storage.Types
import Rusmes.Storage.Filesystem
import Rusmes.Storage.Folders
import Rusmes.Storage.Runs
import Rusmes.Storage.Accounting
import Rusmes.Storage.Uids
import Rusmes.Storage.Interleaving
import Rusmes.Proto.Uuid
import Rusmes.Proto.Headers
import Rusmes.Storage.Identity
import Rusmes.Imap.Command
import Rusmes.Imap.Session
import Rusmes.Imap.Handlers
import Rusmes.Imap.Messages
import Rusmes.Imap.Expunge
import Rusmes.Imap.Backend
import Rusmes.Imap.Parser
import Rusmes.Imap.Steps
import Rusmes.Imap.Isolation
import Rusmes.Imap.Compression
import Rusmes.Imap.Idle
import Rusmes.Imap.ReadOnly
import Rusmes.Imap.Authenticate
import Rusmes.Library.Directories
import Rusmes.Storage.Metadata
import Rusmes.Pop3.Command
import Rusmes.Pop3.Session
import Rusmes.Library.Exclusion
import Rusmes.Pop3.Server
import Rusmes.Pop3.Exclusive
import Rusmes.Pop3.Uids
import Rusmes.Imap.Robust
import Rusmes.Imap.Sent
import Rusmes.Imap.Copies
import Rusmes.Imap.Flags
import Rusmes.Core.RateLimit
import Rusmes.Sieve.Script
import Rusmes.Sieve.Interpreter
import Rusmes.Sieve.Executed
import Rusmes.Sieve.Boolean
import Rusmes.Sieve.Mailet
import Rusmes.Sieve.Parser
import Rusmes.Sieve.Accepted
import Rusmes.Sieve.Printer
import Rusmes.Queue.Priority
import Rusmes.Queue.Retries
import Rusmes.Queue.Agreement
import Rusmes.Queue.Race
import Rusmes.Queue.Retention
import Rusmes.Queue.Files
import Rusmes.Library.Glob
import Rusmes.Sieve.Wildcard
import Rusmes.Sieve.Edits
import Rusmes.Sieve.Lists
import Rusmes.Imap.Fetched
import Rusmes.Imap.Agreement
import Rusmes.Jmap.Email
import Rusmes.Jmap.Accounts
import Rusmes.Jmap.Exposed
import Rusmes.Library.Ranked
import Rusmes.Queue.PriorityQueue
import Rusmes.Queue.Ready
import Rusmes.Smtp.Continuation
import Rusmes.Smtp.Lookup
import Rusmes.Smtp.Parameters
import Rusmes.Smtp.Verbs
import Rusmes.Smtp.Grammar
import Rusmes.Library.Words
import Rusmes.Smtp.BdatParsers
import Rusmes.Smtp.Spill
import Rusmes.Core.Keys
import Rusmes.Library.Sextets
import Rusmes.Library.Splitting
import Rusmes.Proto.Base64
import Rusmes.Proto.QuotedPrintable
import Rusmes.Proto.Scanner
import Rusmes.Proto.Repeated
import Rusmes.Proto.Folding
import Rusmes.Smtp.ScramFinal
import Rusmes.Smtp.Scram
import Rusmes.Imap.Patterns
import Rusmes.Proto.AddressKeys
import Rusmes.Imap.SequenceSets
import Rusmes.Imap.Verbs
import Rusmes.Imap.ItemLists
import Rusmes.Imap.MailboxNames
import Rusmes.Library.Segments
import Rusmes.Imap.QResync
import Rusmes.Imap.Vanished
import Rusmes.Proto.ContentType
import Rusmes.Proto.Multipart
import Rusmes.Proto.StoredId
import Rusmes.Proto.Restored
import Rusmes.Storage.Conversation
import Rusmes.Storage.Threads
import Rusmes.Auth.Lockouts
import Rusmes.Library.SlidingWindow
import Rusmes.Auth.Windows
import Rusmes.Library.LineEnds
import Rusmes.Pop3.Transfer
import Rusmes.Pop3.Grammar
import Rusmes.Jmap.BackReference
import Rusmes.Jmap.Substitution
import Rusmes.Jmap.Patches
import Rusmes.Jmap.Holdings
import Rusmes.Jmap.Turns
import Rusmes.Jmap.Creation
import Rusmes.Jmap.Revision
import Rusmes.Jmap.Atomic
import Rusmes.Jmap.Paging
import Rusmes.Core.Forward
import Rusmes.Jmap.Addresses
import Rusmes.Core.Forwarding
import Rusmes.Storage.Subjects
import Rusmes.Core.Spf
import Rusmes.Core.SpfPass
import Rusmes.Core.SpfErrors
import Rusmes.Library.CrlfLines
import Rusmes.Core.DkimBody
import Rusmes.Search.Query
import Rusmes.Core.Bounce
import Rusmes.Library.Markers
import Rusmes.Search.Translated
import Rusmes.Core.BounceParts
import Rusmes.Core.BounceReport
import Rusmes.Core.BounceGroups
import Rusmes.Library.Lossy
import Rusmes.Core.DkimHeaders
import Rusmes.Core.DkimValues
import Rusmes.Core.DkimFields
import Rusmes.Core.DkimTags
import Rusmes.Core.DkimForm
import Rusmes.Core.DkimInput
import Rusmes.Storage.Deliveries
import Rusmes.Jmap.Requests
