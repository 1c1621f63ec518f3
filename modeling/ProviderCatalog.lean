import ProviderCatalog.Json.Reader
import ProviderCatalog.Json.Writer
import ProviderCatalog.Text.Digit
import ProviderCatalog.Changelog.Entry
import ProviderCatalog.Schema.Extraction
import ProviderCatalog.Schema.Service
import ProviderCatalog.Archive.Ingest
import ProviderCatalog.Bytes.Base64
import ProviderCatalog.Remote.Client
import ProviderCatalog.Sync.Locks
import ProviderCatalog.Search.Question
import ProviderCatalog.Repository.Record
import ProviderCatalog.Changelog.Chain
import ProviderCatalog.Store.Basic
import ProviderCatalog.Sync.Run
import ProviderCatalog.Archive.Pack
import ProviderCatalog.Remote.Recorded
import ProviderCatalog.Store.Holdings
import ProviderCatalog.Main
import ProviderCatalog.Records
import ProviderCatalog.Proofs.Computation
import ProviderCatalog.Proofs.Changelog.Blocks
import ProviderCatalog.Proofs.Text.Lines
import ProviderCatalog.Proofs.Calendar.Parts
import ProviderCatalog.Proofs.Calendar.Written
import ProviderCatalog.Proofs.Changelog.Headings
import ProviderCatalog.Proofs.Changelog.Unicode
import ProviderCatalog.Proofs.Changelog.Printing
import ProviderCatalog.Proofs.Store.Rows
import ProviderCatalog.Proofs.Text.Pieces
import ProviderCatalog.Proofs.Archive.Retained
import ProviderCatalog.Proofs.Validation.Names
import ProviderCatalog.Proofs.Store.Validity
import ProviderCatalog.Proofs.Store.Operations
import ProviderCatalog.Proofs.Store.Calls
import ProviderCatalog.Proofs.Store.Storing
import ProviderCatalog.Proofs.Store.Extent
import ProviderCatalog.Proofs.Sync.Actions
import ProviderCatalog.Proofs.Sync.Editing
import ProviderCatalog.Proofs.Sync.Filling
import ProviderCatalog.Proofs.Sync.Effect
import ProviderCatalog.Proofs.Sync.Isolation
import ProviderCatalog.Proofs.Sync.Ledger
import ProviderCatalog.Proofs.Json.Unicode
import ProviderCatalog.Proofs.Remote.Summaries
import ProviderCatalog.Proofs.Sync.History
import ProviderCatalog.Proofs.Store.Hosting
import ProviderCatalog.Proofs.Store.Hosted
import ProviderCatalog.Proofs.Sync.Parallel
import ProviderCatalog.Proofs.Sync.Refilling
import ProviderCatalog.Proofs.Sync.Resync
import ProviderCatalog.Proofs.Sync.Capturing
import ProviderCatalog.Proofs.Sync.Shown
import ProviderCatalog.Proofs.Schema.Extracting
import ProviderCatalog.Proofs.Schema.Failing
import ProviderCatalog.Proofs.Sync.Indexing
import ProviderCatalog.Proofs.Sync.Ingesting
import ProviderCatalog.Proofs.Sync.Definitions
import ProviderCatalog.Proofs.Remote.Requests
import ProviderCatalog.Proofs.Sync.Alike
import ProviderCatalog.Proofs.Remote.Exchanges
import ProviderCatalog.Proofs.Sync.Repeating
import ProviderCatalog.Proofs.Sync.Fetching
import ProviderCatalog.Proofs.Sync.Removal
import ProviderCatalog.Proofs.Sync.Softness
import ProviderCatalog.Proofs.CommandLine.Verdict
import ProviderCatalog.Proofs.Remote.Courses
import ProviderCatalog.Proofs.Sync.Rerunning
import ProviderCatalog.Proofs.Archive.Truncation
import ProviderCatalog.Proofs.Store.Services
import ProviderCatalog.Proofs.Store.Searching
import ProviderCatalog.Proofs.Sync.Reading
import ProviderCatalog.Proofs.Store.Replacing
import ProviderCatalog.Proofs.Go.Returning
import ProviderCatalog.Proofs.Schema.Nesting
import ProviderCatalog.Proofs.Schema.Tracing
import ProviderCatalog.Proofs.Schema.Extending
import ProviderCatalog.Proofs.Schema.Columns
import ProviderCatalog.Proofs.Schema.Naming
import ProviderCatalog.Proofs.Go.Integers
import ProviderCatalog.Proofs.Go.Strings
import ProviderCatalog.Proofs.Schema.Commenting
import ProviderCatalog.Proofs.Remote.Bursts
import ProviderCatalog.Proofs.Remote.Retention
import ProviderCatalog.Proofs.Remote.Paging
import ProviderCatalog.Proofs.Sync.Linking
import ProviderCatalog.Proofs.CommandLine.Fallback
import ProviderCatalog.Proofs.Archive.Ending
import ProviderCatalog.Proofs.Sync.Locking
