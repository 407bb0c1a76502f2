import Slideo.Lib.Js
import Slideo.Lib.JsonText
import Slideo.Lib.JsonGrammar
import Slideo.Lib.Removal
import Slideo.Lib.Table
import Slideo.Lib.OrderedMap
import Slideo.Lib.WindowCounter
import Slideo.Lib.Prog
import Slideo.Lib.Hoare
import Slideo.Lib.Interleave
import Slideo.Schema
import Slideo.Prisma
import Slideo.Http
import Slideo.Ai
import Slideo.Import
import Slideo.Export
import Slideo.Controllers
import Slideo.Auth
import Slideo.Server
import Slideo.Collab
import Slideo.Schedule
import Slideo.Theorems.Statements
import Slideo.Theorems.Alone
import Slideo.Theorems.Ownership
import Slideo.Theorems.Agreement
import Slideo.Theorems.ReadIsolation
import Slideo.Theorems.WriteIsolation
import Slideo.Theorems.Sharing
import Slideo.Theorems.Creation
import Slideo.Theorems.SlideCap
import Slideo.Theorems.Quota
import Slideo.Theorems.Effects
import Slideo.Theorems.Race
import Slideo.Theorems.Usage
import Slideo.Theorems.Rollover
import Slideo.Theorems.Content
import Slideo.Theorems.Saves
import Slideo.Theorems.Deletion
import Slideo.Theorems.Failures
import Slideo.Theorems.SavedDecks
import Slideo.Theorems.Blocks
import Slideo.Theorems.Generation
import Slideo.Theorems.Fences
import Slideo.Theorems.TextRuns
import Slideo.Theorems.ImportedText
import Slideo.Theorems.Payload
import Slideo.Theorems.GoogleIdentity
import Slideo.Theorems.Rooms
import Slideo.Theorems.Presence
import Slideo.Theorems.LiveEdits
import Slideo.Theorems.Membership
import Slideo.Theorems.Numbering
import Slideo.Theorems.Filled
import Slideo.Theorems.Autosave
import Slideo.Theorems.DeckShape
import Slideo.Theorems.Grid
import Slideo.Theorems.ImportedSlides
import Slideo.Theorems.Passwords
import Slideo.Lib.Atomic
import Slideo.Theorems.DeckChanges
import Slideo.Theorems.Courses
import Slideo.Theorems.AtomicStore
import Slideo.Theorems.Linear
import Slideo.Theorems.Removals
import Slideo.Lib.Progress
import Slideo.Theorems.Budgets
import Slideo.Theorems.Homes
import Slideo.Theorems.Waiting
import Slideo.Theorems.Registry
import Slideo.Theorems.SignIns
import Slideo.Theorems.Links
import Slideo.Theorems.Provenance
import Slideo.Theorems.Relays
import Slideo.Theorems.Paging
import Slideo.Theorems.Records
import Slideo.Theorems.Metering
