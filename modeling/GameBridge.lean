import GameBridge.Capacity
import GameBridge.Config
import GameBridge.Places
import GameBridge.Programs
import GameBridge.Socket
import GameBridge.Wire.Connection
import GameBridge.Proofs.Disk.Folders
import GameBridge.Proofs.Disk.Names
import GameBridge.Proofs.Disk.Containing
import GameBridge.Proofs.Disk.Looking
import GameBridge.Proofs.Number.WholeNumbers
import GameBridge.Proofs.Json.Files
import GameBridge.Proofs.Store.Saving
import GameBridge.Proofs.Store.Replacing
import GameBridge.Proofs.Store.Files
import GameBridge.Proofs.Playtime.Recording
import GameBridge.Proofs.Playtime.Accrual
import GameBridge.Proofs.Playtime.Growth
import GameBridge.Proofs.Playtime.Atomicity
import GameBridge.Proofs.Schedule.Desk
import GameBridge.Proofs.Schedule.Throttle
import GameBridge.Proofs.Schedule.Exclusion
import GameBridge.Proofs.Schedule.Countdown
import GameBridge.Proofs.Schedule.Waiting
import GameBridge.Proofs.Engine.Run
import GameBridge.Proofs.Engine.Separation
import GameBridge.Proofs.Database.Installations
import GameBridge.Proofs.Catalog.Merging
import GameBridge.Proofs.Catalog.LastRows
import GameBridge.Proofs.Engine.Contents
import GameBridge.Proofs.Engine.Launching
import GameBridge.Proofs.Engine.Reading
import GameBridge.Proofs.Engine.Overtaking
import GameBridge.Proofs.Database.Ownership
import GameBridge.Proofs.Json.Values
import GameBridge.Proofs.Json.Lines
import GameBridge.Proofs.Wire.FirstLine
import GameBridge.Proofs.Wire.Serving
import GameBridge.Proofs.Engine.Additions
import GameBridge.Proofs.Wire.Dispatching
import GameBridge.Proofs.Wire.Spelling
import GameBridge.Proofs.Catalog.CanonicalIds
import GameBridge.Proofs.Engine.Opening
import GameBridge.Proofs.Wire.Links
import GameBridge.Proofs.Schedule.Restart
import GameBridge.Proofs.Json.RoundTrip
import GameBridge.Proofs.Wire.RoundTrip
import GameBridge.Proofs.Number.ReadingBack
import GameBridge.Proofs.Engine.Remembering
import GameBridge.Proofs.Json.Grammar
import GameBridge.Proofs.Json.Meaning
import GameBridge.Proofs.Wire.Acceptance
import GameBridge.Proofs.Engine.Playing
import GameBridge.Proofs.Engine.Independence
import GameBridge.Proofs.Store.Interruptions
import GameBridge.Proofs.Text.Integers
import GameBridge.Proofs.Catalog.Identity
import GameBridge.Proofs.Engine.Finding
import GameBridge.Proofs.Database.Lookup
import GameBridge.Proofs.Wire.Validation
import GameBridge.Proofs.Json.Members
import GameBridge.Proofs.Catalog.Verdicts
import GameBridge.Proofs.Store.Integers
import GameBridge.Proofs.Toml.Sheets
import GameBridge.Proofs.Config.Loading
