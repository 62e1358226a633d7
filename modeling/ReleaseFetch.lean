import ReleaseFetch.Command.Arguments
import ReleaseFetch.Command.Grammar
import ReleaseFetch.Command.Run
import ReleaseFetch.Disk.Access
import ReleaseFetch.Disk.Basic
import ReleaseFetch.Disk.Walk
import ReleaseFetch.Failure
import ReleaseFetch.Fields
import ReleaseFetch.Files
import ReleaseFetch.Host
import ReleaseFetch.Http.Client
import ReleaseFetch.Http.Headers
import ReleaseFetch.Http.Proxy
import ReleaseFetch.Install.Cache
import ReleaseFetch.Install.Order
import ReleaseFetch.Install.Placement
import ReleaseFetch.Journal
import ReleaseFetch.Json.Reader
import ReleaseFetch.Json.Value
import ReleaseFetch.Main
import ReleaseFetch.Number.Binary64
import ReleaseFetch.Number.Numeral
import ReleaseFetch.Number.Residue
import ReleaseFetch.Number.Seconds
import ReleaseFetch.Number.Shortest
import ReleaseFetch.Path
import ReleaseFetch.Release.Asset
import ReleaseFetch.Release.Lookup
import ReleaseFetch.Settings.Config
import ReleaseFetch.Settings.File
import ReleaseFetch.Settings.Load
import ReleaseFetch.Settings.Rule
import ReleaseFetch.Target
import ReleaseFetch.Text.Blank
import ReleaseFetch.Text.Cased
import ReleaseFetch.Text.Digit
import ReleaseFetch.Text.Glyph
import ReleaseFetch.Text.Lowercase
import ReleaseFetch.Text.Paged
import ReleaseFetch.Text.Printable
import ReleaseFetch.Text.Quoted
import ReleaseFetch.Text.Ranges
import ReleaseFetch.Text.Split
import ReleaseFetch.Text.Utf8
import ReleaseFetch.Transfer.Script
import ReleaseFetch.Transfer.Shell
import ReleaseFetch.Transfer.Stream
import ReleaseFetch.Transfer.Transport
import ReleaseFetch.Url.Address
import ReleaseFetch.Url.Authority
import ReleaseFetch.Url.Basic
import ReleaseFetch.Url.Join
import ReleaseFetch.Url.Percent
import ReleaseFetch.World
import ReleaseFetch.Yaml.Calendar
import ReleaseFetch.Yaml.Cursor
import ReleaseFetch.Yaml.Document
import ReleaseFetch.Yaml.Leaf
import ReleaseFetch.Yaml.Merge
import ReleaseFetch.Yaml.Node
import ReleaseFetch.Yaml.Scalar
import ReleaseFetch.Yaml.Tag
import ReleaseFetch.Yaml.Token
import ReleaseFetch.Yaml.Value
import ReleaseFetch.Proofs.Disk.Edits
import ReleaseFetch.Proofs.Disk.Placing
import ReleaseFetch.Proofs.Session.Local
import ReleaseFetch.Proofs.Disk.Naming
import ReleaseFetch.Proofs.Transfer.Keeping
import ReleaseFetch.Proofs.Install.Integrity
import ReleaseFetch.Proofs.Install.Outcome
import ReleaseFetch.Proofs.Credential.Interference
import ReleaseFetch.Proofs.Credential.Address
import ReleaseFetch.Proofs.Disk.Apart
import ReleaseFetch.Proofs.Disk.Building
import ReleaseFetch.Proofs.Disk.Turning
import ReleaseFetch.Proofs.Disk.Standing
import ReleaseFetch.Proofs.Session.Parallel
import ReleaseFetch.Proofs.Session.Steady
import ReleaseFetch.Proofs.Transfer.Landing
import ReleaseFetch.Proofs.Transfer.Meeting
import ReleaseFetch.Proofs.Install.Frame
import ReleaseFetch.Proofs.Install.Repeat
import ReleaseFetch.Proofs.Install.Clearing
import ReleaseFetch.Proofs.Install.Forced
import ReleaseFetch.Proofs.Command.Offline
import ReleaseFetch.Proofs.Install.Whereabouts
import ReleaseFetch.Proofs.Transfer.Deciding
import ReleaseFetch.Proofs.Script.Reading
import ReleaseFetch.Proofs.Script.Decoding
import ReleaseFetch.Proofs.Script.Quotation
import ReleaseFetch.Proofs.Transfer.Writing
import ReleaseFetch.Proofs.Transfer.Chains
import ReleaseFetch.Proofs.Command.Finding
import ReleaseFetch.Proofs.Install.Separate
import ReleaseFetch.Proofs.Session.Coupled
import ReleaseFetch.Proofs.Install.Coupled
import ReleaseFetch.Proofs.Url.Reading
import ReleaseFetch.Proofs.Url.Login
import ReleaseFetch.Proofs.Credential.Masking
import ReleaseFetch.Proofs.Credential.Passwords
import ReleaseFetch.Proofs.Session.Unbroken
import ReleaseFetch.Proofs.Session.Accounting
import ReleaseFetch.Proofs.Install.Accounting
import ReleaseFetch.Proofs.Command.Accounting
import ReleaseFetch.Proofs.Command.Status
import ReleaseFetch.Proofs.Transfer.Atomic
import ReleaseFetch.Proofs.Transfer.Leftover
import ReleaseFetch.Proofs.Release.Authentication
import ReleaseFetch.Proofs.Number.Overflow
import ReleaseFetch.Proofs.Settings.Trouble
import ReleaseFetch.Proofs.Settings.Loading
import ReleaseFetch.Proofs.Settings.Undecodable
import ReleaseFetch.Proofs.Transfer.Closing
import ReleaseFetch.Proofs.Transfer.Breaking
import ReleaseFetch.Proofs.Proxy.Exceptions
import ReleaseFetch.Proofs.Proxy.Precedence
import ReleaseFetch.Proofs.Proxy.Exact
import ReleaseFetch.Proofs.Settings.Accepting
import ReleaseFetch.Proofs.Host.Platform
import ReleaseFetch.Proofs.Yaml.Keys
import ReleaseFetch.Proofs.Settings.Layers
import ReleaseFetch.Proofs.Settings.Usable
import ReleaseFetch.Proofs.Disk.Settling
import ReleaseFetch.Proofs.Disk.Resolving
import ReleaseFetch.Proofs.Install.Cleaning
import ReleaseFetch.Proofs.Json.Dumping
import ReleaseFetch.Proofs.Release.Listing
