import FieldDiscovery.Lib.Str
import FieldDiscovery.Lib.Sorted
import FieldDiscovery.Lib.UnionFind
import FieldDiscovery.Lib.Runtime
import FieldDiscovery.Lib.Datetime
import FieldDiscovery.Errors
import FieldDiscovery.Correlation.Evidence
import FieldDiscovery.Correlation.Correlate
import FieldDiscovery.Lib.Except
import FieldDiscovery.Correlation.Merge
import FieldDiscovery.Correlation.Partition
import FieldDiscovery.Correlation.Forest
import FieldDiscovery.Correlation.Order
import FieldDiscovery.Lib.Regex
import FieldDiscovery.Lib.Masking
import FieldDiscovery.Lib.Codec
import FieldDiscovery.Lib.Literal
import FieldDiscovery.Redaction.Patterns
import FieldDiscovery.Redaction.Redactor
import FieldDiscovery.Redaction.Masked
import FieldDiscovery.Redaction.Value
import FieldDiscovery.Lib.Runs
import FieldDiscovery.Artifacts.SafeFilename
import FieldDiscovery.Reporting.Filename
import FieldDiscovery.Lib.Call
import FieldDiscovery.Reporting.Publish
import FieldDiscovery.Lib.Number
import FieldDiscovery.Nmap.Xml
import FieldDiscovery.Nmap.Admitted
import FieldDiscovery.Nmap.Observation
import FieldDiscovery.Lib.Dict
import FieldDiscovery.Lib.Leaders
import FieldDiscovery.Lib.Json
import FieldDiscovery.Lib.Clock
import FieldDiscovery.Passive.Observation
import FieldDiscovery.Topology.Graph
import FieldDiscovery.Topology.Build
import FieldDiscovery.Topology.Claims
import FieldDiscovery.Topology.Refine
import FieldDiscovery.Topology.Merge
import FieldDiscovery.Topology.Items
import FieldDiscovery.Topology.Shape
import FieldDiscovery.Topology.Support
import FieldDiscovery.Topology.Order
import FieldDiscovery.Topology.Ties
import FieldDiscovery.Topology.Repeat
import FieldDiscovery.Topology.Sound
import FieldDiscovery.Topology.Retract
import FieldDiscovery.Passive.Dhcp
import FieldDiscovery.Topology.Total
import FieldDiscovery.Lib.Machine
import FieldDiscovery.Passive.Dedupe
import FieldDiscovery.Passive.Pipeline
import FieldDiscovery.Passive.Moves
import FieldDiscovery.Passive.Conservation
import FieldDiscovery.Passive.Suppression
import FieldDiscovery.Lib.JsonText
import FieldDiscovery.Passive.Mdns
import FieldDiscovery.Passive.Lifecycle
import FieldDiscovery.Lib.Table
import FieldDiscovery.Lib.Iso
import FieldDiscovery.Repository.Sqlite
import FieldDiscovery.Repository.Runs
import FieldDiscovery.Repository.Recovery
import FieldDiscovery.Repository.Schema
import FieldDiscovery.Repository.Prune
import FieldDiscovery.Database.Statements
import FieldDiscovery.Database.Migrate
import FieldDiscovery.Database.Advance
import FieldDiscovery.Database.Compose
import FieldDiscovery.Database.Interleave
import FieldDiscovery.Database.Concurrent
import FieldDiscovery.Lib.IsoRead
import FieldDiscovery.Lib.JsonLoads
import FieldDiscovery.Lib.Directory
import FieldDiscovery.Artifacts.Store
import FieldDiscovery.Artifacts.Entries
import FieldDiscovery.Artifacts.Retention
import FieldDiscovery.Artifacts.Writes
import FieldDiscovery.Artifacts.Agree
import FieldDiscovery.Artifacts.Interrupted
import FieldDiscovery.Lib.JsonValue
import FieldDiscovery.Unifi.Records
import FieldDiscovery.Unifi.Normalize
import FieldDiscovery.Unifi.Readings
import FieldDiscovery.Unifi.Stale
import FieldDiscovery.Repository.Facts
import FieldDiscovery.Unifi.Persist
import FieldDiscovery.Unifi.Stored
import FieldDiscovery.Unifi.Uplinks
import FieldDiscovery.Lib.IpAddress
import FieldDiscovery.Lib.Potential
import FieldDiscovery.ActiveDirectory.Entries
import FieldDiscovery.ActiveDirectory.Query
import FieldDiscovery.ActiveDirectory.Ranges
import FieldDiscovery.ActiveDirectory.Bounded
import FieldDiscovery.Collectors.Approve
import FieldDiscovery.ActiveDirectory.Domains
import FieldDiscovery.ActiveDirectory.Detection
import FieldDiscovery.ActiveDirectory.Scope
import FieldDiscovery.Lib.Components
import FieldDiscovery.ActiveDirectory.Orders
import FieldDiscovery.ActiveDirectory.Collect
import FieldDiscovery.ActiveDirectory.Persist
import FieldDiscovery.ActiveDirectory.Kept
import FieldDiscovery.ActiveDirectory.Members
import FieldDiscovery.Passive.Window
import FieldDiscovery.Passive.Shutdown
import FieldDiscovery.Passive.Expiry
import FieldDiscovery.Lib.Slots
import FieldDiscovery.Scheduler.Invocations
import FieldDiscovery.Scheduler.Serve
import FieldDiscovery.Nmap.Scan
import FieldDiscovery.Nmap.ScanAudit
import FieldDiscovery.Lib.Separated
import FieldDiscovery.Unifi.ScopedIds
import FieldDiscovery.Lib.Replay
import FieldDiscovery.Unifi.Repeat
import FieldDiscovery.Unifi.Linked
import FieldDiscovery.Repository.Inventory
import FieldDiscovery.Nmap.Persist
import FieldDiscovery.Nmap.Reimport
import FieldDiscovery.Nmap.Copied
import FieldDiscovery.Lib.Framing
import FieldDiscovery.Passive.DhcpOptions
import FieldDiscovery.Passive.LinkFraming
import FieldDiscovery.Passive.Ethernet
import FieldDiscovery.Lib.Utf8
import FieldDiscovery.Passive.DnsName
import FieldDiscovery.Lib.Recent
import FieldDiscovery.Passive.Leases
import FieldDiscovery.Lib.Since
import FieldDiscovery.Passive.Arp
import FieldDiscovery.Passive.Neighbor
import FieldDiscovery.Passive.NeighborTimes
import FieldDiscovery.Passive.LinkLayer
import FieldDiscovery.Lib.Raises
import FieldDiscovery.Redaction.Raises
import FieldDiscovery.Passive.LinkRejects
import FieldDiscovery.Passive.DhcpRejects
import FieldDiscovery.Passive.MdnsMessage
import FieldDiscovery.Passive.MdnsRejects
import FieldDiscovery.Passive.Padding
import FieldDiscovery.Lib.Openings
import FieldDiscovery.Nmap.Guard
import FieldDiscovery.Unifi.Pages
import FieldDiscovery.Snmp.Walks
import FieldDiscovery.Snmp.Varbinds
import FieldDiscovery.Snmp.Disclosure
import FieldDiscovery.Correlation.Conflicts
import FieldDiscovery.Lib.Ties
import FieldDiscovery.Correlation.Canonical
import FieldDiscovery.Lib.Woven
import FieldDiscovery.Passive.MdnsRecords
import FieldDiscovery.Passive.MdnsTxt
import FieldDiscovery.Lib.UnionFindRuns
import FieldDiscovery.Correlation.Operations
import FieldDiscovery.Passive.NeighborMac
import FieldDiscovery.Storage.DiskGuard
import FieldDiscovery.Lib.Brackets
import FieldDiscovery.Redaction.Sequences
import FieldDiscovery.Repository.Observations
import FieldDiscovery.Lib.JsonPaired
import FieldDiscovery.Infrastructure.Records
import FieldDiscovery.Infrastructure.Model
import FieldDiscovery.Infrastructure.Cells
import FieldDiscovery.Infrastructure.Conserved
import FieldDiscovery.Infrastructure.Interleaved
import FieldDiscovery.Infrastructure.Bridge
import FieldDiscovery.Topology.Kinds
import FieldDiscovery.Topology.Mermaid
import FieldDiscovery.Lib.PosixPath
import FieldDiscovery.Lib.Settles
import FieldDiscovery.Lib.Effort
import FieldDiscovery.Repository.RunCalls
import FieldDiscovery.Collectors.Orchestrator
import FieldDiscovery.Collectors.Moves
import FieldDiscovery.Collectors.Lifecycle
import FieldDiscovery.Collectors.Outcome
import FieldDiscovery.Collectors.Progress
import FieldDiscovery.Lib.UrlSplit
import FieldDiscovery.Lib.IpClasses
import FieldDiscovery.Lib.Merge
import FieldDiscovery.Lib.Rounding
import FieldDiscovery.Config.Yaml
import FieldDiscovery.Config.Schema
import FieldDiscovery.Config.Validate
import FieldDiscovery.Config.Merged
import FieldDiscovery.Config.Sound
import FieldDiscovery.Nmap.Pass
import FieldDiscovery.Nmap.Passes
import FieldDiscovery.Repository.Artifacts
import FieldDiscovery.Ssh.Evidence
import FieldDiscovery.Storage.Backups
