import GalaGopher.Data.Runs
import GalaGopher.Data.KeyedList
import GalaGopher.Data.Ledger
import GalaGopher.Data.Blocks
import GalaGopher.Data.Pieces
import GalaGopher.Data.BoundedQueue
import GalaGopher.Data.Window
import GalaGopher.Data.Loan
import GalaGopher.Data.BoundedMap
import GalaGopher.Data.Sweep
import GalaGopher.Data.Tally
import GalaGopher.Text.Bytes
import GalaGopher.Text.Utf8
import GalaGopher.Text.Printed
import GalaGopher.Text.Quoted
import GalaGopher.Text.Json
import GalaGopher.Text.Exposition
import GalaGopher.Imdb.Record
import GalaGopher.Imdb.Table
import GalaGopher.Imdb.Load
import GalaGopher.Imdb.Ingest
import GalaGopher.Imdb.Fill
import GalaGopher.Imdb.Insertion
import GalaGopher.Imdb.Prometheus
import GalaGopher.Imdb.Prometheus.Lines
import GalaGopher.Imdb.Prometheus.Walk
import GalaGopher.Imdb.Prometheus.Page
import GalaGopher.Imdb.Prometheus.Scrape
import GalaGopher.Imdb.Prometheus.Loss
import GalaGopher.Imdb.Json
import GalaGopher.Imdb.Json.Keyless
import GalaGopher.Imdb.Json.Record
import GalaGopher.Imdb.Json.Event
import GalaGopher.Imdb.Prometheus.Samples
import GalaGopher.Imdb.Prometheus.Conformance
import GalaGopher.Imdb.Store
import GalaGopher.Imdb.History
import GalaGopher.Ingress.Line
import GalaGopher.Ingress.Decode
import GalaGopher.Ingress.Agreement
import GalaGopher.Ingress.Entities
import GalaGopher.Ingress.Threads
import GalaGopher.Probe.ExtendProbe
import GalaGopher.Probe.EventLog
import GalaGopher.Ingress.Events
import GalaGopher.Ingress.Columns
import GalaGopher.Channel.Ring
import GalaGopher.Channel.Interleaving
import GalaGopher.Channel.Wakeup
import GalaGopher.Meta.Load
import GalaGopher.Meta.Reach
import GalaGopher.Probe.SystemProcs
import GalaGopher.Probe.SystemProcs.CommandLine
import GalaGopher.Probe.SystemProcs.Columns
import GalaGopher.Ebpf.Block
import GalaGopher.Ebpf.Block.Periods
import GalaGopher.Ebpf.Block.Contributions
import GalaGopher.Ebpf.TcpProbe.Metrics
import GalaGopher.Ebpf.TcpProbe
import GalaGopher.Ebpf.TcpProbe.Conservation
import GalaGopher.Ebpf.TcpProbe.Ends
import GalaGopher.Ebpf.TcpProbe.Lifetime
import GalaGopher.Ebpf.Ksli.Command
import GalaGopher.Ebpf.Ksli
import GalaGopher.Ebpf.Ksli.Reports
import GalaGopher.Ebpf.Ksli.Attribution
import GalaGopher.Ebpf.RedisSli
import GalaGopher.Ebpf.RedisSli.Soundness
import GalaGopher.Ebpf.ThreadIo
import GalaGopher.Ebpf.MatchMap
import GalaGopher.Ebpf.Lvs
import GalaGopher.Ebpf.LoadBalancer
import GalaGopher.Ebpf.LoadBalancer.Exact
import GalaGopher.Web.Server
import GalaGopher.Web.Pages
import GalaGopher.Text.Memory
import GalaGopher.Cmd.Request
import GalaGopher.Data.Lifecycle
import GalaGopher.Cmd.Server
import GalaGopher.Text.Options
import GalaGopher.Probe.Args
import GalaGopher.Data.LastWrite
import GalaGopher.Probe.Args.Settings
import GalaGopher.Probe.Args.Ranges
import GalaGopher.Data.CursorWalk
import GalaGopher.Text.Search
import GalaGopher.Ebpf.Container
import GalaGopher.Ebpf.Container.Own
import GalaGopher.Ebpf.Container.Added
import GalaGopher.Ebpf.Container.Kept
import GalaGopher.Ebpf.Container.Exact
import GalaGopher.Ebpf.TcpRole
import GalaGopher.Ebpf.TcpRole.Reading
import GalaGopher.Ebpf.TcpRole.Exact
import GalaGopher.Ebpf.Endpoint
import GalaGopher.Ebpf.Endpoint.Objects
import GalaGopher.Ebpf.Endpoint.Calls
import GalaGopher.Ebpf.Endpoint.Conservation
import GalaGopher.Ebpf.Endpoint.Room
import GalaGopher.Ebpf.Endpoint.PassiveOpens
import GalaGopher.Ebpf.Alarms
import GalaGopher.Ebpf.Block.Thresholds
import GalaGopher.Data.Lanes
import GalaGopher.Ebpf.Containerd
import GalaGopher.Ebpf.Containerd.Order
import GalaGopher.Ebpf.TaskProbe
import GalaGopher.Ebpf.TaskProbe.Lifetimes
import GalaGopher.Ebpf.TaskProbe.Pass
import GalaGopher.Text.Field
import GalaGopher.Probe.Fprintf
import GalaGopher.Probe.Fprintf.Room
import GalaGopher.Probe.Fprintf.Standard
import GalaGopher.Probe.Fprintf.Reading
import GalaGopher.Probe.Fprintf.Integers
import GalaGopher.Probe.Fprintf.Agreement
import GalaGopher.Data.LeastSample
import GalaGopher.Data.Drain
import GalaGopher.Text.Lines
import GalaGopher.Text.Scan
import GalaGopher.Ebpf.Ksli.Grammar
import GalaGopher.Ebpf.Container.Lookup
import GalaGopher.Ebpf.Containerd.Metrics
import GalaGopher.Ebpf.TcpProbe.Minima
import GalaGopher.Ebpf.TcpRole.Established
import GalaGopher.Ebpf.FileProbe
import GalaGopher.Ebpf.LoadBalancer.Ip6
import GalaGopher.Ebpf.Block.Disks
import GalaGopher.Ebpf.Block.Roots
import GalaGopher.Probe.SystemProcs.Whitelist
import GalaGopher.Probe.SystemInfos
import GalaGopher.Probe.SystemInfos.NetDev
import GalaGopher.Ebpf.Ksli.Netcards
import GalaGopher.Ebpf.LoadBalancer.Addresses
import GalaGopher.Ebpf.Ksli.Accepted
import GalaGopher.Ebpf.LoadBalancer.Streams
import GalaGopher.Ebpf.FileProbe.Operations
import GalaGopher.Ebpf.ElfReader
import GalaGopher.Ebpf.ExecPath
import GalaGopher.Data.Registry
import GalaGopher.Ebpf.TaskProbe.Whitelist
import GalaGopher.Meta.Refusal
import GalaGopher.Text.Tokens
import GalaGopher.Probe.SystemInfos.Tables
import GalaGopher.Daemon.Keeplive
import GalaGopher.Text.Radix
import GalaGopher.Probe.Fprintf.Loops
import GalaGopher.Meta.Slots
import GalaGopher.Data.Handles
import GalaGopher.Ebpf.TaskStat
import GalaGopher.RedisClient.Observed
import GalaGopher.RedisClient.Reports
import GalaGopher.Ingress.Published
import GalaGopher.Probe.LogEvents
import GalaGopher.Ingress.Delivery
import GalaGopher.Ebpf.Ksli.Connections
import GalaGopher.Probe.SystemProcs.Scans
import GalaGopher.Daemon.Start
import GalaGopher.Probe.SystemMeminfo
