import BareAnalysis.Api.Listing
import BareAnalysis.Api.Plaintexts
import BareAnalysis.Api.Record
import BareAnalysis.Api.Tree
import BareAnalysis.Api.Views
import BareAnalysis.Api.WhatIsNew
import BareAnalysis.Cli.EveryLine
import BareAnalysis.Cli.GateOutput
import BareAnalysis.Cli.LogFollow
import BareAnalysis.Composition.Detect
import BareAnalysis.Composition.Honest
import BareAnalysis.Composition.Model
import BareAnalysis.Correlation.Answers
import BareAnalysis.Correlation.Correlate
import BareAnalysis.Correlation.Identity
import BareAnalysis.Correlation.LosesNothing
import BareAnalysis.Correlation.Newness
import BareAnalysis.Correlation.OrderFree
import BareAnalysis.Correlation.Places
import BareAnalysis.Correlation.ReadOff
import BareAnalysis.Correlation.Report
import BareAnalysis.Correlation.Rescan
import BareAnalysis.Correlation.Silence
import BareAnalysis.Correlation.SuppressOnce
import BareAnalysis.Enrichment.Analyzer
import BareAnalysis.Enrichment.Deliveries
import BareAnalysis.Enrichment.Exchange
import BareAnalysis.Enrichment.Ghidra
import BareAnalysis.Enrichment.Isolation
import BareAnalysis.Enrichment.Result
import BareAnalysis.Enrichment.RoundTrip
import BareAnalysis.Foundations.Session
import BareAnalysis.Foundations.Tables
import BareAnalysis.Foundations.Vocab
import BareAnalysis.Llm.AirGap
import BareAnalysis.Llm.Discovery
import BareAnalysis.Llm.Guard
import BareAnalysis.Llm.Investigate
import BareAnalysis.Llm.LoadTime
import BareAnalysis.Llm.Pasted
import BareAnalysis.Llm.Response
import BareAnalysis.Llm.Router
import BareAnalysis.Llm.ToolSecrets
import BareAnalysis.Llm.Tools
import BareAnalysis.Logs.Live
import BareAnalysis.Logs.Redact
import BareAnalysis.Machinery.Calendar
import BareAnalysis.Machinery.Cells
import BareAnalysis.Machinery.Checks
import BareAnalysis.Machinery.CodePoints
import BareAnalysis.Machinery.Counterpart
import BareAnalysis.Machinery.Dict
import BareAnalysis.Machinery.Effects
import BareAnalysis.Machinery.Fallible
import BareAnalysis.Machinery.Fnmatch
import BareAnalysis.Machinery.Handle
import BareAnalysis.Machinery.History
import BareAnalysis.Machinery.Joined
import BareAnalysis.Machinery.Json
import BareAnalysis.Machinery.JsonPrint
import BareAnalysis.Machinery.JsonText
import BareAnalysis.Machinery.PdfSyntax
import BareAnalysis.Machinery.Pieces
import BareAnalysis.Machinery.PurePath
import BareAnalysis.Machinery.Quote
import BareAnalysis.Machinery.Regex
import BareAnalysis.Machinery.Replace
import BareAnalysis.Machinery.Rose
import BareAnalysis.Machinery.Scalars
import BareAnalysis.Machinery.Sha256
import BareAnalysis.Machinery.Sorting
import BareAnalysis.Machinery.Table
import BareAnalysis.Machinery.Text
import BareAnalysis.Machinery.Url
import BareAnalysis.Machinery.Utf8
import BareAnalysis.Machinery.Yaml
import BareAnalysis.Pipeline.Answered
import BareAnalysis.Pipeline.Baseline
import BareAnalysis.Pipeline.Faults
import BareAnalysis.Pipeline.Fingerprint
import BareAnalysis.Pipeline.FreshIds
import BareAnalysis.Pipeline.Gate
import BareAnalysis.Pipeline.Incomplete
import BareAnalysis.Pipeline.Manifest
import BareAnalysis.Pipeline.NoResults
import BareAnalysis.Pipeline.Parents
import BareAnalysis.Pipeline.Patience
import BareAnalysis.Pipeline.Recovery
import BareAnalysis.Pipeline.Runs
import BareAnalysis.Pipeline.SameManifest
import BareAnalysis.Pipeline.Scan
import BareAnalysis.Pipeline.Stages
import BareAnalysis.Pipeline.Staging
import BareAnalysis.Pipeline.Tokens
import BareAnalysis.Pipeline.Trace
import BareAnalysis.Pipeline.Workers
import BareAnalysis.Policy.Decision
import BareAnalysis.Policy.Engine
import BareAnalysis.Policy.FailsClosed
import BareAnalysis.Policy.Loader
import BareAnalysis.Policy.Model
import BareAnalysis.Policy.Monotone
import BareAnalysis.Policy.Waive
import BareAnalysis.Policy.WaiverChecks
import BareAnalysis.Policy.Wire
import BareAnalysis.Recon.Collect
import BareAnalysis.Recon.Inventory
import BareAnalysis.Recon.Sweep
import BareAnalysis.Reporting.Cyclonedx
import BareAnalysis.Reporting.DiffLaws
import BareAnalysis.Reporting.PdfBodies
import BareAnalysis.Reporting.PdfWellFormed
import BareAnalysis.Reporting.PdfWriter
import BareAnalysis.Reporting.Sarif
import BareAnalysis.Reporting.SbomDiff
import BareAnalysis.Reporting.Upgrades
import BareAnalysis.Rules.Loader
import BareAnalysis.Rules.Model
import BareAnalysis.Sandbox.Driver
import BareAnalysis.Sandbox.Lockdown
import BareAnalysis.Sandbox.Mounts
import BareAnalysis.Sandbox.Run
import BareAnalysis.Sandbox.Spec
import BareAnalysis.Sandbox.Watchdog
import BareAnalysis.Sandbox.Watching
import BareAnalysis.Scanner.AsWritten
import BareAnalysis.Scanner.Blobs
import BareAnalysis.Scanner.Context
import BareAnalysis.Scanner.Documents
import BareAnalysis.Scanner.Exact
import BareAnalysis.Scanner.Extract
import BareAnalysis.Scanner.Lines
import BareAnalysis.Scanner.Loader
import BareAnalysis.Scanner.Model
import BareAnalysis.Scanner.Offsets
import BareAnalysis.Scanner.PackHash
import BareAnalysis.Scanner.Scan
import BareAnalysis.Scanner.Shape
import BareAnalysis.Triage.Accounts
import BareAnalysis.Triage.ModelAlone
import BareAnalysis.Triage.Pass
import BareAnalysis.Triage.PersonalClosure
import BareAnalysis.Triage.Review
import BareAnalysis.Unpack.Budget
import BareAnalysis.Unpack.Correspondence
import BareAnalysis.Unpack.Detect
import BareAnalysis.Unpack.Disk
import BareAnalysis.Unpack.Extractor
import BareAnalysis.Unpack.MemberNames
import BareAnalysis.Unpack.Sniff
import BareAnalysis.Unpack.Spending
import BareAnalysis.Unpack.Steps
import BareAnalysis.Unpack.Truncation
import BareAnalysis.Unpack.WellFormed
