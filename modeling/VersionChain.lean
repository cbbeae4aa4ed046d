import VersionChain.CommandLine.Advice
import VersionChain.CommandLine.Arguments
import VersionChain.CommandLine.LogLine
import VersionChain.CommandLine.Palette
import VersionChain.CommandLine.Places
import VersionChain.CommandLine.Report
import VersionChain.CommandLine.Run
import VersionChain.CommandLine.Surroundings
import VersionChain.Configuration
import VersionChain.Coordinate
import VersionChain.Descriptor
import VersionChain.Error
import VersionChain.Failure
import VersionChain.Files.Fault
import VersionChain.Files.Path
import VersionChain.Files.Snapshot
import VersionChain.Files.System
import VersionChain.Files.Tree
import VersionChain.Glob
import VersionChain.Log
import VersionChain.Main
import VersionChain.Matcher
import VersionChain.Metadata
import VersionChain.Outcome
import VersionChain.Policy.Basic
import VersionChain.Policy.Scripted
import VersionChain.Policy.Standard
import VersionChain.Probe.Candidate
import VersionChain.Probe.Listing
import VersionChain.Proofs.Account
import VersionChain.Proofs.Advance
import VersionChain.Proofs.Budget
import VersionChain.Proofs.Caches
import VersionChain.Proofs.Confinement
import VersionChain.Proofs.Constancy
import VersionChain.Proofs.Consulted
import VersionChain.Proofs.Coordinates
import VersionChain.Proofs.Course
import VersionChain.Proofs.Dealing
import VersionChain.Proofs.Decision
import VersionChain.Proofs.Diagnostics
import VersionChain.Proofs.Digest
import VersionChain.Proofs.Directories
import VersionChain.Proofs.Economy
import VersionChain.Proofs.Exclusion
import VersionChain.Proofs.Exhaustion
import VersionChain.Proofs.Failures
import VersionChain.Proofs.Interleaving
import VersionChain.Proofs.Intervals
import VersionChain.Proofs.Isolation
import VersionChain.Proofs.Judgement
import VersionChain.Proofs.Latest
import VersionChain.Proofs.Locations
import VersionChain.Proofs.Matching
import VersionChain.Proofs.Maturity
import VersionChain.Proofs.Numerals
import VersionChain.Proofs.Passes
import VersionChain.Proofs.Paths
import VersionChain.Proofs.Plain
import VersionChain.Proofs.Precedence
import VersionChain.Proofs.Probing
import VersionChain.Proofs.Progression
import VersionChain.Proofs.Recall
import VersionChain.Proofs.Relisting
import VersionChain.Proofs.Remote
import VersionChain.Proofs.Reordering
import VersionChain.Proofs.Runs
import VersionChain.Proofs.Selectors
import VersionChain.Proofs.Shown
import VersionChain.Proofs.Silence
import VersionChain.Proofs.Soundness
import VersionChain.Proofs.Spelling
import VersionChain.Proofs.Standing
import VersionChain.Proofs.Steps
import VersionChain.Proofs.Trace
import VersionChain.Proofs.Unreadable
import VersionChain.Proofs.Verdicts
import VersionChain.Proofs.Walk
import VersionChain.Proofs.Widening
import VersionChain.Proofs.Wrapping
import VersionChain.Refusal
import VersionChain.Repository.Basic
import VersionChain.Repository.Catalogue
import VersionChain.Repository.Directory
import VersionChain.Repository.Scripted
import VersionChain.Resolver.Basic
import VersionChain.Resolver.State
import VersionChain.Script
import VersionChain.Text.Controls
import VersionChain.Text.Distinct
import VersionChain.Text.Json
import VersionChain.Text.Quoted
import VersionChain.Text.Unprintable
import VersionChain.Text.Whitespace
import VersionChain.Version.Basic
import VersionChain.Version.Identifier
import VersionChain.Version.Semantic
import VersionChain.Yaml.Cursor
import VersionChain.Yaml.Decoder
import VersionChain.Yaml.Document
import VersionChain.Yaml.Error
import VersionChain.Yaml.Event
import VersionChain.Yaml.Scalar
import VersionChain.Yaml.Scanner
import VersionChain.Yaml.Token
