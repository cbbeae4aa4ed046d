import VersionChain.CommandLine.Palette
import VersionChain.Probe.Listing
import VersionChain.Resolver.Basic
import VersionChain.Text.Distinct
import VersionChain.Text.Json

/-!
# Reports

What the commands print: how a request was resolved, and which versions a repository lists.
-/

namespace VersionChain

/-- How a request was resolved. -/
structure ResolutionReport where
  request : Request
  resolution : Resolution
deriving DecidableEq

namespace ResolutionReport

/-- The versions that the selector asks for, in the repository that won. -/
def matching (r : ResolutionReport) : List String :=
  r.resolution.metadata.allVersions?.getD [r.resolution.component.version]

/-- The report in JSON. -/
def json (r : ResolutionReport) : Text.Json :=
  let id := r.resolution.component
  .object [("selector", .text r.request.text), ("repository", .text r.resolution.repository), ("group", .text id.group),
    ("name", .text id.name), ("version", .text id.version), ("status", .text r.resolution.metadata.status),
    ("source",
      match r.resolution.metadata.provenance with
      | some p => .object [("repository", .text p.repository), ("tier", .text p.tier.name), ("location", .text p.location)]
      | none => .null),
    ("matching_versions", .list (r.matching.map .text))]

/-- The report in lines of text. -/
def lines (r : ResolutionReport) (p : Palette) : List String :=
  [p.marker "✅" "[OK]" ++ " " ++ r.request.text ++ " -> " ++ p.highlight r.resolution.component.version ++ " from " ++
      p.highlight r.resolution.repository,
    "  status: " ++ r.resolution.metadata.status] ++
  (r.resolution.metadata.provenance.toList.map fun s => "  source: " ++ p.dim s.location) ++
  if 1 < r.matching.length then ["  matching versions: " ++ ", ".intercalate r.matching] else []

end ResolutionReport

/-- What a repository lists for a module. -/
structure ListingReport where
  repository : String
  listing : Option Listing
  attempted : List String
deriving DecidableEq

namespace ListingReport

/-- Asks a repository for all it lists for a module. -/
def ofRepository (module : Module) (repository : Repository) : ListingReport × Log :=
  let request : Request := ⟨module.group, module.name, "latest"⟩
  let (probe, visit) := ({ request } : ListingProbe).exhaust { session := { repository } }
  (⟨repository.name, probe.state, Text.distinct probe.attempted⟩, visit.log)

/-- The report in lines of text. -/
def lines (r : ListingReport) (p : Palette) : List String :=
  (match r.listing with
    | some (.listed (first :: rest)) =>
      p.marker "📦" "[LISTED]" ++ " " ++ p.highlight r.repository ++ ": " ++ ", ".intercalate (first :: rest)
    | some (.failed f) => p.marker "❌" "[FAILED]" ++ " " ++ r.repository ++ ": " ++ f.text
    | some (.listed []) | none => p.marker "∅" "[EMPTY]" ++ " " ++ r.repository ++ ": no versions") ::
  r.attempted.map fun location => "    " ++ p.dim location

end ListingReport

end VersionChain
