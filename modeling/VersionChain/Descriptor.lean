import VersionChain.Metadata
import VersionChain.Text.Whitespace
import VersionChain.Yaml.Decoder

/-!
# Descriptor files

A descriptor file says in YAML what there is to say about one component. Every field may be left out, and so may the whole content
of the file.
-/

namespace VersionChain

namespace Descriptor

open Yaml (Place Decoder)

/-- Reads a component that another one depends on. -/
def dependency (p : Place) : Decoder Dependency :=
  p.record "struct DependencySpec"
    [Place.field "group" (·.text) fun group d => { d with group },
      Place.field "name" (·.text) fun name d => { d with name },
      Place.field "version" (·.text) fun version d => { d with version }]
    ["group", "name", "version"] ⟨"", "", ""⟩

/-- Reads a published file. -/
def artifact (p : Place) : Decoder Artifact :=
  p.record "struct ArtifactSpec"
    [Place.field "name" (·.text) fun name a => { a with name },
      Place.field "extension" (·.text) fun extension a => { a with extension },
      Place.field "classifier" (·.optional (·.text)) fun classifier a => { a with classifier }]
    ["name"] ⟨"", Facts.defaultExtension, none⟩

/-- Reads a descriptor. -/
def descriptor (p : Place) : Decoder Descriptor :=
  p.record "struct ModuleDescriptor"
    [Place.field "status" (·.optional (·.text)) fun status d => { d with status },
      Place.field "status_scheme" (·.optional (·.list (·.text))) fun statusScheme d => { d with statusScheme },
      Place.field "changing" (·.truth) fun changing d => { d with changing },
      Place.field "dependencies" (·.list dependency) fun dependencies d => { d with dependencies },
      Place.field "artifacts" (·.list artifact) fun artifacts d => { d with artifacts }]
    [] {}

/-- The descriptor that a text holds. -/
def ofText (cs : List Char) : Except Yaml.Error Descriptor := Yaml.decode descriptor cs

/-- The descriptor that the content of a file holds. A blank file says nothing. -/
def ofContent (cs : List Char) : Except Yaml.Error Descriptor := if Text.isBlank cs then .ok {} else ofText cs

end Descriptor

end VersionChain
