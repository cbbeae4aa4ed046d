import Mathlib.Data.List.Induction
import VersionChain.Metadata

/-!
# Metadata that is handed on

Metadata is handed on in two ways: it is said to have been read elsewhere, or it is wrapped with the versions it was chosen among.
Whatever is done to the metadata of a component, in any order and any number of times, what it says about the component stays; the
last provenance given is the one it has, and the last wrapping is the one that shows. The wrappings are never lost or put in another
order (`layers`), so handed-on metadata is known from the facts inside and its layers.
-/

namespace VersionChain

/-- What may be done to metadata that is handed on. -/
inductive Handling where
  | readAt (p : Provenance)
  | wrappedWith (versions : List String)
deriving DecidableEq

namespace Handling

/-- The provenance that is given. -/
def provenance? : Handling → Option Provenance
  | readAt p => some p
  | wrappedWith _ => none

/-- The versions that are wrapped around the metadata. -/
def versions? : Handling → Option (List String)
  | readAt _ => none
  | wrappedWith vs => some vs

/-- The metadata as it is handed on. -/
def apply : Handling → Metadata → Metadata
  | readAt p, m => m.withProvenance p
  | wrappedWith vs, m => .chosen vs m

end Handling

namespace Metadata

/-- The lists of versions that the metadata is wrapped with, the outermost first. -/
def layers : Metadata → List (List String)
  | facts _ => []
  | chosen vs m => vs :: m.layers

/-- The metadata after it was handed on several times. -/
def handled (m : Metadata) (hs : List Handling) : Metadata := hs.foldl (fun m h => h.apply m) m

/-- Metadata is its facts with its layers around them. -/
theorem eq_foldr_layers (m : Metadata) : m = m.layers.foldr chosen (facts m.base) := by
  induction m with
  | facts f => rfl
  | chosen vs m ih => exact congrArg (chosen vs) ih

/-- The versions that show are those of the outermost layer. -/
theorem allVersions?_eq_head? (m : Metadata) : m.allVersions? = m.layers.head? := by
  cases m <;> rfl

@[simp] theorem layers_withProvenance (p : Provenance) (m : Metadata) : (m.withProvenance p).layers = m.layers := by
  induction m with
  | facts f => rfl
  | chosen vs m ih => exact congrArg (vs :: ·) ih

/-- An artifact is looked up by all three of its parts. -/
theorem artifact?_eq_find? (m : Metadata) (name extension : String) (classifier : Option String) :
    m.artifact? name extension classifier =
      m.base.artifacts.find? fun a => a.name == name && a.extension == extension && a.classifier == classifier := by
  refine congrArg (m.base.artifacts.find? ·) (funext fun a => ?_)
  rw [Bool.eq_iff_iff]
  cases a
  simp [Artifact.mk.injEq, and_assoc]

end Metadata

namespace Handling

/-- The facts after one handling: only the provenance may be another. -/
theorem base_apply (h : Handling) (m : Metadata) :
    (h.apply m).base = { m.base with provenance := h.provenance?.or m.base.provenance } := by
  cases h with
  | readAt p => simp [apply, provenance?]
  | wrappedWith vs => simp [apply, provenance?, Metadata.base]

/-- The layers after one handling: at most one more, outside the others. -/
theorem layers_apply (h : Handling) (m : Metadata) : (h.apply m).layers = h.versions?.toList ++ m.layers := by
  cases h with
  | readAt p => simp [apply, versions?]
  | wrappedWith vs => simp [apply, versions?, Metadata.layers]

end Handling

namespace Metadata

@[simp] theorem handled_append (m : Metadata) (hs : List Handling) (h : Handling) :
    m.handled (hs ++ [h]) = h.apply (m.handled hs) := by
  simp [handled]

/-- The facts after any handlings: the last provenance given, if any was, and all else as it was. -/
theorem base_handled (m : Metadata) (hs : List Handling) :
    (m.handled hs).base =
      { m.base with provenance := (hs.filterMap Handling.provenance?).getLast?.or m.base.provenance } := by
  induction hs using List.reverseRecOn with
  | nil => simp [handled]
  | append_singleton hs h ih =>
    rw [handled_append, Handling.base_apply, ih]
    cases hp : h.provenance? <;> simp [hp, List.filterMap_append]

/-- The layers after any handlings: those put around it, the last one outermost, around those it had. -/
theorem layers_handled (m : Metadata) (hs : List Handling) :
    (m.handled hs).layers = (hs.filterMap Handling.versions?).reverse ++ m.layers := by
  induction hs using List.reverseRecOn with
  | nil => simp [handled]
  | append_singleton hs h ih =>
    rw [handled_append, Handling.layers_apply, ih]
    cases hv : h.versions? <;> simp [hv, List.filterMap_append]

/-- Handed-on metadata, in one form: all wrappings, in the order in which they were made, around the facts with the last provenance
that was given. -/
theorem handled_facts (f : Facts) (hs : List Handling) :
    (facts f).handled hs = (hs.filterMap Handling.versions?).reverse.foldr chosen
      (facts { f with provenance := (hs.filterMap Handling.provenance?).getLast?.or f.provenance }) := by
  have h := eq_foldr_layers ((facts f).handled hs)
  rwa [layers_handled, base_handled, layers, List.append_nil] at h

/-- Metadata that was handed on, in whatever way, says of the component what the facts say, and finds the artifacts that they find,
by all three parts of an artifact. It has the last provenance it was given, or that of the facts, and shows the versions of its last
wrapping, if there was one. A new provenance takes away no wrapping and moves none, whatever the metadata. -/
theorem handling_transparent (f : Facts) (hs : List Handling) :
    let m := (facts f).handled hs
    (m.id = f.id ∧ m.status = f.status ∧ m.statusScheme = f.statusScheme ∧ m.isChanging = f.changing ∧
      m.dependencies = f.dependencies ∧ m.artifacts = f.artifacts) ∧
    (∀ name extension classifier,
      m.artifact? name extension classifier = (facts f).artifact? name extension classifier ∧
      m.artifact? name extension classifier = f.artifacts.find? fun a =>
        a.name == name && a.extension == extension && a.classifier == classifier) ∧
    m.provenance = (hs.filterMap Handling.provenance?).getLast?.or f.provenance ∧
    m.allVersions? = (hs.filterMap Handling.versions?).getLast? ∧
    m.layers = (hs.filterMap Handling.versions?).reverse ∧
    ∀ (n : Metadata) (p : Provenance), (n.withProvenance p).layers = n.layers ∧
      (n.withProvenance p).allVersions? = n.allVersions? := by
  intro m
  have hbase : m.base = { f with provenance := (hs.filterMap Handling.provenance?).getLast?.or f.provenance } :=
    base_handled (facts f) hs
  have hlayers : m.layers = (hs.filterMap Handling.versions?).reverse := by
    simp [m, layers_handled, layers]
  have hartifacts : m.base.artifacts = f.artifacts := by rw [hbase]
  refine ⟨⟨?_, ?_, ?_, ?_, ?_, hartifacts⟩, ?_, ?_, ?_, hlayers, ?_⟩
  · rw [id, hbase]
  · rw [status, hbase]
  · rw [statusScheme, hbase]
  · rw [isChanging, hbase]
  · rw [dependencies, hbase]
  · intro name extension classifier
    rw [artifact?_eq_find?, artifact?_eq_find?, hartifacts]
    exact ⟨rfl, rfl⟩
  · rw [provenance, hbase]
  · rw [allVersions?_eq_head?, hlayers, List.head?_reverse]
  · intro n p
    rw [allVersions?_eq_head?, allVersions?_eq_head?, layers_withProvenance]
    exact ⟨rfl, rfl⟩

/-- Metadata that is wrapped, said to be read elsewhere and wrapped again. -/
example (f : Facts) (p : Provenance) :
    (facts f).handled [.wrappedWith ["2.0", "1.0"], .readAt p, .wrappedWith ["2.0"]] =
      chosen ["2.0"] (chosen ["2.0", "1.0"] (facts { f with provenance := some p })) := rfl

end Metadata

end VersionChain
