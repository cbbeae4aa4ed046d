import VersionChain.Repository.Catalogue
import VersionChain.Repository.Directory

/-!
# Repositories of plain metadata

Catalogues and directories hand out plain metadata, each under the component it was asked for: a directory because it makes the
metadata up from the component, a catalogue as long as its entries are filed under the components that they describe.
-/

namespace VersionChain

/-- A repository that hands out plain metadata, each under the component it was asked for. -/
def Repository.IsPlain (r : Repository) : Prop :=
  ∀ tier history component requested m, ((r.source tier).lookup history component requested).result = some (.resolved m) →
    ∃ f, m = .facts f ∧ f.id = component

/-- A repository whose metadata is, each, that of the component it was asked for. -/
def Repository.AnswersAsAsked (r : Repository) : Prop :=
  ∀ tier history component requested m, ((r.source tier).lookup history component requested).result = some (.resolved m) →
    m.id = component

theorem Repository.IsPlain.answersAsAsked {r : Repository} (h : r.IsPlain) : r.AnswersAsAsked := by
  intro tier history component requested m hm
  obtain ⟨f, rfl, hf⟩ := h tier history component requested m hm
  exact hf

/-- The metadata is what the repository hands out for a version of the requested module, wrapped or not. -/
def Repository.HandsOut (r : Repository) (request : Request) (version : String) (metadata : Metadata) : Prop :=
  ∃ tier history m,
    ((r.source tier).lookup history (request.component version) (request.pinned version)).result = some (.resolved m) ∧
      (metadata = m ∨ ∃ all, metadata = .chosen all m)

theorem Repository.HandsOut.id_eq {r : Repository} {request : Request} {version : String} {metadata : Metadata}
    (h : r.HandsOut request version metadata) (hanswers : r.AnswersAsAsked) : metadata.id = request.component version := by
  obtain ⟨tier, history, m, hm, rfl | ⟨all, rfl⟩⟩ := h
  · exact hanswers _ _ _ _ _ hm
  · have hid : m.id = request.component version := hanswers _ _ _ _ _ hm
    exact hid

namespace Catalogue

/-- Every entry is filed under the component that it describes. -/
def Filed (c : Catalogue) : Prop := ∀ id facts, c.entries.lookup id = some (.present facts) → facts.id = id

theorem filed_empty (authoritative : Bool) : ({ authoritative } : Catalogue).Filed := by
  intro id facts h
  nomatch h

theorem Filed.putListing {c : Catalogue} (h : c.Filed) (module : Module) (listing : CatalogueListing) :
    (c.putListing module listing).Filed := h

theorem Filed.putEntry {c : Catalogue} (h : c.Filed) {id : Component} {entry : CatalogueEntry}
    (he : ∀ facts, entry = .present facts → facts.id = id) : (c.putEntry id entry).Filed := by
  intro id' facts hl
  have hl' : (((id, entry) :: c.entries).lookup id') = some (.present facts) := hl
  rw [List.lookup_cons] at hl'
  cases hid : id' == id with
  | true =>
    rw [hid] at hl'
    rw [beq_iff_eq] at hid
    rw [hid]
    exact he facts (Option.some.inj hl')
  | false =>
    rw [hid] at hl'
    exact h id' facts hl'

theorem Filed.putFacts {c : Catalogue} (h : c.Filed) (facts : Facts) : (c.putFacts facts).Filed := by
  refine h.putEntry fun facts' he => ?_
  cases he
  rfl

theorem Filed.putModules {c : Catalogue} (h : c.Filed) (module : Module) (versions : List String) :
    (c.putModules module versions).Filed := by
  have hfold : ∀ (vs : List String) (c : Catalogue), c.Filed →
      (vs.foldl (fun c v => c.putFacts (.plain ⟨module.group, module.name, v⟩)) c).Filed := by
    intro vs
    induction vs with
    | nil => exact fun c h => h
    | cons v vs ih => exact fun c h => ih _ (h.putFacts _)
  exact hfold versions _ (h.putListing module _)

/-- What a catalogue resolves is plain, and filed rightly it is the component asked for. -/
theorem plain_of_lookup {c : Catalogue} (h : c.Filed) {repository : String} {tier : Tier} {id : Component} {m : Metadata}
    (hm : (c.lookup repository tier id).result = some (.resolved m)) : ∃ f, m = .facts f ∧ f.id = id := by
  unfold lookup at hm
  cases he : c.entries.lookup id with
  | none =>
    rw [he] at hm
    nomatch hm
  | some entry =>
    rw [he] at hm
    cases entry with
    | present facts =>
      obtain rfl := Lookup.resolved.inj (Option.some.inj hm)
      exact ⟨_, rfl, h id facts he⟩
    | missing => nomatch hm
    | failure message => nomatch hm

end Catalogue

/-- Catalogues whose entries are filed rightly make a plain repository. -/
theorem Repository.isPlain_ofCatalogues {nearby remote : Catalogue} (hn : nearby.Filed) (hr : remote.Filed) (name : String) :
    (Repository.ofCatalogues name nearby remote).IsPlain := by
  intro tier history component requested m hm
  cases tier with
  | nearby => exact Catalogue.plain_of_lookup hn hm
  | remote => exact Catalogue.plain_of_lookup hr hm

/-- What a directory resolves is plain, and it is the component asked for. -/
theorem DirectoryTier.plain_of_lookup {t : DirectoryTier} {fs : Files.System} {id : Component} {m : Metadata}
    (hm : (t.lookup fs id).result = some (.resolved m)) : ∃ f, m = .facts f ∧ f.id = id := by
  unfold lookup at hm
  cases hroot : t.root with
  | none =>
    rw [hroot] at hm
    nomatch hm
  | some root =>
    rw [hroot] at hm
    dsimp only at hm
    split at hm
    · split at hm <;> nomatch hm
    · cases hd : readDescriptor fs (descriptorPath root id) with
      | error message =>
        rw [hd] at hm
        nomatch hm
      | ok d =>
        rw [hd] at hm
        obtain rfl := Lookup.resolved.inj (Option.some.inj hm)
        exact ⟨_, rfl, rfl⟩

/-- A repository of directories is plain. -/
theorem DirectoryRepository.isPlain_inSystem (r : DirectoryRepository) (fs : Files.System) : (r.inSystem fs).IsPlain := by
  intro tier history component requested m hm
  exact DirectoryTier.plain_of_lookup hm

end VersionChain
