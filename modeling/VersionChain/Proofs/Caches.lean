import VersionChain.Configuration
import VersionChain.Proofs.Paths

/-!
# Where caches are by default

A repository that names no cache has one of its own name below the cache root. The names of a sound configuration differ, but a name
is joined as a path: such caches are directories of their own below every cache root just if the names descend and lead to different
places, as names of directories do.
-/

namespace VersionChain

namespace RepositoryEntry

variable {r : RepositoryEntry} {base cacheRoot : Files.Path}

theorem cachePath_of_cache_none (h : r.cache = none) (base cacheRoot : Files.Path) :
    r.cachePath base cacheRoot = cacheRoot.join ⟨r.name⟩ := by
  unfold cachePath
  rw [h]

/-- A default cache is directly below the cache root, under the name of its repository, if that is a name, and only then. -/
theorem place_cachePath_eq_along_iff (h : r.cache = none) :
    (r.cachePath base cacheRoot).place = cacheRoot.place.along [r.name] ↔ Files.IsName r.name := by
  rw [cachePath_of_cache_none h]
  constructor
  · intro heq
    exact Files.Path.isName_of_place_eq_along heq r.name List.mem_cons_self
  · exact Files.Path.place_join_name cacheRoot

end RepositoryEntry

namespace Configuration

open Files (Path IsName)

variable {c : Configuration}

/-! ## Names -/

/-- Names have no fault if none is blank, none occurs before, and they differ. -/
theorem nameFault?_eq_none_iff {earlier names : List String} :
    nameFault? earlier names = none ↔
      (∀ name ∈ names, Text.isBlank name.toList = false ∧ name ∉ earlier) ∧ names.Nodup := by
  induction names generalizing earlier with
  | nil => simp [nameFault?]
  | cons name names ih =>
    unfold nameFault?
    by_cases hblank : Text.isBlank name.toList = true
    · simp [hblank]
    · by_cases hearlier : name ∈ earlier
      · simp [hblank, hearlier]
      · rw [if_neg hblank, if_neg hearlier, ih, List.forall_mem_cons, List.nodup_cons]
        simp only [List.mem_cons, not_or]
        constructor
        · rintro ⟨hall, hnodup⟩
          exact ⟨⟨⟨Bool.eq_false_iff.mpr hblank, hearlier⟩, fun n hn => ⟨(hall n hn).1, (hall n hn).2.2⟩⟩,
            fun hmem => (hall name hmem).2.1 rfl, hnodup⟩
        · rintro ⟨⟨-, hall⟩, hnot, hnodup⟩
          exact ⟨fun n hn => ⟨(hall n hn).1, fun heq => hnot (heq ▸ hn), (hall n hn).2⟩, hnodup⟩

/-- The names of a configuration without fault differ. -/
theorem nodup_names_of_fault?_eq_none (h : c.fault? = none) : (c.repositories.map (·.name)).Nodup := by
  unfold fault? at h
  split at h
  · nomatch h
  · exact (nameFault?_eq_none_iff.mp (Option.or_eq_none_iff.mp h).1).2

/-! ## Default caches -/

/-- The entries of a chain that name no cache. -/
def defaulted (c : Configuration) : List RepositoryEntry := c.repositories.filter (·.cache.isNone)

/-- The default caches of a chain are directories of their own, each of them below the cache root. -/
structure CachesApart (c : Configuration) (base cacheRoot : Path) : Prop where
  below : ∀ r ∈ c.defaulted, cacheRoot.place.HoldsBelow (r.cachePath base cacheRoot).place
  apart : c.defaulted.Pairwise fun r r' => (r.cachePath base cacheRoot).place ≠ (r'.cachePath base cacheRoot).place

/-- The names from which default caches are made descend, and lead to different places. -/
structure NamesApart (c : Configuration) : Prop where
  below : ∀ r ∈ c.defaulted, Path.Descends ⟨r.name⟩ ∧ (Path.place ⟨r.name⟩).down ≠ []
  apart : c.defaulted.Pairwise fun r r' => Path.place ⟨r.name⟩ ≠ Path.place ⟨r'.name⟩

theorem cachePath_of_mem_defaulted {r : RepositoryEntry} (h : r ∈ c.defaulted) (base cacheRoot : Path) :
    r.cachePath base cacheRoot = cacheRoot.join ⟨r.name⟩ :=
  r.cachePath_of_cache_none (Option.isNone_iff_eq_none.mp (List.mem_filter.mp h).2) base cacheRoot

/-- It depends on the names alone whether default caches are apart below every cache root. -/
theorem cachesApart_iff : (∀ base cacheRoot, c.CachesApart base cacheRoot) ↔ c.NamesApart := by
  constructor
  · intro h
    have hbelow : ∀ r ∈ c.defaulted, Path.Descends ⟨r.name⟩ ∧ (Path.place ⟨r.name⟩).down ≠ [] := by
      intro r hr
      refine Path.holdsBelow_join_iff.mp fun cacheRoot => ?_
      rw [← cachePath_of_mem_defaulted hr ⟨""⟩]
      exact (h ⟨""⟩ cacheRoot).below r hr
    refine ⟨hbelow, (h ⟨""⟩ ⟨""⟩).apart.imp_of_mem fun hr hr' hne heq => hne ?_⟩
    rw [cachePath_of_mem_defaulted hr, cachePath_of_mem_defaulted hr',
      Path.place_join_inj_iff (hbelow _ hr).1 (hbelow _ hr').1]
    exact heq
  · intro h base cacheRoot
    refine ⟨fun r hr => ?_, h.apart.imp_of_mem fun hr hr' hne heq => hne ?_⟩
    · rw [cachePath_of_mem_defaulted hr]
      exact Path.holdsBelow_join_iff.mpr (h.below r hr) cacheRoot
    · rw [cachePath_of_mem_defaulted hr, cachePath_of_mem_defaulted hr',
        Path.place_join_inj_iff (h.below _ hr).1 (h.below _ hr').1] at heq
      exact heq

/-- Names of directories that differ are apart. -/
theorem namesApart_of_isName (h : c.fault? = none) (hnames : ∀ r ∈ c.defaulted, IsName r.name) : c.NamesApart := by
  have hdistinct : c.defaulted.Pairwise fun r r' => r.name ≠ r'.name :=
    (List.pairwise_map.mp (nodup_names_of_fault?_eq_none h)).sublist List.filter_sublist
  refine ⟨fun r hr => ⟨Path.descends_name (hnames r hr), ?_⟩, hdistinct.imp_of_mem fun hr hr' hne heq => hne ?_⟩
  · rw [Path.place_name (hnames r hr)]
    exact List.cons_ne_nil r.name []
  · rw [Path.place_name (hnames _ hr), Path.place_name (hnames _ hr')] at heq
    simpa using congrArg Files.Place.down heq

/-- In a configuration without fault, the default caches are directories of their own below every cache root exactly if the names
descend and lead to different places. Names of directories do, and just these are the names under which the caches are directly
below the cache root. -/
theorem default_caches_apart_iff (c : Configuration) (h : c.fault? = none) :
    ((∀ base cacheRoot, c.CachesApart base cacheRoot) ↔ c.NamesApart) ∧
    ((∀ r ∈ c.defaulted, IsName r.name) → ∀ base cacheRoot, c.CachesApart base cacheRoot) ∧
    ∀ r ∈ c.defaulted, ∀ base cacheRoot,
      (r.cachePath base cacheRoot).place = cacheRoot.place.along [r.name] ↔ IsName r.name :=
  ⟨cachesApart_iff, fun hnames => cachesApart_iff.mpr (namesApart_of_isName h hnames),
    fun _ hr _ _ => RepositoryEntry.place_cachePath_eq_along_iff (Option.isNone_iff_eq_none.mp (List.mem_filter.mp hr).2)⟩

/-- Two repositories without caches of their own and one with a cache. -/
def plainlyNamed : Configuration where
  repositories := [{ name := "company", cache := some ⟨"../shared"⟩ }, { name := "central" }, { name := "mirror" }]

/-- Where names are those of directories, the default caches are apart. -/
theorem default_caches_apart_iff_plainlyNamed :
    plainlyNamed.fault? = none ∧ (∀ r ∈ plainlyNamed.defaulted, IsName r.name) ∧
      plainlyNamed.CachesApart ⟨"."⟩ ⟨"/var/cache"⟩ := by
  have hvalid : plainlyNamed.fault? = none := by decide +kernel
  have hnames : ∀ r ∈ plainlyNamed.defaulted, IsName r.name := by decide +kernel
  exact ⟨hvalid, hnames, (default_caches_apart_iff plainlyNamed hvalid).2.1 hnames ⟨"."⟩ ⟨"/var/cache"⟩⟩

/-- So a configuration without fault may have a default cache elsewhere than below the cache root, or two that are one directory. -/
theorem not_all_default_caches_apart :
    (¬∀ (c : Configuration) (base cacheRoot : Path), c.fault? = none →
      ∀ r ∈ c.defaulted, cacheRoot.place.HoldsBelow (r.cachePath base cacheRoot).place) ∧
    ¬∀ (c : Configuration) (base cacheRoot : Path), c.fault? = none →
      c.defaulted.Pairwise fun r r' => (r.cachePath base cacheRoot).place ≠ (r'.cachePath base cacheRoot).place := by
  constructor
  · intro h
    -- an absolute name leads away from a relative cache root
    have hbelow := h { repositories := [{ name := "/elsewhere" }] } ⟨"work"⟩ ⟨"caches"⟩ (by decide +kernel)
      { name := "/elsewhere" } (by decide +kernel)
    exact absurd hbelow.holds (by decide +kernel)
  · intro h
    have hapart := h { repositories := [{ name := "a" }, { name := "./a" }] } ⟨"work"⟩ ⟨"caches"⟩ (by decide +kernel)
    exact absurd hapart (by decide +kernel)

end Configuration

end VersionChain
