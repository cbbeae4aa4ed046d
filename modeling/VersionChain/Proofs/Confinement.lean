import VersionChain.Proofs.Directories
import VersionChain.Proofs.Paths

/-!
# Where a directory tier looks

To list a module, a directory tier looks at one path only, and at one path below it for the metadata of a version that it listed.
That the first one is two levels below the root, and another one for every module, holds of modules whose group and name are names.
Of others it is false: a group or name is joined as a path, so that an absolute one replaces the root, `..` leaves it, and a slash
makes two modules share one directory.
-/

namespace VersionChain

/-! ## File systems -/

namespace Files.System

variable {s s' : System} {p : Path}

/-- Two file systems that tell the same of a path. -/
structure AgreeAt (s s' : System) (p : Path) : Prop where
  kind? : s.kind? p = s'.kind? p
  entries : s.entries p = s'.entries p
  read : s.read p = s'.read p

/-- The entries of directories are told by their names. -/
def TellsNames (s : System) : Prop :=
  ∀ p entries, s.entries p = .ok entries → ∀ entry, .ok entry ∈ entries → IsName entry.name

theorem AgreeAt.exists?_eq (h : s.AgreeAt s' p) : s.exists? p = s'.exists? p := by
  unfold exists?
  rw [h.kind?]

theorem AgreeAt.isFile_eq (h : s.AgreeAt s' p) : s.isFile p = s'.isFile p := by
  unfold isFile
  rw [h.kind?]

theorem AgreeAt.directories_eq (h : s.AgreeAt s' p) : s.directories p = s'.directories p := by
  unfold directories
  rw [h.entries]

theorem AgreeAt.readText_eq (h : s.AgreeAt s' p) : s.readText p = s'.readText p := by
  unfold readText
  rw [h.read]

end Files.System

/-! ## Modules -/

namespace Module

/-- The path from the root to the directory of a module. -/
def path (m : Module) : Files.Path := Files.Path.join ⟨m.group⟩ ⟨m.name⟩

/-- A module whose group and name are the names of directories. -/
def IsNamed (m : Module) : Prop := Files.IsName m.group ∧ Files.IsName m.name

instance : DecidablePred IsNamed := fun _ => inferInstanceAs (Decidable (_ ∧ _))

end Module

namespace DirectoryTier

variable {t : DirectoryTier} {root : Files.Path} {fs fs' : Files.System} {m m' : Module} {id : Component}

theorem place_modulePath (root : Files.Path) (m : Module) : (modulePath root m).place = (root.join m.path).place :=
  Files.Path.place_join_join root ⟨m.group⟩ ⟨m.name⟩

/-- The directory of a module is two levels below the root, under its group and name, if these are names, and only then. -/
theorem place_modulePath_eq_along_iff :
    (modulePath root m).place = root.place.along [m.group, m.name] ↔ m.IsNamed := by
  constructor
  · intro h
    have hnames := Files.Path.isName_of_place_eq_along h
    exact ⟨hnames m.group (by simp), hnames m.name (by simp)⟩
  · rintro ⟨hgroup, hname⟩
    unfold modulePath
    rw [Files.Path.place_join_name _ hname, Files.Path.place_join_name _ hgroup, Files.Place.along_along]
    rfl

/-- Named modules have directories of their own. -/
theorem eq_of_place_modulePath_eq (h : m.IsNamed) (h' : m'.IsNamed)
    (heq : (modulePath root m).place = (modulePath root m').place) : m = m' := by
  rw [place_modulePath_eq_along_iff.mpr h, place_modulePath_eq_along_iff.mpr h'] at heq
  obtain ⟨group, name⟩ := m
  obtain ⟨group', name'⟩ := m'
  obtain ⟨rfl, rfl⟩ : group = group' ∧ name = name' := by simpa using Files.Place.along_inj heq
  rfl

/-- The directory of a module is below every root, or is the root, if the path of the module descends, and only then. -/
theorem holds_modulePath_iff : (∀ root : Files.Path, root.place.Holds (modulePath root m).place) ↔ m.path.Descends := by
  simp only [place_modulePath]
  exact Files.Path.holds_join_iff

/-! ## What is looked at -/

theorem attempted_list (hroot : t.root = some root) (fs : Files.System) (m : Module) :
    (t.list fs m).attempted = [(modulePath root m).text] := by
  unfold list
  rw [hroot]
  dsimp only
  split
  · split <;> rfl
  · rfl

theorem list_congr (hroot : t.root = some root) (h : fs.AgreeAt fs' (modulePath root m)) : t.list fs m = t.list fs' m := by
  unfold list readVersions
  rw [hroot]
  dsimp only
  rw [h.exists?_eq, h.directories_eq]

theorem attempted_lookup (hroot : t.root = some root) (fs : Files.System) (id : Component) :
    (t.lookup fs id).attempted = [(descriptorPath root id).text] := by
  unfold lookup
  rw [hroot]
  dsimp only
  split
  · split <;> rfl
  · rfl

theorem lookup_congr (hroot : t.root = some root) (h : fs.AgreeAt fs' (descriptorPath root id)) :
    t.lookup fs id = t.lookup fs' id := by
  unfold lookup readDescriptor
  rw [hroot]
  dsimp only
  rw [h.isFile_eq, h.readText_eq]

theorem isName_descriptorFile : Files.IsName descriptorFile := by decide +kernel

/-- The descriptor of a version that is listed is in a directory of its own, directly below that of the module. -/
theorem place_descriptorPath_of_listed (hroot : t.root = some root) (hfs : fs.TellsNames) {versions : List String}
    (h : (t.list fs m).result = some (.listed versions)) {v : String} (hv : v ∈ versions) :
    (descriptorPath root ⟨m.group, m.name, v⟩).place = (modulePath root m).place.along [v, descriptorFile] := by
  obtain ⟨entries, hentries, hmem⟩ := mem_entries_of_listed hroot h hv
  have hname : Files.IsName v := hfs _ _ hentries _ hmem
  unfold descriptorPath
  rw [Files.Path.place_join_name _ isName_descriptorFile, Files.Path.place_join_name _ hname, Files.Place.along_along]
  rfl

/-- A directory tier looks for a module at one path alone, and for the metadata of a version at one path alone; for a version that it
lists this is directly below the first. The first is two levels below the root, under the group and the name, exactly if these are
names, and no two such modules share it. It stays below the root, whatever the root, exactly if the path of the module descends; and
modules of which this holds share a directory exactly if their paths lead to the same place. -/
theorem directories_confined (t : DirectoryTier) {root : Files.Path} (hroot : t.root = some root) {fs : Files.System}
    (hfs : fs.TellsNames) :
    (∀ m, (t.list fs m).attempted = [(modulePath root m).text] ∧
      ∀ fs', fs.AgreeAt fs' (modulePath root m) → t.list fs m = t.list fs' m) ∧
    (∀ id, (t.lookup fs id).attempted = [(descriptorPath root id).text] ∧
      ∀ fs', fs.AgreeAt fs' (descriptorPath root id) → t.lookup fs id = t.lookup fs' id) ∧
    (∀ m versions, (t.list fs m).result = some (.listed versions) → ∀ v ∈ versions,
      (descriptorPath root ⟨m.group, m.name, v⟩).place = (modulePath root m).place.along [v, descriptorFile]) ∧
    (∀ m, (modulePath root m).place = root.place.along [m.group, m.name] ↔ m.IsNamed) ∧
    (∀ m m', m.IsNamed → m'.IsNamed → (modulePath root m).place = (modulePath root m').place → m = m') ∧
    (∀ m, (∀ root : Files.Path, root.place.Holds (modulePath root m).place) ↔ m.path.Descends) ∧
    ∀ m m', m.path.Descends → m'.path.Descends →
      ((modulePath root m).place = (modulePath root m').place ↔ m.path.place = m'.path.place) := by
  refine ⟨fun m => ⟨attempted_list hroot fs m, fun _ => list_congr hroot⟩,
    fun id => ⟨attempted_lookup hroot fs id, fun _ => lookup_congr hroot⟩,
    fun m versions h v hv => place_descriptorPath_of_listed hroot hfs h hv, fun m => place_modulePath_eq_along_iff,
    fun m m' h h' => eq_of_place_modulePath_eq h h', fun m => holds_modulePath_iff, fun m m' h h' => ?_⟩
  rw [place_modulePath, place_modulePath]
  exact Files.Path.place_join_inj_iff h h' root

theorem tellsNames_holding {entries : List (Except Files.Fault Files.Entry)}
    (h : ∀ entry, .ok entry ∈ entries → Files.IsName entry.name) : (holding entries).TellsNames := by
  intro p told htold
  by_cases hp : p = ⟨"c/g/n"⟩
  · subst hp
    obtain rfl := Except.ok.inj htold
    exact h
  · have hlookup : (holding entries).entries p = .error .noSuchFile := by
      unfold holding Files.Snapshot.system
      dsimp only
      rw [List.lookup_cons, beq_false_of_ne hp]
      rfl
    nomatch hlookup.symm.trans htold

theorem tellsNames_cluttered : (holding (cluttered.entries.map Files.Entry.known)).TellsNames := by
  refine tellsNames_holding fun entry hentry => ?_
  obtain ⟨e, he, hknown⟩ := List.mem_map.mp hentry
  obtain rfl := Except.ok.inj hknown
  have hnames : ∀ e ∈ cluttered.entries, Files.IsName e.1 := by decide +kernel
  exact hnames e he

/-- A version in a directory with other things has its descriptor below it, and a module with a slash in its group is not named. -/
theorem directories_confined_cluttered :
    let t : DirectoryTier := .cache "r" ⟨"c"⟩ false
    let fs := holding (cluttered.entries.map Files.Entry.known)
    t.root = some ⟨"c"⟩ ∧ fs.TellsNames ∧
      ∃ versions, (t.list fs ⟨"g", "n"⟩).result = some (.listed versions) ∧ "1.10" ∈ versions ∧
        (descriptorPath ⟨"c"⟩ ⟨"g", "n", "1.10"⟩).place = ⟨false, 0, ["c", "g", "n", "1.10", "module.yaml"]⟩ := by
  intro t fs
  have hroot : t.root = some ⟨"c"⟩ := rfl
  obtain ⟨-, -, hdescriptor, hmodule, -⟩ := directories_confined t hroot tellsNames_cluttered
  have hlist : t.list fs ⟨"g", "n"⟩ = t.listing ⟨"c"⟩ ⟨"g", "n"⟩ (Version.inOrder cluttered.directories) :=
    list_of_enumerates hroot rfl ⟨_, List.Perm.refl _, rfl⟩
  have hmem : "1.10" ∈ Version.inOrder cluttered.directories := (Version.inOrder_perm _).mem_iff.mpr (by decide)
  have hresult : (t.list fs ⟨"g", "n"⟩).result = some (.listed (Version.inOrder cluttered.directories)) := by
    rw [hlist]
    rfl
  refine ⟨hroot, tellsNames_cluttered, _, hresult, hmem, ?_⟩
  rw [hdescriptor ⟨"g", "n"⟩ _ hresult _ hmem, (hmodule ⟨"g", "n"⟩).mpr (by decide +kernel)]
  decide +kernel

/-- So a module that can be asked for need not have its directory below the root, and two of them may share one. -/
theorem not_all_directories_confined :
    (¬∀ (root : Files.Path) (c : String) (r : Request), Request.ofText c = .ok r →
      root.place.Holds (modulePath root r.module).place) ∧
    ¬∀ (root : Files.Path) (c c' : String) (m m' : Module), Module.ofText c = .ok m → Module.ofText c' = .ok m' →
      (modulePath root m).place = (modulePath root m').place → m = m' := by
  constructor
  · intro h
    -- an absolute group leads away from a relative root
    have hholds := h ⟨"root"⟩ "/elsewhere:n:1.0" ⟨"/elsewhere", "n", "1.0"⟩ (by decide +kernel)
    exact absurd hholds (by decide +kernel)
  · intro h
    have hsame := h ⟨"root"⟩ "a/b:n" "a:b/n" ⟨"a/b", "n"⟩ ⟨"a", "b/n"⟩ (by decide +kernel) (by decide +kernel)
      (by decide +kernel)
    exact absurd hsame (by decide)

end DirectoryTier

end VersionChain
