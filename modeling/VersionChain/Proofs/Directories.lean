import Mathlib.Data.List.Perm.Basic
import VersionChain.Files.Snapshot
import VersionChain.Proofs.Precedence
import VersionChain.Repository.Directory

/-!
# What a directory lists

A directory lists the directories in it, each once and in the order of versions, in whatever order they are enumerated. Files and
links are not listed. If anything goes wrong with the enumeration, or with one entry, nothing is listed and the answer is a failure.
-/

namespace VersionChain

/-! ## Entries -/

namespace Files

/-- What a directory holds: its entries with what they are, no two of them under one name. -/
structure Contents where
  entries : List (String × Kind)
  nodup : (entries.map Prod.fst).Nodup

namespace Contents

/-- The names of the directories among some entries. -/
def names (entries : List (String × Kind)) : List String :=
  (entries.filter fun entry => entry.2 = .directory).map Prod.fst

/-- The names of the directories in a directory. -/
def directories (contents : Contents) : List String := names contents.entries

theorem mem_directories {contents : Contents} {name : String} :
    name ∈ contents.directories ↔ (name, .directory) ∈ contents.entries := by
  simp [directories, names]

theorem nodup_directories (contents : Contents) : contents.directories.Nodup :=
  (List.filter_sublist.map Prod.fst).nodup contents.nodup

end Contents

namespace Entry

/-- An entry of which a file system tells all. -/
def known (entry : String × Kind) : Except Fault Entry := .ok ⟨entry.1, .ok entry.2⟩

/-- What goes wrong with an entry: it cannot be reached, or it is not known what it is. -/
def fault? : Except Fault Entry → Option Fault
  | .error fault => some fault
  | .ok entry =>
    match entry.kind with
    | .error fault => some fault
    | .ok _ => none

/-- The name of an entry that is a directory. -/
def directory? : Except Fault Entry → Option String
  | .ok ⟨name, .ok .directory⟩ => some name
  | _ => none

theorem directory?_known (entry : String × Kind) :
    directory? (known entry) = if entry.2 = .directory then some entry.1 else none := by
  obtain ⟨name, kind⟩ := entry
  cases kind <;> rfl

theorem directory?_eq_some_iff {entry : Except Fault Entry} {name : String} :
    directory? entry = some name ↔ entry = .ok ⟨name, .ok .directory⟩ := by
  constructor
  · intro h
    unfold directory? at h
    split at h
    · rw [Option.some.inj h]
    · nomatch h
  · rintro rfl
    rfl

theorem findSome?_fault?_known (entries : List (String × Kind)) : (entries.map known).findSome? fault? = none := by
  rw [List.findSome?_eq_none_iff]
  intro entry hentry
  obtain ⟨e, -, rfl⟩ := List.mem_map.mp hentry
  rfl

theorem filterMap_directory?_known (entries : List (String × Kind)) :
    (entries.map known).filterMap directory? = Contents.names entries := by
  unfold Contents.names
  induction entries with
  | nil => rfl
  | cons entry entries ih =>
    rw [List.map_cons, List.filterMap_cons, directory?_known, ih, List.filter_cons]
    by_cases h : entry.2 = .directory <;> simp [h]

end Entry

namespace System

variable {s : System} {p : Path}

/-- The entries of a directory are enumerated without fault, in some order. -/
def Enumerates (s : System) (p : Path) (contents : Contents) : Prop :=
  ∃ entries : List (String × Kind), entries.Perm contents.entries ∧ s.entries p = .ok (entries.map Entry.known)

/-- The entries are read one by one up to the first fault, and a fault is all that is told then. -/
theorem mapM_directory? (entries : List (Except Fault Entry)) :
    (entries.mapM fun entry : Except Fault Entry => do
      let entry ← entry
      return if (← entry.kind) = Kind.directory then some entry.name else none) =
      match entries.findSome? Entry.fault? with
      | some fault => .error fault
      | none => .ok (entries.map Entry.directory?) := by
  induction entries with
  | nil => rfl
  | cons entry entries ih =>
    rw [List.mapM_cons, ih]
    rcases entry with fault | ⟨name, fault | kind⟩
    · rfl
    · rfl
    · have hkind : Entry.directory? (.ok ⟨name, .ok kind⟩) = if kind = .directory then some name else none :=
        Entry.directory?_known (name, kind)
      rw [List.findSome?_cons, List.map_cons, hkind]
      cases entries.findSome? Entry.fault? <;> rfl

theorem directories_eq (hsound : p.isSound = true) {entries : List (Except Fault Entry)} (h : s.entries p = .ok entries) :
    s.directories p =
      match entries.findSome? Entry.fault? with
      | some fault => .error fault
      | none => .ok (entries.filterMap Entry.directory?) := by
  have hnames : (entries.map Entry.directory?).filterMap id = entries.filterMap Entry.directory? := by
    rw [List.filterMap_map]
    rfl
  have hread := mapM_directory? entries
  unfold directories
  rw [hsound, h]
  simp only [bind, Except.bind, pure, Except.pure] at hread ⊢
  rw [hread]
  cases entries.findSome? Entry.fault? with
  | some fault => rfl
  | none => exact congrArg Except.ok hnames

theorem directories_of_error (hsound : p.isSound = true) {fault : Fault} (h : s.entries p = .error fault) :
    s.directories p = .error fault := by
  unfold directories
  rw [hsound, h]
  rfl

/-- Of what a directory holds, the directories are told. -/
theorem directories_of_enumerates (hsound : p.isSound = true) {contents : Contents} (h : s.Enumerates p contents) :
    ∃ names, s.directories p = .ok names ∧ names.Perm contents.directories := by
  obtain ⟨entries, hperm, hentries⟩ := h
  refine ⟨Contents.names entries, ?_, (hperm.filter _).map Prod.fst⟩
  rw [directories_eq hsound hentries, Entry.findSome?_fault?_known, Entry.filterMap_directory?_known]

end System

end Files

/-! ## The order of versions -/

namespace Version

variable {names names' : List String}

/-- The texts of versions from least to greatest. -/
def inOrder (names : List String) : List String := (ascending (names.map Version.mk)).map source

theorem inOrder_perm (names : List String) : (inOrder names).Perm names := by
  have h := (ascending_perm (names.map Version.mk)).map source
  rwa [List.map_map, show source ∘ Version.mk = id from rfl, List.map_id] at h

theorem pairwise_inOrder (names : List String) :
    (inOrder names).Pairwise fun v w => (compare ⟨v⟩ ⟨w⟩).isLE = true :=
  List.pairwise_map.mpr (ascending_pairwise _)

/-- The order leaves no choice: texts that are level are the same. -/
theorem inOrder_congr (h : names.Perm names') : inOrder names = inOrder names' := by
  refine (((inOrder_perm names).trans h).trans (inOrder_perm names').symm).eq_of_pairwise (fun v w _ _ hvw hwv => ?_)
    (pairwise_inOrder names) (pairwise_inOrder names')
  exact congrArg source (Std.LawfulEqCmp.eq_of_compare (Std.OrientedCmp.isLE_antisymm hvw hwv) : (⟨v⟩ : Version) = ⟨w⟩)

theorem ne_of_lt {v w : String} (h : compare ⟨v⟩ ⟨w⟩ = .lt) : v ≠ w := by
  rintro rfl
  nomatch h.symm.trans (Std.ReflCmp.compare_self : compare ⟨v⟩ ⟨v⟩ = .eq)

theorem not_lt_of_lt {v w : String} (h : compare ⟨v⟩ ⟨w⟩ = .lt) : compare ⟨w⟩ ⟨v⟩ ≠ .lt := by
  rw [Std.OrientedCmp.gt_of_lt h]
  nofun

/-- Texts that differ are in strict order. -/
theorem strictly_inOrder (h : names.Nodup) : (inOrder names).Pairwise fun v w => compare ⟨v⟩ ⟨w⟩ = .lt := by
  have hdistinct : (inOrder names).Pairwise (· ≠ ·) := (inOrder_perm names).nodup_iff.mpr h
  refine (pairwise_inOrder names).imp₂ (fun v w hle hne => ?_) hdistinct
  rcases Ordering.isLE_iff_eq_lt_or_eq_eq.mp hle with hlt | heq
  · exact hlt
  · exact absurd (congrArg source (Std.LawfulEqCmp.eq_of_compare heq : (⟨v⟩ : Version) = ⟨w⟩)) hne

end Version

/-! ## Listings -/

namespace DirectoryTier

variable {t : DirectoryTier} {fs : Files.System} {root : Files.Path} {m : Module}

/-- The answer that a directory with certain versions in it comes to. -/
def listing (t : DirectoryTier) (root : Files.Path) (m : Module) (versions : List String) : ListingOutcome where
  result := some (.listed versions)
  authoritative := t.authoritative
  attempted := [(modulePath root m).text]

/-- The answer that a directory which cannot be read comes to. -/
def refusal (t : DirectoryTier) (root : Files.Path) (m : Module) (fault : Files.Fault) : ListingOutcome where
  result := some (.failed (.access t.repository t.role.tier m.text fault.message))
  authoritative := t.authoritative
  attempted := [(modulePath root m).text]

theorem isSound_of_exists? {p : Files.Path} (h : fs.exists? p = true) : p.isSound = true :=
  (Bool.and_eq_true_iff.mp h).1

theorem list_eq (hroot : t.root = some root) (hexists : fs.exists? (modulePath root m) = true) :
    t.list fs m =
      match fs.directories (modulePath root m) with
      | .ok names => t.listing root m (Version.inOrder names)
      | .error fault => t.refusal root m fault := by
  unfold list
  rw [hroot]
  simp only [hexists, Bool.not_true, Bool.false_eq_true, if_false]
  unfold readVersions
  cases fs.directories (modulePath root m) <;> rfl

/-- What is in a directory is listed in the same order, whatever the order in which it is told. -/
theorem list_of_enumerates (hroot : t.root = some root) (hexists : fs.exists? (modulePath root m) = true)
    {contents : Files.Contents} (h : fs.Enumerates (modulePath root m) contents) :
    t.list fs m = t.listing root m (Version.inOrder contents.directories) := by
  obtain ⟨names, hnames, hperm⟩ := Files.System.directories_of_enumerates (isSound_of_exists? hexists) h
  rw [list_eq hroot hexists, hnames, ← Version.inOrder_congr hperm]

/-- What is listed is there as a directory. -/
theorem mem_entries_of_listed (hroot : t.root = some root) {versions : List String}
    (h : (t.list fs m).result = some (.listed versions)) {v : String} (hv : v ∈ versions) :
    ∃ entries, fs.entries (modulePath root m) = .ok entries ∧ .ok ⟨v, .ok .directory⟩ ∈ entries := by
  cases hexists : fs.exists? (modulePath root m) with
  | false =>
    -- an origin without the directory lists nothing, a cache without it says nothing
    unfold list at h
    rw [hroot] at h
    simp only [hexists, Bool.not_false, if_true] at h
    cases hrole : t.role <;> rw [hrole] at h
    · nomatch h
    · obtain rfl := Listing.listed.inj (Option.some.inj h)
      nomatch hv
  | true =>
    rw [list_eq hroot hexists] at h
    cases hentries : fs.entries (modulePath root m) with
    | error fault =>
      rw [Files.System.directories_of_error (isSound_of_exists? hexists) hentries] at h
      nomatch h
    | ok entries =>
      rw [Files.System.directories_eq (isSound_of_exists? hexists) hentries] at h
      cases hfault : entries.findSome? Files.Entry.fault? with
      | some fault =>
        rw [hfault] at h
        nomatch h
      | none =>
        rw [hfault] at h
        obtain rfl := Listing.listed.inj (Option.some.inj h)
        obtain ⟨entry, hentry, hname⟩ := List.mem_filterMap.mp ((Version.inOrder_perm _).mem_iff.mp hv)
        exact ⟨entries, rfl, Files.Entry.directory?_eq_some_iff.mp hname ▸ hentry⟩

/-- What is in the directory of a module decides what is listed, whatever the order in which it is told: the directories, each
once, in strict order. Once anything goes wrong with the enumeration or with any entry, the answer is a failure for the first such
fault. -/
theorem listing_canonical (t : DirectoryTier) {root : Files.Path} (hroot : t.root = some root) (m : Module) :
    (∀ contents : Files.Contents, ∃ versions : List String,
      (∀ fs : Files.System, fs.exists? (modulePath root m) = true → fs.Enumerates (modulePath root m) contents →
        t.list fs m = t.listing root m versions) ∧
      (∀ v, v ∈ versions ↔ (v, .directory) ∈ contents.entries) ∧
      versions.Pairwise fun v w => Version.compare ⟨v⟩ ⟨w⟩ = .lt) ∧
    ∀ fs : Files.System, fs.exists? (modulePath root m) = true →
      (∀ fault, fs.entries (modulePath root m) = .error fault → t.list fs m = t.refusal root m fault) ∧
      ∀ entries, fs.entries (modulePath root m) = .ok entries →
        (∃ entry ∈ entries, (Files.Entry.fault? entry).isSome = true) →
        ∃ fault, entries.findSome? Files.Entry.fault? = some fault ∧ t.list fs m = t.refusal root m fault := by
  refine ⟨fun contents => ⟨Version.inOrder contents.directories, fun fs hexists => list_of_enumerates hroot hexists, fun v => ?_,
    Version.strictly_inOrder contents.nodup_directories⟩, fun fs hexists => ⟨fun fault h => ?_, fun entries h hfault => ?_⟩⟩
  · rw [(Version.inOrder_perm _).mem_iff, Files.Contents.mem_directories]
  · rw [list_eq hroot hexists, Files.System.directories_of_error (isSound_of_exists? hexists) h]
  · obtain ⟨fault, hfirst⟩ := Option.isSome_iff_exists.mp (List.findSome?_isSome_iff.mpr hfault)
    refine ⟨fault, hfirst, ?_⟩
    rw [list_eq hroot hexists, Files.System.directories_eq (isSound_of_exists? hexists) h, hfirst]

/-- A file system in which the directory of one module enumerates certain entries. -/
def holding (entries : List (Except Files.Fault Files.Entry)) : Files.System :=
  Files.Snapshot.system
    [(⟨"c/g/n"⟩, { kind := some .directory, entries := .ok entries, content := .error .isADirectory })]

/-- A directory with a file and a link between its directories. -/
def cluttered : Files.Contents where
  entries := [("1.10", .directory), ("README", .file), ("1.2", .directory), ("newest", .link), ("1.9", .directory)]
  nodup := by decide

/-- In whatever order that directory is enumerated, the listing is the same; with one more entry that cannot be reached there is
none. -/
theorem listing_canonical_cluttered :
    let t : DirectoryTier := .cache "r" ⟨"c"⟩ false
    t.root = some ⟨"c"⟩ ∧
      (∀ entries : List (String × Files.Kind), entries.Perm cluttered.entries →
        (t.list (holding (entries.map Files.Entry.known)) ⟨"g", "n"⟩).result = some (.listed ["1.2", "1.9", "1.10"])) ∧
      (t.list (holding (cluttered.entries.map Files.Entry.known ++ [.error .permissionDenied])) ⟨"g", "n"⟩).result =
        some (.failed (.access "r" .nearby "g:n" "Permission denied (os error 13)")) := by
  intro t
  have hroot : t.root = some ⟨"c"⟩ := rfl
  have hexists : ∀ entries, (holding entries).exists? (modulePath ⟨"c"⟩ ⟨"g", "n"⟩) = true := fun _ => rfl
  have hentries : ∀ entries, (holding entries).entries (modulePath ⟨"c"⟩ ⟨"g", "n"⟩) = .ok entries := fun _ => rfl
  obtain ⟨hlisted, hfailed⟩ := listing_canonical t hroot ⟨"g", "n"⟩
  refine ⟨rfl, fun entries hperm => ?_, ?_⟩
  · obtain ⟨versions, hlist, hmem, hstrict⟩ := hlisted cluttered
    -- the directories in strict order are these three and no others
    have hversions : versions = ["1.2", "1.9", "1.10"] := by
      have hperm : versions.Perm ["1.2", "1.9", "1.10"] := by
        refine (List.perm_ext_iff_of_nodup (hstrict.imp Version.ne_of_lt) (by decide)).mpr fun v => ?_
        rw [hmem]
        simp [cluttered, or_comm, or_left_comm]
      exact hperm.eq_of_pairwise (fun v w _ _ h h' => absurd h' (Version.not_lt_of_lt h)) hstrict (by decide +kernel)
    rw [hlist _ (hexists _) ⟨entries, hperm, hentries _⟩, hversions]
    rfl
  · obtain ⟨fault, hfirst, hlist⟩ := (hfailed _ (hexists _)).2 _ (hentries (cluttered.entries.map Files.Entry.known ++
      [.error .permissionDenied])) ⟨.error .permissionDenied, by simp, rfl⟩
    rw [List.findSome?_append, Files.Entry.findSome?_fault?_known] at hfirst
    obtain rfl := Option.some.inj hfirst
    rw [hlist]
    rfl

end DirectoryTier

end VersionChain
