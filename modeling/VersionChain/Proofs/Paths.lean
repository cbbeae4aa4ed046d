import Mathlib.Data.List.Basic
import Mathlib.Logic.Function.Iterate
import VersionChain.Files.Path
import VersionChain.Proofs.Coordinates

/-!
# Where paths lead

A path is followed along the texts between its slashes: idle ones lead nowhere, `..` leads a level up, and all others are names and
lead a level down. Two paths lead to the same place if they have the same components once `.` and `..` are resolved. What is joined
to a path stays below it, whatever the path, just if it is relative and does not lead above where it begins.
-/

namespace VersionChain.Files

/-- A text that names something in a directory: one component that is neither idle nor `..`. -/
def IsName (s : String) : Prop := Path.isIdle s = false ∧ s ≠ ".." ∧ '/' ∉ s.toList

instance : DecidablePred IsName := fun _ => inferInstanceAs (Decidable (_ ∧ _ ∧ _))

/-! ## Places -/

/-- Where a path leads, from the root or from wherever it is looked up: so many levels up, and from there down along names. -/
@[ext] structure Place where
  fromRoot : Bool
  up : Nat := 0
  down : List String := []
deriving DecidableEq

namespace Place

variable {p q : Place}

/-- The place a level up. The root has none. -/
def parent (p : Place) : Place :=
  match p.down with
  | [] => if p.fromRoot then p else { p with up := p.up + 1 }
  | _ => { p with down := p.down.dropLast }

/-- The place down along names. -/
def along (p : Place) (names : List String) : Place := { p with down := p.down ++ names }

/-- The place to which one text between slashes leads. -/
def step (p : Place) (segment : String) : Place :=
  if Path.isIdle segment then p else if segment = ".." then p.parent else p.along [segment]

/-- The place to which texts between slashes lead. -/
def follow (p : Place) (segments : List String) : Place := segments.foldl step p

/-- The place that is reached from one place as another one is from where it is looked up. -/
def beyond (p q : Place) : Place := (parent^[q.up] p).along q.down

@[simp] theorem along_nil (p : Place) : p.along [] = p := by simp [along]

theorem along_along (p : Place) (names names' : List String) : (p.along names).along names' = p.along (names ++ names') := by
  simp [along]

theorem along_inj {names names' : List String} (h : p.along names = p.along names') : names = names' :=
  List.append_cancel_left (congrArg down h)

theorem parent_along (p : Place) {names : List String} (h : names ≠ []) : (p.along names).parent = p.along names.dropLast := by
  have hne : p.down ++ names ≠ [] := List.append_ne_nil_of_right_ne_nil _ h
  unfold parent along
  dsimp only
  split
  · rename_i hnil
    exact absurd hnil hne
  · rw [List.dropLast_append_of_ne_nil h]

theorem step_idle (p : Place) {segment : String} (h : Path.isIdle segment = true) : p.step segment = p := if_pos h

theorem step_parent (p : Place) : p.step ".." = p.parent := rfl

theorem step_name (p : Place) {name : String} (h : IsName name) : p.step name = p.along [name] := by
  unfold step
  rw [h.1, if_neg Bool.false_ne_true, if_neg h.2.1]

theorem follow_append (p : Place) (segments segments' : List String) :
    p.follow (segments ++ segments') = (p.follow segments).follow segments' := List.foldl_append

/-! ### Relative places -/

theorem beyond_start (p : Place) : p.beyond ⟨false, 0, []⟩ = p := along_nil p

/-- A step beyond a place is a step taken where one started. -/
theorem step_beyond (p : Place) (hq : q.fromRoot = false) (segment : String) :
    (p.beyond q).step segment = p.beyond (q.step segment) := by
  by_cases hidle : Path.isIdle segment = true
  · rw [step_idle _ hidle, step_idle _ hidle]
  · by_cases hup : segment = ".."
    · subst hup
      rw [step_parent, step_parent]
      unfold beyond
      cases hdown : q.down with
      | nil =>
        -- a level up from where the names begin is one more level up
        have hparent : q.parent = { q with up := q.up + 1 } := by
          unfold parent
          rw [hdown, hq]
          rfl
        rw [hparent, hdown, along_nil, along_nil, Function.iterate_succ_apply']
      | cons name names =>
        have hparent : q.parent = { q with down := q.down.dropLast } := by
          unfold parent
          rw [hdown]
        rw [hparent, parent_along _ (List.cons_ne_nil name names), hdown]
    · have hstep : ∀ r : Place, r.step segment = r.along [segment] := fun r => by
        unfold step
        rw [if_neg hidle, if_neg hup]
      rw [hstep, hstep]
      exact along_along _ _ _

theorem fromRoot_step (p : Place) (segment : String) : (p.step segment).fromRoot = p.fromRoot := by
  unfold step
  split
  · rfl
  · split
    · unfold parent
      split
      · split <;> rfl
      · rfl
    · rfl

theorem fromRoot_follow (p : Place) (segments : List String) : (p.follow segments).fromRoot = p.fromRoot := by
  induction segments generalizing p with
  | nil => rfl
  | cons segment segments ih => exact (ih (p.step segment)).trans (fromRoot_step p segment)

theorem follow_beyond (p : Place) (hq : q.fromRoot = false) (segments : List String) :
    (p.beyond q).follow segments = p.beyond (q.follow segments) := by
  induction segments generalizing q with
  | nil => rfl
  | cons segment segments ih =>
    change ((p.beyond q).step segment).follow segments = p.beyond ((q.step segment).follow segments)
    rw [step_beyond p hq]
    exact ih ((fromRoot_step q segment).trans hq)

/-- Texts lead from any place as they lead from where a relative path is looked up. -/
theorem follow_eq_beyond (p : Place) (segments : List String) :
    p.follow segments = p.beyond (follow ⟨false, 0, []⟩ segments) := by
  rw [← follow_beyond p rfl, beyond_start]

/-! ### Names -/

/-- Only names lead down. -/
theorem isName_of_mem_down_step {segment : String} (hsegment : '/' ∉ segment.toList) (hp : ∀ s ∈ p.down, IsName s) :
    ∀ s ∈ (p.step segment).down, IsName s := by
  unfold step
  split
  · exact hp
  · rename_i hidle
    split
    · unfold parent
      split
      · split <;> exact hp
      · exact fun s hs => hp s ((List.dropLast_sublist p.down).subset hs)
    · rename_i hup
      intro s hs
      rcases List.mem_append.mp hs with hs | hs
      · exact hp s hs
      · obtain rfl := List.mem_singleton.mp hs
        exact ⟨Bool.eq_false_iff.mpr hidle, hup, hsegment⟩

theorem isName_of_mem_down_follow {segments : List String} (hsegments : ∀ s ∈ segments, '/' ∉ s.toList)
    (hp : ∀ s ∈ p.down, IsName s) : ∀ s ∈ (p.follow segments).down, IsName s := by
  induction segments generalizing p with
  | nil => exact hp
  | cons segment segments ih =>
    obtain ⟨hsegment, hsegments⟩ := List.forall_mem_cons.mp hsegments
    exact ih hsegments (isName_of_mem_down_step hsegment hp)

/-! ### Places below places -/

/-- A place is another one or somewhere below it. -/
def Holds (p q : Place) : Prop := ∃ names, q = p.along names

/-- A place is somewhere below another one. -/
def HoldsBelow (p q : Place) : Prop := ∃ names, names ≠ [] ∧ q = p.along names

theorem HoldsBelow.holds (h : p.HoldsBelow q) : p.Holds q := h.imp fun _ => And.right

theorem holds_iff : p.Holds q ↔ q.fromRoot = p.fromRoot ∧ q.up = p.up ∧ p.down <+: q.down := by
  constructor
  · rintro ⟨names, rfl⟩
    exact ⟨rfl, rfl, List.prefix_append p.down names⟩
  · rintro ⟨hroot, hup, names, hdown⟩
    exact ⟨names, Place.ext hroot hup hdown.symm⟩

instance : Decidable (p.Holds q) := decidable_of_iff' _ holds_iff

end Place

/-! ## Paths -/

namespace Path

variable {p q : Path}

/-- Where a path leads. -/
def place (p : Path) : Place := Place.follow ⟨p.isAbsolute, 0, []⟩ p.segments

theorem segments_slash (s t : String) : segments ⟨s ++ "/" ++ t⟩ = segments ⟨s⟩ ++ segments ⟨t⟩ := by
  unfold segments
  rw [String.toList_append, String.toList_append, List.append_assoc, ← List.map_append]
  exact congrArg _ (List.splitOn_append_cons_self s.toList t.toList)

theorem not_mem_segments (p : Path) : ∀ s ∈ p.segments, '/' ∉ s.toList := by
  intro s hs
  obtain ⟨part, hpart, rfl⟩ := List.mem_map.mp hs
  rw [String.toList_ofList]
  exact Text.not_mem_of_mem_splitOn hpart

theorem segments_name {name : String} (h : IsName name) : segments ⟨name⟩ = [name] := by
  unfold segments
  rw [List.splitOn_eq_singleton h.2.2]
  simp

/-- Everything on the way down to where a path leads is a name. -/
theorem isName_of_mem_down (p : Path) : ∀ s ∈ p.place.down, IsName s :=
  Place.isName_of_mem_down_follow p.not_mem_segments nofun

/-! ### Joined paths -/

theorem isAbsolute_of_text_append {s : String} (t : String) (h : s ≠ "") : isAbsolute ⟨s ++ t⟩ = isAbsolute ⟨s⟩ := by
  have hne : s.toList ≠ [] := fun hnil => h (String.toList_eq_nil_iff.mp hnil)
  unfold isAbsolute
  rw [String.toList_append, List.head?_append_of_ne_nil _ hne]

/-- A path that ends with a slash has an idle text at its end. -/
theorem exists_of_getLast?_slash (h : p.text.toList.getLast? = some '/') : ∃ s : String, p.text = s ++ "/" := by
  obtain ⟨cs, hcs⟩ := List.getLast?_eq_some_iff.mp h
  refine ⟨String.ofList cs, ?_⟩
  rw [← String.toList_inj, String.toList_append, String.toList_ofList, hcs]
  rfl

theorem isAbsolute_join (p : Path) (hq : q.isAbsolute = false) : (p.join q).isAbsolute = p.isAbsolute := by
  unfold join
  rw [hq, Bool.false_or]
  split
  · rename_i hempty
    have hp : p = ⟨""⟩ := congrArg Path.mk (String.isEmpty_iff.mp hempty)
    rw [hp, hq]
    rfl
  · rename_i hempty
    have hne : p.text ≠ "" := fun h => hempty (String.isEmpty_iff.mpr h)
    split
    · exact isAbsolute_of_text_append q.text hne
    · rw [String.append_assoc]
      exact isAbsolute_of_text_append _ hne

theorem follow_empty (r : Place) : r.follow (segments ⟨""⟩) = r := by
  have hsegments : segments ⟨""⟩ = [""] := by simp [segments]
  have hidle : isIdle "" = true := rfl
  rw [hsegments]
  exact r.step_idle hidle

/-- The texts of a relative path are followed after those of the path to which it is joined. -/
theorem follow_segments_join (r : Place) (p : Path) (hq : q.isAbsolute = false) :
    r.follow (p.join q).segments = (r.follow p.segments).follow q.segments := by
  unfold join
  rw [hq, Bool.false_or]
  split
  · rename_i hempty
    have hp : p = ⟨""⟩ := congrArg Path.mk (String.isEmpty_iff.mp hempty)
    rw [hp, follow_empty]
  · split
    · rename_i hslash
      obtain ⟨s, hs⟩ := exists_of_getLast?_slash (beq_iff_eq.mp hslash)
      have hp : p = ⟨s ++ "/" ++ ""⟩ := by rw [String.append_empty, ← hs]
      rw [hs, segments_slash, Place.follow_append, hp, segments_slash, Place.follow_append, follow_empty]
    · rw [segments_slash, Place.follow_append]

theorem join_of_isAbsolute (p : Path) (h : q.isAbsolute = true) : p.join q = q := by
  unfold join
  rw [h, Bool.true_or, if_pos rfl]

theorem join_empty (q : Path) : join ⟨""⟩ q = q := by
  unfold join
  exact if_pos (Bool.or_eq_true_iff.mpr (Or.inr rfl))

theorem follow_segments (r : Place) (h : q.isAbsolute = false) : r.follow q.segments = r.beyond q.place := by
  unfold place
  rw [h]
  exact Place.follow_eq_beyond r q.segments

/-- A relative path leads on from where it is joined to, an absolute one leads where it always does. -/
theorem place_join (p q : Path) : (p.join q).place = if q.isAbsolute then q.place else p.place.beyond q.place := by
  cases hq : q.isAbsolute with
  | true => rw [join_of_isAbsolute p hq, if_pos rfl]
  | false =>
    have hplace : (p.join q).place = Place.follow ⟨p.isAbsolute, 0, []⟩ (p.join q).segments := by
      unfold place
      rw [isAbsolute_join p hq]
    rw [hplace, follow_segments_join _ p hq, follow_segments _ hq]
    rfl

theorem fromRoot_place (p : Path) : p.place.fromRoot = p.isAbsolute := Place.fromRoot_follow _ _

/-- Paths can be joined from either end. -/
theorem place_join_join (p q r : Path) : ((p.join q).join r).place = (p.join (q.join r)).place := by
  cases hr : r.isAbsolute with
  | true => rw [join_of_isAbsolute _ hr, join_of_isAbsolute q hr, join_of_isAbsolute p hr]
  | false =>
    rw [place_join _ r, hr, place_join p q, place_join p (q.join r), isAbsolute_join q hr, place_join q r, hr]
    cases hq : q.isAbsolute with
    | true => rfl
    | false =>
      have hassoc := Place.follow_beyond p.place ((fromRoot_place q).trans hq) r.segments
      rw [follow_segments _ hr, follow_segments _ hr] at hassoc
      exact hassoc

/-! ### Staying below -/

/-- A relative path that does not lead above where it begins. -/
def Descends (q : Path) : Prop := q.isAbsolute = false ∧ q.place.up = 0

instance : DecidablePred Descends := fun _ => inferInstanceAs (Decidable (_ ∧ _))

theorem Descends.place_join (h : q.Descends) (p : Path) : (p.join q).place = p.place.along q.place.down := by
  rw [Path.place_join, h.1]
  unfold Place.beyond
  rw [h.2]
  rfl

theorem Descends.place_eq (h : q.Descends) : q.place = Place.along ⟨false, 0, []⟩ q.place.down :=
  Place.ext ((fromRoot_place q).trans h.1) h.2 rfl

/-- What is held by the place where a relative path is looked up is reached without leaving it. -/
theorem descends_of_holds_empty (h : (place ⟨""⟩).Holds (join ⟨""⟩ q).place) : q.Descends := by
  have hempty : place ⟨""⟩ = ⟨false, 0, []⟩ := follow_empty _
  rw [join_empty, hempty] at h
  obtain ⟨hroot, hup, -⟩ := Place.holds_iff.mp h
  exact ⟨(fromRoot_place q).symm.trans hroot, hup⟩

/-- What is joined to a path stays below it, whatever the path, if it descends, and only then. -/
theorem holds_join_iff : (∀ p : Path, p.place.Holds (p.join q).place) ↔ q.Descends :=
  ⟨fun h => descends_of_holds_empty (h ⟨""⟩), fun h p => ⟨q.place.down, h.place_join p⟩⟩

theorem holdsBelow_join_iff :
    (∀ p : Path, p.place.HoldsBelow (p.join q).place) ↔ q.Descends ∧ q.place.down ≠ [] := by
  constructor
  · intro h
    have hdescends : q.Descends := holds_join_iff.mp fun p => (h p).holds
    obtain ⟨names, hne, hnames⟩ := h ⟨""⟩
    rw [hdescends.place_join] at hnames
    exact ⟨hdescends, Place.along_inj hnames ▸ hne⟩
  · rintro ⟨hdescends, hne⟩ p
    exact ⟨_, hne, hdescends.place_join p⟩

/-- A path that ends where it begins descends, one that begins with a level up does not, and there is no level above the root. -/
example : Descends ⟨"a/./.."⟩ ∧ ¬Descends ⟨"../a"⟩ ∧ place ⟨"/a/../../b"⟩ = ⟨true, 0, ["b"]⟩ := by
  decide +kernel

/-- Below one path, paths that descend lead to one place if they do so from anywhere. -/
theorem place_join_inj_iff {q' : Path} (h : q.Descends) (h' : q'.Descends) (p : Path) :
    (p.join q).place = (p.join q').place ↔ q.place = q'.place := by
  rw [h.place_join, h'.place_join]
  constructor
  · intro heq
    rw [h.place_eq, h'.place_eq, Place.along_inj heq]
  · intro heq
    rw [heq]

/-! ### Names -/

theorem place_name {name : String} (h : IsName name) : place ⟨name⟩ = ⟨false, 0, [name]⟩ := by
  have hrelative : isAbsolute ⟨name⟩ = false := by
    refine Bool.eq_false_iff.mpr fun habs => h.2.2 ?_
    exact List.mem_of_head? (beq_iff_eq.mp habs)
  unfold place
  rw [segments_name h, hrelative]
  exact Place.step_name _ h

theorem descends_name {name : String} (h : IsName name) : Descends ⟨name⟩ := by
  refine ⟨?_, ?_⟩
  · rw [← fromRoot_place, place_name h]
  · rw [place_name h]

theorem place_join_name (p : Path) {name : String} (h : IsName name) : (p.join ⟨name⟩).place = p.place.along [name] := by
  rw [(descends_name h).place_join, place_name h]

/-- Only names are components of where a path leads. -/
theorem isName_of_place_eq_along {p q : Path} {names : List String} (h : q.place = p.place.along names) :
    ∀ s ∈ names, IsName s := by
  intro s hs
  refine q.isName_of_mem_down s ?_
  rw [h]
  exact List.mem_append_right _ hs

end Path

end VersionChain.Files
