import Mathlib.Data.List.TakeWhile
import VersionChain.Coordinate

/-!
# How coordinates are written

A text is read as a module just if it is the written form of that module, and as a request just if it is the written form of that
request, perhaps with white space around the selector. Only a proper module or request has a written form that is read back: its
group and name hold something and no colon, and its selector holds something and has no white space at its ends. A written request
has a colon more than a written module, so that no text is both.
-/

namespace VersionChain

/-! ## Trimming -/

namespace Text

variable {cs t : List Char}

/-- A text with white space at neither end. -/
def IsTrim (cs : List Char) : Prop := ∀ c, cs.head? = some c ∨ cs.getLast? = some c → isSpace c = false

/-- What begins with something else than white space has none to drop. -/
theorem dropWhile_isSpace_eq_self (h : ∀ c, cs.head? = some c → isSpace c = false) : cs.dropWhile isSpace = cs := by
  cases cs with
  | nil => rfl
  | cons c cs => exact List.dropWhile_cons_of_neg (by simp [h c rfl])

theorem forall_isSpace_of_isBlank (h : isBlank cs = true) : ∀ c ∈ cs, isSpace c = true :=
  List.all_eq_true.mp h

theorem isBlank_takeWhile (cs : List Char) : isBlank (cs.takeWhile isSpace) = true :=
  List.all_eq_true.mpr fun _ => List.mem_takeWhile_imp

theorem isBlank_reverse (cs : List Char) : isBlank cs.reverse = isBlank cs := List.all_reverse

/-- The trimmed text and the white space that it is without make up the text. -/
theorem exists_of_trimmed (cs : List Char) :
    ∃ before after, isBlank before = true ∧ isBlank after = true ∧ before ++ trimmed cs ++ after = cs := by
  refine ⟨cs.takeWhile isSpace, ((cs.dropWhile isSpace).reverse.takeWhile isSpace).reverse, isBlank_takeWhile cs, ?_, ?_⟩
  · rw [isBlank_reverse]
    exact isBlank_takeWhile _
  · rw [trimmed, List.append_assoc, ← List.reverse_append, List.takeWhile_append_dropWhile, List.reverse_reverse,
      List.takeWhile_append_dropWhile]

theorem isTrim_trimmed (cs : List Char) : IsTrim (trimmed cs) := by
  have hfirst : ∀ l : List Char, ∀ c, (l.dropWhile isSpace).head? = some c → isSpace c = false := by
    intro l c hc
    have := List.head?_dropWhile_not isSpace l
    rw [hc] at this
    simpa using this
  rintro c (hc | hc)
  · -- what is cut off at the end leaves the beginning as it is
    obtain ⟨rest, hrest⟩ : trimmed cs <+: cs.dropWhile isSpace := by
      rw [← List.reverse_suffix, trimmed, List.reverse_reverse]
      exact List.dropWhile_suffix _
    refine hfirst cs c ?_
    rw [← hrest, List.head?_append, hc]
    rfl
  · rw [trimmed, List.getLast?_reverse] at hc
    exact hfirst _ c hc

/-- White space around a trim text is all that trimming takes away. -/
theorem trimmed_append {before after : List Char} (hbefore : isBlank before = true) (hafter : isBlank after = true)
    (h : IsTrim t) : trimmed (before ++ t ++ after) = t := by
  have hblank : ∀ c ∈ after.reverse, isSpace c = true :=
    forall_isSpace_of_isBlank ((isBlank_reverse after).trans hafter)
  unfold trimmed
  rw [List.append_assoc, List.dropWhile_append_of_pos (forall_isSpace_of_isBlank hbefore)]
  cases t with
  | nil => rw [List.nil_append, List.dropWhile_eq_nil_iff.mpr (forall_isSpace_of_isBlank hafter)]; rfl
  | cons c t =>
    rw [List.cons_append, List.dropWhile_cons_of_neg (by simp [h c (Or.inl rfl)]), ← List.cons_append, List.reverse_append,
      List.dropWhile_append_of_pos hblank, dropWhile_isSpace_eq_self, List.reverse_reverse]
    intro d hd
    rw [List.head?_reverse] at hd
    exact h d (Or.inr hd)

theorem trimmed_eq_iff :
    trimmed cs = t ↔
      IsTrim t ∧ ∃ before after, isBlank before = true ∧ isBlank after = true ∧ before ++ t ++ after = cs := by
  constructor
  · rintro rfl
    exact ⟨isTrim_trimmed cs, exists_of_trimmed cs⟩
  · rintro ⟨htrim, before, after, hbefore, hafter, rfl⟩
    exact trimmed_append hbefore hafter htrim

end Text

/-! ## Parts -/

/-- The texts between separators hold none of them. -/
theorem Text.not_mem_of_mem_splitOn {sep : Char} {cs part : List Char} (h : part ∈ cs.splitOn sep) : sep ∉ part := by
  induction cs generalizing part with
  | nil =>
    obtain rfl := List.mem_singleton.mp h
    exact List.not_mem_nil
  | cons c cs ih =>
    rw [List.splitOn_cons_eq_if_modifyHead] at h
    split at h
    · rcases List.mem_cons.mp h with rfl | h
      · exact List.not_mem_nil
      · exact ih h
    · rename_i hc
      obtain ⟨first, rest, hparts⟩ := List.exists_cons_of_ne_nil (List.splitOn_ne_nil sep cs)
      rw [hparts, List.modifyHead_cons] at h
      rcases List.mem_cons.mp h with rfl | h
      · have hfirst : sep ∉ first := ih (hparts ▸ List.mem_cons_self)
        exact List.not_mem_cons_of_ne_of_not_mem (fun heq => hc (beq_iff_eq.mpr heq.symm)) hfirst
      · exact ih (hparts ▸ List.mem_cons_of_mem first h)

/-- A text that can be written next to a colon and read back: it holds something, and no colon. -/
def IsPart (s : String) : Prop := s ≠ "" ∧ ':' ∉ s.toList

theorem isEmpty_toList_eq_false_iff {s : String} : s.toList.isEmpty = false ↔ s ≠ "" := by
  rw [List.isEmpty_eq_false_iff, Ne, String.toList_eq_nil_iff]

/-! ## Modules -/

namespace Module

variable {m : Module} {c : String}

/-- A module whose group and name can be written. -/
structure IsProper (m : Module) : Prop where
  group : IsPart m.group
  name : IsPart m.name

theorem toList_text (m : Module) : m.text.toList = m.group.toList ++ ':' :: m.name.toList := by
  simp [text]

/-- The written form of a proper module has just the one colon. -/
theorem IsProper.splitOn_text (h : m.IsProper) : m.text.toList.splitOn ':' = [m.group.toList, m.name.toList] := by
  rw [toList_text, List.splitOn_append_cons_self_of_not_mem h.group.2, List.splitOn_eq_singleton h.name.2]

theorem IsProper.ofText_text (h : m.IsProper) : ofText m.text = .ok m := by
  unfold ofText
  rw [h.splitOn_text]
  dsimp only
  rw [isEmpty_toList_eq_false_iff.mpr h.group.1, isEmpty_toList_eq_false_iff.mpr h.name.1, String.ofList_toList,
    String.ofList_toList]
  rfl

/-- What is read as a module is the written form of it, and the module is proper. -/
theorem of_ofText (h : ofText c = .ok m) : m.IsProper ∧ m.text = c := by
  unfold ofText at h
  split at h
  · rename_i group name hsplit
    split at h
    · nomatch h
    · rename_i hempty
      obtain rfl := Except.ok.inj h
      simp only [Bool.or_eq_true, List.isEmpty_iff, not_or] at hempty
      have hpart : ∀ part ∈ [group, name], ':' ∉ part := fun part hp => Text.not_mem_of_mem_splitOn (hsplit ▸ hp)
      have hjoined : [':'].intercalate (c.toList.splitOn ':') = c.toList := List.intercalate_splitOn ':'
      rw [hsplit] at hjoined
      refine ⟨⟨⟨?_, ?_⟩, ?_, ?_⟩, ?_⟩
      · simpa using hempty.1
      · simpa using hpart group (by simp)
      · simpa using hempty.2
      · simpa using hpart name (by simp)
      · rw [← String.toList_inj, toList_text, ← hjoined]
        simp
  · nomatch h

theorem ofText_eq_ok_iff : ofText c = .ok m ↔ m.IsProper ∧ m.text = c := by
  constructor
  · exact of_ofText
  · rintro ⟨h, rfl⟩
    exact h.ofText_text

end Module

/-! ## Requests -/

namespace Request

variable {r : Request} {c : String}

/-- A request for a proper module by a selector that holds something and has no white space at its ends. -/
structure IsProper (r : Request) : Prop where
  group : IsPart r.group
  name : IsPart r.name
  selector_ne : r.selector ≠ ""
  selector_isTrim : Text.IsTrim r.selector.toList

/-- The written form with white space before and after the selector. -/
def spacedText (r : Request) (before after : String) : String :=
  r.group ++ ":" ++ r.name ++ ":" ++ (before ++ r.selector ++ after)

theorem toList_spacedText (r : Request) (before after : String) :
    (r.spacedText before after).toList =
      r.group.toList ++ ':' :: (r.name.toList ++ ':' :: (before.toList ++ r.selector.toList ++ after.toList)) := by
  simp [spacedText]

theorem text_eq_spacedText (r : Request) : r.text = r.spacedText "" "" := by
  simp [text, spacedText]

theorem cut?_eq_some_iff {cs a b : List Char} : cut? cs = some (a, b) ↔ ':' ∉ a ∧ a ++ ':' :: b = cs := by
  unfold cut?
  constructor
  · intro h
    split at h
    · nomatch h
    · rename_i first rest hdrop
      obtain ⟨rfl, rfl⟩ := Prod.mk.inj (Option.some.inj h)
      have hfirst := List.head?_dropWhile_not (· != ':') cs
      rw [hdrop] at hfirst
      obtain rfl : first = ':' := by simpa using hfirst
      refine ⟨fun hmem => ?_, ?_⟩
      · simpa using List.mem_takeWhile_imp hmem
      · rw [← hdrop, List.takeWhile_append_dropWhile]
  · rintro ⟨hnot, rfl⟩
    have hall : ∀ d ∈ a, (d != ':') = true := fun d hd => bne_iff_ne.mpr fun heq => hnot (heq ▸ hd)
    rw [List.dropWhile_append_of_pos hall, List.takeWhile_append_of_pos hall]
    simp

theorem parts?_eq_some_iff {cs group name selector : List Char} :
    parts? cs = some (group, name, selector) ↔
      ':' ∉ group ∧ ':' ∉ name ∧
        ∃ rest, group ++ ':' :: (name ++ ':' :: rest) = cs ∧ Text.trimmed rest = selector := by
  unfold parts?
  simp only [bind, Option.bind_eq_some_iff, pure, Option.some.injEq, Prod.exists, Prod.mk.injEq, cut?_eq_some_iff]
  constructor
  · rintro ⟨_, _, ⟨hgroup, rfl⟩, _, _, ⟨hname, rfl⟩, rfl, rfl, rfl⟩
    exact ⟨hgroup, hname, _, rfl, rfl⟩
  · rintro ⟨hgroup, hname, rest, rfl, rfl⟩
    exact ⟨_, _, ⟨hgroup, rfl⟩, _, _, ⟨hname, rfl⟩, rfl, rfl, rfl⟩

/-- A proper request is read from its written form, also with white space around the selector. -/
theorem IsProper.ofText_spacedText (h : r.IsProper) {before after : String} (hbefore : Text.isBlank before.toList = true)
    (hafter : Text.isBlank after.toList = true) : ofText (r.spacedText before after) = .ok r := by
  have hparts : parts? (r.spacedText before after).toList = some (r.group.toList, r.name.toList, r.selector.toList) :=
    parts?_eq_some_iff.mpr ⟨h.group.2, h.name.2, _, (toList_spacedText r before after).symm,
      Text.trimmed_append hbefore hafter h.selector_isTrim⟩
  unfold ofText
  rw [hparts]
  dsimp only
  rw [isEmpty_toList_eq_false_iff.mpr h.group.1, isEmpty_toList_eq_false_iff.mpr h.name.1,
    isEmpty_toList_eq_false_iff.mpr h.selector_ne]
  simp

/-- What is read as a request is the written form of it, perhaps with white space around the selector, and the request is proper. -/
theorem of_ofText (h : ofText c = .ok r) :
    r.IsProper ∧ ∃ before after : String,
      Text.isBlank before.toList = true ∧ Text.isBlank after.toList = true ∧ r.spacedText before after = c := by
  unfold ofText at h
  split at h
  · rename_i group name selector hparts
    split at h
    · nomatch h
    · rename_i hempty
      obtain rfl := Except.ok.inj h
      simp only [Bool.or_eq_true, List.isEmpty_iff, not_or] at hempty
      obtain ⟨⟨hgroup, hname⟩, hselector⟩ := hempty
      obtain ⟨hgroup', hname', rest, hrest, hselector'⟩ := parts?_eq_some_iff.mp hparts
      obtain ⟨htrim, before, after, hbefore, hafter, rfl⟩ := Text.trimmed_eq_iff.mp hselector'
      refine ⟨⟨⟨?_, ?_⟩, ⟨?_, ?_⟩, ?_, ?_⟩, String.ofList before, String.ofList after, ?_, ?_, ?_⟩
      · simpa using hgroup
      · simpa using hgroup'
      · simpa using hname
      · simpa using hname'
      · simpa using hselector
      · simpa using htrim
      · simpa using hbefore
      · simpa using hafter
      · rw [← String.toList_inj, toList_spacedText, ← hrest]
        simp
  · nomatch h

theorem ofText_eq_ok_iff :
    ofText c = .ok r ↔ r.IsProper ∧ ∃ before after : String,
      Text.isBlank before.toList = true ∧ Text.isBlank after.toList = true ∧ r.spacedText before after = c := by
  constructor
  · exact of_ofText
  · rintro ⟨h, before, after, hbefore, hafter, rfl⟩
    exact h.ofText_spacedText hbefore hafter

theorem IsProper.ofText_text (h : r.IsProper) : ofText r.text = .ok r := by
  rw [text_eq_spacedText]
  exact h.ofText_spacedText rfl rfl

/-- A written request has two colons at least, so it is no written module. -/
theorem spacedText_ne_text {m : Module} (hm : m.IsProper) (r : Request) (before after : String) :
    r.spacedText before after ≠ m.text := by
  intro heq
  have hone := congrArg (List.count ':' ∘ String.toList) heq
  simp only [Function.comp_apply, toList_spacedText, Module.toList_text, List.count_append, List.count_cons_self,
    List.count_eq_zero.mpr hm.group.2, List.count_eq_zero.mpr hm.name.2] at hone
  omega

end Request

/-- A text is read as a request just if it is the written form of that request, which is proper, up to white space around the
selector; and as a module just if it is the written form of that module, which is proper. So the written form of what is read is
read as the same, every proper request and module is read from its written form, and no text is read as both. -/
theorem coordinates_read (c : String) :
    (∀ r : Request, Request.ofText c = .ok r ↔ r.IsProper ∧ ∃ before after : String,
      Text.isBlank before.toList = true ∧ Text.isBlank after.toList = true ∧ r.spacedText before after = c) ∧
    (∀ r : Request, Request.ofText c = .ok r → Request.ofText r.text = .ok r) ∧
    (∀ r : Request, r.IsProper → Request.ofText r.text = .ok r) ∧
    (∀ m : Module, Module.ofText c = .ok m ↔ m.IsProper ∧ m.text = c) ∧
    ¬((∃ r, Request.ofText c = .ok r) ∧ ∃ m, Module.ofText c = .ok m) := by
  refine ⟨fun r => Request.ofText_eq_ok_iff, fun r h => (Request.of_ofText h).1.ofText_text, fun r h => h.ofText_text,
    fun m => Module.ofText_eq_ok_iff, ?_⟩
  rintro ⟨⟨r, hr⟩, m, hm⟩
  obtain ⟨-, before, after, -, -, hrequest⟩ := Request.of_ofText hr
  obtain ⟨hproper, hmodule⟩ := Module.of_ofText hm
  exact Request.spacedText_ne_text hproper r before after (hrequest.trans hmodule.symm)

/-- A selector may hold more colons, and white space around it does not count. -/
example : Request.ofText "g:n: \u00a0[1.0,2.0):x\t" = .ok ⟨"g", "n", "[1.0,2.0):x"⟩ := by decide +kernel

end VersionChain
