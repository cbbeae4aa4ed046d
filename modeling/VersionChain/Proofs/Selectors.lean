import Mathlib.Data.List.Basic
import Mathlib.Data.List.TakeWhile
import VersionChain.Matcher

/-!
# How selectors are read

A range is read just if it is written as one: brackets around two bounds with a comma between them, white space wherever it may
stand, and the bounds in order. `Reads` says what every selector is read as. A comma, white space or an opening bracket makes a
selector a range or an error, unless the selector asks for a status or ends with a plus; then anything may stand in it.
-/

namespace VersionChain

namespace Matcher

/-! ## Bounds -/

/-- Neither white space nor one of the characters that mark a range. -/
def IsBare (c : Char) : Prop := Text.isSpace c = false ∧ c ∉ [',', '[', ']', '(', ')']

theorem isBoundChar_iff {c : Char} : isBoundChar c = true ↔ IsBare c := by
  simp [isBoundChar, IsBare, and_assoc]

/-- A bound as it is written, with the white space around it. An empty text stands for no bound. -/
structure WrittenBound where
  before : List Char
  text : List Char
  after : List Char
  blank_before : Text.isBlank before = true
  bare : ∀ c ∈ text, IsBare c
  blank_after : Text.isBlank after = true

namespace WrittenBound

/-- The text with the white space. -/
def written (b : WrittenBound) : List Char := b.before ++ b.text ++ b.after

/-- The bound that is written. -/
def bound (b : WrittenBound) (inclusive : Bool) : Option Bound :=
  if b.text = [] then none else some ⟨⟨String.ofList b.text⟩, inclusive⟩

theorem bound?_text (b : WrittenBound) (inclusive : Bool) : bound? b.text inclusive = b.bound inclusive :=
  if_congr List.isEmpty_iff rfl rfl

end WrittenBound

/-- What is taken for a bound is written as one, with white space around it. -/
theorem boundText_sound (cs : List Char) :
    ∃ b : WrittenBound, b.text = (boundText cs).1 ∧ b.written ++ (boundText cs).2 = cs := by
  have hblank : ∀ l : List Char, Text.isBlank (l.takeWhile Text.isSpace) = true := fun l =>
    List.all_eq_true.mpr fun _ => List.mem_takeWhile_imp
  refine ⟨⟨cs.takeWhile Text.isSpace, (boundText cs).1,
    ((cs.dropWhile Text.isSpace).dropWhile isBoundChar).takeWhile Text.isSpace, hblank _,
    fun c hc => isBoundChar_iff.mp (List.mem_takeWhile_imp hc), hblank _⟩, rfl, ?_⟩
  unfold WrittenBound.written boundText
  simp only [List.append_assoc, List.takeWhile_append_dropWhile]

/-- A bound ends before a character that is neither white space nor bare. -/
theorem boundText_written (b : WrittenBound) {c : Char} (hspace : Text.isSpace c = false) (hbare : isBoundChar c = false)
    (rest : List Char) : boundText (b.written ++ c :: rest) = (b.text, c :: rest) := by
  have hbefore : ∀ d ∈ b.before, Text.isSpace d = true := fun d hd => List.all_eq_true.mp b.blank_before d hd
  have hafter : ∀ d ∈ b.after, Text.isSpace d = true := fun d hd => List.all_eq_true.mp b.blank_after d hd
  have htext : ∀ d ∈ b.text, isBoundChar d = true := fun d hd => isBoundChar_iff.mpr (b.bare d hd)
  have hend : (c :: rest).dropWhile Text.isSpace = c :: rest := List.dropWhile_cons_of_neg (by simp [hspace])
  -- after the text comes white space or the end, and neither belongs to it
  have hstop : (b.after ++ c :: rest).takeWhile isBoundChar = [] ∧
      (b.after ++ c :: rest).dropWhile isBoundChar = b.after ++ c :: rest := by
    generalize b.after = after at hafter
    cases after with
    | nil => exact ⟨List.takeWhile_cons_of_neg (by simp [hbare]), List.dropWhile_cons_of_neg (by simp [hbare])⟩
    | cons d after =>
      have hd : ¬isBoundChar d = true := fun h => by
        nomatch (hafter d List.mem_cons_self).symm.trans (isBoundChar_iff.mp h).1
      exact ⟨List.takeWhile_cons_of_neg hd, List.dropWhile_cons_of_neg hd⟩
  unfold boundText WrittenBound.written
  rw [List.append_assoc, List.append_assoc, List.dropWhile_append_of_pos hbefore]
  cases hb : b.text with
  | nil =>
    have hc : ¬isBoundChar c = true := by simp [hbare]
    rw [List.nil_append, List.dropWhile_append_of_pos hafter, hend]
    dsimp only
    rw [List.takeWhile_cons_of_neg hc, List.dropWhile_cons_of_neg hc, hend]
  | cons d ds =>
    rw [hb] at htext
    have hd : ¬Text.isSpace d = true := by simp [(b.bare d (hb ▸ List.mem_cons_self)).1]
    rw [List.cons_append, List.dropWhile_cons_of_neg hd, ← List.cons_append]
    dsimp only
    rw [List.takeWhile_append_of_pos htext, List.dropWhile_append_of_pos htext, hstop.1, hstop.2, List.append_nil,
      List.dropWhile_append_of_pos hafter, hend]

/-! ## Ranges -/

/-- A range as it is written: two bounds with a comma between them and brackets around them. -/
structure WrittenRange where
  opening : Char
  low : WrittenBound
  high : WrittenBound
  closing : Char
  opens : opening ∈ ['[', ']', '(']
  closes : closing ∈ [']', '[', ')']

namespace WrittenRange

/-- The whole text. -/
def text (r : WrittenRange) : List Char := r.opening :: (r.low.written ++ ',' :: (r.high.written ++ [r.closing]))

/-- The lower bound, which `[` includes. -/
def lower (r : WrittenRange) : Option Bound := r.low.bound (r.opening == '[')

/-- The upper bound, which `]` includes. -/
def upper (r : WrittenRange) : Option Bound := r.high.bound (r.closing == ']')

/-- If there are two bounds, the lower one is not the greater. -/
def InOrder (r : WrittenRange) : Prop :=
  r.low.text ≠ [] → r.high.text ≠ [] →
    Version.semanticCompare ⟨String.ofList r.low.text⟩ ⟨String.ofList r.high.text⟩ ≠ .gt

theorem inOrder_iff {r : WrittenRange} : inOrder r.lower r.upper = true ↔ r.InOrder := by
  unfold lower upper WrittenBound.bound InOrder
  by_cases hl : r.low.text = [] <;> by_cases hh : r.high.text = [] <;> simp [inOrder, hl, hh]

/-- A range that is in order is read as such, one that is not is not read. -/
theorem range?_text (r : WrittenRange) :
    range? r.text = if inOrder r.lower r.upper then some (.range r.lower r.upper) else none := by
  have hclosing : Text.isSpace r.closing = false ∧ isBoundChar r.closing = false := by
    have h := r.closes
    simp only [List.mem_cons, List.not_mem_nil, or_false] at h
    rcases h with h | h | h <;> rw [h] <;> exact ⟨by decide, by decide⟩
  have hopens : (r.opening == '[' || r.opening == ']' || r.opening == '(') = true := by
    simpa [or_assoc] using r.opens
  have hcloses : (r.closing == ']' || r.closing == '[' || r.closing == ')') = true := by
    simpa [or_assoc] using r.closes
  unfold range? text
  simp only [boundText_written r.low (c := ',') (by decide) (by decide),
    boundText_written r.high hclosing.1 hclosing.2, WrittenBound.bound?_text, hopens, hcloses, Bool.true_and]
  rfl

end WrittenRange

/-- What is read as a range is written as one, in order. -/
theorem range?_sound {cs : List Char} {m : Matcher} (h : range? cs = some m) :
    ∃ r : WrittenRange, r.text = cs ∧ r.InOrder ∧ m = .range r.lower r.upper := by
  unfold range? at h
  cases cs with
  | nil => nomatch h
  | cons opening cs =>
    obtain ⟨low, hlow, hcs⟩ := boundText_sound cs
    dsimp only at h
    split at h
    · rename_i rest hcomma
      obtain ⟨high, hhigh, hrest⟩ := boundText_sound rest
      split at h
      · rename_i closing hclosing
        split at h
        · rename_i hall
          simp only [Bool.and_eq_true, Bool.or_eq_true, beq_iff_eq] at hall
          obtain ⟨⟨hopens, hcloses⟩, horder⟩ := hall
          let r : WrittenRange := ⟨opening, low, high, closing, by simpa [or_assoc] using hopens,
            by simpa [or_assoc] using hcloses⟩
          rw [← hlow, ← hhigh, WrittenBound.bound?_text, WrittenBound.bound?_text] at h horder
          refine ⟨r, ?_, WrittenRange.inOrder_iff.mp horder, (Option.some.inj h).symm⟩
          unfold WrittenRange.text
          rw [← hclosing, hrest, ← hcomma, hcs]
        · nomatch h
      · nomatch h
    · nomatch h

theorem range?_eq_some_iff {cs : List Char} {m : Matcher} :
    range? cs = some m ↔ ∃ r : WrittenRange, r.text = cs ∧ r.InOrder ∧ m = .range r.lower r.upper := by
  constructor
  · exact range?_sound
  · rintro ⟨r, rfl, horder, rfl⟩
    rw [r.range?_text, if_pos (WrittenRange.inOrder_iff.mpr horder)]

/-! ## Selectors -/

/-- A comma or white space. -/
def IsStray (c : Char) : Prop := Text.isSpace c = true ∨ c = ','

/-- A text without the marks of any kind of selector: it does not ask for a status, nor end with a plus, nor open like a range. -/
structure IsUnmarked (cs : List Char) : Prop where
  noStatus : ¬"latest.".toList <+: cs
  noPlus : cs.getLast? ≠ some '+'
  noBracket : opensRange cs = false

/-- What a selector without white space around it is read as. -/
inductive Reads : List Char → Except SelectorFault Matcher → Prop where
  | empty : Reads [] (.error .empty)
  | latest {cs : List Char} (h : cs = "latest".toList ∨ cs = ['+']) : Reads cs (.ok (.latest none))
  | missingStatus : Reads "latest.".toList (.error .missingStatus)
  | status {status : List Char} (h : status ≠ []) :
      Reads ("latest.".toList ++ status) (.ok (.latest (some (String.ofList status))))
  | startingWith {start : List Char} (h : start ≠ []) (noStatus : ¬"latest.".toList <+: start ++ ['+']) :
      Reads (start ++ ['+']) (.ok (.startingWith (String.ofList start)))
  | range (r : WrittenRange) (inOrder : r.InOrder) : Reads r.text (.ok (.range r.lower r.upper))
  /-- The text opens like a range, but it is not one in order. -/
  | malformedRange {cs : List Char} (opens : opensRange cs = true) (noPlus : cs.getLast? ≠ some '+')
      (noRange : ∀ r : WrittenRange, r.InOrder → r.text ≠ cs) : Reads cs (.error .malformedRange)
  | strayCharacter {cs : List Char} (unmarked : IsUnmarked cs) (stray : ∃ c ∈ cs, IsStray c) :
      Reads cs (.error .strayCharacter)
  | exactly {cs : List Char} (h : cs ≠ []) (h' : cs ≠ "latest".toList) (unmarked : IsUnmarked cs)
      (tidy : ∀ c ∈ cs, ¬IsStray c) : Reads cs (.ok (.exactly (String.ofList cs)))

theorem isPrefixOf?_eq_none_iff {start cs : List Char} : start.isPrefixOf? cs = none ↔ ¬start <+: cs := by
  rw [← Option.not_isSome_iff_eq_none, List.isSome_isPrefixOf?_eq_isPrefixOf, List.isPrefixOf_iff_prefix]

variable {cs : List Char}

/-- A text that opens like a range neither asks for the latest version nor for a status. -/
theorem not_latest_of_opensRange (h : opensRange cs = true) :
    cs ≠ [] ∧ cs ≠ "latest".toList ∧ ¬"latest.".toList <+: cs := by
  refine ⟨?_, ?_, ?_⟩
  · rintro rfl
    nomatch h
  · rintro rfl
    nomatch h
  · rintro ⟨rest, rfl⟩
    nomatch h

theorem any_isStray_iff : (cs.any fun c => Text.isSpace c || c == ',') = true ↔ ∃ c ∈ cs, IsStray c := by
  simp [List.any_eq_true, IsStray]

/-- Every selector is read by the rules. -/
theorem reads_ofTrimmed (cs : List Char) : Reads cs (ofTrimmed cs) := by
  unfold ofTrimmed
  split
  · rename_i hempty
    rw [List.isEmpty_iff.mp hempty]
    exact .empty
  rename_i hempty
  split
  · rename_i hlatest
    exact .latest (by simpa using hlatest)
  rename_i hlatest
  simp only [Bool.or_eq_true, beq_iff_eq, not_or] at hlatest
  split
  · rename_i status hstatus
    rw [← List.isPrefixOf?_eq_some_iff_append_eq.mp hstatus]
    split
    · rename_i hnil
      rw [List.isEmpty_iff.mp hnil]
      exact .missingStatus
    · rename_i hnil
      exact .status (by simpa using hnil)
  · rename_i hnone
    have hnone := isPrefixOf?_eq_none_iff.mp hnone
    split
    · rename_i hplus
      obtain ⟨start, rfl⟩ := List.getLast?_eq_some_iff.mp (by simpa using hplus)
      rw [List.dropLast_concat]
      exact .startingWith (fun h => hlatest.2 (by rw [h]; rfl)) hnone
    rename_i hplus
    have hplus : cs.getLast? ≠ some '+' := by simpa using hplus
    split
    · rename_i hopens
      split
      · rename_i m hrange
        obtain ⟨r, rfl, horder, rfl⟩ := range?_eq_some_iff.mp hrange
        exact .range r horder
      · rename_i hrange
        refine .malformedRange hopens hplus fun r horder htext => ?_
        nomatch hrange.symm.trans (range?_eq_some_iff.mpr ⟨r, htext, horder, rfl⟩)
    · rename_i hopens
      have hunmarked : IsUnmarked cs := ⟨hnone, hplus, by simpa using hopens⟩
      split
      · rename_i hstray
        exact .strayCharacter hunmarked (any_isStray_iff.mp hstray)
      · rename_i hstray
        refine .exactly (by simpa using hempty) hlatest.1 hunmarked fun c hc hbad => ?_
        exact hstray (any_isStray_iff.mpr ⟨c, hc, hbad⟩)

/-- What neither is empty nor asks for the latest version or a status is told apart by its end, its beginning and its characters. -/
theorem ofTrimmed_of_noStatus (hne : cs ≠ []) (hlatest : cs ≠ "latest".toList ∧ cs ≠ ['+'])
    (hstatus : ¬"latest.".toList <+: cs) :
    ofTrimmed cs =
      if cs.getLast? == some '+' then .ok (.startingWith (String.ofList cs.dropLast))
      else if opensRange cs then
        match range? cs with
        | some m => .ok m
        | none => .error .malformedRange
      else if cs.any fun c => Text.isSpace c || c == ',' then .error .strayCharacter
      else .ok (.exactly (String.ofList cs)) := by
  unfold ofTrimmed
  rewrite [if_neg (by simpa using hne), if_neg (by simpa using hlatest), isPrefixOf?_eq_none_iff.mpr hstatus]
  rfl

theorem ofTrimmed_of_opensRange (hopens : opensRange cs = true) (hplus : cs.getLast? ≠ some '+') :
    ofTrimmed cs = match range? cs with
      | some m => .ok m
      | none => .error .malformedRange := by
  obtain ⟨hne, hlatest, hstatus⟩ := not_latest_of_opensRange hopens
  have hsole : cs ≠ ['+'] := by
    rintro rfl
    exact hplus rfl
  rw [ofTrimmed_of_noStatus hne ⟨hlatest, hsole⟩ hstatus, if_neg (by simpa using hplus), if_pos hopens]

theorem ofTrimmed_of_isUnmarked (hne : cs ≠ []) (hlatest : cs ≠ "latest".toList) (h : IsUnmarked cs) :
    ofTrimmed cs =
      if cs.any fun c => Text.isSpace c || c == ',' then .error .strayCharacter else .ok (.exactly (String.ofList cs)) := by
  have hsole : cs ≠ ['+'] := by
    rintro rfl
    exact h.noPlus rfl
  rw [ofTrimmed_of_noStatus hne ⟨hlatest, hsole⟩ h.noStatus, if_neg (by simpa using h.noPlus), if_neg (by simp [h.noBracket])]

namespace WrittenRange

theorem opensRange_text (r : WrittenRange) : opensRange r.text = true := by
  simpa [opensRange, text, or_assoc] using r.opens

theorem getLast?_text (r : WrittenRange) : r.text.getLast? = some r.closing := by
  have htext : r.text = (r.opening :: (r.low.written ++ ',' :: r.high.written)) ++ [r.closing] := by simp [text]
  rw [htext, List.getLast?_concat]

theorem noPlus_text (r : WrittenRange) : r.text.getLast? ≠ some '+' := by
  rw [getLast?_text]
  intro h
  have hcloses := r.closes
  rw [Option.some.inj h] at hcloses
  nomatch hcloses

/-- No other kind of selector takes a range away: it is read if it is in order, and refused if it is not. -/
theorem ofTrimmed_text (r : WrittenRange) :
    ofTrimmed r.text = if inOrder r.lower r.upper then .ok (.range r.lower r.upper) else .error .malformedRange := by
  rw [ofTrimmed_of_opensRange r.opensRange_text r.noPlus_text, range?_text]
  cases inOrder r.lower r.upper <;> rfl

end WrittenRange

/-- A selector is read only as the rules say. -/
theorem Reads.ofTrimmed_eq {result : Except SelectorFault Matcher} (h : Reads cs result) : ofTrimmed cs = result := by
  cases h with
  | empty => rfl
  | latest h => rcases h with rfl | rfl <;> rfl
  | missingStatus => rfl
  | @status status h =>
    have hlatest : ¬("latest.".toList ++ status == "latest".toList || "latest.".toList ++ status == ['+']) = true := nofun
    unfold ofTrimmed
    rw [if_neg (by simp), if_neg hlatest, List.isPrefixOf?_eq_some_iff_append_eq.mpr rfl]
    exact if_neg (by simpa using h)
  | @startingWith start h noStatus =>
    have hlatest : start ++ ['+'] ≠ "latest".toList := by
      intro heq
      have hlast := congrArg List.getLast? heq
      rw [List.getLast?_concat] at hlast
      nomatch hlast
    have hsole : start ++ ['+'] ≠ ['+'] := by simpa using h
    rw [ofTrimmed_of_noStatus (by simp) ⟨hlatest, hsole⟩ noStatus, if_pos (by simp), List.dropLast_concat]
  | range r inOrder => rw [r.ofTrimmed_text, if_pos (WrittenRange.inOrder_iff.mpr inOrder)]
  | malformedRange opens noPlus noRange =>
    have hnone : range? cs = none := by
      refine Option.eq_none_iff_forall_ne_some.mpr fun m hm => ?_
      obtain ⟨r, htext, horder, -⟩ := range?_eq_some_iff.mp hm
      exact noRange r horder htext
    rw [ofTrimmed_of_opensRange opens noPlus, hnone]
  | strayCharacter unmarked stray =>
    have hstray := any_isStray_iff.mpr stray
    have hne : cs ≠ [] := by
      rintro rfl
      nomatch hstray
    have hlatest : cs ≠ "latest".toList := by
      rintro rfl
      exact absurd hstray (by decide)
    rw [ofTrimmed_of_isUnmarked hne hlatest unmarked, if_pos hstray]
  | exactly h h' unmarked tidy =>
    rw [ofTrimmed_of_isUnmarked h h' unmarked, if_neg]
    rw [any_isStray_iff]
    exact fun ⟨c, hc, hbad⟩ => tidy c hc hbad

/-- What a selector without white space around it is read as, exactly. -/
theorem ofTrimmed_eq_iff {result : Except SelectorFault Matcher} : ofTrimmed cs = result ↔ Reads cs result := by
  constructor
  · rintro rfl
    exact reads_ofTrimmed cs
  · exact Reads.ofTrimmed_eq

theorem ofSelector_eq_ok_iff {selector : String} {m : Matcher} :
    ofSelector selector = .ok m ↔ Reads (Text.trimmed selector.toList) (.ok m) := by
  rw [← ofTrimmed_eq_iff]
  unfold ofSelector
  dsimp only
  cases ofTrimmed (Text.trimmed selector.toList) <;> simp

theorem ofSelector_eq_error_iff {selector : String} {e : SelectorError} :
    ofSelector selector = .error e ↔
      Reads (Text.trimmed selector.toList) (.error e.fault) ∧ e.selector = String.ofList (Text.trimmed selector.toList) := by
  rw [← ofTrimmed_eq_iff]
  unfold ofSelector
  dsimp only
  obtain ⟨text, fault⟩ := e
  cases ofTrimmed (Text.trimmed selector.toList) <;> simp [eq_comm, and_comm]

/-! ## What is read as a range -/

/-- A selector is a range just if it is written as one whose bounds are in order, and the bounds are the ones that are written. If
they are not in order the selector is refused. -/
theorem range_read (selector : String) :
    (∀ lower upper, ofSelector selector = .ok (.range lower upper) ↔
      ∃ r : WrittenRange, r.text = Text.trimmed selector.toList ∧ r.InOrder ∧ lower = r.lower ∧ upper = r.upper) ∧
    ∀ r : WrittenRange, r.text = Text.trimmed selector.toList → ¬r.InOrder →
      ofSelector selector = .error ⟨String.ofList r.text, .malformedRange⟩ := by
  refine ⟨fun lower upper => ?_, fun r htext horder => ?_⟩
  · rw [ofSelector_eq_ok_iff]
    generalize Text.trimmed selector.toList = cs
    constructor
    · intro h
      cases h with
      | range r inOrder => exact ⟨r, rfl, inOrder, rfl, rfl⟩
    · rintro ⟨r, rfl, horder, rfl, rfl⟩
      exact .range r horder
  · rw [ofSelector_eq_error_iff, ← htext, ← ofTrimmed_eq_iff, r.ofTrimmed_text,
      if_neg fun h => horder (WrittenRange.inOrder_iff.mp h)]
    exact ⟨rfl, rfl⟩

/-- White space is no part of a bound, an open bracket leaves it out, and a bound may be missing. -/
example :
    ofSelector " ] v1.0 ,\t) " = .ok (.range (some ⟨⟨"v1.0"⟩, false⟩) none) ∧
      ofSelector "[2.0,1.0]" = .error ⟨"[2.0,1.0]", .malformedRange⟩ := by
  decide +kernel

/-! ## What only a range may hold -/

/-- A text with a comma or white space in it, or with a bracket at its beginning: what only ranges have. -/
def IsRangeLike (cs : List Char) : Prop := (∃ c ∈ cs, IsStray c) ∨ opensRange cs = true

theorem isRangeLike_iff {cs : List Char} :
    IsRangeLike cs ↔ ((cs.any fun c => Text.isSpace c || c == ',') || opensRange cs) = true := by
  rw [Bool.or_eq_true, any_isStray_iff]
  rfl

instance (cs : List Char) : Decidable (IsRangeLike cs) := decidable_of_iff _ isRangeLike_iff.symm

/-- A text that is range-like is read as a range or refused, with two exceptions: if it asks for a status, all that follows is the
status, and if it ends with a plus, all that comes before is the start. -/
theorem rangeLike_read_iff (selector : String) (h : IsRangeLike (Text.trimmed selector.toList)) :
    let cs := Text.trimmed selector.toList
    (∀ m, ofSelector selector = .ok m ↔
      (∃ r : WrittenRange, r.text = cs ∧ r.InOrder ∧ m = .range r.lower r.upper) ∨
      (∃ status, cs = "latest.".toList ++ status ∧ m = .latest (some (String.ofList status))) ∨
      ¬"latest.".toList <+: cs ∧ ∃ start, cs = start ++ ['+'] ∧ m = .startingWith (String.ofList start)) ∧
    ∀ e, ofSelector selector = .error e →
      e = ⟨String.ofList cs, if opensRange cs then .malformedRange else .strayCharacter⟩ := by
  intro cs
  change IsRangeLike cs at h
  refine ⟨fun m => ?_, fun e he => ?_⟩
  · rw [ofSelector_eq_ok_iff]
    change Reads cs (.ok m) ↔ _
    generalize cs = cs at h
    constructor
    · intro hread
      cases hread with
      | latest hlatest => rcases hlatest with rfl | rfl <;> exact absurd h (by decide)
      | status => exact Or.inr (Or.inl ⟨_, rfl, rfl⟩)
      | startingWith _ noStatus => exact Or.inr (Or.inr ⟨noStatus, _, rfl, rfl⟩)
      | range r inOrder => exact Or.inl ⟨r, rfl, inOrder, rfl⟩
      | exactly _ _ unmarked tidy =>
        rcases h with ⟨c, hc, hstray⟩ | hopens
        · exact absurd hstray (tidy c hc)
        · nomatch unmarked.noBracket.symm.trans hopens
    · rintro (⟨r, rfl, horder, rfl⟩ | ⟨status, rfl, rfl⟩ | ⟨hstatus, start, rfl, rfl⟩)
      · exact .range r horder
      · refine .status ?_
        rintro rfl
        exact absurd h (by decide)
      · refine .startingWith ?_ hstatus
        rintro rfl
        exact absurd h (by decide)
  · obtain ⟨hread, htext⟩ := ofSelector_eq_error_iff.mp he
    obtain ⟨text, fault⟩ := e
    obtain rfl : text = String.ofList cs := htext
    change Reads cs (.error fault) at hread
    generalize cs = cs at h hread
    cases hread with
    | empty => exact absurd h (by decide)
    | missingStatus => exact absurd h (by decide)
    | malformedRange opens => rw [if_pos opens]
    | strayCharacter unmarked => rw [if_neg (by simp [unmarked.noBracket])]

/-- A list of versions is a status when it follows `latest.`. -/
theorem rangeLike_read_iff_listed :
    IsRangeLike (Text.trimmed "latest.release, 1.0".toList) ∧
      Matcher.ofSelector "latest.release, 1.0" = .ok (.latest (some "release, 1.0")) := by
  have hlike : IsRangeLike (Text.trimmed "latest.release, 1.0".toList) := by decide
  refine ⟨hlike, ((rangeLike_read_iff "latest.release, 1.0" hlike).1 _).mpr (Or.inr (Or.inl ⟨"release, 1.0".toList, ?_, rfl⟩))⟩
  decide

/-- Not all that is range-like is read as a range or refused: a range that ends with a plus asks for the versions that start so. -/
theorem not_all_rangeLike_refused :
    ¬∀ (selector : String) (m : Matcher), ofSelector selector = .ok m → (∀ lower upper, m ≠ .range lower upper) →
      ¬IsRangeLike (Text.trimmed selector.toList) := by
  intro h
  exact h "[1.0,2.+" (.startingWith "[1.0,2.") (by decide +kernel) nofun (Or.inr (by decide +kernel))

end Matcher

end VersionChain
