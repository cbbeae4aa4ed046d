/-!
# Lists without repetition

A list that keeps the first occurrence of each entry, in the order of arrival. The diagnostics of a failed request are lists of
this kind: locations that were searched, versions that did not match, versions that were rejected.
-/

namespace VersionChain.Text

/-- The list with `x` at its end, unless it holds `x` already. -/
def insertNew (xs : List String) (x : String) : List String :=
  if x ∈ xs then xs else xs ++ [x]

/-- The list with each entry of `more` inserted in turn. -/
def insertAll (xs more : List String) : List String := more.foldl insertNew xs

/-- The entries of a list, each at its first occurrence. -/
def distinct (xs : List String) : List String := insertAll [] xs

@[simp] theorem mem_insertNew {xs : List String} {x y : String} : y ∈ insertNew xs x ↔ y ∈ xs ∨ y = x := by
  unfold insertNew
  split
  · constructor
    · exact Or.inl
    · rintro (h | rfl) <;> assumption
  · simp

theorem nodup_insertNew {xs : List String} {x : String} (h : xs.Nodup) : (insertNew xs x).Nodup := by
  unfold insertNew
  split
  · exact h
  · rename_i hx
    rw [List.nodup_append]
    exact ⟨h, by simp, fun a ha b hb => by rw [List.mem_singleton.1 hb]; rintro rfl; exact hx ha⟩

theorem insertAll_append (xs ys zs : List String) : insertAll xs (ys ++ zs) = insertAll (insertAll xs ys) zs :=
  List.foldl_append

@[simp] theorem mem_insertAll {xs ys : List String} {y : String} : y ∈ insertAll xs ys ↔ y ∈ xs ∨ y ∈ ys := by
  induction ys generalizing xs with
  | nil => simp [insertAll]
  | cons z zs ih =>
    have step : insertAll xs (z :: zs) = insertAll (insertNew xs z) zs := rfl
    rw [step, ih, mem_insertNew, List.mem_cons, or_assoc]

theorem nodup_insertAll {xs ys : List String} (h : xs.Nodup) : (insertAll xs ys).Nodup := by
  induction ys generalizing xs with
  | nil => exact h
  | cons z zs ih => exact ih (nodup_insertNew h)

@[simp] theorem mem_distinct {xs : List String} {x : String} : x ∈ distinct xs ↔ x ∈ xs := by simp [distinct]

theorem nodup_distinct (xs : List String) : (distinct xs).Nodup := nodup_insertAll List.nodup_nil

/-- What is inserted comes after what was there. -/
theorem isPrefix_insertAll (xs ys : List String) : xs <+: insertAll xs ys := by
  induction ys generalizing xs with
  | nil => exact List.prefix_refl xs
  | cons y ys ih =>
    refine List.IsPrefix.trans ?_ (ih (insertNew xs y))
    unfold insertNew
    split
    · exact List.prefix_refl xs
    · exact List.prefix_append xs [y]

theorem insertAll_eq_self {xs ys : List String} (h : ∀ y ∈ ys, y ∈ xs) : insertAll xs ys = xs := by
  induction ys with
  | nil => rfl
  | cons y ys ih =>
    have hy : insertNew xs y = xs := if_pos (h y List.mem_cons_self)
    have step : insertAll xs (y :: ys) = insertAll (insertNew xs y) ys := rfl
    rw [step, hy, ih fun z hz => h z (List.mem_cons_of_mem _ hz)]

/-- The entries of a list are among its distinct entries already. -/
theorem insertAll_distinct_self (xs : List String) : insertAll (distinct xs) xs = distinct xs :=
  insertAll_eq_self fun _ hx => mem_distinct.mpr hx

theorem insertAll_insertNew (xs zs : List String) (y : String) :
    insertAll xs (insertNew zs y) = insertNew (insertAll xs zs) y := by
  unfold insertNew
  by_cases hy : y ∈ zs
  · rw [if_pos hy, if_pos (mem_insertAll.mpr (Or.inr hy))]
  · rw [if_neg hy, insertAll_append]
    rfl

/-- Entries may be inserted one after the other, or into a list that is inserted then. -/
theorem insertAll_insertAll (xs ys : List String) :
    ∀ zs : List String, insertAll xs (insertAll zs ys) = insertAll (insertAll xs zs) ys := by
  induction ys with
  | nil => intro zs; rfl
  | cons y ys ih =>
    intro zs
    have step : ∀ ws, insertAll ws (y :: ys) = insertAll (insertNew ws y) ys := fun _ => rfl
    rw [step, step, ih, insertAll_insertNew]

@[simp] theorem insertAll_distinct (xs ys : List String) : insertAll xs (distinct ys) = insertAll xs ys :=
  insertAll_insertAll xs ys []

/-- The distinct entries of several lists are the distinct ones among the distinct entries of each. -/
theorem distinct_flatMap_distinct {α : Type} (f : α → List String) (l : List α) :
    distinct (l.flatMap fun a => distinct (f a)) = distinct (l.flatMap f) := by
  have hinsert : ∀ xs, insertAll xs (l.flatMap fun a => distinct (f a)) = insertAll xs (l.flatMap f) := by
    induction l with
    | nil => intro xs; rfl
    | cons a l ih =>
      intro xs
      rw [List.flatMap_cons, List.flatMap_cons, insertAll_append, insertAll_append, insertAll_distinct, ih]
  exact hinsert []

end VersionChain.Text
