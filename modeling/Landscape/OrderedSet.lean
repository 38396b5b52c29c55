/-!
Lists as sets that remember the order of first insertion.
-/

namespace Landscape.OrderedSet

variable {α : Type} [DecidableEq α]

/-- Adds an element at the end, unless it is there already. -/
def insert (x : α) (xs : List α) : List α :=
  if x ∈ xs then xs else xs ++ [x]

/-- The elements of a list, each at its first occurrence. -/
def ofList (xs : List α) : List α :=
  xs.foldl (fun set x => insert x set) []

theorem mem_insert {x y : α} {xs : List α} : y ∈ insert x xs ↔ y ∈ xs ∨ y = x := by
  by_cases h : x ∈ xs <;> grind [insert]

theorem nodup_insert {x : α} {xs : List α} (h : xs.Nodup) : (insert x xs).Nodup := by
  by_cases hx : x ∈ xs <;> grind [insert, List.nodup_append]

/-! ## Several elements at once -/

/-- Adds the elements of a list, one after the other. -/
def insertAll (xs set : List α) : List α :=
  xs.foldl (fun set x => insert x set) set

theorem insertAll_append (xs ys set : List α) :
    insertAll (xs ++ ys) set = insertAll ys (insertAll xs set) :=
  List.foldl_append

theorem mem_insertAll {y : α} {xs set : List α} :
    y ∈ insertAll xs set ↔ y ∈ set ∨ y ∈ xs := by
  induction xs generalizing set with
  | nil => simp [insertAll]
  | cons x xs ih =>
      rw [insertAll, List.foldl_cons, ← insertAll, ih, mem_insert, List.mem_cons, or_assoc]

theorem nodup_insertAll (xs : List α) {set : List α} (h : set.Nodup) :
    (insertAll xs set).Nodup := by
  induction xs generalizing set with
  | nil => exact h
  | cons x xs ih => exact ih (nodup_insert h)

theorem insertAll_eq_append (xs set : List α) :
    insertAll xs set = set ++ (xs.filter fun x => x ∉ set).eraseDups := by
  induction xs generalizing set with
  | nil => simp [insertAll]
  | cons x xs ih =>
      rw [insertAll, List.foldl_cons, ← insertAll, ih]
      by_cases hx : x ∈ set
      · rw [insert, if_pos hx, List.filter_cons_of_neg (by simpa using hx)]
      · rw [insert, if_neg hx, List.filter_cons_of_pos (by simpa using hx),
          List.eraseDups_cons, List.filter_filter, List.append_assoc,
          List.singleton_append]
        congr 3
        refine List.filter_congr fun y _ => ?_
        rw [Bool.beq_eq_decide_eq]
        by_cases hy : y ∈ set <;> simp [hy]

/-- Inserting into nothing keeps the first occurrence of everything. -/
theorem insertAll_nil_eq_eraseDups (xs : List α) : insertAll xs [] = xs.eraseDups := by
  rw [insertAll_eq_append, List.nil_append, List.filter_eq_self.2 fun x _ => by simp]

theorem nodup_ofList (xs : List α) : (ofList xs).Nodup :=
  nodup_insertAll xs .nil

end Landscape.OrderedSet
