import ODataPlan.Proofs.Selection.Merging
import ODataPlan.Query.Directives

/-! Merging directives. Main statement: merging is associative and does nothing a second time or with
nothing to merge; what was there keeps its place, what is added is there afterwards, and the main
request is shaped if one of the parts shapes it. -/
namespace ODataPlan

section Distinct

variable {α : Type} [DecidableEq α] {xs : List α}

theorem appendNew_addNew (xs ys : List α) (y : α) :
    appendNew xs (addNew ys y) = addNew (appendNew xs ys) y := by
  by_cases hy : y ∈ ys
  · rw [addNew_of_mem hy, addNew_of_mem (mem_appendNew.mpr (.inr hy))]
  · rw [addNew, if_neg hy, appendNew_append]
    rfl

/-- The entries of the second and third list can be put together before they are appended, also
where these repeat some. -/
theorem appendNew_assoc (xs ys zs : List α) :
    appendNew (appendNew xs ys) zs = appendNew xs (appendNew ys zs) := by
  induction zs generalizing ys with
  | nil => rfl
  | cons z zs ih => rw [appendNew_cons, appendNew_cons, ← ih, appendNew_addNew]

theorem nodup_appendNew (h : xs.Nodup) (ys : List α) : (appendNew xs ys).Nodup := by
  induction ys generalizing xs with
  | nil => exact h
  | cons y ys ih => exact ih (nodup_addNew h y)

theorem isEmpty_appendNew (xs ys : List α) :
    (appendNew xs ys).isEmpty = (xs.isEmpty && ys.isEmpty) := by
  rw [Bool.eq_iff_iff, Bool.and_eq_true]
  simp only [List.isEmpty_iff, List.eq_nil_iff_forall_not_mem, mem_appendNew, not_or,
    forall_and]

end Distinct

/-- The list `zs` starts with `xs` and holds what `xs` or `ys` holds. It repeats nothing, unless
`xs` does. -/
structure ExtendedBy {α : Type} (xs ys zs : List α) : Prop where
  keeps : xs <+: zs
  mem_iff : ∀ z, z ∈ zs ↔ z ∈ xs ∨ z ∈ ys
  nodup : xs.Nodup → zs.Nodup

theorem extendedBy_appendNew {α : Type} [DecidableEq α] (xs ys : List α) :
    ExtendedBy xs ys (appendNew xs ys) :=
  ⟨prefix_appendNew xs ys, fun _ => mem_appendNew, fun h => nodup_appendNew h ys⟩

namespace Directives

/-- Each list of the result extends that of `a` by that of `b`. -/
structure Joins (a b result : Directives) : Prop where
  filters : ExtendedBy a.filters b.filters result.filters
  orders : ExtendedBy a.orders b.orders result.orders
  select : ExtendedBy a.select b.select result.select
  expand : ExtendedBy a.expand b.expand result.expand

theorem joins_merge (a b : Directives) : a.Joins b (a.merge b) :=
  ⟨extendedBy_appendNew _ _, extendedBy_appendNew _ _, extendedBy_appendNew _ _,
    extendedBy_appendNew _ _⟩

theorem merge_assoc (a b c : Directives) : (a.merge b).merge c = a.merge (b.merge c) := by
  have last : ∀ x y z : Option Nat, (z <|> (y <|> x)) = ((z <|> y) <|> x) := by
    intro x y z
    cases z <;> rfl
  simp only [merge, appendNew_assoc, last]

theorem merge_empty (a : Directives) : a.merge {} = a := rfl

/-- Merging the same directives a second time changes nothing. -/
theorem merge_merge_self (a b : Directives) : (a.merge b).merge b = a.merge b := by
  have last : ∀ x y : Option Nat, (y <|> (y <|> x)) = (y <|> x) := by
    intro x y
    cases y <;> rfl
  have lists : ∀ {α : Type} [DecidableEq α] (xs ys : List α),
      appendNew (appendNew xs ys) ys = appendNew xs ys := fun xs ys =>
    appendNew_of_subset fun y hy => mem_appendNew.mpr (.inr hy)
  simp only [merge, last, lists]

theorem shapesPrimary_merge (a b : Directives) :
    (a.merge b).shapesPrimary = (a.shapesPrimary || b.shapesPrimary) := by
  have given : ∀ x y : Option Nat, (y <|> x).isSome = (x.isSome || y.isSome) := by
    intro x y
    cases x <;> cases y <;> rfl
  simp only [shapesPrimary, merge, given, isEmpty_appendNew, Bool.not_and]
  ac_rfl

/-- Merging directives into others is associative, and merging them again or merging none changes
nothing. Every list keeps its entries in their places and gains those of the other side, without
repeating any; and the result shapes the main request if one of the two does. -/
theorem merge_laws (a b c : Directives) :
    (a.merge b).merge c = a.merge (b.merge c) ∧ (a.merge b).merge b = a.merge b ∧
      a.merge {} = a ∧ a.Joins b (a.merge b) ∧
      (a.merge b).shapesPrimary = (a.shapesPrimary || b.shapesPrimary) :=
  ⟨merge_assoc a b c, merge_merge_self a b, merge_empty a, joins_merge a b,
    shapesPrimary_merge a b⟩

/-- What the first list repeats stays repeated, what the second repeats is added once. -/
example : (({ select := ["Id", "Id"] } : Directives).merge { select := ["Name", "Id", "Name"] }).select =
    ["Id", "Id", "Name"] := by decide

end Directives

end ODataPlan
