import Mathlib.Data.List.Basic
import ODataPlan.Failure

/-! What is shown of failures that were put into context. Main statement: a context is shown by its
outermost condition only, so every condition is shown exactly where no context has causes of its
own. -/
namespace ODataPlan

namespace FailureKind

variable {xs ys : List FailureKind}

def joined (xs : List FailureKind) : String := ": ".intercalate (xs.map FailureKind.text)

/-- How much room conditions take up, with a separator behind each. -/
def room : List FailureKind → Nat
  | [] => 0
  | k :: xs => k.text.length + 2 + room xs

@[simp] theorem room_cons (k : FailureKind) (xs : List FailureKind) :
    room (k :: xs) = k.text.length + 2 + room xs := rfl

theorem joined_cons (k : FailureKind) (h : xs ≠ []) :
    joined (k :: xs) = k.text ++ ": " ++ joined xs :=
  String.intercalate_cons_of_ne_nil (by simpa using h)

theorem joined_append (hx : xs ≠ []) (hy : ys ≠ []) :
    joined (xs ++ ys) = joined xs ++ ": " ++ joined ys := by
  rw [joined, List.map_append]
  exact String.intercalate_append_of_ne_nil (by simpa using hx) (by simpa using hy)

theorem length_joined (h : xs ≠ []) : (joined xs).length + 2 = room xs := by
  induction xs with
  | nil => exact absurd rfl h
  | cons k xs ih =>
    by_cases hxs : xs = []
    · simp [hxs, joined, room]
    · have separator : ": ".length = 2 := rfl
      rw [joined_cons k hxs, room_cons, ← ih hxs, String.length_append, String.length_append]
      omega

/-- Conditions that are left out leave room. -/
theorem room_le_of_sublist (h : xs.Sublist ys) : room xs ≤ room ys := by
  induction h with
  | slnil => exact Nat.le_refl _
  | cons k _ ih =>
    rw [room_cons]
    omega
  | cons_cons k _ ih =>
    rw [room_cons, room_cons]
    omega

theorem eq_of_sublist_of_room_eq (h : xs.Sublist ys) (hroom : room xs = room ys) : xs = ys := by
  induction h with
  | slnil => rfl
  | cons k h _ =>
    have := room_le_of_sublist h
    rw [room_cons] at hroom
    omega
  | cons_cons k _ ih =>
    rw [room_cons, room_cons] at hroom
    rw [ih (by omega)]

/-- Some of the conditions read as all of them only if none is left out. -/
theorem joined_eq_iff_of_sublist (h : xs.Sublist ys) (hx : xs ≠ []) :
    joined xs = joined ys ↔ xs = ys := by
  refine ⟨fun heq => eq_of_sublist_of_room_eq h ?_, congrArg joined⟩
  have hy : ys ≠ [] := fun hy => hx (List.eq_nil_of_sublist_nil (hy ▸ h))
  rw [← length_joined hx, ← length_joined hy, heq]

end FailureKind

namespace Failure

open FailureKind

variable (e c : Failure)

theorem message_eq_joined : e.message = joined e.chain := rfl

theorem chain_ne_nil : e.chain ≠ [] := List.cons_ne_nil _ _

theorem message_context : (e.context c).message = c.kind.text ++ ": " ++ e.message :=
  joined_cons c.kind e.chain_ne_nil

/-- A context is shown as it shows itself exactly if it has no causes. -/
theorem message_context_eq_iff :
    (e.context c).message = c.message ++ ": " ++ e.message ↔ c.causes = [] := by
  have shown : (e.context c).chain.Sublist (c.chain ++ e.chain) :=
    (List.sublist_append_right c.causes e.chain).cons_cons c.kind
  rw [message_eq_joined, message_eq_joined, message_eq_joined,
    ← joined_append c.chain_ne_nil e.chain_ne_nil, joined_eq_iff_of_sublist shown (chain_ne_nil _)]
  simp [chain, context]

end Failure

/-- How a failure comes about: a condition alone, or a failure to which another one is added as
context. -/
inductive Nesting where
  | condition (k : FailureKind)
  | inContext (e c : Nesting)

namespace Nesting

def failure : Nesting → Failure
  | condition k => .ofKind k
  | inContext e c => e.failure.context c.failure

/-- All conditions, those of a context before those of what it is added to. -/
def conditions : Nesting → List FailureKind
  | condition k => [k]
  | inContext e c => c.conditions ++ e.conditions

def outermost : Nesting → FailureKind
  | condition k => k
  | inContext _ c => c.outermost

/-- The root cause behind the outermost conditions of its contexts, the one added last in front. -/
def shown : Nesting → List FailureKind
  | condition k => [k]
  | inContext e c => c.outermost :: e.shown

/-- Every context is a condition alone. -/
def Plain : Nesting → Prop
  | condition _ => True
  | inContext e c => e.Plain ∧ ∃ k, c = condition k

theorem kind_failure (n : Nesting) : n.failure.kind = n.outermost := by
  induction n with
  | condition k => rfl
  | inContext e c _ ih => exact ih

theorem chain_failure (n : Nesting) : n.failure.chain = n.shown := by
  induction n with
  | condition k => rfl
  | inContext e c ih _ => rw [failure, Failure.chain_context, kind_failure, ih, shown]

theorem exists_conditions_eq (n : Nesting) : ∃ rest, n.conditions = n.outermost :: rest := by
  induction n with
  | condition k => exact ⟨[], rfl⟩
  | inContext e c _ ih =>
    obtain ⟨rest, hc⟩ := ih
    exact ⟨rest ++ e.conditions, by rw [conditions, hc, outermost, List.cons_append]⟩

theorem shown_sublist (n : Nesting) : n.shown.Sublist n.conditions := by
  induction n with
  | condition k => exact List.Sublist.refl _
  | inContext e c ih _ =>
    obtain ⟨rest, hc⟩ := c.exists_conditions_eq
    rw [shown, conditions, hc]
    exact (ih.trans (List.sublist_append_right rest e.conditions)).cons_cons c.outermost

/-- Only a condition alone consists of one condition. -/
theorem conditions_eq_singleton_iff {n : Nesting} :
    n.conditions = [n.outermost] ↔ ∃ k, n = condition k := by
  constructor
  · intro h
    cases n with
    | condition k => exact ⟨k, rfl⟩
    | inContext e c =>
      obtain ⟨_, hc⟩ := c.exists_conditions_eq
      obtain ⟨_, he⟩ := e.exists_conditions_eq
      simp [conditions, hc, he] at h
  · rintro ⟨k, rfl⟩
    rfl

theorem shown_eq_conditions_iff (n : Nesting) : n.shown = n.conditions ↔ n.Plain := by
  induction n with
  | condition k => simp [shown, conditions, Plain]
  | inContext e c ih _ =>
    obtain ⟨rest, hc⟩ := c.exists_conditions_eq
    rw [Plain, ← ih, ← conditions_eq_singleton_iff, shown, conditions, hc, List.cons_append,
      List.cons.injEq, List.cons.injEq]
    simp only [true_and]
    constructor
    · intro h
      -- what `e` shows cannot be longer than its conditions, so nothing of the context is in front
      have hlength := e.shown_sublist.length_le
      have hrest : rest = [] := by
        rw [h, List.length_append] at hlength
        exact List.eq_nil_of_length_eq_zero (by omega)
      exact ⟨by rw [h, hrest, List.nil_append], hrest⟩
    · rintro ⟨h, rfl⟩
      exact h

/-- A nested failure shows all its conditions exactly if every context is a condition alone. -/
theorem message_failure_eq_iff (n : Nesting) :
    n.failure.message = FailureKind.joined n.conditions ↔ n.Plain := by
  rw [Failure.message_eq_joined, chain_failure, ← shown_eq_conditions_iff]
  exact FailureKind.joined_eq_iff_of_sublist n.shown_sublist (n.chain_failure ▸ n.failure.chain_ne_nil)

end Nesting

namespace Failure

open FailureKind in
/-- A context is shown by its outermost condition, in front of what it is added to, and answers for
both, unless someone else still holds it. So nothing is lost exactly where contexts have no causes
of their own. -/
theorem context_shows_outermost (e c : Failure) (n : Nesting) :
    ((e.context c).message = c.kind.text ++ ": " ++ e.message ∧
      ∀ name, (e.context c).isA name = c.isA name) ∧
    ((e.context c.detached).message = c.kind.text ++ ": " ++ e.message ∧
      ∀ name, (e.context c.detached).isA name = false) ∧
    ((e.context c).message = c.message ++ ": " ++ e.message ↔ c.causes = []) ∧
    n.failure.message = joined n.shown ∧
    (n.failure.message = joined n.conditions ↔ n.Plain) := by
  refine ⟨⟨e.message_context c, fun _ => rfl⟩, ⟨e.message_context c.detached, fun _ => rfl⟩,
    e.message_context_eq_iff c, ?_, n.message_failure_eq_iff⟩
  rw [message_eq_joined, n.chain_failure]

end Failure

namespace Sample

/-- What a context was itself added to is not shown. -/
theorem exists_context_not_shown : ∃ e c : Failure,
    (e.context c).message ≠ c.message ++ ": " ++ e.message := by
  refine ⟨FailureKind.schemaMismatch "Web" "Foo",
    Failure.context (FailureKind.notExpressible "inner") (FailureKind.invalidPlan "outer"), ?_⟩
  rw [ne_eq, Failure.message_context_eq_iff]
  simp [Failure.context, Failure.chain]

end Sample

end ODataPlan
