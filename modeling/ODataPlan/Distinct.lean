/-! Lists that grow only by what they do not hold yet. -/
namespace ODataPlan

variable {α : Type} [DecidableEq α]

/-- Appends an element unless the list holds it. -/
def addNew (xs : List α) (x : α) : List α := if x ∈ xs then xs else xs ++ [x]

/-- Appends the elements of a second list in turn, each unless it is held by then. -/
def appendNew (xs ys : List α) : List α := ys.foldl addNew xs

@[simp] theorem mem_addNew {xs : List α} {x y : α} : y ∈ addNew xs x ↔ y ∈ xs ∨ y = x := by
  unfold addNew
  split
  · rename_i h
    exact ⟨Or.inl, fun hy => hy.elim id (fun e => e ▸ h)⟩
  · simp

@[simp] theorem appendNew_nil (xs : List α) : appendNew xs [] = xs := rfl

@[simp] theorem appendNew_cons (xs : List α) (y : α) (ys : List α) :
    appendNew xs (y :: ys) = appendNew (addNew xs y) ys := rfl

@[simp] theorem mem_appendNew {xs ys : List α} {y : α} : y ∈ appendNew xs ys ↔ y ∈ xs ∨ y ∈ ys := by
  induction ys generalizing xs with
  | nil => simp
  | cons z zs ih => simp [ih, or_assoc]

/-- What a list holds stays in front. -/
theorem prefix_appendNew (xs ys : List α) : xs <+: appendNew xs ys := by
  induction ys generalizing xs with
  | nil => exact List.prefix_refl xs
  | cons y ys ih =>
    refine List.IsPrefix.trans ?_ (ih (addNew xs y))
    unfold addNew
    split
    · exact List.prefix_refl xs
    · exact List.prefix_append xs [y]

/-- Induction along `List.eraseDups`, which keeps the head and drops what is equal to it behind. -/
theorem eraseDups_induction {β : Type} [BEq β] {P : List β → Prop} (nil : P [])
    (cons : ∀ x xs, P (xs.filter fun y => !y == x) → P (x :: xs)) (xs : List β) : P xs := by
  induction h : xs.length using Nat.strongRecOn generalizing xs with
  | ind n ih =>
    cases xs with
    | nil => exact nil
    | cons x xs =>
      have shorter : (xs.filter fun y => !y == x).length < n := by
        have := List.length_filter_le (fun y => !y == x) xs
        rw [List.length_cons] at h
        omega
      exact cons x xs (ih _ shorter _ rfl)

theorem eraseDups_eq_nil_iff {β : Type} [BEq β] {xs : List β} : xs.eraseDups = [] ↔ xs = [] := by
  cases xs <;> simp [List.eraseDups_cons]

section Equality

variable {β γ : Type} [BEq β] [LawfulBEq β] [BEq γ] [LawfulBEq γ]

theorem nodup_eraseDups (xs : List β) : xs.eraseDups.Nodup := by
  induction xs using eraseDups_induction with
  | nil => exact List.nodup_nil
  | cons x xs ih =>
    rw [List.eraseDups_cons, List.nodup_cons]
    exact ⟨by simp [List.mem_eraseDups], ih⟩

theorem eraseDups_of_nodup {xs : List β} (h : xs.Nodup) : xs.eraseDups = xs := by
  induction xs with
  | nil => rfl
  | cons x xs ih =>
    obtain ⟨hx, hxs⟩ := List.nodup_cons.mp h
    have fresh : (xs.filter fun y => !y == x) = xs := List.filter_eq_self.mpr fun y hy => by
      have : y ≠ x := fun he => hx (he ▸ hy)
      simpa using this
    rw [List.eraseDups_cons, fresh, ih hxs]

/-- A filter keeps the first occurrences of what it keeps. -/
theorem filter_eraseDups (keep : β → Bool) (xs : List β) :
    xs.eraseDups.filter keep = (xs.filter keep).eraseDups := by
  induction xs using eraseDups_induction with
  | nil => rfl
  | cons x xs ih =>
    rw [List.eraseDups_cons]
    by_cases hx : keep x = true
    · rw [List.filter_cons_of_pos hx, List.filter_cons_of_pos hx, List.eraseDups_cons, ih,
        List.filter_filter, List.filter_filter]
      simp only [Bool.and_comm]
    · have dropped : ∀ y ∈ xs, (keep y && !y == x) = keep y := by
        intro y _
        by_cases hy : y = x
        · simp [hy, hx]
        · simp [hy]
      rw [List.filter_cons_of_neg hx, List.filter_cons_of_neg hx, ih, List.filter_filter,
        List.filter_congr dropped]

theorem eraseDups_map_of_injOn {f : β → γ} {xs : List β}
    (hf : ∀ x ∈ xs, ∀ y ∈ xs, f x = f y → x = y) :
    (xs.map f).eraseDups = xs.eraseDups.map f := by
  induction xs using eraseDups_induction with
  | nil => rfl
  | cons x xs ih =>
    have same : ∀ y ∈ xs, (f y == f x) = (y == x) := by
      intro y hy
      rw [Bool.eq_iff_iff, beq_iff_eq, beq_iff_eq]
      exact ⟨hf y (List.mem_cons_of_mem x hy) x List.mem_cons_self, congrArg f⟩
    have hxs : xs.filter (fun y => !f y == f x) = xs.filter fun y => !y == x :=
      List.filter_congr fun y hy => by rw [same y hy]
    rw [List.map_cons, List.eraseDups_cons, List.eraseDups_cons, List.map_cons, List.filter_map,
      ← ih fun y hy z hz => hf y (List.mem_cons_of_mem x (List.mem_filter.mp hy).1) z
        (List.mem_cons_of_mem x (List.mem_filter.mp hz).1)]
    simp only [Function.comp_def, hxs]

theorem eraseDups_map {f : β → γ} (hf : Function.Injective f) (xs : List β) :
    (xs.map f).eraseDups = xs.eraseDups.map f := eraseDups_map_of_injOn fun _ _ _ _ h => hf h

end Equality

end ODataPlan
