import ODataPlan.Proofs.Mention

/-! What a selection records: at each chain of expandables a level with its scalars and whether its
default set is asked for. Adding a pick records exactly what the pick names. -/
namespace ODataPlan

theorem nodup_addNew {α : Type} [DecidableEq α] {xs : List α} (h : xs.Nodup) (x : α) :
    (addNew xs x).Nodup := by
  unfold addNew
  split
  · exact h
  · rename_i hx
    rw [List.nodup_append]
    refine ⟨h, List.nodup_singleton x, fun a ha b hb hab => ?_⟩
    exact hx (List.mem_singleton.mp hb ▸ hab ▸ ha)

namespace Branches

/-- The picked expandables, in the order in which they were first picked. -/
def keys (bs : Branches) : List FieldId := bs.toList.map (·.1)

theorem induction {motive : Branches → Prop} (nil : motive .nil)
    (cons : ∀ f n rest, motive rest → motive (.cons f n rest)) : ∀ bs, motive bs
  | .nil => nil
  | .cons f n rest => cons f n rest (induction nil cons rest)

@[simp] theorem keys_cons (f : FieldId) (n : Selection) (rest : Branches) :
    (cons f n rest).keys = f :: rest.keys := rfl

theorem isEmpty_eq_isEmpty_toList (bs : Branches) : bs.isEmpty = bs.toList.isEmpty := by
  cases bs <;> rfl

theorem mem_toList_of_get? {f : FieldId} {n : Selection} {bs : Branches}
    (h : bs.get? f = some n) : (f, n) ∈ bs.toList := by
  induction bs using Branches.induction with
  | nil => cases h
  | cons g k rest ih =>
    rw [get?] at h
    split at h
    · rename_i hg
      cases h
      simp [hg]
    · exact List.mem_cons_of_mem _ (ih h)

/-- Where the picked expandables are distinct, look-ups and the list of branches agree. -/
theorem get?_eq_some_iff {bs : Branches} (h : bs.keys.Nodup) {f : FieldId} {n : Selection} :
    bs.get? f = some n ↔ (f, n) ∈ bs.toList := by
  refine ⟨mem_toList_of_get?, fun hf => ?_⟩
  induction bs using Branches.induction with
  | nil => cases hf
  | cons g k rest ih =>
    obtain ⟨hg, hr⟩ := List.nodup_cons.mp h
    rcases List.mem_cons.mp hf with hf | hf
    · cases hf
      simp [get?]
    · have : g ≠ f := by
        rintro rfl
        exact hg (List.mem_map.mpr ⟨_, hf, rfl⟩)
      rw [get?, if_neg this]
      exact ih hr hf

theorem keys_set (f : FieldId) (s : Selection) (bs : Branches) :
    (bs.set f s).keys = addNew bs.keys f := by
  induction bs using Branches.induction with
  | nil => rfl
  | cons g k rest ih =>
    rw [set]
    split
    · rename_i hg
      simp [addNew, hg]
    · rename_i hg
      rw [keys_cons, ih, keys_cons]
      simp only [addNew, List.mem_cons, Ne.symm hg, false_or]
      split <;> rfl

theorem mem_toList_set {f g : FieldId} {s n : Selection} {bs : Branches}
    (h : (g, n) ∈ (bs.set f s).toList) : (g = f ∧ n = s) ∨ (g, n) ∈ bs.toList := by
  induction bs using Branches.induction with
  | nil => simpa [set] using h
  | cons k m rest ih =>
    rw [set] at h
    split at h
    · rename_i hk
      rcases List.mem_cons.mp h with h | h
      · cases h
        exact .inl ⟨hk, rfl⟩
      · exact .inr (List.mem_cons_of_mem _ h)
    · rcases List.mem_cons.mp h with h | h
      · exact .inr (h ▸ List.mem_cons_self)
      · exact (ih h).imp_right (List.mem_cons_of_mem _)

end Branches

namespace Selection

/-- The level of a selection at the end of a chain of expandables. -/
def level? : FieldPath → Selection → Option Selection
  | [], s => some s
  | f :: path, s => (s.branches.get? f).bind (level? path)

/-- A selection records a mention at a chain. -/
def Records (k : Mention) : FieldPath → Selection → Prop
  | [], s => k = .expandable ∨ (k = .bare ∧ s.includeDefaults = true)
  | f :: path, s =>
    (k = .scalar ∧ path = [] ∧ f ∈ s.fields) ∨
      ∃ n, s.branches.get? f = some n ∧ Records k path n

@[simp] theorem model_mk {m fs bs d} : (mk m fs bs d).model = m := rfl
@[simp] theorem fields_mk {m fs bs d} : (mk m fs bs d).fields = fs := rfl
@[simp] theorem branches_mk {m fs bs d} : (mk m fs bs d).branches = bs := rfl
@[simp] theorem includeDefaults_mk {m fs bs d} : (mk m fs bs d).includeDefaults = d := rfl

@[simp] theorem level?_nil (s : Selection) : s.level? [] = some s := rfl

theorem level?_cons (s : Selection) (f : FieldId) (path : FieldPath) :
    s.level? (f :: path) = (s.branches.get? f).bind (level? path) := rfl

@[simp] theorem level?_singleton (s : Selection) (f : FieldId) :
    s.level? [f] = s.branches.get? f := by
  cases h : s.branches.get? f <;> simp [level?_cons, h]

theorem level?_append (s : Selection) (p r : FieldPath) :
    s.level? (p ++ r) = (s.level? p).bind (level? r) := by
  induction p generalizing s with
  | nil => rfl
  | cons f p ih => simp [level?_cons, Option.bind_assoc, funext ih]

theorem exists_level?_cons {s : Selection} {f : FieldId} {path : FieldPath}
    {P : Selection → Prop} : (∃ n, s.level? (f :: path) = some n ∧ P n) ↔
      ∃ k, s.branches.get? f = some k ∧ ∃ n, k.level? path = some n ∧ P n := by
  simp only [level?_cons, Option.bind_eq_some_iff]
  constructor
  · rintro ⟨n, ⟨k, hk, hn⟩, h⟩
    exact ⟨k, hk, n, hn, h⟩
  · rintro ⟨k, hk, n, hn, h⟩
    exact ⟨n, ⟨k, hk, hn⟩, h⟩

theorem records_expandable_iff (s : Selection) (path : FieldPath) :
    s.Records .expandable path ↔ ∃ n, s.level? path = some n := by
  induction path generalizing s with
  | nil => simp [Records]
  | cons f path ih => simpa [Records, ih] using (exists_level?_cons (P := fun _ => True)).symm

theorem records_bare_iff (s : Selection) (path : FieldPath) :
    s.Records .bare path ↔ ∃ n, s.level? path = some n ∧ n.includeDefaults = true := by
  induction path generalizing s with
  | nil => simp [Records]
  | cons f path ih => simp [Records, ih, exists_level?_cons]

/-- What is recorded below a level is what the level records. -/
theorem records_append_iff {s n : Selection} {path : FieldPath} (h : s.level? path = some n)
    {k : Mention} {f : FieldId} {rest : FieldPath} :
    s.Records k (path ++ f :: rest) ↔ n.Records k (f :: rest) := by
  induction path generalizing s with
  | nil =>
    cases h
    rfl
  | cons g path ih =>
    obtain ⟨a, ha, hn⟩ := Option.bind_eq_some_iff.mp h
    rw [List.cons_append, Records, ← ih hn]
    simp [ha]

/-- The empty selection is one level without records. -/
theorem records_empty_iff (m : ModelId) (k : Mention) (path : FieldPath) :
    (empty m).Records k path ↔ k = .expandable ∧ path = [] := by
  cases path <;> simp [Records, empty, Branches.get?]

theorem records_branch_iff (s : Selection) (f : FieldId) (t : ModelId) (k : Mention)
    (path : FieldPath) : (s.branch f t).Records k path ↔
      (k = .expandable ∧ path = []) ∨ ∃ n, s.branches.get? f = some n ∧ n.Records k path := by
  cases h : s.branches.get? f with
  | none => simp [branch, h, records_empty_iff]
  | some n =>
    have : k = .expandable ∧ path = [] → n.Records k path := by
      rintro ⟨rfl, rfl⟩
      exact .inl rfl
    simpa [branch, h] using this

/-- A change within one branch that only adds records adds them behind the branch's field. -/
theorem records_alterBranch_iff {s : Selection} {f : FieldId} {t : ModelId}
    {g : Selection → Selection} {k : Mention} {Q : FieldPath → Prop}
    (h : ∀ path, (g (s.branch f t)).Records k path ↔ (s.branch f t).Records k path ∨ Q path)
    (path : FieldPath) : (s.alterBranch f t g).Records k path ↔
      s.Records k path ∨ (k = .expandable ∧ path = [f]) ∨ ∃ rest, path = f :: rest ∧ Q rest := by
  cases path with
  | nil => simp [Records, alterBranch, setBranch]
  | cons a rest =>
    simp only [Records, alterBranch, setBranch, fields_mk, branches_mk, List.cons.injEq]
    by_cases ha : a = f
    · subst ha
      simp only [Branches.get?_set_self, Option.some.injEq, exists_eq_left', h, records_branch_iff]
      grind
    · simp only [Branches.get?_set_ne ha, ha, false_and, and_false, exists_false, or_false]

theorem records_insertField_iff (s : Selection) (f : FieldId) (k : Mention) (path : FieldPath) :
    (s.insertField f).Records k path ↔ s.Records k path ∨ (k = .scalar ∧ path = [f]) := by
  obtain ⟨m, fs, bs, d⟩ := s
  cases path with
  | nil => simp [Records, insertField]
  | cons a rest =>
    simp only [Records, insertField, fields_mk, branches_mk, mem_addNew, List.cons.injEq]
    grind

theorem records_withDefaults_iff (s : Selection) (k : Mention) (path : FieldPath) :
    (s.withDefaults true).Records k path ↔ s.Records k path ∨ (k = .bare ∧ path = []) := by
  obtain ⟨m, fs, bs, d⟩ := s
  cases path <;> simp [Records, withDefaults]
  grind

theorem addAll_eq_foldl (s : Selection) (ps : List Pick) : s.addAll ps = ps.foldl add s := by
  induction ps generalizing s with
  | nil => rfl
  | cons p ps ih => exact ih (s.add p)

theorem records_foldl_add {k : Mention} {ps : List Pick}
    (h : ∀ p ∈ ps, ∀ (s : Selection) path, (s.add p).Records k path ↔
      s.Records k path ∨ p.Names k path) (s : Selection) (path : FieldPath) :
    (ps.foldl add s).Records k path ↔ s.Records k path ∨ ∃ p ∈ ps, p.Names k path := by
  induction ps generalizing s with
  | nil => simp
  | cons p ps ih =>
    obtain ⟨hp, hps⟩ := List.forall_mem_cons.mp h
    rw [List.foldl_cons, ih hps, hp, or_assoc]
    simp

/-- Adding a pick records what it names and nothing else. -/
theorem records_add_iff (p : Pick) (s : Selection) (k : Mention) (path : FieldPath) :
    (s.add p).Records k path ↔ s.Records k path ∨ p.Names k path := by
  induction p using Pick.induction generalizing s path with
  | scalar f => rw [add, records_insertField_iff, Pick.names_scalar_iff]
  | bare f t =>
    rw [add, records_alterBranch_iff fun rest => records_withDefaults_iff (s.branch f t) k rest,
      Pick.names_bare_iff]
    cases k <;> simp
  | within f t ps ih =>
    have h : ∀ rest, (addAll (s.branch f t) ps).Records k rest ↔
        (s.branch f t).Records k rest ∨ ∃ p ∈ ps, p.Names k rest := by
      intro rest
      rw [addAll_eq_foldl]
      exact records_foldl_add ih (s.branch f t) rest
    have swap : (∃ rest, path = f :: rest ∧ ∃ p ∈ ps, p.Names k rest) ↔
        ∃ p ∈ ps, ∃ rest, path = f :: rest ∧ p.Names k rest := by
      constructor
      · rintro ⟨rest, hr, p, hp, hn⟩
        exact ⟨p, hp, rest, hr, hn⟩
      · rintro ⟨p, hp, rest, hr, hn⟩
        exact ⟨rest, hr, p, hp, hn⟩
    rw [add, records_alterBranch_iff h, Pick.names_within_iff, swap]

/-- Adding picks in turn records what any of them names. -/
theorem records_addAll_iff (ps : List Pick) (s : Selection) (k : Mention) (path : FieldPath) :
    (s.addAll ps).Records k path ↔ s.Records k path ∨ ∃ p ∈ ps, p.Names k path := by
  rw [addAll_eq_foldl]
  exact records_foldl_add (fun p _ s path => records_add_iff p s k path) s path

end Selection

end ODataPlan
