import Mathlib.Data.List.Nodup
import ODataPlan.Proofs.Selection.Keys

/-! The levels of a selection, listed with the chains of expandables that lead to them. Main
statement: adding keys gives every level that picks something its model's key behind what it has,
leaves all else at every level as it is, and does nothing the second time. -/
namespace ODataPlan

/-- Paths that lie behind distinct ids are distinct. -/
theorem nodup_flatMap_of_prefix {α : Type} {key : α → FieldId} {g : α → List FieldPath}
    (path : FieldPath) {xs : List α} (h : (xs.map key).Nodup)
    (each : ∀ x ∈ xs, (g x).Nodup ∧ ∀ ids ∈ g x, path ++ [key x] <+: ids) :
    (xs.flatMap g).Nodup := by
  refine List.nodup_flatMap.mpr ⟨fun x hx => (each x hx).1, ?_⟩
  refine (List.pairwise_map.mp h).imp_of_mem fun {x y} hx hy hne ids hi hj => hne ?_
  obtain ⟨u, rfl⟩ := (each x hx).2 ids hi
  obtain ⟨v, hv⟩ := (each y hy).2 _ hj
  simp only [List.append_assoc, List.append_cancel_left_eq, List.cons_append, List.nil_append,
    List.cons.injEq] at hv
  exact hv.1.symm

mutual

/-- The levels of a selection, a level before those within it. -/
def Selection.levels : Selection → List (FieldPath × Selection)
  | .mk m fs bs d => ([], .mk m fs bs d) :: bs.levels

def Branches.levels : Branches → List (FieldPath × Selection)
  | .nil => []
  | .cons f n rest => (n.levels.map fun l => (f :: l.1, l.2)) ++ rest.levels

end

theorem Branches.levels_eq_flatMap (bs : Branches) :
    bs.levels = bs.toList.flatMap fun b => b.2.levels.map fun l => (b.1 :: l.1, l.2) := by
  induction bs using Branches.induction with
  | nil => rfl
  | cons f n rest ih => rw [levels, ih, toList_cons, List.flatMap_cons]

namespace Selection

variable {s : Schema}

/-- Induction on selections, for all branches of a level at once. -/
theorem induction {motive : Selection → Prop}
    (mk : ∀ m fs bs d, (∀ f n, (f, n) ∈ bs.toList → motive n) → motive (.mk m fs bs d))
    (a : Selection) : motive a := by
  refine @Selection.rec motive (fun bs => ∀ f n, (f, n) ∈ bs.toList → motive n) mk ?_ ?_ a
  · exact fun f n h => nomatch h
  · intro g k rest hk hrest f n h
    rcases List.mem_cons.mp h with h | h
    · cases h
      exact hk
    · exact hrest f n h

theorem levels_eq (a : Selection) : a.levels = ([], a) :: a.branches.levels := by
  cases a
  rfl

theorem root_mem_levels (a : Selection) : ([], a) ∈ a.levels := by
  rw [levels_eq]
  exact List.mem_cons_self

/-- A level is the root or a level of a branch. -/
theorem mem_levels_iff {a n : Selection} {ids : FieldPath} : (ids, n) ∈ a.levels ↔
    (ids = [] ∧ n = a) ∨
      ∃ f k rest, (f, k) ∈ a.branches.toList ∧ (rest, n) ∈ k.levels ∧ ids = f :: rest := by
  rw [levels_eq, List.mem_cons, Prod.mk.injEq, Branches.levels_eq_flatMap, List.mem_flatMap]
  refine or_congr_right ⟨?_, ?_⟩
  · rintro ⟨⟨f, k⟩, hk, hl⟩
    obtain ⟨⟨rest, n⟩, hn, he⟩ := List.mem_map.mp hl
    cases he
    exact ⟨f, k, rest, hk, hn, rfl⟩
  · rintro ⟨f, k, rest, hk, hn, rfl⟩
    exact ⟨(f, k), hk, List.mem_map.mpr ⟨(rest, n), hn, rfl⟩⟩

/-- Levels of a branch are levels of the selection. -/
theorem mem_levels_of_branch {a k : Selection} {f : FieldId} (hk : (f, k) ∈ a.branches.toList)
    {l : FieldPath × Selection} (h : l ∈ k.levels) : (f :: l.1, l.2) ∈ a.levels :=
  mem_levels_iff.mpr (.inr ⟨f, k, l.1, hk, h, rfl⟩)

/-- In a well-typed selection the level behind a chain is the one that is listed with it. -/
theorem WellTyped.mem_levels_iff {a : Selection} (ha : a.WellTyped s) {ids : FieldPath}
    {n : Selection} : (ids, n) ∈ a.levels ↔ a.level? ids = some n := by
  induction ha generalizing ids with
  | @mk m fields branches d model scalars nodup expandables nested ih =>
    rw [Selection.mem_levels_iff]
    cases ids with
    | nil => simp [eq_comm]
    | cons f rest =>
      rw [level?_cons, Option.bind_eq_some_iff]
      simp only [reduceCtorEq, false_and, false_or, branches_mk, List.cons.injEq]
      constructor
      · rintro ⟨f, k, rest, hk, hn, rfl, rfl⟩
        exact ⟨k, (Branches.get?_eq_some_iff nodup).mpr hk, (ih f k hk).mp hn⟩
      · rintro ⟨k, hk, hn⟩
        have hk := Branches.mem_toList_of_get? hk
        exact ⟨f, k, rest, hk, (ih f k hk).mpr hn, rfl, rfl⟩

/-- No two levels of a well-typed selection have the same chain. -/
theorem WellTyped.nodup_chains {a : Selection} (ha : a.WellTyped s) :
    (a.levels.map Prod.fst).Nodup := by
  induction ha with
  | @mk m fields branches d model scalars nodup expandables nested ih =>
    have chains : branches.levels.map Prod.fst =
        branches.toList.flatMap fun b => (b.2.levels.map Prod.fst).map (b.1 :: ·) := by
      simp [Branches.levels_eq_flatMap, List.map_flatMap, Function.comp_def]
    rw [levels, List.map_cons, chains, List.nodup_cons]
    constructor
    · simp
    · refine nodup_flatMap_of_prefix [] nodup fun b hb => ⟨?_, fun ids hids => ?_⟩
      · exact (ih b.1 b.2 hb).map fun _ _ h => (List.cons.inj h).2
      · obtain ⟨rest, _, rfl⟩ := List.mem_map.mp hids
        exact List.prefix_append [b.1] rest

/-- The levels with keys are the levels, each with keys. -/
theorem levels_keyed (a : Selection) :
    (a.keyed s).levels = a.levels.map fun l => (l.1, l.2.keyed s) := by
  induction a using Selection.induction with
  | mk m fs bs d ih =>
    have within : (bs.keyed s).levels = bs.levels.map fun l => (l.1, l.2.keyed s) := by
      rw [Branches.levels_eq_flatMap, Branches.levels_eq_flatMap, Branches.toList_keyed,
        List.flatMap_map, List.map_flatMap]
      refine List.flatMap_congr fun b hb => ?_
      rw [ih b.1 b.2 hb, List.map_map, List.map_map]
      rfl
    rw [levels_eq, branches_keyed, branches_mk, within, levels, List.map_cons]

/-- Adding keys succeeds where the models of all levels are registered. -/
theorem ensureKey_eq_ok (a : Selection)
    (h : ∀ l ∈ a.levels, (s.model? l.2.model).isSome = true) :
    a.ensureKey s = .ok (a.keyed s) := by
  induction a using Selection.induction with
  | mk m fs bs d ih =>
    obtain ⟨owner, howner⟩ := Option.isSome_iff_exists.mp (h _ (root_mem_levels _))
    exact ensureKey_mk_eq_ok howner fun f n hn => ih f n hn fun l hl =>
      h (f :: l.1, l.2) (mem_levels_of_branch hn hl)

end Selection

theorem Schema.withKey_withKey (s : Schema) (m : ModelId) (fs : List FieldId) :
    s.withKey m (s.withKey m fs) = s.withKey m fs := by
  unfold withKey
  cases s.model? m with
  | none => rfl
  | some owner => exact if_pos (mem_addNew.mpr (.inr rfl))

theorem Branches.keyed_keyed {s : Schema} {bs : Branches}
    (h : ∀ f n, (f, n) ∈ bs.toList → (n.keyed s).keyed s = n.keyed s) :
    (bs.keyed s).keyed s = bs.keyed s := by
  induction bs using Branches.induction with
  | nil => rfl
  | cons f n rest ih =>
    rw [keyed, keyed, h f n List.mem_cons_self, ih fun g k hk => h g k (List.mem_cons_of_mem _ hk)]

namespace Selection

variable {s : Schema} {a n : Selection}

/-- Keys that were added are not added again. -/
theorem keyed_keyed (a : Selection) : (a.keyed s).keyed s = a.keyed s := by
  induction a using Selection.induction with
  | mk m fs bs d ih =>
    rw [keyed, keyed, Branches.keyed_keyed ih]
    by_cases h : (fs.isEmpty && bs.isEmpty) = true
    · rw [if_pos h, Branches.isEmpty_keyed, if_pos h]
    · rw [if_neg h, Schema.withKey_withKey, ite_self]

/-- A level that picks nothing has nothing below it, so no key is added in it. -/
theorem keyed_of_isDefault (h : a.isDefault = true) : a.keyed s = a := by
  obtain ⟨m, fs, bs, d⟩ := a
  cases bs with
  | nil =>
    have hfs : (fs.isEmpty && Branches.nil.isEmpty) = true := h
    rw [keyed, if_pos hfs, Branches.keyed]
  | cons f n rest => simp [isDefault, Branches.isEmpty] at h

/-- What adding keys makes of a level. -/
structure GainsKey (s : Schema) (n k : Selection) : Prop where
  model : k.model = n.model
  expandables : k.branches.keys = n.branches.keys
  includeDefaults : k.includeDefaults = n.includeDefaults
  isDefault : k.isDefault = n.isDefault
  unpicked : n.isDefault = true → k = n
  picked : n.isDefault = false → ∃ m, s.model? n.model = some m ∧ m.key ∈ k.fields ∧
    k.fields = if m.key ∈ n.fields then n.fields else n.fields ++ [m.key]

theorem gainsKey_keyed (h : (s.model? n.model).isSome = true) : n.GainsKey s (n.keyed s) where
  model := model_keyed n
  expandables := by rw [branches_keyed, Branches.keys_keyed]
  includeDefaults := includeDefaults_keyed n
  isDefault := isDefault_keyed n
  unpicked := keyed_of_isDefault
  picked hpicked := by
    obtain ⟨m, hm⟩ := Option.isSome_iff_exists.mp h
    refine ⟨m, hm, (mem_fields_keyed_iff hm).mpr (.inr ⟨hpicked, rfl⟩), ?_⟩
    rw [fields_keyed, hpicked, Schema.withKey, hm]
    rfl

/-- Adding keys succeeds where the models of all levels are registered. It leaves the levels where
they are, gives each of them that picks something its key, and changes nothing the second time. -/
theorem ensureKey_gains_keys (a : Selection)
    (h : ∀ l ∈ a.levels, (s.model? l.2.model).isSome = true) :
    ∃ b, a.ensureKey s = .ok b ∧
      List.Forall₂ (fun l k => k.1 = l.1 ∧ l.2.GainsKey s k.2) a.levels b.levels ∧
      b.ensureKey s = .ok b := by
  refine ⟨a.keyed s, ensureKey_eq_ok a h, ?_, ?_⟩
  · rw [levels_keyed, List.forall₂_map_right_iff, List.forall₂_same]
    exact fun l hl => ⟨rfl, gainsKey_keyed (h l hl)⟩
  · have registered : ∀ l ∈ (a.keyed s).levels, (s.model? l.2.model).isSome = true := by
      rw [levels_keyed]
      intro k hk
      obtain ⟨l, hl, rfl⟩ := List.mem_map.mp hk
      rw [model_keyed]
      exact h l hl
    rw [ensureKey_eq_ok _ registered, keyed_keyed]

end Selection

namespace Sample

/-- A site by its title, with its owner bare and its lists by their titles. -/
def picked : Selection :=
  .mk ⟨0⟩ [⟨⟨0⟩, 1⟩] (.cons ⟨⟨0⟩, 2⟩ (.mk ⟨1⟩ [] .nil true)
    (.cons ⟨⟨0⟩, 3⟩ (.mk ⟨2⟩ [⟨⟨2⟩, 0⟩, ⟨⟨2⟩, 1⟩] .nil false) .nil)) false

end Sample

namespace Selection

/-- The site gains its key. The owner is bare, and the lists have theirs already. -/
theorem ensureKey_gains_keys_sample : ∃ b,
    (∀ l ∈ Sample.picked.levels, (Sample.db.schema.model? l.2.model).isSome = true) ∧
    Sample.picked.ensureKey Sample.db.schema = .ok b ∧
    List.Forall₂ (fun l k => k.1 = l.1 ∧ l.2.GainsKey Sample.db.schema k.2)
      Sample.picked.levels b.levels ∧
    b.ensureKey Sample.db.schema = .ok b ∧
    b.levels.map (·.2.fields) =
      [[⟨⟨0⟩, 1⟩, ⟨⟨0⟩, 0⟩], [], [⟨⟨2⟩, 0⟩, ⟨⟨2⟩, 1⟩]] := by
  have h : ∀ l ∈ Sample.picked.levels, (Sample.db.schema.model? l.2.model).isSome = true := by
    decide +kernel
  have hfields : (fun b => b.levels.map (·.2.fields)) <$>
      Sample.picked.ensureKey Sample.db.schema =
        .ok [[⟨⟨0⟩, 1⟩, ⟨⟨0⟩, 0⟩], [], [⟨⟨2⟩, 0⟩, ⟨⟨2⟩, 1⟩]] := by decide +kernel
  obtain ⟨b, hb, hlevels, hagain⟩ := ensureKey_gains_keys Sample.picked h
  obtain ⟨b', hb', hfields⟩ := Except.map_eq_ok_iff.mp hfields
  cases hb.symm.trans hb'
  exact ⟨b, h, hb, hlevels, hagain, hfields⟩

end Selection

end ODataPlan
