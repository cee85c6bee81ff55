import ODataPlan.Proofs.Plan.Entries
import ODataPlan.Proofs.Resolution

/-! The entries of an inline expansion as a list computed from ids alone, level by level, and what
stands in it: one name to expand for every level and the entries of each level below its path. -/
namespace ODataPlan

/-- The entries of a level at a path: the name of the path itself if the level picks nothing. -/
def Selection.levelEntries (s : Schema) (d : Dialect) (path : FieldPath) (a : Selection) :
    List FieldPath := if a.isDefault then [path] else a.ownEntries s d path

mutual

/-- What expanding the field of a path inline projects. -/
def Selection.block (s : Schema) (d : Dialect) (path : FieldPath) : Selection → Projection
  | .mk m fs bs defaults =>
    ⟨(Selection.mk m fs bs defaults).levelEntries s d path, [path]⟩ ++ bs.blocks s d path

def Branches.blocks (s : Schema) (d : Dialect) (path : FieldPath) : Branches → Projection
  | .nil => {}
  | .cons f n rest => n.block s d (path ++ [f]) ++ rest.blocks s d path

end

variable {s : Schema} {d : Dialect} {path p : FieldPath}

theorem Branches.blocks_eq_concat (bs : Branches) :
    bs.blocks s d path = .concat (bs.toList.map fun b => b.2.block s d (path ++ [b.1])) := by
  induction bs using Branches.induction with
  | nil => rfl
  | cons f n rest ih => rw [blocks, ih, toList_cons, List.map_cons, Projection.concat]

namespace Selection

theorem expand_block (path : FieldPath) (a : Selection) :
    (a.block s d path).expand = [path] ++ (a.branches.blocks s d path).expand := by
  cases a
  rfl

theorem select_block (path : FieldPath) (a : Selection) : (a.block s d path).select =
    a.levelEntries s d path ++ (a.branches.blocks s d path).select := by
  cases a
  rfl

/-- The levels below the root of a selection are the levels of its branches. -/
theorem WellTyped.exists_branch_level_iff {a : Selection} (ha : a.WellTyped s)
    {P : FieldId → FieldPath → Selection → Prop} :
    (∃ f ids n, a.level? (f :: ids) = some n ∧ P f ids n) ↔
      ∃ f k, (f, k) ∈ a.branches.toList ∧ ∃ ids n, k.level? ids = some n ∧ P f ids n := by
  constructor
  · rintro ⟨f, ids, n, hn, h⟩
    obtain ⟨k, hk, n, hn, h⟩ := exists_level?_cons.mp ⟨n, hn, h⟩
    exact ⟨f, k, Branches.mem_toList_of_get? hk, ids, n, hn, h⟩
  · rintro ⟨f, k, hk, ids, n, hn, h⟩
    have hk := (Branches.get?_eq_some_iff ha.nodup_keys).mpr hk
    obtain ⟨n, hn, h⟩ := exists_level?_cons.mpr ⟨k, hk, n, hn, h⟩
    exact ⟨f, ids, n, hn, h⟩

theorem exists_level_iff {a : Selection} {P : FieldPath → Selection → Prop} :
    (∃ ids n, a.level? ids = some n ∧ P ids n) ↔
      P [] a ∨ ∃ f ids n, a.level? (f :: ids) = some n ∧ P (f :: ids) n := by
  constructor
  · rintro ⟨_ | ⟨f, ids⟩, n, hn, h⟩
    · cases hn
      exact .inl h
    · exact .inr ⟨f, ids, n, hn, h⟩
  · rintro (h | ⟨f, ids, n, hn, h⟩)
    · exact ⟨[], a, rfl, h⟩
    · exact ⟨f :: ids, n, hn, h⟩

section View

/-! One clause of a block: what a level adds to it itself stands before what its branches add. -/

variable {view : Projection → List FieldPath} {own : FieldPath → Selection → List FieldPath}

theorem mem_view_branches_iff (hconcat : ∀ ps, view (.concat ps) = ps.flatMap view)
    (a : Selection) : p ∈ view (a.branches.blocks s d path) ↔
      ∃ f k, (f, k) ∈ a.branches.toList ∧ p ∈ view (k.block s d (path ++ [f])) := by
  rw [Branches.blocks_eq_concat, hconcat]
  simp

theorem WellTyped.mem_view_block_iff (hconcat : ∀ ps, view (.concat ps) = ps.flatMap view)
    (hblock : ∀ path a, view (Selection.block s d path a) =
      own path a ++ view (a.branches.blocks s d path)) {a : Selection} (ha : a.WellTyped s) :
    p ∈ view (a.block s d path) ↔
      ∃ ids n, a.level? ids = some n ∧ p ∈ own (path ++ ids) n := by
  induction ha generalizing path with
  | @mk m fields branches defaults model scalars nodup expandables nested ih =>
    have hw := WellTyped.mk (d := defaults) model scalars nodup expandables nested
    rw [exists_level_iff, hw.exists_branch_level_iff, hblock, List.mem_append,
      mem_view_branches_iff hconcat, List.append_nil]
    refine or_congr_right (exists_congr fun f => exists_congr fun k => and_congr_right fun hk => ?_)
    have hview : p ∈ view (k.block s d (path ++ [f])) ↔ _ := ih f k hk
    simpa using hview

theorem WellTyped.mem_view_branches_level_iff
    (hconcat : ∀ ps, view (.concat ps) = ps.flatMap view)
    (hblock : ∀ path a, view (Selection.block s d path a) =
      own path a ++ view (a.branches.blocks s d path)) {a : Selection} (ha : a.WellTyped s) :
    p ∈ view (a.branches.blocks s d path) ↔
      ∃ f ids n, a.level? (f :: ids) = some n ∧ p ∈ own (path ++ f :: ids) n := by
  rw [ha.exists_branch_level_iff, mem_view_branches_iff hconcat]
  refine exists_congr fun f => exists_congr fun k => and_congr_right fun hk => ?_
  have hview : p ∈ view (k.block s d (path ++ [f])) ↔ _ :=
    (ha.of_branch hk).mem_view_block_iff hconcat hblock
  simpa using hview

end View

/-- An inline expansion names every level to expand. -/
theorem WellTyped.mem_expand_block_iff {a : Selection} (ha : a.WellTyped s) :
    p ∈ (a.block s d path).expand ↔ ∃ ids n, a.level? ids = some n ∧ p = path ++ ids := by
  simpa using ha.mem_view_block_iff Projection.expand_concat expand_block

/-- An inline expansion selects the entries of every level. -/
theorem WellTyped.mem_select_block_iff {a : Selection} (ha : a.WellTyped s) :
    p ∈ (a.block s d path).select ↔
      ∃ ids n, a.level? ids = some n ∧ p ∈ n.levelEntries s d (path ++ ids) :=
  ha.mem_view_block_iff Projection.select_concat select_block

theorem WellTyped.mem_expand_branches_iff {a : Selection} (ha : a.WellTyped s) :
    p ∈ (a.branches.blocks s d path).expand ↔
      ∃ f ids n, a.level? (f :: ids) = some n ∧ p = path ++ f :: ids := by
  simpa using ha.mem_view_branches_level_iff Projection.expand_concat expand_block

theorem WellTyped.mem_select_branches_iff {a : Selection} (ha : a.WellTyped s) :
    p ∈ (a.branches.blocks s d path).select ↔
      ∃ f ids n, a.level? (f :: ids) = some n ∧ p ∈ n.levelEntries s d (path ++ f :: ids) :=
  ha.mem_view_branches_level_iff Projection.select_concat select_block

theorem mem_levelEntries {a : Selection} : p ∈ a.levelEntries s d path ↔
    (a.isDefault = true ∧ p = path) ∨ (a.isDefault = false ∧ p ∈ a.ownEntries s d path) := by
  unfold levelEntries
  split <;> simp_all

def requestBlock (s : Schema) (d : Dialect) (a : Selection) : Projection :=
  match s.model? a.model with
  | none => {}
  | some m =>
    if a.isDefault then s.defaultBlock d m
    else .selecting ((if d = .rest then s.entry d [] m.key else []) ++ a.ownEntries s d [] ++
      m.requiredEntries d) ++ a.branches.blocks s d []

/-- A request for a level that picks its key selects the required fields and the entries of every
level. -/
theorem WellTyped.mem_select_requestBlock_iff {a : Selection} (ha : a.WellTyped s)
    (hd : a.isDefault = false) {m : Model} (hm : s.model? a.model = some m)
    (hkey : m.key ∈ a.fields) : p ∈ (a.requestBlock s d).select ↔
      p ∈ m.requiredEntries d ∨ ∃ ids n, a.level? ids = some n ∧ p ∈ n.levelEntries s d ids := by
  have hown : p ∈ (if d = .rest then s.entry d [] m.key else []) → p ∈ a.ownEntries s d [] := by
    intro h
    split at h
    · obtain ⟨hserved, rfl⟩ := Schema.mem_entry.mp h
      exact mem_ownEntries.mpr ⟨_, hserved, rfl, .inl hkey⟩
    · cases h
  rw [exists_level_iff, mem_levelEntries, requestBlock, hm]
  simp only [hd, Bool.false_eq_true, if_false, Projection.select_append,
    Projection.select_selecting, List.mem_append, ha.mem_select_branches_iff, List.nil_append]
  tauto

/-- A request names every level below its root to expand. -/
theorem WellTyped.mem_expand_requestBlock_iff {a : Selection} (ha : a.WellTyped s)
    (hs : s.Sound) : p ∈ (a.requestBlock s d).expand ↔ p ≠ [] ∧ ∃ n, a.level? p = some n := by
  obtain ⟨m, hm, hid⟩ := ha.model_mem
  unfold requestBlock
  rw [hid, hs.model?_of_mem m hm]
  cases p with
  | nil =>
    simp only [ne_eq, not_true, false_and, iff_false]
    split
    · simp
    · simp [ha.mem_expand_branches_iff]
  | cons f ids =>
    simp only [ne_eq, reduceCtorEq, not_false_eq_true, true_and]
    split
    · rename_i hd
      simp [level?_cons, get?_of_isDefault hd]
    · simp [ha.mem_expand_branches_iff]

end Selection

end ODataPlan
