import ODataPlan.Plan.Projection
import ODataPlan.Proofs.Selection.Typing

/-! The entries that scalars, default sets and keys come to. Over a sound registry none of their
look-ups fails, so they are lists computed from ids alone. -/
namespace ODataPlan

namespace Schema

/-- The entry of a field below a path, if the dialect serves the field. -/
def entry (s : Schema) (d : Dialect) (path : FieldPath) (f : FieldId) : List FieldPath :=
  if s.serves d f then [path ++ [f]] else []

def defaultIds (s : Schema) (d : Dialect) (m : ModelId) : List FieldId :=
  match s.model? m with
  | some owner => owner.defaultIds d
  | none => []

variable {s : Schema} {d : Dialect} {path : FieldPath}

@[simp] theorem mem_entry {f : FieldId} {p : FieldPath} :
    p ∈ s.entry d path f ↔ s.serves d f = true ∧ p = path ++ [f] := by
  unfold entry
  split <;> simp_all

theorem Sound.entries_eq (hs : s.Sound) {x : Member} (hx : s.Has x) :
    x.field.entries d path = s.entry d path x.id := by
  rw [Field.entries, entry, Member.id, hs.serves_of_has d hx]

theorem Sound.scalarEntries_eq (hs : s.Sound) {fs : List FieldId}
    (h : ∀ f ∈ fs, ∃ x, s.Has x ∧ x.id = f) :
    s.scalarEntries d path fs = .ok (fs.flatMap (s.entry d path)) := by
  unfold scalarEntries
  induction fs with
  | nil => rfl
  | cons f fs ih =>
    obtain ⟨⟨x, hx, rfl⟩, hfs⟩ := List.forall_mem_cons.mp h
    obtain ⟨xs, hxs, he⟩ := Except.bind_eq_ok_iff.mp (ih hfs)
    have he : xs.flatMap (·.field.entries d path) = fs.flatMap (s.entry d path) :=
      Except.ok.inj he
    rw [List.mapM_cons, Member.id, hs.member_of_has hx, hxs]
    simp [pure, Except.pure, hs.entries_eq hx, Member.id, he]

/-- The default set of a model consists of scalars of it that the dialect serves. -/
theorem Sound.scalar_of_mem_defaultIds (hs : s.Sound) {m : Model} (hm : m ∈ s.models)
    {f : FieldId} (hf : f ∈ m.defaultIds d) :
    ∃ x ∈ m.fields, x.id = f ∧ x.isScalarOn d = true := by
  unfold Model.defaultIds at hf
  split at hf
  · rename_i fs he
    obtain ⟨e, he, hd⟩ := Option.map_eq_some_iff.mp he
    refine hs.projected m hm d e he f (List.mem_append_right _ ?_)
    rwa [Endpoint.fixedFields, hd]
  · obtain ⟨x, hx, rfl⟩ := List.mem_map.mp hf
    obtain ⟨hmem, hx⟩ := List.mem_filter.mp hx
    exact ⟨x, hmem, rfl, by simp_all⟩

/-- The fields an endpoint requires are scalars of its model that the dialect serves. -/
theorem Sound.scalar_of_mem_requiredEntries (hs : s.Sound) {m : Model} (hm : m ∈ s.models)
    {p : FieldPath} (hp : p ∈ m.requiredEntries d) :
    ∃ x ∈ m.fields, p = [x.id] ∧ x.isScalarOn d = true := by
  unfold Model.requiredEntries at hp
  split at hp
  · cases hp
  · rename_i e he
    obtain ⟨f, hf, rfl⟩ := List.mem_map.mp hp
    obtain ⟨x, hx, rfl, hd⟩ := hs.projected m hm d e he f (List.mem_append_left _ hf)
    exact ⟨x, hx, rfl, hd⟩

theorem Sound.defaultEntries_eq (hs : s.Sound) {m : Model} (hm : m ∈ s.models) :
    s.defaultEntries d path m.id = .ok ((s.defaultIds d m.id).flatMap (s.entry d path)) := by
  rw [defaultEntries, hs.model_of_mem hm, defaultIds, hs.model?_of_mem m hm]
  refine hs.scalarEntries_eq fun f hf => ?_
  obtain ⟨x, hx, rfl, _⟩ := hs.scalar_of_mem_defaultIds hm hf
  exact ⟨⟨m, x⟩, ⟨hm, hx⟩, rfl⟩

/-- What a request for a model projects when nothing is selected. -/
def defaultBlock (s : Schema) (d : Dialect) (m : Model) : Projection :=
  if (m.endpoint.get d).map Endpoint.defaultSelect = some .implicit then {}
  else .selecting ((if d = .rest then s.entry d [] m.key else []) ++
    (m.defaultIds d).map ([·]) ++ s.entry d [] m.key ++ m.requiredEntries d)

@[simp] theorem expand_defaultBlock (s : Schema) (d : Dialect) (m : Model) :
    (s.defaultBlock d m).expand = [] := by
  unfold defaultBlock
  split <;> rfl

theorem Sound.keyField_entries (hs : s.Sound) {m : Model} (hm : m ∈ s.models) :
    ∃ k, m.keyField = .ok k ∧ ∀ path, k.entries d path = s.entry d path m.key := by
  obtain ⟨k, hk, hf, hid, _⟩ := hs.key_scalar m hm
  exact ⟨k, hf, fun path => hid ▸ hs.entries_eq (x := ⟨m, k⟩) ⟨hm, hk⟩⟩

theorem Sound.defaultProjection_eq (hs : s.Sound) {m : Model} (hm : m ∈ s.models) :
    m.defaultProjection d = .ok (s.defaultBlock d m) := by
  obtain ⟨k, hf, he⟩ := hs.keyField_entries (d := d) hm
  unfold Model.defaultProjection defaultBlock
  split
  · rfl
  · simp only [hf, Except.ok_bind, he]
    rfl

end Schema

namespace Selection

/-- The entries of a level's default set, if asked for, and of its scalars. -/
def ownEntries (s : Schema) (d : Dialect) (path : FieldPath) (a : Selection) : List FieldPath :=
  (if a.includeDefaults then (s.defaultIds d a.model).flatMap (s.entry d path) else []) ++
    a.fields.flatMap (s.entry d path)

variable {s : Schema} {d : Dialect} {path : FieldPath}

theorem mem_ownEntries {a : Selection} {p : FieldPath} : p ∈ a.ownEntries s d path ↔
    ∃ f, s.serves d f = true ∧ p = path ++ [f] ∧
      (f ∈ a.fields ∨ (a.includeDefaults = true ∧ f ∈ s.defaultIds d a.model)) := by
  unfold ownEntries
  rw [List.mem_append, List.mem_flatMap]
  constructor
  · rintro (h | ⟨f, hf, h⟩)
    · split at h
      · rename_i hd
        obtain ⟨f, hf, h⟩ := List.mem_flatMap.mp h
        obtain ⟨hs, rfl⟩ := Schema.mem_entry.mp h
        exact ⟨f, hs, rfl, .inr ⟨hd, hf⟩⟩
      · cases h
    · obtain ⟨hs, rfl⟩ := Schema.mem_entry.mp h
      exact ⟨f, hs, rfl, .inl hf⟩
  · rintro ⟨f, hs, rfl, hf | ⟨hd, hf⟩⟩
    · exact .inr ⟨f, hf, Schema.mem_entry.mpr ⟨hs, rfl⟩⟩
    · rw [if_pos hd]
      exact .inl (List.mem_flatMap.mpr ⟨f, hf, Schema.mem_entry.mpr ⟨hs, rfl⟩⟩)

theorem WellTyped.scalars_has {a : Selection} (ha : a.WellTyped s) :
    ∀ f ∈ a.fields, ∃ x, s.Has x ∧ x.id = f := by
  cases ha with
  | mk model scalars nodup expandables nested =>
    intro f hf
    obtain ⟨x, hx, hid, _⟩ := scalars f hf
    exact ⟨⟨_, x⟩, ⟨model, hx⟩, hid⟩

theorem WellTyped.scalarEntries_eq {a : Selection} (ha : a.WellTyped s) (hs : s.Sound)
    (d : Dialect) (path : FieldPath) :
    s.scalarEntries d path a.fields = .ok (a.fields.flatMap (s.entry d path)) :=
  hs.scalarEntries_eq ha.scalars_has

theorem WellTyped.defaultEntries_eq {a : Selection} (ha : a.WellTyped s) (hs : s.Sound)
    (d : Dialect) (path : FieldPath) :
    s.defaultEntries d path a.model = .ok ((s.defaultIds d a.model).flatMap (s.entry d path)) := by
  obtain ⟨m, hm, hid⟩ := ha.model_mem
  rw [hid, hs.defaultEntries_eq hm]

end Selection

end ODataPlan
