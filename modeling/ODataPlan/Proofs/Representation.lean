import ODataPlan.Proofs.Registration

/-! What definitions become. Main statements: a definition can be resolved exactly if the names in
it can be looked up, and it becomes the model with the same data place by place, where every name
is replaced by the id of what has that name. -/
namespace ODataPlan

section Relations

variable {τ σ : Type}

/-- The type of a field with its target replaced. -/
inductive FieldType.Becomes (R : τ → σ → Prop) : FieldType τ → FieldType σ → Prop
  | scalar : Becomes R .scalar .scalar
  | expandable {e t} (target : R e.target t) :
    Becomes R (.expandable e) (.expandable (e.withTarget t))

/-- The declaration of a field with its target replaced. -/
structure FieldDecl.Becomes (R : τ → σ → Prop) (f : FieldDecl τ) (g : FieldDecl σ) : Prop where
  name : g.name = f.name
  wireName : g.wireName = f.wireName
  isKey : g.isKey = f.isKey
  isDefault : g.isDefault = f.isDefault
  type : f.type.Becomes R g.type

/-- A default projection with its fields replaced, in the given order. -/
inductive DefaultSelect.Becomes (R : τ → σ → Prop) : DefaultSelect τ → DefaultSelect σ → Prop
  | implicit : Becomes R .implicit .implicit
  | declared : Becomes R .declared .declared
  | fields {ns fs} (fields : List.Forall₂ R ns fs) : Becomes R (.fields ns) (.fields fs)

/-- An endpoint with its fields replaced, in the given order. -/
structure Endpoint.Becomes (R : τ → σ → Prop) (e : Endpoint τ) (e' : Endpoint σ) : Prop where
  entity : e'.entity = e.entity
  collection : e'.collection = e.collection
  defaultSelect : e.defaultSelect.Becomes R e'.defaultSelect
  required : List.Forall₂ R e.required e'.required

variable {R : τ → σ → Prop}

theorem FieldType.Becomes.scalar_iff {t : FieldType τ} {u : FieldType σ} (h : t.Becomes R u) :
    u = .scalar ↔ t = .scalar := by
  cases h <;> simp

theorem FieldType.Becomes.isExpandable_eq {t : FieldType τ} {u : FieldType σ}
    (h : t.Becomes R u) : u.isExpandable = t.isExpandable := by
  cases h <;> rfl

theorem FieldDecl.Becomes.supports_eq {f : FieldDecl τ} {g : FieldDecl σ} (h : f.Becomes R g)
    (d : Dialect) : g.supports d = f.supports d := by
  rw [supports, supports, h.wireName]

theorem FieldDecl.Becomes.isScalarOn_eq {f : FieldDecl τ} {g : FieldDecl σ} (h : f.Becomes R g)
    (d : Dialect) : g.isScalarOn d = f.isScalarOn d := by
  rw [isScalarOn, isScalarOn, h.supports_eq d, isExpandable, isExpandable, h.type.isExpandable_eq]

theorem DefaultSelect.becomes_implicit_iff {s : DefaultSelect σ} :
    Becomes R .implicit s ↔ s = .implicit :=
  ⟨fun h => by cases h; rfl, fun h => h ▸ .implicit⟩

theorem DefaultSelect.becomes_declared_iff {s : DefaultSelect σ} :
    Becomes R .declared s ↔ s = .declared :=
  ⟨fun h => by cases h; rfl, fun h => h ▸ .declared⟩

theorem DefaultSelect.becomes_fields_iff {ns : List τ} {s : DefaultSelect σ} :
    Becomes R (.fields ns) s ↔ ∃ fs, List.Forall₂ R ns fs ∧ s = .fields fs := by
  constructor
  · rintro ⟨⟩
    exact ⟨_, ‹_›, rfl⟩
  · rintro ⟨fs, hfs, rfl⟩
    exact .fields hfs

/-- All the fields an endpoint names are replaced in order. -/
theorem Endpoint.Becomes.named {e : Endpoint τ} {e' : Endpoint σ} (h : e.Becomes R e') :
    List.Forall₂ R (e.required ++ e.fixedFields) (e'.required ++ e'.fixedFields) := by
  obtain ⟨_, _, select, required⟩ := e
  obtain ⟨_, _, select', required'⟩ := e'
  refine List.rel_append h.required ?_
  cases h.defaultSelect with
  | implicit => exact .nil
  | declared => exact .nil
  | fields fields => exact fields

theorem Endpoint.Becomes.imp {S : τ → σ → Prop} {e : Endpoint τ} {e' : Endpoint σ}
    (h : e.Becomes R e') (hRS : ∀ a b, R a b → S a b) : e.Becomes S e' := by
  obtain ⟨_, _, select, required⟩ := e
  obtain ⟨_, _, select', required'⟩ := e'
  refine ⟨h.entity, h.collection, ?_, h.required.imp hRS⟩
  cases h.defaultSelect with
  | implicit => exact .implicit
  | declared => exact .declared
  | fields fields => exact .fields (fields.imp hRS)

/-- The fields of an endpoint can be replaced if each of them can be. -/
theorem Endpoint.exists_becomes_iff {e : Endpoint τ} :
    (∃ e', e.Becomes R e') ↔ ∀ a ∈ e.required ++ e.fixedFields, ∃ b, R a b := by
  constructor
  · rintro ⟨e', h⟩ a ha
    obtain ⟨b, _, hab⟩ := (exists_of_forall₂ h.named).1 a ha
    exact ⟨b, hab⟩
  · intro h
    obtain ⟨hrequired, hfixed⟩ := List.forall_mem_append.mp h
    obtain ⟨entity, collection, select, required⟩ := e
    obtain ⟨required', hr⟩ := exists_forall₂ hrequired
    cases select with
    | implicit => exact ⟨⟨entity, collection, .implicit, required'⟩, rfl, rfl, .implicit, hr⟩
    | declared => exact ⟨⟨entity, collection, .declared, required'⟩, rfl, rfl, .declared, hr⟩
    | fields ns =>
      obtain ⟨fs, hfs⟩ := exists_forall₂ hfixed
      exact ⟨⟨entity, collection, .fields fs, required'⟩, rfl, rfl, .fields hfs, hr⟩

end Relations

/-- Lists that correspond do so at every place. -/
theorem rel_getElem?_of_forall₂ {α β : Type} {R : α → β → Prop} {xs : List α} {ys : List β}
    (h : List.Forall₂ R xs ys) (i : Nat) : Option.Rel R xs[i]? ys[i]? := by
  induction h generalizing i with
  | nil => exact .none
  | cons hxy _ ih =>
    cases i with
    | zero => exact .some hxy
    | succ i => exact ih i

theorem exists_right_of_rel {α β : Type} {R : α → β → Prop} {x : Option α} {y : Option β} {a : α}
    (h : Option.Rel R x y) (hx : x = some a) : ∃ b, y = some b ∧ R a b := by
  cases h with
  | none => cases hx
  | some hab =>
    cases hx
    exact ⟨_, rfl, hab⟩

theorem exists_left_of_rel {α β : Type} {R : α → β → Prop} {x : Option α} {y : Option β} {b : β}
    (h : Option.Rel R x y) (hy : y = some b) : ∃ a, x = some a ∧ R a b := by
  cases h with
  | none => cases hy
  | some hab =>
    cases hy
    exact ⟨_, rfl, hab⟩

theorem rel_getElem?_of_forall₂_zipIdx {α β : Type} {R : α × Nat → β → Prop} {xs : List α}
    {ys : List β} (h : List.Forall₂ R xs.zipIdx ys) (i : Nat) :
    Option.Rel (fun x y => R (x, i) y) xs[i]? ys[i]? := by
  have hrel := rel_getElem?_of_forall₂ h i
  rw [List.getElem?_zipIdx, Nat.zero_add] at hrel
  generalize ys[i]? = y at hrel ⊢
  cases hx : xs[i]? with
  | none =>
    rw [hx] at hrel
    cases hrel
    exact .none
  | some x =>
    rw [hx] at hrel
    obtain ⟨_, rfl, hxy⟩ := exists_right_of_rel hrel rfl
    exact .some hxy

namespace Definition

variable {ms : List Definition} {m : Definition} {id : ModelId}

/-- The name of a target stands for the place of a definition that has it. -/
def Targets (ms : List Definition) (target : String) (id : ModelId) : Prop :=
  ∃ t, ms[id.index]? = some t ∧ t.name = Name.ofString target

/-- The name of a field stands for the place of a field of the definition that has it. -/
def Denotes (m : Definition) (id : ModelId) (name : String) (f : FieldId) : Prop :=
  f.model = id ∧ ∃ g, m.fields[f.index]? = some g ∧ g.name = name

/-- The definition at a place of a list becomes a model: the id is the place, fields keep their
places, and all else is kept but for names, which become ids. -/
structure Becomes (ms : List Definition) (i : Nat) (m : Definition) (n : Model) : Prop where
  id : n.id = ⟨i⟩
  name : n.name = m.name
  fields : ∀ j, Option.Rel
    (fun f x => f.Becomes (Targets ms) x.toFieldDecl ∧ x.id = (ModelId.mk i).field j)
    m.fields[j]? n.fields[j]?
  key : m.key.map (ModelId.mk i).field = some n.key
  endpoint : ∀ d,
    Option.Rel (Endpoint.Becomes (m.Denotes ⟨i⟩)) (m.endpoint.get d) (n.endpoint.get d)

theorem exists_idOf?_iff {target : String} :
    (∃ id, idOf? ms target = some id) ↔ ∃ t ∈ ms, t.name = Name.ofString target := by
  rw [← Option.isSome_iff_exists, idOf?, Option.isSome_map, List.findIdx?_isSome, List.any_eq_true]
  simp

theorem denotes_of_fieldId {name : String} {f : FieldId} (h : m.fieldId id name = .ok f) :
    m.Denotes id name f := by
  unfold fieldId at h
  split at h
  · rename_i i hi
    cases h
    obtain ⟨g, hg, hn⟩ := exists_getElem?_of_findIdx? hi
    exact ⟨rfl, g, hg, by simpa using hn⟩
  · cases h

theorem exists_fieldId_iff {name : String} :
    (∃ f, m.fieldId id name = .ok f) ↔ ∃ f ∈ m.fields, f.name = name := by
  have hfind : (m.fields.findIdx? (·.name == name)).isSome = true ↔
      ∃ f ∈ m.fields, f.name = name := by
    rw [List.findIdx?_isSome, List.any_eq_true]
    simp
  rw [← hfind, fieldId]
  cases m.fields.findIdx? (·.name == name) <;> simp

theorem becomes_of_resolveField {f : FieldDecl String} {j : Nat} {x : Field}
    (h : resolveField ms m id f j = .ok x) :
    f.Becomes (Targets ms) x.toFieldDecl ∧ x.id = id.field j := by
  unfold resolveField at h
  split at h
  · rename_i ht
    cases h
    exact ⟨⟨rfl, rfl, rfl, rfl, ht ▸ .scalar⟩, rfl⟩
  · rename_i e ht
    split at h
    · cases h
    · rename_i t hid
      cases h
      exact ⟨⟨rfl, rfl, rfl, rfl, ht ▸ .expandable (exists_of_idOf? hid)⟩, rfl⟩

theorem exists_resolveField_iff {f : FieldDecl String} {j : Nat} :
    (∃ x, resolveField ms m id f j = .ok x) ↔
      ∀ e, f.type = .expandable e → ∃ t ∈ ms, t.name = Name.ofString e.target := by
  unfold resolveField
  cases f.type with
  | scalar => simp
  | expandable e =>
    simp only [FieldType.expandable.injEq, forall_eq', ← exists_idOf?_iff]
    cases idOf? ms e.target <;> simp

/-- Resolving an endpoint replaces every name in it by the id that the name has. -/
theorem resolveEndpoint_eq_ok_iff {e : Endpoint String} {e' : Endpoint FieldId} :
    m.resolveEndpoint id e = .ok e' ↔ e.Becomes (fun name f => m.fieldId id name = .ok f) e' := by
  obtain ⟨entity, collection, select, required⟩ := e
  have open_required : ∀ {select' : DefaultSelect FieldId},
      (required.mapM (m.fieldId id) >>= fun fs =>
        (pure ⟨entity, collection, select', fs⟩ : Except SchemaIssue (Endpoint FieldId))) = .ok e' ↔
      e'.entity = entity ∧ e'.collection = collection ∧ e'.defaultSelect = select' ∧
        List.Forall₂ (fun name f => m.fieldId id name = .ok f) required e'.required := by
    intro select'
    rw [Except.bind_eq_ok_iff]
    constructor
    · rintro ⟨fs, hfs, h⟩
      cases h
      exact ⟨rfl, rfl, rfl, Except.mapM_eq_ok_iff.mp hfs⟩
    · rintro ⟨rfl, rfl, rfl, hfs⟩
      exact ⟨_, Except.mapM_eq_ok_iff.mpr hfs, rfl⟩
  have becomes_iff : ∀ {R : String → FieldId → Prop},
      Endpoint.Becomes R ⟨entity, collection, select, required⟩ e' ↔ e'.entity = entity ∧
        e'.collection = collection ∧ select.Becomes R e'.defaultSelect ∧
          List.Forall₂ R required e'.required :=
    ⟨fun h => ⟨h.entity, h.collection, h.defaultSelect, h.required⟩,
      fun ⟨he, hc, hs, hr⟩ => ⟨he, hc, hs, hr⟩⟩
  unfold resolveEndpoint
  rw [becomes_iff]
  cases select with
  | implicit =>
    rw [DefaultSelect.becomes_implicit_iff]
    exact open_required
  | declared =>
    rw [DefaultSelect.becomes_declared_iff]
    exact open_required
  | fields names =>
    rw [DefaultSelect.becomes_fields_iff]
    constructor
    · intro h
      obtain ⟨_, hd, h⟩ := Except.bind_eq_ok_iff.mp h
      obtain ⟨fs, hfs, rfl⟩ := Except.map_eq_ok_iff.mp hd
      obtain ⟨he, hc, hs, hr⟩ := open_required.mp h
      exact ⟨he, hc, ⟨fs, Except.mapM_eq_ok_iff.mp hfs, hs⟩, hr⟩
    · rintro ⟨he, hc, ⟨fs, hfs, hs⟩, hr⟩
      have hd : DefaultSelect.fields <$> names.mapM (m.fieldId id) = .ok (.fields fs) :=
        Except.map_eq_ok_iff.mpr ⟨fs, Except.mapM_eq_ok_iff.mpr hfs, rfl⟩
      exact Except.bind_eq_ok_iff.mpr ⟨.fields fs, hd, open_required.mpr ⟨he, hc, hs, hr⟩⟩

theorem exists_resolveEndpoint_iff {e : Endpoint String} :
    (∃ e', m.resolveEndpoint id e = .ok e') ↔
      ∀ name ∈ e.required ++ e.fixedFields, ∃ f ∈ m.fields, f.name = name := by
  simp only [resolveEndpoint_eq_ok_iff, Endpoint.exists_becomes_iff, exists_fieldId_iff]

theorem rel_of_resolveEndpoint? {o : Option (Endpoint String)} {o' : Option (Endpoint FieldId)}
    (h : m.resolveEndpoint? id o = .ok o') : Option.Rel (Endpoint.Becomes (m.Denotes id)) o o' := by
  cases o with
  | none =>
    cases h
    exact .none
  | some e =>
    obtain ⟨e', he, rfl⟩ := Except.map_eq_ok_iff.mp h
    exact .some ((resolveEndpoint_eq_ok_iff.mp he).imp fun _ _ => denotes_of_fieldId)

theorem exists_resolveEndpoint?_iff {o : Option (Endpoint String)} :
    (∃ o', m.resolveEndpoint? id o = .ok o') ↔
      ∀ e, o = some e → ∀ name ∈ e.required ++ e.fixedFields, ∃ f ∈ m.fields, f.name = name := by
  cases o with
  | none => exact iff_of_true ⟨none, rfl⟩ nofun
  | some e =>
    simp only [Option.some.injEq, forall_eq', ← @exists_resolveEndpoint_iff m id]
    constructor
    · rintro ⟨o', h⟩
      obtain ⟨e', he, _⟩ := Except.map_eq_ok_iff.mp h
      exact ⟨e', he⟩
    · rintro ⟨e', he⟩
      exact ⟨some e', Except.map_eq_ok_iff.mpr ⟨e', he, rfl⟩⟩

/-- A resolved definition has become the model at its place. -/
theorem becomes_of_resolve {i : Nat} {n : Model} (h : m.resolve ms i = .ok n) :
    m.Becomes ms i n := by
  obtain ⟨fields, key, rest, graph, hf, hk, hr, hg, rfl⟩ := resolve_eq_ok_iff.mp h
  refine ⟨rfl, rfl, ?_, by rw [hk]; rfl, fun d => ?_⟩
  · exact rel_getElem?_of_forall₂_zipIdx
      ((Except.mapM_eq_ok_iff.mp hf).imp fun _ _ => becomes_of_resolveField)
  · cases d with
    | rest => exact rel_of_resolveEndpoint? hr
    | graph => exact rel_of_resolveEndpoint? hg

/-- A definition can be resolved exactly if its targets are there, it has a key, and its endpoints
name fields of it. -/
theorem exists_resolve_iff {i : Nat} : (∃ n, m.resolve ms i = .ok n) ↔
    (∀ f ∈ m.fields, ∀ e, f.type = .expandable e → ∃ t ∈ ms, t.name = Name.ofString e.target) ∧
    (∃ key, m.key = some key) ∧
    ∀ d e, m.endpoint.get d = some e → ∀ name ∈ e.required ++ e.fixedFields,
      ∃ f ∈ m.fields, f.name = name := by
  have fields : (∃ fs, (m.fields.zipIdx.mapM fun x => resolveField ms m ⟨i⟩ x.1 x.2) = .ok fs) ↔
      ∀ f ∈ m.fields, ∀ e, f.type = .expandable e → ∃ t ∈ ms, t.name = Name.ofString e.target := by
    rw [Except.exists_mapM_eq_ok_iff]
    simp only [Prod.forall, List.mk_mem_zipIdx_iff_getElem?, exists_resolveField_iff]
    constructor
    · intro h f hf
      obtain ⟨j, hj⟩ := List.mem_iff_getElem?.mp hf
      exact h f j hj
    · intro h f j hj
      exact h f (List.mem_of_getElem? hj)
  have ends : (∀ d e, m.endpoint.get d = some e → ∀ name ∈ e.required ++ e.fixedFields,
      ∃ f ∈ m.fields, f.name = name) ↔
        ∀ d, ∃ o, m.resolveEndpoint? ⟨i⟩ (m.endpoint.get d) = .ok o :=
    forall_congr' fun d => exists_resolveEndpoint?_iff.symm
  rw [← fields, ends]
  constructor
  · rintro ⟨n, h⟩
    obtain ⟨fs, key, rest, graph, hf, hk, hr, hg, _⟩ := resolve_eq_ok_iff.mp h
    refine ⟨⟨fs, hf⟩, ⟨key, hk⟩, fun d => ?_⟩
    cases d with
    | rest => exact ⟨rest, hr⟩
    | graph => exact ⟨graph, hg⟩
  · rintro ⟨⟨fs, hf⟩, ⟨key, hk⟩, h⟩
    obtain ⟨rest, hr⟩ := h .rest
    obtain ⟨graph, hg⟩ := h .graph
    exact ⟨_, resolve_eq_ok_iff.mpr ⟨fs, key, rest, graph, hf, hk, hr, hg, rfl⟩⟩

end Definition

end ODataPlan
