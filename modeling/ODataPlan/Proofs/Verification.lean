import Mathlib.Data.List.Nodup
import ODataPlan.Schema.Verify

/-! What verification accepts. Main statement: a registry has no issues exactly if no two models are
shown under one name and every model is in order by itself. -/
namespace ODataPlan

section Lists

variable {α β : Type}

/-- No two entries share a key if none shares its key with an earlier one. -/
theorem nodup_map_iff_take [DecidableEq β] {g : α → β} {xs : List α} : (xs.map g).Nodup ↔
    ∀ i x, xs[i]? = some x → (xs.take i).any (g · == g x) = false := by
  rw [List.Nodup, List.pairwise_map, List.pairwise_iff_getElem]
  constructor
  · intro h i x hx
    rw [List.any_eq_false]
    intro y hy heq
    obtain ⟨hi, rfl⟩ := List.getElem?_eq_some_iff.mp hx
    obtain ⟨j, hj, rfl⟩ := List.mem_take_iff_getElem.mp hy
    exact h j i (by omega) hi (by omega) (by simpa using heq)
  · intro h i j hi hj hij heq
    have earlier : xs[i] ∈ xs.take j := List.mem_take_iff_getElem.mpr ⟨i, by omega, rfl⟩
    have := List.any_eq_false.mp (h j _ (List.getElem?_eq_getElem hj)) _ earlier
    exact this (by simpa using heq)

/-- At most one entry passes a test that the entry at a place passes if no entry at another place
does. -/
theorem countP_le_one_iff {p : α → Bool} {xs : List α} {i : Nat} {x : α} (hx : xs[i]? = some x)
    (hp : p x = true) :
    xs.countP p ≤ 1 ↔ ∀ j y, xs[j]? = some y → p y = true → j = i := by
  induction xs generalizing i with
  | nil => cases hx
  | cons z xs ih =>
    cases i with
    | zero =>
      obtain rfl : z = x := by simpa using hx
      have hnone : xs.countP p + 1 ≤ 1 ↔ xs.countP p = 0 := by omega
      rw [List.countP_cons_of_pos hp, hnone, List.countP_eq_zero]
      constructor
      · rintro h (_ | j) y hy hpy
        · rfl
        · exact absurd hpy (h y (List.mem_of_getElem? hy))
      · intro h y hy hpy
        obtain ⟨j, hj⟩ := List.mem_iff_getElem?.mp hy
        exact absurd (h (j + 1) y hj hpy) (by omega)
    | succ i =>
      have hcount : 1 ≤ xs.countP p :=
        List.countP_pos_iff.mpr ⟨x, List.mem_of_getElem? (i := i) hx, hp⟩
      by_cases hz : p z = true
      · rw [List.countP_cons_of_pos hz]
        refine iff_of_false (by omega) fun h => ?_
        exact absurd (h 0 z rfl hz) (by omega)
      · rw [List.countP_cons_of_neg hz, ih hx]
        constructor
        · rintro h (_ | j) y hy hpy
          · cases hy
            exact absurd hpy hz
          · rw [h j y hy hpy]
        · intro h j y hy hpy
          have := h (j + 1) y hy hpy
          omega

end Lists

namespace Model

variable {s : Schema} {m : Model}

/-- The model is in order: its ids are its own, its names distinct, its targets registered, its key
the only one, and its endpoints serve the key and what they project. -/
structure Verified (s : Schema) (m : Model) : Prop where
  ids : ∀ i f, m.fields[i]? = some f → f.id = m.id.field i
  names : (m.fields.map (·.name)).Nodup
  targets : ∀ f ∈ m.fields, ∀ e, f.type = .expandable e → (∃ t, s.model? e.target = some t) ∧
    (e.separateQuery = true → e.requestPath.rest.isSome = true)
  key : ∃ k, m.fields[m.key.index]? = some k ∧ k.isKey = true ∧ k.type = .scalar ∧
    (∀ j f, m.fields[j]? = some f → f.isKey = true → j = m.key.index) ∧
    ∀ d e, m.endpoint.get d = some e → k.supports d = true
  projected : ∀ d e, m.endpoint.get d = some e → ∀ f ∈ e.required ++ e.fixedFields,
    m.canProject d f = true

theorem canProject_iff {d : Dialect} {f : FieldId} : m.canProject d f = true ↔
    f.model = m.id ∧ ∃ x, m.fields[f.index]? = some x ∧ x.isScalarOn d = true := by
  unfold canProject
  cases m.fields[f.index]? <;> simp

/-- What an endpoint of a model in order projects are scalars of the model itself. -/
theorem Verified.scalar_of_projected (h : m.Verified s) {d : Dialect} {e : Endpoint FieldId}
    (he : m.endpoint.get d = some e) {f : FieldId} (hf : f ∈ e.required ++ e.fixedFields) :
    f.model = m.id ∧ ∃ x ∈ m.fields, x.id = f ∧ x.isScalarOn d = true := by
  obtain ⟨hown, x, hx, hscalar⟩ := canProject_iff.mp (h.projected d e he f hf)
  refine ⟨hown, x, List.mem_of_getElem? hx, ?_, hscalar⟩
  rw [h.ids _ x hx, ← hown]
  rfl

theorem isExpandable_eq_false_iff {τ : Type} {f : FieldDecl τ} :
    f.isExpandable = false ↔ f.type = .scalar := by
  cases ht : f.type <;> simp [FieldDecl.isExpandable, ht]

theorem expandIssues_eq_nil_iff {f : Field} : m.expandIssues s f = [] ↔
    ∀ e, f.type = .expandable e → (∃ t, s.model? e.target = some t) ∧
      (e.separateQuery = true → e.requestPath.rest.isSome = true) := by
  unfold expandIssues
  cases f.type with
  | scalar => simp
  | expandable e =>
    simp [Option.isSome_iff_exists]

theorem fieldIssues_eq_nil_iff {f : Field} {i : Nat} : m.fieldIssues s f i = [] ↔
    f.id = m.id.field i ∧ (m.fields.take i).any (·.name == f.name) = false ∧
      ∀ e, f.type = .expandable e → (∃ t, s.model? e.target = some t) ∧
        (e.separateQuery = true → e.requestPath.rest.isSome = true) := by
  simp only [fieldIssues, List.append_eq_nil_iff, SchemaIssue.when_eq_nil,
    expandIssues_eq_nil_iff, bne_eq_false_iff_eq, and_assoc]

theorem endpointIssues_eq_nil_iff {k : Field} {d : Dialect} : m.endpointIssues k d = [] ↔
    ∀ e, m.endpoint.get d = some e → k.supports d = true ∧
      ∀ f ∈ e.required ++ e.fixedFields, m.canProject d f = true := by
  unfold endpointIssues
  cases m.endpoint.get d with
  | none => simp
  | some e => simp [List.append_eq_nil_iff, List.flatMap_eq_nil_iff, or_imp, forall_and]

theorem keyIssues_eq_nil_iff : m.keyIssues = [] ↔ ∃ k, m.fields[m.key.index]? = some k ∧
    k.isKey = true ∧ k.type = .scalar ∧ ∀ d, m.endpointIssues k d = [] := by
  unfold keyIssues
  cases m.fields[m.key.index]? with
  | none => simp
  | some k =>
    simp [List.append_eq_nil_iff, List.flatMap_eq_nil_iff, isExpandable_eq_false_iff, and_assoc]

/-- A model has no issues exactly if it is in order. -/
theorem issues_eq_nil_iff : m.issues s = [] ↔ m.Verified s := by
  simp only [issues, List.append_eq_nil_iff, List.flatMap_eq_nil_iff, SchemaIssue.when_eq_nil,
    decide_eq_false_iff_not, Nat.not_lt, Prod.forall, List.mk_mem_zipIdx_iff_getElem?,
    fieldIssues_eq_nil_iff, keyIssues_eq_nil_iff, endpointIssues_eq_nil_iff]
  constructor
  · rintro ⟨⟨hfields, hcount⟩, k, hk, hkey, hscalar, hends⟩
    refine ⟨fun i f hf => (hfields f i hf).1, ?_, fun f hf => ?_,
      ⟨k, hk, hkey, hscalar, (countP_le_one_iff hk hkey).mp hcount, fun d e he => (hends d e he).1⟩,
      fun d e he => (hends d e he).2⟩
    · exact nodup_map_iff_take.mpr fun i f hf => (hfields f i hf).2.1
    · obtain ⟨i, hi⟩ := List.mem_iff_getElem?.mp hf
      exact (hfields f i hi).2.2
  · intro h
    obtain ⟨k, hk, hkey, hscalar, hunique, hserved⟩ := h.key
    refine ⟨⟨fun f i hf => ?_, (countP_le_one_iff hk hkey).mpr hunique⟩, k, hk, hkey, hscalar,
      fun d e he => ⟨hserved d e he, h.projected d e he⟩⟩
    exact ⟨h.ids i f hf, nodup_map_iff_take.mp h.names i f hf,
      h.targets f (List.mem_of_getElem? hf)⟩

end Model

/-- A registry has no issues exactly if its models are shown under distinct names and are in order
one by one. -/
theorem Schema.issues_eq_nil_iff {s : Schema} : s.issues = [] ↔
    (s.models.map (·.name.upperCamel)).Nodup ∧ ∀ m ∈ s.models, m.Verified s := by
  simp only [issues, List.flatMap_eq_nil_iff, List.append_eq_nil_iff, SchemaIssue.when_eq_nil,
    Prod.forall, List.mk_mem_zipIdx_iff_getElem?, Model.issues_eq_nil_iff, nodup_map_iff_take]
  constructor
  · intro h
    refine ⟨fun i m hm => (h m i hm).1, fun m hm => ?_⟩
    obtain ⟨i, hi⟩ := List.mem_iff_getElem?.mp hm
    exact (h m i hi).2
  · rintro ⟨hnames, hmodels⟩ m i hm
    exact ⟨hnames i m hm, hmodels m (List.mem_of_getElem? hm)⟩

end ODataPlan
