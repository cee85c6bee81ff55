import ODataPlan.Proofs.Registry

/-! Which references of an accepted registry can be followed, whatever models it was made of. Main
statement: all of them but a key that names another model, which verification reads by its place
only. -/
namespace ODataPlan

/-- The model can name its key: a field of its own that is a scalar flagged as key. -/
def Model.HasKey (m : Model) : Prop :=
  ∃ k ∈ m.fields, m.keyField = .ok k ∧ k.isKey = true ∧ k.type = .scalar

theorem Model.keyField_of_ne {m : Model} (h : m.key.model ≠ m.id) :
    m.keyField = .error .foreign := by simp [keyField, h]

/-- A model that is in order can name its key exactly if the key's id is one of its own. -/
theorem Model.Verified.hasKey_iff {s : Schema} {m : Model} (h : m.Verified s) :
    m.HasKey ↔ m.key.model = m.id := by
  constructor
  · rintro ⟨k, _, hk, _⟩
    by_contra hne
    rw [keyField_of_ne hne] at hk
    cases hk
  · intro heq
    obtain ⟨k, hk, hflag, hscalar, _⟩ := h.key
    exact ⟨k, List.mem_of_getElem? hk, by simp [keyField, heq, hk], hflag, hscalar⟩

namespace Schema

/-- Every stored id except the keys leads where it should: models to themselves, fields to
themselves, expansions to registered models, and what an endpoint projects to fields of its own
model. -/
structure Closed (s : Schema) : Prop where
  model : ∀ m ∈ s.models, s.model m.id = .ok m
  member : ∀ x, s.Has x → s.member x.field.id = .ok x
  target : ∀ x, s.Has x → ∀ e, x.field.type = .expandable e →
    ∃ t ∈ s.models, s.model e.target = .ok t
  projected : ∀ m ∈ s.models, ∀ d e, m.endpoint.get d = some e →
    ∀ f ∈ e.required ++ e.fixedFields, f.model = m.id ∧ ∃ x ∈ m.fields, s.member f = .ok ⟨m, x⟩

/-- A registry without issues is closed if no two of its models share an id. -/
theorem closed_of_issues {s : Schema} (h : s.issues = []) (hd : (s.models.map Model.id).Nodup) :
    s.Closed := by
  have verified := (issues_eq_nil_iff.mp h).2
  constructor
  case model => exact fun m hm => model_eq_ok_iff.mpr (model?_of_nodup hd hm)
  case member => exact fun x hx => (member_eq_ok_iff_of_issues h hd).mpr ⟨hx, rfl⟩
  case target =>
    intro x hx e he
    obtain ⟨t, ht⟩ := ((verified _ hx.1).targets _ hx.2 e he).1
    exact ⟨t, mem_of_model? ht, model_eq_ok_iff.mpr ht⟩
  case projected =>
    intro m hm d e he f hf
    obtain ⟨hown, x, hx, hid, _⟩ := (verified m hm).scalar_of_projected he hf
    exact ⟨hown, x, hx, (member_eq_ok_iff_of_issues h hd).mpr ⟨⟨hm, hx⟩, hid⟩⟩

/-- Whatever models a registry is made of, acceptance closes it, and its models can name their keys
exactly as far as these are ids of the models themselves. -/
theorem closed_ofModels {ms : List Model} {s : Schema} (h : ofModels ms = .ok s) :
    s.Closed ∧ ∀ m ∈ s.models, m.HasKey ↔ m.key.model = m.id := by
  obtain ⟨rfl, hi⟩ := ofModels_eq_ok_iff.mp h
  constructor
  · exact closed_of_issues hi (foldl_insertModel ms [] List.nodup_nil).1
  · exact fun m hm => ((issues_eq_nil_iff.mp hi).2 m hm).hasKey_iff

end Schema

namespace Sample

/-- A model of one field. Its key has the place of that field, in another model. -/
def misplacedKey : Model where
  id := ⟨0⟩
  name := .ofString "Site"
  fields := [⟨{ FieldDecl.scalar "Id" with isKey := true }, ⟨⟨0⟩, 0⟩⟩]
  key := ⟨⟨1⟩, 0⟩
  endpoint := ⟨none, none⟩

theorem ofModels_misplacedKey : Schema.ofModels [misplacedKey] = .ok ⟨[misplacedKey]⟩ := by
  decide +kernel

/-- A user, whose key is its own. -/
def user : Model where
  id := ⟨1⟩
  name := .ofString "User"
  fields := [⟨{ FieldDecl.scalar "Id" with isKey := true }, ⟨⟨1⟩, 0⟩⟩]
  key := ⟨⟨1⟩, 0⟩
  endpoint := ⟨none, none⟩

/-- The site with an owner. On REST it is shown by its title, and its id is always asked for. -/
def owned : Model where
  id := ⟨0⟩
  name := .ofString "Site"
  fields := [
    ⟨{ FieldDecl.scalar "Id" with isKey := true }, ⟨⟨0⟩, 0⟩⟩,
    ⟨.scalar "Title", ⟨⟨0⟩, 1⟩⟩,
    ⟨.expanding "Owner" { target := ⟨1⟩ }, ⟨⟨0⟩, 2⟩⟩]
  key := ⟨⟨1⟩, 0⟩
  endpoint := {
    rest := some {
      entity := "/site", defaultSelect := .fields [⟨⟨0⟩, 1⟩], required := [⟨⟨0⟩, 0⟩] }
    graph := none }

/-- The owner and the fields that the endpoint projects can be followed, and so can the key of the
user, but not that of the site. -/
theorem closed_misplacedKey : ∃ s, Schema.ofModels [owned, user] = .ok s ∧ s.Closed ∧
    (∃ x ∈ owned.fields, ∃ e, x.type = .expandable e ∧ s.model e.target = .ok user) ∧
    (∃ e, owned.endpoint.rest = some e ∧ e.required ≠ [] ∧ e.fixedFields ≠ [] ∧
      ∀ f ∈ e.required ++ e.fixedFields, ∃ x ∈ owned.fields, s.member f = .ok ⟨owned, x⟩) ∧
    ¬ owned.HasKey ∧ user.HasKey := by
  have accepted : Schema.ofModels [owned, user] = .ok ⟨[owned, user]⟩ := by decide +kernel
  obtain ⟨closed, keys⟩ := Schema.closed_ofModels accepted
  refine ⟨_, accepted, closed, ⟨_, List.mem_of_getElem? (i := 2) rfl, _, rfl, ?_⟩,
    ⟨_, rfl, List.cons_ne_nil _ _, List.cons_ne_nil _ _, ?_⟩, ?_, ?_⟩
  · exact closed.model user (by simp)
  · intro f hf
    exact (closed.projected owned (by simp) .rest _ rfl f hf).2
  · exact fun hk => absurd ((keys owned (by simp)).mp hk) (by decide)
  · exact (keys user (by simp)).mpr rfl

/-- Acceptance does not make the keys of a registry followable. -/
theorem exists_accepted_without_key : ∃ ms s, Schema.ofModels ms = .ok s ∧
    ∃ m ∈ s.models, m.keyField = .error .foreign :=
  ⟨_, _, ofModels_misplacedKey, misplacedKey, by simp, Model.keyField_of_ne (by decide)⟩

end Sample

end ODataPlan
