import Mathlib.Data.List.Nodup
import ODataPlan.Db
import ODataPlan.Proofs.Outcome
import ODataPlan.Proofs.Verification

/-! What acceptance of a list of definitions guarantees about the registry: every id in it can be
followed, and every model can name its key and what its endpoints project. -/
namespace ODataPlan

namespace Schema

def Has (s : Schema) (x : Member) : Prop := x.model ∈ s.models ∧ x.field ∈ x.model.fields

def serves (s : Schema) (d : Dialect) (f : FieldId) : Bool :=
  match s.member f with
  | .ok x => x.field.supports d
  | .error _ => false

/-- Every id in the registry can be followed, and every endpoint serves what it projects. -/
structure Sound (s : Schema) : Prop where
  model?_of_mem : ∀ m ∈ s.models, s.model? m.id = some m
  id_of_getElem? : ∀ m ∈ s.models, ∀ i f, m.fields[i]? = some f → f.id = m.id.field i
  target_registered : ∀ x, s.Has x → ∀ e, x.field.type = .expandable e →
    ∃ t, s.model? e.target = some t
  key_scalar : ∀ m ∈ s.models, ∃ k ∈ m.fields, m.keyField = .ok k ∧ k.id = m.key ∧ k.type = .scalar
  key_served : ∀ m ∈ s.models, ∀ d e, m.endpoint.get d = some e → s.serves d m.key = true
  projected : ∀ m ∈ s.models, ∀ d e, m.endpoint.get d = some e →
    ∀ f ∈ e.required ++ e.fixedFields, ∃ x ∈ m.fields, x.id = f ∧ x.isScalarOn d = true

theorem mem_insertModel {ms : List Model} {m n : Model} (h : n ∈ insertModel ms m) :
    n ∈ ms ∨ n = m := by
  unfold insertModel at h
  split at h
  · obtain ⟨k, hk, rfl⟩ := List.mem_map.mp h
    split
    · exact .inr rfl
    · exact .inl hk
  · simpa using h

theorem nodup_insertModel {ms : List Model} {m : Model} (h : (ms.map Model.id).Nodup) :
    ((insertModel ms m).map Model.id).Nodup := by
  unfold insertModel
  split
  · have : (Model.id ∘ fun n : Model => if n.id = m.id then m else n) = Model.id := by
      funext n
      by_cases hn : n.id = m.id <;> simp [hn]
    rwa [List.map_map, this]
  · rename_i hm
    rw [List.map_append, List.nodup_append]
    refine ⟨h, List.nodup_singleton _, ?_⟩
    intro i hi j hj hij
    obtain ⟨n, hn, rfl⟩ := List.mem_map.mp hi
    exact hm (List.any_eq_true.mpr ⟨n, hn, by simp_all⟩)

/-- The replacement rule keeps ids distinct and brings in no model of its own. -/
theorem foldl_insertModel (ms start : List Model)
    (h : (start.map Model.id).Nodup) :
    ((ms.foldl insertModel start).map Model.id).Nodup ∧
      ∀ n ∈ ms.foldl insertModel start, n ∈ start ∨ n ∈ ms := by
  induction ms generalizing start with
  | nil => exact ⟨h, fun n hn => .inl hn⟩
  | cons m ms ih =>
    obtain ⟨hd, hm⟩ := ih (insertModel start m) (nodup_insertModel h)
    refine ⟨hd, fun n hn => ?_⟩
    rcases hm n hn with hn | hn
    · rcases mem_insertModel hn with hn | rfl
      · exact .inl hn
      · exact .inr List.mem_cons_self
    · exact .inr (List.mem_cons_of_mem m hn)

/-- Where no two entries share a key, an entry is found by its key. -/
theorem find?_of_nodup_map {α β : Type} [BEq β] [LawfulBEq β] {f : α → β} {xs : List α}
    (h : (xs.map f).Nodup) {x : α} (hx : x ∈ xs) : xs.find? (f · == f x) = some x := by
  cases hf : xs.find? (f · == f x) with
  | none => simpa using List.find?_eq_none.mp hf x hx
  | some y =>
    have heq : f y = f x := by simpa using List.find?_some hf
    exact congrArg some (List.inj_on_of_nodup_map h (List.mem_of_find?_eq_some hf) hx heq)

theorem model?_of_nodup {s : Schema} (h : (s.models.map Model.id).Nodup) {m : Model}
    (hm : m ∈ s.models) : s.model? m.id = some m := find?_of_nodup_map h hm

/-- An id leads to the field at its place in the model it names. -/
theorem member_eq_ok_iff {s : Schema} {f : FieldId} {x : Member} : s.member f = .ok x ↔
    s.model? f.model = some x.model ∧ x.model.fields[f.index]? = some x.field := by
  unfold Schema.member
  simp only [Except.bind_eq_ok_iff, model_eq_ok_iff]
  constructor
  · rintro ⟨m, hm, h⟩
    split at h
    · rename_i k hk
      cases h
      exact ⟨hm, hk⟩
    · cases h
  · rintro ⟨hm, hk⟩
    exact ⟨x.model, hm, by rw [hk]⟩

/-- An id leads to registered members only. -/
theorem has_of_member {s : Schema} {f : FieldId} {x : Member} (h : s.member f = .ok x) : s.Has x := by
  obtain ⟨hm, hk⟩ := member_eq_ok_iff.mp h
  exact ⟨mem_of_model? hm, List.mem_of_getElem? hk⟩

/-- In a verified registry, an id leads to the member whose id it is. -/
theorem member_eq_ok_iff_of_issues {s : Schema} (h : s.issues = [])
    (hd : (s.models.map Model.id).Nodup) {f : FieldId} {x : Member} :
    s.member f = .ok x ↔ s.Has x ∧ x.field.id = f := by
  have ids := fun m hm => ((issues_eq_nil_iff.mp h).2 m hm).ids
  constructor
  · intro hx
    obtain ⟨hm, hk⟩ := member_eq_ok_iff.mp hx
    refine ⟨has_of_member hx, ?_⟩
    rw [ids _ (mem_of_model? hm) _ _ hk, id_of_model? hm]
    rfl
  · rintro ⟨hx, rfl⟩
    obtain ⟨i, hi⟩ := List.mem_iff_getElem?.mp hx.2
    rw [ids _ hx.1 i _ hi]
    exact member_eq_ok_iff.mpr ⟨model?_of_nodup hd hx.1, hi⟩

/-- In every registry made of a list of models, an id leads to the member whose id it is. -/
theorem member_eq_ok_iff_of_ofModels {ms : List Model} {s : Schema} (h : ofModels ms = .ok s)
    {f : FieldId} {x : Member} : s.member f = .ok x ↔ s.Has x ∧ x.field.id = f := by
  obtain ⟨rfl, hi⟩ := ofModels_eq_ok_iff.mp h
  exact member_eq_ok_iff_of_issues hi (foldl_insertModel ms [] List.nodup_nil).1

/-- A verified registry is sound if its keys are ids of the models themselves, which verification
does not look at. -/
theorem sound_of_issues {s : Schema} (h : s.issues = []) (hd : (s.models.map Model.id).Nodup)
    (hk : ∀ m ∈ s.models, m.key.model = m.id) : s.Sound := by
  have verified := (issues_eq_nil_iff.mp h).2
  have key : ∀ m ∈ s.models, ∀ k, m.fields[m.key.index]? = some k → k.id = m.key := by
    intro m hm k hf
    rw [(verified m hm).ids _ k hf, ← hk m hm]
    rfl
  refine ⟨fun m hm => model?_of_nodup hd hm, fun m hm => (verified m hm).ids,
    fun x hx e he => ((verified _ hx.1).targets _ hx.2 e he).1,
    fun m hm => ?_, fun m hm d e he => ?_, fun m hm d e he f hf => ?_⟩
  · obtain ⟨k, hf, _, ht, _⟩ := (verified m hm).key
    exact ⟨k, List.mem_of_getElem? hf, by simp [Model.keyField, hk m hm, hf], key m hm k hf, ht⟩
  · obtain ⟨k, hf, _, _, _, hserved⟩ := (verified m hm).key
    have hk' : s.Has ⟨m, k⟩ := ⟨hm, List.mem_of_getElem? hf⟩
    rw [← key m hm k hf, serves, (member_eq_ok_iff_of_issues h hd).mpr ⟨hk', rfl⟩]
    exact hserved d e he
  · exact ((verified m hm).scalar_of_projected he hf).2

/-- Following the id of a member leads back to it. -/
theorem Sound.member_of_has {s : Schema} (h : s.Sound) {x : Member} (hx : s.Has x) :
    s.member x.field.id = .ok x := by
  obtain ⟨i, hi⟩ := List.mem_iff_getElem?.mp hx.2
  rw [h.id_of_getElem? _ hx.1 i _ hi]
  exact member_eq_ok_iff.mpr ⟨h.model?_of_mem _ hx.1, hi⟩

theorem Sound.model_of_mem {s : Schema} (h : s.Sound) {m : Model} (hm : m ∈ s.models) :
    s.model m.id = .ok m := model_eq_ok_iff.mpr (h.model?_of_mem m hm)

theorem Sound.eq_of_model_id_eq {s : Schema} (h : s.Sound) {m n : Model} (hm : m ∈ s.models)
    (hn : n ∈ s.models) (hid : m.id = n.id) : m = n := by
  have := h.model?_of_mem m hm
  rw [hid, h.model?_of_mem n hn] at this
  exact (Option.some.inj this).symm

theorem Sound.model_id_of_has {s : Schema} (h : s.Sound) {x : Member} (hx : s.Has x) :
    x.field.id.model = x.model.id := by
  obtain ⟨i, hi⟩ := List.mem_iff_getElem?.mp hx.2
  rw [h.id_of_getElem? _ hx.1 i _ hi]
  rfl

/-- A member is known by the id of its field. -/
theorem Sound.eq_of_id_eq {s : Schema} (h : s.Sound) {x y : Member} (hx : s.Has x) (hy : s.Has y)
    (hid : x.field.id = y.field.id) : x = y := by
  have := h.member_of_has hx
  rw [hid, h.member_of_has hy] at this
  exact (Except.ok.inj this).symm

theorem Sound.serves_of_has {s : Schema} (h : s.Sound) (d : Dialect) {x : Member} (hx : s.Has x) :
    s.serves d x.field.id = x.field.supports d := by
  rw [serves, h.member_of_has hx]

end Schema

namespace Definition

/-- Everything a resolved definition consists of. -/
theorem resolve_eq_ok_iff {ms : List Definition} {d : Definition} {i : Nat} {m : Model} :
    d.resolve ms i = .ok m ↔
    ∃ fields key rest graph,
      (d.fields.zipIdx.mapM fun x => resolveField ms d ⟨i⟩ x.1 x.2) = .ok fields ∧
      d.key = some key ∧ d.resolveEndpoint? ⟨i⟩ d.endpoint.rest = .ok rest ∧
      d.resolveEndpoint? ⟨i⟩ d.endpoint.graph = .ok graph ∧
      m = ⟨⟨i⟩, d.name, fields, (ModelId.mk i).field key, ⟨rest, graph⟩⟩ := by
  unfold resolve
  constructor
  · intro h
    obtain ⟨fields, hf, h⟩ := Except.bind_eq_ok_iff.mp h
    split at h
    · cases h
    · rename_i key hk
      obtain ⟨rest, hr, h⟩ := Except.bind_eq_ok_iff.mp h
      obtain ⟨graph, hg, h⟩ := Except.bind_eq_ok_iff.mp h
      cases h
      exact ⟨fields, key, rest, graph, hf, hk, hr, hg, rfl⟩
  · rintro ⟨fields, key, rest, graph, hf, hk, hr, hg, rfl⟩
    simp only [hf, hk, hr, hg, Except.ok_bind]
    rfl

theorem key_of_resolve {ms : List Definition} {d : Definition} {i : Nat} {m : Model}
    (h : d.resolve ms i = .ok m) : m.key.model = m.id := by
  obtain ⟨_, _, _, _, _, _, _, _, rfl⟩ := resolve_eq_ok_iff.mp h
  rfl

end Definition

namespace Schema

theorem sound_ofDefinitions {ms : List Definition} {s : Schema} (h : ofDefinitions ms = .ok s) :
    s.Sound := by
  unfold ofDefinitions at h
  split at h
  · cases h
  · obtain ⟨models, hm, h⟩ := Except.bind_eq_ok_iff.mp h
    obtain ⟨rfl, hi⟩ := ofModels_eq_ok_iff.mp h
    obtain ⟨hd, hn⟩ := foldl_insertModel models [] List.nodup_nil
    refine sound_of_issues hi hd fun m hmem => ?_
    have hmem : m ∈ models := (hn m hmem).resolve_left List.not_mem_nil
    obtain ⟨i, hi⟩ := List.mem_iff_getElem?.mp hmem
    obtain ⟨x, _, hx⟩ := Except.exists_of_mapM_eq_ok hm m hmem
    exact Definition.key_of_resolve hx

end Schema

/-- Every database is built over a sound registry. -/
theorem Builder.sound_of_build {b : Builder} {c : Connection} {db : Db} (h : b.build c = .ok db) :
    db.schema.Sound := by
  unfold build at h
  split at h
  · rename_i s hs
    cases h
    exact Schema.sound_ofDefinitions hs
  · cases h

/-- Definitions that make up a registry can be built over any connection. -/
theorem Builder.build_of_isOk {b : Builder} (h : b.schema.isOk = true) (c : Connection) :
    b.build c = .ok ⟨b.schema.toOption.getD ⟨[]⟩, b.preferred, c⟩ := by
  obtain ⟨s, hs⟩ := Except.exists_of_isOk h
  rw [build, hs]
  rfl

namespace Sample

/-- A registry of sites. On REST the owner of a site is inline, and its lists take a request of
their own. -/
def builder : Builder where
  definitions := [
    ((((Definition.named "Site").withKey (.scalar "Id")).withField (.scalar "Title")).withField
      (.expanding "Owner" { target := "User" })).withField
      (.expanding "Lists" {
        target := "List", collection := true, separateQuery := true,
        requestPath := ⟨some "/site/lists", none⟩ }) |>.onRest { entity := "/site" },
    ((Definition.named "User").withKey (.scalar "Id")).withField (.scalar "Name"),
    ((Definition.named "List").withKey (.scalar "Id")).withField (.scalar "Title")]
  graphFirst := false

def db : Db where
  schema := (builder.schema.toOption).getD ⟨[]⟩
  preferred := builder.preferred
  connection _ := .error (FailureKind.connectionFailed "offline" [])

def query : Query :=
  (Query.entity "Site").select
    [.field "Title", .nested "Owner" [.field "Name"], .nested "Lists" [.field "Title"]]

/-- The sample registry can be built over any connection. -/
theorem build_over (c : Connection) : builder.build c = .ok { db with connection := c } :=
  Builder.build_of_isOk (by decide +kernel) c

theorem build_eq : builder.build db.connection = .ok db := build_over db.connection

end Sample

end ODataPlan
