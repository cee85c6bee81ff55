import ODataPlan.Proofs.Representation

/-! Which definitions are accepted. Main statement: a list of definitions makes a registry exactly
if it is consistent, and the registry holds every definition at its place under its name. -/
namespace ODataPlan

namespace Definition

/-- The definition is valid among others: its field names are distinct, its targets are there, its
key is the only one, and its endpoints serve the key and what they project. -/
structure Valid (ms : List Definition) (m : Definition) : Prop where
  names : (m.fields.map (·.name)).Nodup
  targets : ∀ f ∈ m.fields, ∀ e, f.type = .expandable e →
    (∃ t ∈ ms, t.name = Name.ofString e.target) ∧
      (e.separateQuery = true → e.requestPath.rest.isSome = true)
  key : ∃ i k, m.key = some i ∧ m.fields[i]? = some k ∧ k.isKey = true ∧ k.type = .scalar ∧
    (∀ j f, m.fields[j]? = some f → f.isKey = true → j = i) ∧
    ∀ d e, m.endpoint.get d = some e → k.supports d = true
  projected : ∀ d e, m.endpoint.get d = some e → ∀ name ∈ e.required ++ e.fixedFields,
    ∃ f ∈ m.fields, f.name = name ∧ f.isScalarOn d = true

/-- The definitions are shown under distinct names, and each is valid among them. -/
structure Consistent (ms : List Definition) : Prop where
  names : (ms.map (·.name.upperCamel)).Nodup
  valid : ∀ m ∈ ms, m.Valid ms

namespace Becomes

variable {ms : List Definition} {i : Nat} {m : Definition} {n : Model} (h : m.Becomes ms i n)

include h

/-- Every field of the model is a declared one. -/
theorem exists_declared {j : Nat} {x : Field} (hx : n.fields[j]? = some x) :
    ∃ f, m.fields[j]? = some f ∧ f.Becomes (Targets ms) x.toFieldDecl ∧
      x.id = (ModelId.mk i).field j := by
  obtain ⟨f, hf, hfx⟩ := exists_left_of_rel (h.fields j) hx
  exact ⟨f, hf, hfx⟩

/-- Every declared field becomes one of the model. -/
theorem exists_field {j : Nat} {f : FieldDecl String} (hf : m.fields[j]? = some f) :
    ∃ x, n.fields[j]? = some x ∧ f.Becomes (Targets ms) x.toFieldDecl := by
  obtain ⟨x, hx, hfx, _⟩ := exists_right_of_rel (h.fields j) hf
  exact ⟨x, hx, hfx⟩

theorem names_eq : n.fields.map (·.name) = m.fields.map (·.name) := by
  apply List.ext_getElem?
  intro j
  have hrel := h.fields j
  rw [List.getElem?_map, List.getElem?_map]
  generalize m.fields[j]? = o at hrel ⊢
  generalize n.fields[j]? = o' at hrel ⊢
  cases hrel with
  | none => rfl
  | some hf => exact congrArg some hf.1.name

theorem key_index : m.key = some n.key.index := by
  obtain ⟨key, hkey, hn⟩ := Option.map_eq_some_iff.mp h.key
  rw [hkey, ← hn]
  rfl

/-- A model in order comes from a valid definition. -/
theorem valid_of_verified {s : Schema} (hv : n.Verified s) : m.Valid ms := by
  refine ⟨h.names_eq ▸ hv.names, fun f hf e he => ?_, ?_, fun d e he name hname => ?_⟩
  · obtain ⟨j, hj⟩ := List.mem_iff_getElem?.mp hf
    obtain ⟨x, hx, hfx⟩ := h.exists_field hj
    have htype := hfx.type
    rw [he] at htype
    generalize ht : x.type = t at htype
    cases htype with
    | expandable target =>
      obtain ⟨t, ht', hname⟩ := target
      exact ⟨⟨t, List.mem_of_getElem? ht', hname⟩, (hv.targets x (List.mem_of_getElem? hx) _ ht).2⟩
  · obtain ⟨k, hk, hkey, hscalar, hunique, hserved⟩ := hv.key
    obtain ⟨f, hf, hfk, _⟩ := h.exists_declared hk
    refine ⟨_, f, h.key_index, hf, hfk.isKey ▸ hkey, hfk.type.scalar_iff.mp hscalar,
      fun j g hg hgkey => ?_, fun d e he => ?_⟩
    · obtain ⟨y, hy, hgy⟩ := h.exists_field hg
      exact hunique j y hy (hgy.isKey.trans hgkey)
    · obtain ⟨e', he', _⟩ := exists_right_of_rel (h.endpoint d) he
      exact hfk.supports_eq d ▸ hserved d e' he'
  · obtain ⟨e', he', hee⟩ := exists_right_of_rel (h.endpoint d) he
    obtain ⟨id, hid, hmodel, g, hg, hgname⟩ := (exists_of_forall₂ hee.named).1 name hname
    obtain ⟨_, x, hx, hscalar⟩ := Model.canProject_iff.mp (hv.projected d e' he' id hid)
    obtain ⟨f, hf, hfx, _⟩ := h.exists_declared hx
    cases hg.symm.trans hf
    exact ⟨g, List.mem_of_getElem? hg, hgname, hfx.isScalarOn_eq d ▸ hscalar⟩

/-- A valid definition becomes a model in order, in a registry that has its targets. -/
theorem verified_of_valid {s : Schema}
    (ht : ∀ target id, Targets ms target id → ∃ t, s.model? id = some t) (hv : m.Valid ms) :
    n.Verified s := by
  refine ⟨fun j x hx => ?_, h.names_eq ▸ hv.names, fun x hx e he => ?_, ?_, fun d e he id hid => ?_⟩
  · obtain ⟨_, _, _, hid⟩ := h.exists_declared hx
    rw [hid, h.id]
  · obtain ⟨j, hj⟩ := List.mem_iff_getElem?.mp hx
    obtain ⟨f, hf, hfx, _⟩ := h.exists_declared hj
    have htype := hfx.type
    rw [he] at htype
    generalize hft : f.type = t at htype
    cases htype with
    | expandable target =>
      exact ⟨ht _ _ target, (hv.targets f (List.mem_of_getElem? hf) _ hft).2⟩
  · obtain ⟨key, f, hkey, hf, hfkey, hscalar, hunique, hserved⟩ := hv.key
    obtain rfl : n.key.index = key := Option.some.inj (h.key_index.symm.trans hkey)
    obtain ⟨x, hx, hfx⟩ := h.exists_field hf
    refine ⟨x, hx, hfx.isKey.trans hfkey, hfx.type.scalar_iff.mpr hscalar,
      fun j y hy hykey => ?_, fun d e he => ?_⟩
    · obtain ⟨g, hg, hgy, _⟩ := h.exists_declared hy
      exact hunique j g hg (hgy.isKey ▸ hykey)
    · obtain ⟨e', he', _⟩ := exists_left_of_rel (h.endpoint d) he
      exact (hfx.supports_eq d).trans (hserved d e' he')
  · obtain ⟨e', he', hee⟩ := exists_left_of_rel (h.endpoint d) he
    obtain ⟨name, hname, hmodel, g, hg, hgname⟩ := (exists_of_forall₂ hee.named).2 id hid
    obtain ⟨f, hf, hfname, hscalar⟩ := hv.projected d e' he' name hname
    -- an id stands for the first field of a name, and names are distinct
    obtain rfl : g = f := List.inj_on_of_nodup_map hv.names (List.mem_of_getElem? hg) hf
      (hgname.trans hfname.symm)
    obtain ⟨x, hx, hfx⟩ := h.exists_field hg
    exact Model.canProject_iff.mpr ⟨hmodel.trans h.id.symm, x, hx,
      (hfx.isScalarOn_eq d).trans hscalar⟩

end Becomes

end Definition

namespace Schema

/-- The registry holds every definition at its place: by id, and under its name. -/
structure Holds (s : Schema) (ms : List Definition) : Prop where
  models : ∀ i : Nat, Option.Rel (Definition.Becomes ms i) ms[i]? s.models[i]?
  ids : ∀ i : Nat, s.model? ⟨i⟩ = s.models[i]?
  named : ∀ (i : Nat) (n : Model), s.models[i]? = some n → ∀ name,
    s.modelNamed? name = some n ↔ n.name = Name.ofString name

namespace Registers

variable {s : Schema} {ms : List Definition} (h : s.Registers ms)

include h

theorem becomes (i : Nat) : Option.Rel (Definition.Becomes ms i) ms[i]? s.models[i]? :=
  rel_getElem?_of_forall₂_zipIdx (h.models.imp fun _ _ => Definition.becomes_of_resolve) i

theorem model?_eq_getElem? (i : Nat) : s.model? ⟨i⟩ = s.models[i]? := by
  cases hm : ms[i]? with
  | none =>
    rw [h.model?_eq_none (List.getElem?_eq_none_iff.mp hm)]
    cases hn : s.models[i]? with
    | none => rfl
    | some n =>
      obtain ⟨m, hm', _⟩ := exists_left_of_rel (h.becomes i) hn
      exact absurd (hm'.symm.trans hm) nofun
  | some m =>
    obtain ⟨n, hn, hmn⟩ := exists_right_of_rel (h.becomes i) hm
    rw [hn]
    exact hmn.id ▸ model?_of_nodup h.nodup_ids (List.mem_of_getElem? hn)

theorem holds : s.Holds ms := by
  refine ⟨h.becomes, h.model?_eq_getElem?, fun i n hn name => ⟨fun hname => ?_, fun hname => ?_⟩⟩
  · simpa using List.find?_some hname
  · rw [modelNamed?, ← hname]
    exact find?_of_nodup_map h.nodup_names (List.mem_of_getElem? hn)

/-- The registry of some definitions has no issues exactly if they are consistent. -/
theorem issues_eq_nil_iff_consistent : s.issues = [] ↔ Definition.Consistent ms := by
  have names : s.models.map (·.name.upperCamel) = ms.map (·.name.upperCamel) := by
    have := congrArg (List.map Name.upperCamel) h.names_eq
    rwa [List.map_map, List.map_map] at this
  have targets : ∀ target id, Definition.Targets ms target id → ∃ t, s.model? id = some t := by
    rintro target id ⟨d, hd, _⟩
    obtain ⟨n, _, _, hn⟩ := h.model?_of_getElem? hd
    exact ⟨n, hn⟩
  rw [Schema.issues_eq_nil_iff, names]
  constructor
  · rintro ⟨hnames, hmodels⟩
    refine ⟨hnames, fun d hd => ?_⟩
    obtain ⟨i, hi⟩ := List.mem_iff_getElem?.mp hd
    obtain ⟨n, hn, hr, _⟩ := h.model?_of_getElem? hi
    exact (Definition.becomes_of_resolve hr).valid_of_verified (hmodels n hn)
  · rintro ⟨hnames, hvalid⟩
    refine ⟨hnames, fun n hn => ?_⟩
    obtain ⟨⟨d, i⟩, hd, hr⟩ := (exists_of_forall₂ h.models).2 n hn
    exact (Definition.becomes_of_resolve hr).verified_of_valid targets
      (hvalid d (List.fst_mem_of_mem_zipIdx hd))

end Registers

/-- Consistent definitions can be registered. -/
theorem exists_registers {ms : List Definition} (h : Definition.Consistent ms) :
    ∃ s : Schema, s.Registers ms := by
  -- names that are shown differently differ
  have distinct : (ms.map Definition.name).Nodup := by
    refine List.Nodup.of_map Name.upperCamel ?_
    rw [List.map_map]
    exact h.names
  have each : ∀ x ∈ ms.zipIdx, ∃ n, Definition.resolve ms x.1 x.2 = .ok n := by
    intro x hx
    have hv := h.valid _ (List.fst_mem_of_mem_zipIdx hx)
    obtain ⟨key, _, hkey, _⟩ := hv.key
    refine Definition.exists_resolve_iff.mpr ⟨fun f hf e he => (hv.targets f hf e he).1,
      ⟨key, hkey⟩, fun d e he name hname => ?_⟩
    obtain ⟨f, hf, hfname, _⟩ := hv.projected d e he name hname
    exact ⟨f, hf, hfname⟩
  obtain ⟨models, hmodels⟩ := exists_forall₂ each
  exact ⟨⟨models⟩, distinct, hmodels⟩

end Schema

namespace Builder

/-- Definitions are accepted exactly if they are consistent, and refused as an invalid schema
otherwise. An accepted list is held place by place. -/
theorem accepts_iff_consistent (b : Builder) :
    ((∃ s, b.schema = .ok s) ↔ Definition.Consistent b.definitions) ∧
    (¬ Definition.Consistent b.definitions → ∃ issue, b.schema = .error issue ∧
      ∀ c, b.build c = .error (.failed (.ofKind (.invalidSchema issue.message)))) ∧
    ∀ s, b.schema = .ok s → s.Holds b.definitions := by
  have accepted : (∃ s, b.schema = .ok s) ↔ Definition.Consistent b.definitions := by
    constructor
    · rintro ⟨s, hs⟩
      obtain ⟨hr, hissues⟩ := Schema.ofDefinitions_eq_ok_iff.mp hs
      exact hr.issues_eq_nil_iff_consistent.mp hissues
    · intro h
      obtain ⟨s, hr⟩ := Schema.exists_registers h
      exact ⟨s, Schema.ofDefinitions_eq_ok_iff.mpr ⟨hr, hr.issues_eq_nil_iff_consistent.mpr h⟩⟩
  refine ⟨accepted, fun hn => ?_, fun s hs => (Schema.registers_ofDefinitions hs).holds⟩
  cases hs : b.schema with
  | ok s => exact absurd (accepted.mp ⟨s, hs⟩) hn
  | error issue => exact ⟨issue, rfl, fun c => by rw [build, hs]; rfl⟩

/-- The sample definitions are consistent; sites come first and are found under their name. -/
theorem accepts_iff_consistent_sample : Definition.Consistent Sample.builder.definitions ∧
    ∃ s n, Sample.builder.schema = .ok s ∧ s.models[0]? = some n ∧
      s.modelNamed? "site" = some n := by
  obtain ⟨accepted, _, holds⟩ := accepts_iff_consistent Sample.builder
  obtain ⟨s, hs⟩ := Except.exists_of_isOk (show Sample.builder.schema.isOk = true by decide +kernel)
  obtain ⟨n, hn, hbecomes⟩ := exists_right_of_rel ((holds s hs).models 0) rfl
  have hname : n.name = Name.ofString "site" := hbecomes.name.trans (by decide +kernel)
  exact ⟨accepted.mp ⟨s, hs⟩, s, n, hs, hn, ((holds s hs).named 0 n hn "site").mpr hname⟩

end Builder

end ODataPlan
