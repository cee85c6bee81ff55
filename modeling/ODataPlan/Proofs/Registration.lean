import ODataPlan.Proofs.Registry

/-! What registering a list of definitions makes of it. Main statement: every definition is the
model at its own place, and is found there by its id and by its name. -/
namespace ODataPlan

/-- An entry stands at the place that a test finds, and it passes the test. -/
theorem exists_getElem?_of_findIdx? {α : Type} {p : α → Bool} {xs : List α} {i : Nat}
    (h : xs.findIdx? p = some i) : ∃ x, xs[i]? = some x ∧ p x = true := by
  obtain ⟨hi, hp, _⟩ := List.findIdx?_eq_some_iff_getElem.mp h
  exact ⟨xs[i], List.getElem?_eq_getElem hi, hp⟩

namespace Definition

variable {ms : List Definition}

theorem firstDuplicate?_eq_none_iff :
    firstDuplicate? ms = none ↔ (ms.map Definition.name).Nodup := by
  simp only [firstDuplicate?, Option.map_eq_none_iff, List.find?_eq_none, Prod.forall,
    List.mk_mem_zipIdx_iff_getElem?, nodup_map_iff_take, Bool.not_eq_true]
  exact forall_comm

/-- A name that stands for a place is the name of the definition there. -/
theorem exists_of_idOf? {target : String} {id : ModelId} (h : idOf? ms target = some id) :
    ∃ d, ms[id.index]? = some d ∧ d.name = Name.ofString target := by
  obtain ⟨i, hi, rfl⟩ := Option.map_eq_some_iff.mp h
  obtain ⟨d, hd, hn⟩ := exists_getElem?_of_findIdx? hi
  exact ⟨d, hd, by simpa using hn⟩

/-- A name stands for the place of the only definition that has it. -/
theorem idOf?_eq_some_iff (h : (ms.map Definition.name).Nodup) {target : String} {i : Nat} :
    idOf? ms target = some ⟨i⟩ ↔ ∃ d, ms[i]? = some d ∧ d.name = Name.ofString target := by
  constructor
  · exact exists_of_idOf?
  · rintro ⟨d, hd, hn⟩
    obtain ⟨hi, rfl⟩ := List.getElem?_eq_some_iff.mp hd
    refine Option.map_eq_some_iff.mpr ⟨i, List.findIdx?_eq_some_iff_getElem.mpr ?_, rfl⟩
    simp only [beq_iff_eq]
    refine ⟨hi, hn, fun j hj heq => ?_⟩
    have hj' : j < ms.length := by omega
    have same : ms[j] = ms[i] :=
      List.inj_on_of_nodup_map h (List.getElem_mem hj') (List.getElem_mem hi) (heq.trans hn.symm)
    have := (h.of_map.getElem_inj_iff).mp same
    omega

theorem id_of_resolve {d : Definition} {i : Nat} {m : Model} (h : d.resolve ms i = .ok m) :
    m.id = ⟨i⟩ := by
  obtain ⟨_, _, _, _, _, _, _, _, rfl⟩ := resolve_eq_ok_iff.mp h
  rfl

theorem name_of_resolve {d : Definition} {i : Nat} {m : Model} (h : d.resolve ms i = .ok m) :
    m.name = d.name := by
  obtain ⟨_, _, _, _, _, _, _, _, rfl⟩ := resolve_eq_ok_iff.mp h
  rfl

end Definition

namespace Schema

/-- Models of distinct ids are put into the list one behind the other. -/
theorem foldl_insertModel_of_nodup (ms start : List Model)
    (h : ((start ++ ms).map Model.id).Nodup) : ms.foldl insertModel start = start ++ ms := by
  induction ms generalizing start with
  | nil => exact (List.append_nil start).symm
  | cons m ms ih =>
    have fresh : ¬ start.any (·.id == m.id) = true := by
      intro hany
      obtain ⟨n, hn, heq⟩ := List.any_eq_true.mp hany
      rw [List.map_append, List.map_cons, List.nodup_append] at h
      exact h.2.2 _ (List.mem_map_of_mem hn) _ List.mem_cons_self (by simpa using heq)
    rw [List.append_cons] at h
    rw [List.foldl_cons, insertModel, if_neg fresh, ih _ h, ← List.append_cons]

/-- The registry holds the models of a list of definitions, place by place. -/
structure Registers (s : Schema) (ms : List Definition) : Prop where
  distinct : (ms.map Definition.name).Nodup
  models : List.Forall₂ (fun x m => Definition.resolve ms x.1 x.2 = .ok m) ms.zipIdx s.models

namespace Registers

variable {s : Schema} {ms : List Definition} (h : s.Registers ms)

include h

theorem ids_eq : s.models.map Model.id = (List.range ms.length).map ModelId.mk := by
  have ids : List.Forall₂ (· = ·) (s.models.map Model.id) (ms.zipIdx.map fun x => ⟨x.2⟩) := by
    rw [List.forall₂_map_left_iff, List.forall₂_map_right_iff]
    exact h.models.flip.imp fun _ _ hx => Definition.id_of_resolve hx
  rw [List.forall₂_eq_eq_eq] at ids
  rw [ids, List.range_eq_range', ← List.zipIdx_map_snd 0 ms, List.map_map]
  rfl

theorem nodup_ids : (s.models.map Model.id).Nodup := by
  rw [h.ids_eq]
  exact List.nodup_range.map fun _ _ heq => ModelId.mk.inj heq

theorem names_eq : s.models.map Model.name = ms.map Definition.name := by
  have names : List.Forall₂ (· = ·) (s.models.map Model.name)
      (ms.zipIdx.map fun x => x.1.name) := by
    rw [List.forall₂_map_left_iff, List.forall₂_map_right_iff]
    exact h.models.flip.imp fun _ _ hx => Definition.name_of_resolve hx
  rw [List.forall₂_eq_eq_eq] at names
  rw [names, ← List.zipIdx_map_fst 0 ms, List.map_map, List.zipIdx_map_fst]
  rfl

theorem nodup_names : (s.models.map Model.name).Nodup := by
  rw [h.names_eq]
  exact h.distinct

/-- A definition is the model at its place. -/
theorem model?_of_getElem? {i : Nat} {d : Definition} (hd : ms[i]? = some d) :
    ∃ m ∈ s.models, d.resolve ms i = .ok m ∧ s.model? ⟨i⟩ = some m := by
  have hz : (d, i) ∈ ms.zipIdx := List.mk_mem_zipIdx_iff_getElem?.mpr hd
  obtain ⟨m, hm, hr⟩ := Except.forall_of_mapM_eq_ok (Except.mapM_eq_ok_iff.mpr h.models) _ hz
  exact ⟨m, hm, hr, Definition.id_of_resolve hr ▸ model?_of_nodup h.nodup_ids hm⟩

theorem model?_eq_none {i : Nat} (hi : ms.length ≤ i) : s.model? ⟨i⟩ = none := by
  refine Option.eq_none_iff_forall_not_mem.mpr fun m hm => ?_
  have hid : m.id ∈ s.models.map Model.id := List.mem_map_of_mem (mem_of_model? hm)
  rw [id_of_model? hm, h.ids_eq] at hid
  obtain ⟨j, hj, heq⟩ := List.mem_map.mp hid
  have := List.mem_range.mp hj
  have := ModelId.mk.inj heq
  omega

theorem modelNamed?_of_getElem? {i : Nat} {d : Definition} (hd : ms[i]? = some d) {name : String}
    (hn : d.name = Name.ofString name) : s.modelNamed? name = s.model? ⟨i⟩ := by
  obtain ⟨m, hm, hr, hi⟩ := h.model?_of_getElem? hd
  have hname : m.name = Name.ofString name := (Definition.name_of_resolve hr).trans hn
  rw [hi, modelNamed?, ← hname]
  exact find?_of_nodup_map h.nodup_names hm

end Registers

/-- The registry of a list of definitions holds them place by place and has no issues. -/
theorem ofDefinitions_eq_ok_iff {ms : List Definition} {s : Schema} :
    ofDefinitions ms = .ok s ↔ s.Registers ms ∧ s.issues = [] := by
  -- the ids are the places, so no model replaces another one
  have placed : ∀ {models : List Model}, Registers ⟨models⟩ ms →
      models.foldl insertModel [] = models := fun h => foldl_insertModel_of_nodup _ [] h.nodup_ids
  unfold ofDefinitions
  constructor
  · intro h
    split at h
    · cases h
    · rename_i hnone
      obtain ⟨models, hm, h⟩ := Except.bind_eq_ok_iff.mp h
      obtain ⟨rfl, hissues⟩ := ofModels_eq_ok_iff.mp h
      have hs : Registers ⟨models⟩ ms :=
        ⟨Definition.firstDuplicate?_eq_none_iff.mp hnone, Except.mapM_eq_ok_iff.mp hm⟩
      rw [placed hs] at hissues ⊢
      exact ⟨hs, hissues⟩
  · rintro ⟨hs, hissues⟩
    obtain ⟨models⟩ := s
    rw [Definition.firstDuplicate?_eq_none_iff.mpr hs.distinct]
    refine Except.bind_eq_ok_iff.mpr ⟨models, Except.mapM_eq_ok_iff.mpr hs.models, ?_⟩
    rw [ofModels_eq_ok_iff, placed hs]
    exact ⟨rfl, hissues⟩

/-- An accepted list of definitions is registered place by place. -/
theorem registers_ofDefinitions {ms : List Definition} {s : Schema}
    (h : ofDefinitions ms = .ok s) : s.Registers ms := (ofDefinitions_eq_ok_iff.mp h).1

end Schema

/-- The registry of a database holds what its builder was given. -/
theorem Builder.registers_of_build {b : Builder} {c : Connection} {db : Db}
    (h : b.build c = .ok db) : db.schema.Registers b.definitions ∧ db.preferred = b.preferred := by
  unfold build at h
  split at h
  · rename_i s hs
    cases h
    exact ⟨Schema.registers_ofDefinitions hs, rfl⟩
  · cases h

end ODataPlan
