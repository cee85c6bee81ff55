import ODataPlan.Proofs.Selection.Records

/-! Well-typed selections: at every level the scalars and expandables belong to the level's model,
and each branch is at the target of its expandable. Adding what a selector resolves to keeps this. -/
namespace ODataPlan

namespace Model

def HasScalar (m : Model) (f : FieldId) : Prop := ∃ x ∈ m.fields, x.id = f ∧ x.type = .scalar

def HasExpandable (m : Model) (f : FieldId) (target : ModelId) : Prop :=
  ∃ x ∈ m.fields, x.id = f ∧ ∃ e, x.type = .expandable e ∧ e.target = target

end Model

/-- Every level of the selection picks fields of its own model. -/
inductive Selection.WellTyped (s : Schema) : Selection → Prop
  | mk {m fields branches d} (model : m ∈ s.models) (scalars : ∀ f ∈ fields, m.HasScalar f)
    (nodup : branches.keys.Nodup)
    (expandables : ∀ f n, (f, n) ∈ branches.toList → m.HasExpandable f n.model)
    (nested : ∀ f n, (f, n) ∈ branches.toList → WellTyped s n) :
    WellTyped s (.mk m.id fields branches d)

/-- A pick on a model picks fields of it and of the targets within. -/
inductive Pick.WellTyped (s : Schema) : Model → Pick → Prop
  | scalar {m f} (has : m.HasScalar f) : WellTyped s m (.scalar f)
  | bare {m f} {t : Model} (has : m.HasExpandable f t.id) (model : t ∈ s.models) :
    WellTyped s m (.bare f t.id)
  | within {m f} {t : Model} {ps} (has : m.HasExpandable f t.id) (model : t ∈ s.models)
    (nested : ∀ p ∈ ps, WellTyped s t p) : WellTyped s m (.within f t.id ps)

theorem Schema.Sound.model_of_hasScalar {s : Schema} (hs : s.Sound) {m : Model}
    (hm : m ∈ s.models) {f : FieldId} (h : m.HasScalar f) : f.model = m.id := by
  obtain ⟨x, hx, rfl, _⟩ := h
  exact hs.model_id_of_has (x := ⟨m, x⟩) ⟨hm, hx⟩

/-- The expandable of an id has one target. -/
theorem Schema.Sound.target_unique {s : Schema} (hs : s.Sound) {m : Model} (hm : m ∈ s.models)
    {f : FieldId} {a b : ModelId} (ha : m.HasExpandable f a) (hb : m.HasExpandable f b) :
    a = b := by
  obtain ⟨x, hx, rfl, e, he, rfl⟩ := ha
  obtain ⟨y, hy, hid, e', he', rfl⟩ := hb
  cases hs.eq_of_id_eq (x := ⟨m, y⟩) (y := ⟨m, x⟩) ⟨hm, hy⟩ ⟨hm, hx⟩ hid
  rw [he] at he'
  cases he'
  rfl

namespace Selector

/-- What a selector resolves to is well typed on its model. -/
theorem wellTyped_of_resolve {s : Schema} (hs : s.Sound) (x : Selector) {m : Model}
    (hm : m ∈ s.models) {p : Pick} (h : x.resolve s m = .ok p) : p.WellTyped s m := by
  induction x using Selector.induction generalizing m p with
  | field name =>
    obtain ⟨f, hf, ⟨ht, rfl⟩ | ⟨e, ht, rfl⟩⟩ := resolve_field_eq_ok h
    · exact .scalar ⟨f, Model.mem_of_field? hf, rfl, ht⟩
    · obtain ⟨t, he⟩ := hs.target_registered ⟨m, f⟩ ⟨hm, Model.mem_of_field? hf⟩ e ht
      have hid := Schema.id_of_model? he
      rw [← hid]
      exact .bare ⟨f, Model.mem_of_field? hf, rfl, e, ht, hid.symm⟩ (Schema.mem_of_model? he)
  | nested name xs ih =>
    obtain ⟨f, hf, ⟨ht, rfl⟩ | ⟨e, ps, ht, hps, rfl⟩⟩ := resolve_nested_eq_ok h
    · exact .scalar ⟨f, Model.mem_of_field? hf, rfl, ht⟩
    · obtain ⟨t, he⟩ := hs.target_registered ⟨m, f⟩ ⟨hm, Model.mem_of_field? hf⟩ e ht
      have hid := Schema.id_of_model? he
      have hmt := Schema.mem_of_model? he
      rw [← hid, resolveAll_eq_mapM (hs.model_of_mem hmt)] at hps
      rw [← hid]
      refine .within ⟨f, Model.mem_of_field? hf, rfl, e, ht, hid.symm⟩ hmt fun p hp => ?_
      obtain ⟨x, hx, hr⟩ := Except.exists_of_mapM_eq_ok hps p hp
      exact ih x hx hmt hr

end Selector

namespace Selection

variable {s : Schema} {m : Model}

theorem model_add (p : Pick) (a : Selection) : (a.add p).model = a.model := by
  cases p <;> cases a <;> rfl

@[simp] theorem model_withDefaults (d : Bool) (a : Selection) :
    (a.withDefaults d).model = a.model := by
  cases a
  rfl

theorem WellTyped.model_mem {a : Selection} (h : a.WellTyped s) :
    ∃ m ∈ s.models, a.model = m.id := by
  obtain ⟨model, _, _, _, _⟩ := h
  exact ⟨_, model, rfl⟩

theorem wellTyped_empty (hm : m ∈ s.models) : (empty m.id).WellTyped s :=
  .mk hm (by simp) List.nodup_nil (by simp) (by simp)

theorem WellTyped.insertField {a : Selection} (ha : a.WellTyped s) (hs : s.Sound)
    (hm : m ∈ s.models) (hid : a.model = m.id) {f : FieldId} (hf : m.HasScalar f) :
    (a.insertField f).WellTyped s := by
  cases ha with
  | mk model scalars nodup expandables nested =>
    cases hs.eq_of_model_id_eq model hm hid
    refine .mk hm (fun g hg => ?_) nodup expandables nested
    rcases mem_addNew.mp hg with hg | rfl
    · exact scalars g hg
    · exact hf

theorem WellTyped.withDefaults {a : Selection} (ha : a.WellTyped s) (d : Bool) :
    (a.withDefaults d).WellTyped s := by
  cases ha with
  | mk model scalars nodup expandables nested => exact .mk model scalars nodup expandables nested

theorem WellTyped.setBranch {a n : Selection} (ha : a.WellTyped s) (hn : n.WellTyped s)
    (hs : s.Sound) (hm : m ∈ s.models) (hid : a.model = m.id) {f : FieldId}
    (hf : m.HasExpandable f n.model) : (a.setBranch f n).WellTyped s := by
  cases ha with
  | mk model scalars nodup expandables nested =>
    cases hs.eq_of_model_id_eq model hm hid
    refine .mk hm scalars ?_ (fun g k hg => ?_) (fun g k hg => ?_)
    · rw [branches_mk, Branches.keys_set]
      exact nodup_addNew nodup f
    · rcases Branches.mem_toList_set hg with ⟨rfl, rfl⟩ | hg
      · exact hf
      · exact expandables g k hg
    · rcases Branches.mem_toList_set hg with ⟨rfl, rfl⟩ | hg
      · exact hn
      · exact nested g k hg

/-- The branch under an expandable, there already or not, is at the target. -/
theorem WellTyped.branch {a : Selection} (ha : a.WellTyped s) (hs : s.Sound) (hm : m ∈ s.models)
    (hid : a.model = m.id) {f : FieldId} {t : Model} (ht : t ∈ s.models)
    (hf : m.HasExpandable f t.id) :
    (a.branch f t.id).WellTyped s ∧ (a.branch f t.id).model = t.id := by
  cases ha with
  | mk model scalars nodup expandables nested =>
    cases hs.eq_of_model_id_eq model hm hid
    unfold Selection.branch
    rw [branches_mk]
    cases hg : Branches.get? f _ with
    | none => exact ⟨wellTyped_empty ht, rfl⟩
    | some n =>
      have hmem := Branches.mem_toList_of_get? hg
      exact ⟨nested f n hmem, hs.target_unique hm (expandables f n hmem) hf⟩

theorem WellTyped.foldl_add {ps : List Pick} {t : Model}
    (h : ∀ p ∈ ps, ∀ a : Selection, a.WellTyped s → a.model = t.id → (a.add p).WellTyped s)
    {a : Selection} (ha : a.WellTyped s) (hid : a.model = t.id) :
    (ps.foldl add a).WellTyped s ∧ (ps.foldl add a).model = t.id := by
  induction ps generalizing a with
  | nil => exact ⟨ha, hid⟩
  | cons p ps ih =>
    obtain ⟨hp, hps⟩ := List.forall_mem_cons.mp h
    exact ih hps (hp a ha hid) ((model_add p a).trans hid)

/-- Adding a well-typed pick keeps a selection well typed. -/
theorem WellTyped.add {a : Selection} (ha : a.WellTyped s) (hs : s.Sound) (p : Pick) {m : Model}
    (hm : m ∈ s.models) (hid : a.model = m.id) (hp : p.WellTyped s m) : (a.add p).WellTyped s := by
  induction p using Pick.induction generalizing a m with
  | scalar f =>
    cases hp with
    | scalar has => exact ha.insertField hs hm hid has
  | bare f target =>
    cases hp with
    | bare has model =>
      obtain ⟨hb, hbm⟩ := ha.branch hs hm hid model has
      refine ha.setBranch (hb.withDefaults true) hs hm hid ?_
      rwa [model_withDefaults, hbm]
  | within f target ps ih =>
    cases hp with
    | within has model nested =>
      obtain ⟨hb, hbm⟩ := ha.branch hs hm hid model has
      obtain ⟨hn, hnm⟩ := WellTyped.foldl_add
        (fun p hp a ha hid => ih p hp ha model hid (nested p hp)) hb hbm
      rw [← addAll_eq_foldl] at hn hnm
      exact ha.setBranch hn hs hm hid (hnm.symm ▸ has)

theorem WellTyped.addAll {a : Selection} (ha : a.WellTyped s) (hs : s.Sound) {ps : List Pick}
    (hm : m ∈ s.models) (hid : a.model = m.id) (hp : ∀ p ∈ ps, p.WellTyped s m) :
    (a.addAll ps).WellTyped s ∧ (a.addAll ps).model = m.id := by
  rw [addAll_eq_foldl]
  exact WellTyped.foldl_add (fun p hmem a ha hid => ha.add hs p hm hid (hp p hmem)) ha hid

theorem WellTyped.nodup_keys {a : Selection} (ha : a.WellTyped s) : a.branches.keys.Nodup := by
  cases ha with
  | mk model scalars nodup expandables nested => exact nodup

theorem WellTyped.hasScalar {a : Selection} (ha : a.WellTyped s) (hs : s.Sound)
    (hm : m ∈ s.models) (hid : a.model = m.id) {f : FieldId} (hf : f ∈ a.fields) :
    m.HasScalar f := by
  cases ha with
  | mk model scalars nodup expandables nested =>
    cases hs.eq_of_model_id_eq model hm hid
    exact scalars f hf

theorem WellTyped.hasExpandable {a n : Selection} (ha : a.WellTyped s) (hs : s.Sound)
    (hm : m ∈ s.models) (hid : a.model = m.id) {f : FieldId} (h : (f, n) ∈ a.branches.toList) :
    m.HasExpandable f n.model := by
  cases ha with
  | mk model scalars nodup expandables nested =>
    cases hs.eq_of_model_id_eq model hm hid
    exact expandables f n h

theorem WellTyped.of_branch {a : Selection} (ha : a.WellTyped s) {f : FieldId} {n : Selection}
    (h : (f, n) ∈ a.branches.toList) : n.WellTyped s := by
  cases ha with
  | mk model scalars nodup expandables nested => exact nested f n h

/-- A branch stands under an expandable and at its target. -/
theorem WellTyped.member_of_branch {a : Selection} (ha : a.WellTyped s) {f : FieldId}
    {n : Selection} (h : (f, n) ∈ a.branches.toList) :
    ∃ x e, s.Has x ∧ x.id = f ∧ x.field.type = .expandable e ∧ e.target = n.model := by
  cases ha with
  | mk model scalars nodup expandables nested =>
    obtain ⟨y, hy, hid, e, he, ht⟩ := expandables f n h
    exact ⟨⟨_, y⟩, e, ⟨model, hy⟩, hid, he, ht⟩

theorem WellTyped.model_of_branch {a : Selection} (ha : a.WellTyped s) (hs : s.Sound) {f : FieldId}
    {n : Selection} (h : (f, n) ∈ a.branches.toList) : f.model = a.model := by
  cases ha with
  | mk model scalars nodup expandables nested =>
    obtain ⟨y, hy, rfl, _⟩ := expandables f n h
    exact hs.model_id_of_has (x := ⟨_, y⟩) ⟨model, hy⟩

/-- Every level of a well-typed selection is well typed. -/
theorem WellTyped.level {a : Selection} (ha : a.WellTyped s) {path : FieldPath} {n : Selection}
    (h : a.level? path = some n) : n.WellTyped s := by
  induction path generalizing a with
  | nil =>
    cases h
    exact ha
  | cons f path ih =>
    obtain ⟨k, hk, hn⟩ := Option.bind_eq_some_iff.mp h
    exact ih (ha.of_branch (Branches.mem_toList_of_get? hk)) hn

end Selection

end ODataPlan
