import ODataPlan.Proofs.Plan.Operations

/-! How a plan loads what is selected. Main statement: every expandable selected at the root is loaded
exactly once, inline on the main request or by one follow-up, and each request expands the chains
that are inline below it. -/
namespace ODataPlan

theorem Schema.Sound.nodup_ids {s : Schema} (hs : s.Sound) {m : Model} (hm : m ∈ s.models) :
    (m.fields.map Field.id).Nodup := by
  rw [List.nodup_iff_injective_get]
  intro i j hij
  have hi := hs.id_of_getElem? m hm i _ (List.getElem?_eq_getElem (by simpa using i.isLt))
  have hj := hs.id_of_getElem? m hm j _ (List.getElem?_eq_getElem (by simpa using j.isLt))
  simp only [List.get_eq_getElem, List.getElem_map] at hij
  rw [hi, hj] at hij
  exact Fin.ext (congrArg FieldId.index hij)

theorem Model.map_id_members (m : Model) : m.members.map Member.id = m.fields.map Field.id := by
  rw [members, List.map_map]
  rfl

/-- The expandables to load are some of the declared members, in their order. -/
theorem Resolved.expansions_sublist (r : Resolved) :
    (r.expansions.map Prod.fst).Sublist r.model.members := by
  unfold expansions
  induction r.model.members with
  | nil => exact .slnil
  | cons x ms ih =>
    cases hx : r.selection.branches.get? x.field.id with
    | none => simpa [hx] using ih.cons x
    | some a => simpa [hx] using ih

theorem Resolved.nodup_expansions {s : Schema} (hs : s.Sound) {r : Resolved}
    (hm : r.model ∈ s.models) : (r.expansions.map fun x => x.1.id).Nodup := by
  have ids := r.expansions_sublist.map Member.id
  rw [List.map_map, r.model.map_id_members] at ids
  exact (hs.nodup_ids hm).sublist ids

def Plan.fields (p : Plan) : List FieldId := p.followUps.map FollowUp.field

namespace Query

/-- How a plan loads what a query selects. -/
structure LoadedBy (q : Query) (s : Schema) (p : Plan) : Prop where
  /-- An expandable selected at the root is expanded by the main request or filled by one
  follow-up, not both. -/
  once : ∀ x, q.Names s .expandable [x] →
    ([x.id] ∈ p.primary.expanded ∧ p.fields.count x.id = 0) ∨
    ([x.id] ∉ p.primary.expanded ∧ p.fields.count x.id = 1)
  /-- The follow-ups stand in declaration order, one for a field. -/
  order : ∀ m, s.modelNamed? q.model = some m →
    p.fields.Sublist (m.fields.map Field.id) ∧ p.fields.Nodup
  /-- Below a collection and next to a filter, order or paging there are none. -/
  single : q.source = .collection ∨ q.directives.filters ≠ [] ∨ q.directives.orders ≠ [] ∨
    q.directives.top.isSome = true ∨ q.directives.skip.isSome = true → p.followUps = []
  /-- A follow-up loads its expandable from the path declared for that. -/
  followUp : ∀ f ∈ p.followUps, ∃ x e, q.Names s .expandable [x] ∧ x.id = f.field ∧
    x.field.type = .expandable e ∧ f.operation.dialect = p.dialect ∧
    f.operation.model = e.target ∧ e.requestPath.get p.dialect = some f.operation.path ∧
    ∀ c ∈ f.operation.clauses, c.shapes = false
  /-- The main request expands the selected chains that do not start with a follow-up's field. -/
  primary_expands : p.primary.expanded.Nodup ∧ ∀ ids, ids ∈ p.primary.expanded ↔
    ∃ x path, q.Names s .expandable (x :: path) ∧ x.id ∉ p.fields ∧
      (x :: path).map Member.id = ids
  /-- A follow-up expands the selected chains below its field. -/
  followUp_expands : ∀ f ∈ p.followUps, f.operation.expanded.Nodup ∧
    ∀ ids, ids ∈ f.operation.expanded ↔ ∃ x path, x.id = f.field ∧ path ≠ [] ∧
      q.Names s .expandable (x :: path) ∧ path.map Member.id = ids
  /-- Every request stays within what its dialect expands. -/
  limits : ∀ op ∈ p.operations, op.dialect = p.dialect ∧ ∀ ids ∈ op.expanded,
    (p.dialect = .graph → ids.length = 1) ∧ ∀ f ∈ ids, ∃ x e, s.Has x ∧ x.id = f ∧
      x.field.type = .expandable e ∧ (p.dialect = .rest → e.separateQuery = false) ∧
      (p.dialect = .graph → e.collection = false)

namespace PlansTo

variable {q : Query} {s : Schema} {r : Resolved} {p : Plan}

theorem mem_fields_iff (hs : s.Sound) (h : q.PlansTo s r p) {f : FieldId} : f ∈ p.fields ↔
    ∃ x a, (x, a) ∈ r.expansions ∧ ¬ x.InlineAt p.dialect 1 ∧ x.id = f := by
  simp only [Plan.fields, List.mem_map, h.mem_followUps_iff hs]
  constructor
  · rintro ⟨_, ⟨x, a, hx, hi, rfl⟩, rfl⟩
    exact ⟨x, a, hx, hi, rfl⟩
  · rintro ⟨x, a, hx, hi, rfl⟩
    exact ⟨_, ⟨x, a, hx, hi, rfl⟩, rfl⟩

theorem mem_fields_of_expansion (hs : s.Sound) (h : q.PlansTo s r p) {x : Member} {a : Selection}
    (hx : (x, a) ∈ r.expansions) : x.id ∈ p.fields ↔ ¬ x.InlineAt p.dialect 1 := by
  obtain ⟨picks, hq⟩ := h.resolves
  rw [h.mem_fields_iff hs]
  constructor
  · rintro ⟨y, b, hy, hi, hid⟩
    have hx := ((hq.mem_expansions_iff hs).mp hx).1
    have hy := ((hq.mem_expansions_iff hs).mp hy).1
    rwa [hs.eq_of_id_eq hy hx hid] at hi
  · intro hi
    exact ⟨x, a, hx, hi, rfl⟩

/-- The fields of the follow-ups are some of the declared fields, in their order. -/
theorem fields_sublist (hs : s.Sound) (h : q.PlansTo s r p) :
    p.fields.Sublist (r.model.fields.map Field.id) := by
  have hf : p.fields = (r.expansions.filter fun x => ¬ x.1.InlineAt p.dialect 1).map
      (Member.id ∘ Prod.fst) := by
    rw [Plan.fields, h.followUps_eq hs, List.map_map]
    rfl
  rw [hf, ← r.model.map_id_members, ← List.map_map]
  exact ((List.filter_sublist.map _).trans r.expansions_sublist).map _

theorem nodup_fields (hs : s.Sound) (h : q.PlansTo s r p) : p.fields.Nodup := by
  obtain ⟨picks, hq⟩ := h.resolves
  exact (hs.nodup_ids hq.model_mem).sublist (h.fields_sublist hs)

/-- The main request expands an expandable on its own exactly if it is inline. -/
theorem mem_expanded_primary_iff_names (hs : s.Sound) (h : q.PlansTo s r p) {ids : FieldPath} :
    ids ∈ p.primary.expanded ↔ ∃ x path, q.Names s .expandable (x :: path) ∧ x.id ∉ p.fields ∧
      (x :: path).map Member.id = ids := by
  obtain ⟨picks, hq⟩ := h.resolves
  rw [h.mem_expanded_primary_iff hs]
  constructor
  · rintro ⟨x, a, hx, hi, hids⟩
    have ha := (hq.target_of_expansion hs hx).1
    obtain ⟨rest, n, hn, rfl⟩ := ha.mem_expand_block_iff.mp hids
    obtain ⟨path, rfl, named, _⟩ := hq.levelAt_of_expansion hs hx hn
    exact ⟨x, path, named, fun hf => (h.mem_fields_of_expansion hs hx).mp hf hi, rfl⟩
  · rintro ⟨x, path, named, hf, rfl⟩
    obtain ⟨a, hx⟩ := (hq.exists_expansion_iff hs).mpr named.head
    obtain ⟨n, hn, _⟩ := hq.exists_level_of_expansion hs hx named
    have ha := (hq.target_of_expansion hs hx).1
    refine ⟨x, a, hx, ?_, ha.mem_expand_block_iff.mpr ⟨_, n, hn, rfl⟩⟩
    exact Decidable.not_not.mp fun hi => hf ((h.mem_fields_of_expansion hs hx).mpr hi)

/-- A follow-up expands the selected chains below its field. -/
theorem mem_expanded_request_iff_names (hs : s.Sound) (h : q.PlansTo s r p) {x : Member}
    {a : Selection} (hx : (x, a) ∈ r.expansions) {ids : FieldPath} :
    ids ∈ (x.request s p.dialect a).operation.expanded ↔
      ∃ path, path ≠ [] ∧ q.Names s .expandable (x :: path) ∧ path.map Member.id = ids := by
  obtain ⟨picks, hq⟩ := h.resolves
  have ha := (hq.target_of_expansion hs hx).1
  rw [Member.request, Operation.expanded, Projection.expanded_clauses, List.mem_eraseDups,
    ha.mem_expand_requestBlock_iff hs]
  constructor
  · rintro ⟨hne, n, hn⟩
    obtain ⟨path, rfl, named, _⟩ := hq.levelAt_of_expansion hs hx hn
    exact ⟨path, by simpa using hne, named, rfl⟩
  · rintro ⟨path, hne, named, rfl⟩
    obtain ⟨n, hn, _⟩ := hq.exists_level_of_expansion hs hx named
    exact ⟨by simpa using hne, n, hn⟩

/-- What an operation of the plan expands is inline throughout on the plan's dialect. -/
theorem inlineFrom_of_expanded (hs : s.Sound) (h : q.PlansTo s r p) :
    ∀ op ∈ p.operations, ∀ ids ∈ op.expanded, ids ≠ [] ∧ s.InlineFrom p.dialect 1 ids := by
  obtain ⟨picks, hq⟩ := h.resolves
  intro op hop ids hids
  rcases List.mem_cons.mp hop with rfl | hop
  · obtain ⟨x, a, hx, hi, hids⟩ := (h.mem_expanded_primary_iff hs).mp hids
    have ha := (hq.target_of_expansion hs hx).1
    obtain ⟨rest, n, hn, rfl⟩ := ha.mem_expand_block_iff.mp hids
    have hf : a.Fits s p.dialect 2 := ((h.loadable _ hx).resolve_right fun hr => hr.1 hi).2
    refine ⟨List.cons_ne_nil _ _, ⟨x, ?_, rfl, hi⟩, ha.inlineFrom_of_level hf hn⟩
    exact ((hq.mem_expansions_iff hs).mp hx).1
  · obtain ⟨f, hf, rfl⟩ := List.mem_map.mp hop
    obtain ⟨x, a, hx, hi, rfl⟩ := (h.mem_followUps_iff hs).mp hf
    have ha := (hq.target_of_expansion hs hx).1
    rw [Member.request, Operation.expanded, Projection.expanded_clauses, List.mem_eraseDups,
      ha.mem_expand_requestBlock_iff hs] at hids
    obtain ⟨hne, n, hn⟩ := hids
    have hr := ((h.loadable _ hx).resolve_left fun hl => hi hl.1).2
    exact ⟨hne, ha.inlineFrom_of_level hr.2.2.2 hn⟩

theorem loaded_once (hs : s.Sound) (h : q.PlansTo s r p) {x : Member}
    (hx : q.Names s .expandable [x]) :
    ([x.id] ∈ p.primary.expanded ∧ p.fields.count x.id = 0) ∨
      ([x.id] ∉ p.primary.expanded ∧ p.fields.count x.id = 1) := by
  by_cases hf : x.id ∈ p.fields
  · refine .inr ⟨fun he => ?_, List.count_eq_one_of_mem (h.nodup_fields hs) hf⟩
    obtain ⟨y, path, named, hy, hids⟩ := (h.mem_expanded_primary_iff_names hs).mp he
    exact hy ((List.cons.inj hids).1 ▸ hf)
  · exact .inl ⟨(h.mem_expanded_primary_iff_names hs).mpr ⟨x, [], hx, hf, rfl⟩,
      List.count_eq_zero_of_not_mem hf⟩

theorem requestable_of_mem_followUps (hs : s.Sound) (h : q.PlansTo s r p) {f : FollowUp}
    (hf : f ∈ p.followUps) : ∃ x a, (x, a) ∈ r.expansions ∧ x.request s p.dialect a = f ∧
      x.Requestable s p.dialect q.source q.directives.shapesPrimary a := by
  obtain ⟨picks, hq⟩ := h.resolves
  obtain ⟨x, a, hx, hi, rfl⟩ := (h.mem_followUps_iff hs).mp hf
  have hr := ((h.loadable _ hx).resolve_left fun hl => hi hl.1).2
  rw [hq.source, hq.shaped] at hr
  exact ⟨x, a, hx, rfl, hr⟩

/-- A follow-up is bound to its expandable: target, path, and neither filter, order nor paging. -/
theorem followUp_operation (hs : s.Sound) (h : q.PlansTo s r p) {f : FollowUp}
    (hf : f ∈ p.followUps) : ∃ x e, q.Names s .expandable [x] ∧ x.id = f.field ∧
      x.field.type = .expandable e ∧ f.operation.dialect = p.dialect ∧
      f.operation.model = e.target ∧ e.requestPath.get p.dialect = some f.operation.path ∧
      ∀ c ∈ f.operation.clauses, c.shapes = false := by
  obtain ⟨picks, hq⟩ := h.resolves
  obtain ⟨x, a, hx, rfl, _, _, hpath, _⟩ := h.requestable_of_mem_followUps hs hf
  obtain ⟨_, e, he, ht⟩ := hq.target_of_expansion hs hx
  obtain ⟨path, hpath⟩ := Option.isSome_iff_exists.mp hpath
  have hget : e.requestPath.get p.dialect = some path := by
    simpa [Member.requestPath?, he] using hpath
  refine ⟨x, e, (hq.exists_expansion_iff hs).mp ⟨a, hx⟩, rfl, he, rfl, ht.symm, ?_,
    Projection.not_shapes_of_mem_clauses _⟩
  rw [hget, Member.request, hpath, Option.getD_some]

theorem dialect_of_mem_operations (hs : s.Sound) (h : q.PlansTo s r p) :
    ∀ op ∈ p.operations, op.dialect = p.dialect := by
  intro op hop
  rcases List.mem_cons.mp hop with rfl | hop
  · rw [congrArg Plan.primary h.planned]
    rfl
  · obtain ⟨f, hf, rfl⟩ := List.mem_map.mp hop
    obtain ⟨x, e, _, _, _, hd, _⟩ := h.followUp_operation hs hf
    exact hd

/-- Every operation of a plan selects and expands what some entries come to once each. -/
theorem exists_projection (hs : s.Sound) (h : q.PlansTo s r p) : ∀ op ∈ p.operations,
    ∃ b : Projection, op.selected = b.select.eraseDups ∧ op.expanded = b.expand.eraseDups := by
  intro op hop
  rcases List.mem_cons.mp hop with rfl | hop
  · rw [congrArg Plan.primary h.planned]
    exact ⟨_, r.selected_primary, r.expanded_primary⟩
  · obtain ⟨f, hf, rfl⟩ := List.mem_map.mp hop
    obtain ⟨x, a, _, rfl, _⟩ := h.requestable_of_mem_followUps hs hf
    exact ⟨_, Projection.selected_clauses _, Projection.expanded_clauses _⟩

theorem nodup_selected (hs : s.Sound) (h : q.PlansTo s r p) :
    ∀ op ∈ p.operations, op.selected.Nodup := by
  intro op hop
  obtain ⟨b, hb, _⟩ := h.exists_projection hs op hop
  exact hb ▸ nodup_eraseDups _

theorem nodup_expanded (hs : s.Sound) (h : q.PlansTo s r p) :
    ∀ op ∈ p.operations, op.expanded.Nodup := by
  intro op hop
  obtain ⟨b, _, hb⟩ := h.exists_projection hs op hop
  exact hb ▸ nodup_eraseDups _

theorem limits (hs : s.Sound) (h : q.PlansTo s r p) : ∀ op ∈ p.operations, ∀ ids ∈ op.expanded,
    (p.dialect = .graph → ids.length = 1) ∧ ∀ f ∈ ids, ∃ x e, s.Has x ∧ x.id = f ∧
      x.field.type = .expandable e ∧ (p.dialect = .rest → e.separateQuery = false) ∧
      (p.dialect = .graph → e.collection = false) := by
  intro op hop ids hids
  obtain ⟨hne, hi⟩ := h.inlineFrom_of_expanded hs op hop ids hids
  constructor
  · intro hd
    rw [hd] at hi
    exact Nat.le_antisymm hi.length_le (List.length_pos_iff.mpr hne)
  · intro f hf
    obtain ⟨x, hx, hid, e, he, hi⟩ := hi.forall_one f hf
    refine ⟨x, e, hx, hid, ?_, fun hd => ?_, fun hd => ?_⟩
    · cases ht : x.field.type with
      | scalar => simp [ht] at he
      | expandable e' => simpa [ht] using he
    · rw [hd] at hi
      exact hi
    · rw [hd] at hi
      exact hi.1

end PlansTo

end Query

namespace Db

/-- A plan loads every expandable selected at the root exactly once, by the main request or by one
follow-up, and each of its requests expands just the chains that are inline below it. -/
theorem loadedBy_of_plan {b : Builder} {c : Connection} {db : Db} {q : Query} {p : Plan}
    (hb : b.build c = .ok db) (hp : db.plan q = .ok p) : q.LoadedBy db.schema p := by
  have hs := Builder.sound_of_build hb
  obtain ⟨r, h⟩ := Query.plansTo_of_plan hs hp
  obtain ⟨picks, hq⟩ := h.resolves
  have hmem : ∀ f ∈ p.followUps, f.operation ∈ p.operations := fun f hf =>
    List.mem_cons_of_mem _ (List.mem_map_of_mem hf)
  refine ⟨fun x hx => h.loaded_once hs hx, fun m hm => ?_, fun hshaped => ?_,
    fun f hf => h.followUp_operation hs hf,
    ⟨h.nodup_expanded hs _ List.mem_cons_self, fun ids => h.mem_expanded_primary_iff_names hs⟩,
    fun f hf => ⟨h.nodup_expanded hs _ (hmem f hf), fun ids => ?_⟩,
    fun op hop => ⟨h.dialect_of_mem_operations hs op hop, h.limits hs op hop⟩⟩
  · cases hq.model.symm.trans hm
    exact ⟨h.fields_sublist hs, h.nodup_fields hs⟩
  · refine List.eq_nil_iff_forall_not_mem.mpr fun f hf => ?_
    obtain ⟨x, a, _, _, hsource, hfree, _⟩ := h.requestable_of_mem_followUps hs hf
    obtain ⟨hfilters, horders, htop, hskip⟩ :=
      (Directives.shapesPrimary_eq_false_iff _).mp hfree
    simp [hsource, hfilters, horders, htop, hskip] at hshaped
  · obtain ⟨x, a, hx, rfl, _⟩ := h.requestable_of_mem_followUps hs hf
    rw [h.mem_expanded_request_iff_names hs hx]
    constructor
    · rintro ⟨path, hne, named, rfl⟩
      exact ⟨x, path, rfl, hne, named, rfl⟩
    · rintro ⟨y, path, hid, hne, named, rfl⟩
      have hx := ((hq.mem_expansions_iff hs).mp hx).1
      cases hs.eq_of_id_eq (named.has y List.mem_cons_self) hx hid
      exact ⟨path, hne, named, rfl⟩

/-- The plan of the sample query has one follow-up, for the lists. -/
theorem loadedBy_of_plan_sample : ∃ p, Sample.db.plan Sample.query = .ok p ∧
    p.fields = [⟨⟨0⟩, 3⟩] ∧ Sample.query.LoadedBy Sample.db.schema p := by
  have h : Plan.fields <$> Sample.db.plan Sample.query = .ok [⟨⟨0⟩, 3⟩] := by decide +kernel
  obtain ⟨p, hp, hf⟩ := Except.map_eq_ok_iff.mp h
  exact ⟨p, hp, hf, loadedBy_of_plan Sample.build_eq hp⟩

end Db

end ODataPlan
