import ODataPlan.Proofs.Plan.Defaults
import ODataPlan.Proofs.Plan.Loading

/-! Plans are well typed. Main statement: every path of an operation starts at the operation's
model, goes on from each expandable to a field of its target, and is served throughout; what is
filtered and sorted by are scalars of the main model, and the follow-ups fill fields of it. -/
namespace ODataPlan

namespace Schema

/-- A chain of expandables leads from one model to another: every field belongs to the target of the
one before it. -/
inductive Leads (s : Schema) : ModelId → FieldPath → ModelId → Prop
  | nil {m} : Leads s m [] m
  | cons {x e ids t} (has : s.Has x) (type : x.field.type = .expandable e)
    (rest : Leads s e.target ids t) : Leads s x.model.id (x.id :: ids) t

/-- The path leads from a model to one of the fields that stand at its end, and the dialect serves
all of it. -/
structure Addresses (s : Schema) (d : Dialect) (m : ModelId) (ids : FieldPath) : Prop where
  chain : ∃ before x, s.Has x ∧ s.Leads m before x.model.id ∧ ids = before ++ [x.id]
  served : ∀ f ∈ ids, s.serves d f = true

variable {s : Schema} {d : Dialect} {ids : FieldPath}

/-- A chain of expandables is a path to the last of them. -/
theorem Leads.exists_last {m t : ModelId} (h : s.Leads m ids t) (hne : ids ≠ []) :
    ∃ before x, s.Has x ∧ s.Leads m before x.model.id ∧ ids = before ++ [x.id] := by
  induction h with
  | nil => exact absurd rfl hne
  | @cons x e ids t has type rest ih =>
    by_cases hids : ids = []
    · exact ⟨[], x, has, .nil, by simp [hids]⟩
    · obtain ⟨before, y, hy, hb, rfl⟩ := ih hids
      exact ⟨x.id :: before, y, hy, .cons has type hb, rfl⟩

theorem addresses_singleton (hs : s.Sound) {m : Model} (hm : m ∈ s.models) {x : Field}
    (hx : x ∈ m.fields) (h : x.supports d = true) : s.Addresses d m.id [x.id] := by
  refine ⟨⟨[], ⟨m, x⟩, ⟨hm, hx⟩, .nil, rfl⟩, fun f hf => ?_⟩
  rw [List.mem_singleton.mp hf, hs.serves_of_has d (x := ⟨m, x⟩) ⟨hm, hx⟩]
  exact h

theorem addresses_of_isScalarOn (hs : s.Sound) {m : Model} (hm : m ∈ s.models) {x : Field}
    (hx : x ∈ m.fields) (h : x.isScalarOn d = true) : s.Addresses d m.id [x.id] :=
  addresses_singleton hs hm hx (Bool.and_eq_true_iff.mp h).1

theorem addresses_of_mem_entry_key (hs : s.Sound) {m : Model} (hm : m ∈ s.models)
    (h : ids ∈ s.entry d [] m.key) : s.Addresses d m.id ids := by
  obtain ⟨hserved, rfl⟩ := mem_entry.mp h
  obtain ⟨k, hk, _, hid, _⟩ := hs.key_scalar m hm
  rw [← hid, hs.serves_of_has d (x := ⟨m, k⟩) ⟨hm, hk⟩] at hserved
  exact hid ▸ addresses_singleton hs hm hk hserved

theorem addresses_of_mem_requiredEntries (hs : s.Sound) {m : Model} (hm : m ∈ s.models)
    (h : ids ∈ m.requiredEntries d) : s.Addresses d m.id ids := by
  obtain ⟨x, hx, rfl, hd⟩ := hs.scalar_of_mem_requiredEntries hm h
  exact addresses_of_isScalarOn hs hm hx hd

/-- A default projection selects fields of its own model. -/
theorem addresses_of_mem_defaultBlock (hs : s.Sound) {m : Model} (hm : m ∈ s.models)
    (h : ids ∈ (s.defaultBlock d m).select) : s.Addresses d m.id ids := by
  obtain ⟨f, hf, rfl⟩ := exists_of_mem_defaultBlock h
  obtain ⟨x, hx, rfl, hd⟩ := hs.scalar_of_mem_defaultListing hm hf
  exact addresses_of_isScalarOn hs hm hx hd

end Schema

namespace Selection

variable {s : Schema} {d : Dialect} {ids path : FieldPath} {a n : Selection}

/-- The path to a level leads to the model of the level. -/
theorem WellTyped.leads_of_level (ha : a.WellTyped s) (hs : s.Sound)
    (h : a.level? ids = some n) : s.Leads a.model ids n.model := by
  induction ids generalizing a with
  | nil =>
    cases h
    exact .nil
  | cons f ids ih =>
    obtain ⟨k, hk, hn⟩ := Option.bind_eq_some_iff.mp h
    have hmem := Branches.mem_toList_of_get? hk
    obtain ⟨x, e, hx, rfl, he, ht⟩ := ha.member_of_branch hmem
    have hmodel : x.model.id = a.model := by
      rw [← ha.model_of_branch hs hmem, ← hs.model_id_of_has hx]
      rfl
    rw [← hmodel]
    exact .cons hx he (ht ▸ ih (ha.of_branch hmem) hn)

section Level

variable {m : ModelId} (hn : n.WellTyped s) (hs : s.Sound) (hl : s.Leads m path n.model)
  (hp : ∀ g ∈ path, s.serves d g = true)

include hn hs hl hp

/-- What a level selects itself are fields of its model, below its path. -/
theorem WellTyped.addresses_of_mem_ownEntries (h : ids ∈ n.ownEntries s d path) :
    s.Addresses d m ids := by
  obtain ⟨owner, howner, hid⟩ := hn.model_mem
  obtain ⟨f, hf, rfl, hmem⟩ := mem_ownEntries.mp h
  have hx : ∃ x ∈ owner.fields, x.id = f := by
    rcases hmem with hmem | ⟨_, hmem⟩
    · obtain ⟨x, hx, hxid, _⟩ := hn.hasScalar hs howner hid hmem
      exact ⟨x, hx, hxid⟩
    · rw [Schema.defaultIds, hid, hs.model?_of_mem owner howner] at hmem
      obtain ⟨x, hx, hxid, _⟩ := hs.scalar_of_mem_defaultIds howner hmem
      exact ⟨x, hx, hxid⟩
  obtain ⟨x, hx, rfl⟩ := hx
  refine ⟨⟨path, ⟨owner, x⟩, ⟨howner, hx⟩, hid ▸ hl, rfl⟩, fun g hg => ?_⟩
  rcases List.mem_append.mp hg with hg | hg
  · exact hp g hg
  · exact List.mem_singleton.mp hg ▸ hf

theorem WellTyped.addresses_of_mem_levelEntries (hne : path ≠ [])
    (h : ids ∈ n.levelEntries s d path) : s.Addresses d m ids := by
  rcases mem_levelEntries.mp h with ⟨_, rfl⟩ | ⟨_, h⟩
  · exact ⟨hl.exists_last hne, hp⟩
  · exact hn.addresses_of_mem_ownEntries hs hl hp h

end Level

/-- A request for an expandable selects paths from the model of what is selected within it. -/
theorem WellTyped.addresses_of_mem_requestBlock (ha : a.WellTyped s) (hs : s.Sound)
    (hp : ∀ ids n, a.level? ids = some n → ∀ g ∈ ids, s.serves d g = true)
    (h : ids ∈ (a.requestBlock s d).select) : s.Addresses d a.model ids := by
  obtain ⟨m, hm, hid⟩ := ha.model_mem
  rw [requestBlock, hid, hs.model?_of_mem m hm] at h
  simp only at h
  split at h
  · exact hid ▸ Schema.addresses_of_mem_defaultBlock hs hm h
  · simp only [Projection.select_append, Projection.select_selecting, List.mem_append,
      ha.mem_select_branches_iff, List.nil_append] at h
    rcases h with ((h | h) | h) | ⟨f, rest, n, hn, h⟩
    · split at h
      · exact hid ▸ Schema.addresses_of_mem_entry_key hs hm h
      · cases h
    · exact ha.addresses_of_mem_ownEntries hs .nil (by simp) h
    · exact hid ▸ Schema.addresses_of_mem_requiredEntries hs hm h
    · exact (ha.level hn).addresses_of_mem_levelEntries hs (ha.leads_of_level hs hn) (hp _ n hn)
        (List.cons_ne_nil f rest) h

end Selection

def Clause.compared : Clause → List FieldId
  | filter predicates => predicates.map Predicate.field
  | orderBy sorts => sorts.map SortKey.field
  | _ => []

def Operation.compared (op : Operation) : List FieldId := op.clauses.flatMap Clause.compared

theorem Clause.compared_of_not_shapes {c : Clause} (h : c.shapes = false) : c.compared = [] := by
  cases c <;> first | rfl | cases h

theorem Projection.compared_clauses (p : Projection) : p.clauses.flatMap Clause.compared = [] :=
  List.flatMap_eq_nil_iff.mpr fun c hc =>
    Clause.compared_of_not_shapes (p.not_shapes_of_mem_clauses c hc)

/-- The main request filters and sorts by what the query resolves to. -/
theorem Resolved.compared_shapingClauses (r : Resolved) :
    r.shapingClauses.flatMap Clause.compared =
      r.filters.map (·.field) ++ r.sorts.map (·.field) := by
  unfold shapingClauses
  cases r.filters <;> cases r.sorts <;> cases r.top <;> cases r.skip <;> simp [Clause.compared]

/-- Every path of a plan is a path of the registry that its dialect serves, from the model of its
operation. -/
structure Plan.WellTyped (s : Schema) (root : Model) (p : Plan) : Prop where
  /-- The main request is for the main model. -/
  model : p.primary.model = root.id
  /-- What is selected is reached through expandables. -/
  selected : ∀ op ∈ p.operations, ∀ ids ∈ op.selected, s.Addresses p.dialect op.model ids
  /-- What is expanded consists of expandables only. -/
  expanded : ∀ op ∈ p.operations, ∀ ids ∈ op.expanded, ids ≠ [] ∧ (∃ t, s.Leads op.model ids t) ∧
    ∀ f ∈ ids, s.serves p.dialect f = true
  /-- Filters and sorts are on scalars of the main model. -/
  compared : ∀ op ∈ p.operations, ∀ f ∈ op.compared,
    ∃ x ∈ root.fields, x.id = f ∧ x.isScalarOn p.dialect = true
  /-- A follow-up fills a field of the main model. -/
  filled : ∀ f ∈ p.followUps, ∃ x ∈ root.fields, x.id = f.field

namespace Query.PlansTo

variable {q : Query} {s : Schema} {r : Resolved} {p : Plan}

theorem serves_of_level (hs : s.Sound) (h : q.PlansTo s r p) {x : Member} {a n : Selection}
    {ids : FieldPath} (hx : (x, a) ∈ r.expansions) (hn : a.level? ids = some n) :
    ∀ f ∈ x.id :: ids, s.serves p.dialect f = true := by
  obtain ⟨picks, hq⟩ := h.resolves
  obtain ⟨path, rfl, named, _⟩ := hq.levelAt_of_expansion hs hx hn
  exact h.serves_of_mem_chain hs named

/-- The levels within an expandable are reached from the main model. -/
theorem leads_of_level (hs : s.Sound) (h : q.PlansTo s r p) {x : Member} {a n : Selection}
    {ids : FieldPath} (hx : (x, a) ∈ r.expansions) (hn : a.level? ids = some n) :
    s.Leads r.model.id (x.id :: ids) n.model := by
  obtain ⟨picks, hq⟩ := h.resolves
  obtain ⟨hw, hid⟩ := hq.wellTyped hs
  exact hid ▸ hw.leads_of_level hs ((hq.level?_of_expansion hs hx ids).trans hn)

/-- What the main request selects are paths from the main model. -/
theorem addresses_of_mem_block (hs : s.Sound) (h : q.PlansTo s r p) {ids : FieldPath}
    (hids : ids ∈ (r.block s p.dialect).1.select) : s.Addresses p.dialect r.model.id ids := by
  obtain ⟨picks, hq⟩ := h.resolves
  unfold Resolved.block at hids
  split at hids
  · exact Schema.addresses_of_mem_defaultBlock hs hq.model_mem hids
  · simp only [Projection.select_append, Projection.select_selecting, Projection.select_concat,
      List.mem_append, List.mem_flatMap, List.mem_map, Resolved.loaded,
      Resolved.rootEntries] at hids
    rcases hids with (((hids | ⟨f, hf, hids⟩) | ⟨_, ⟨_, ⟨⟨x, a⟩, hx, rfl⟩, rfl⟩, hids⟩) | hids)
    · exact Schema.addresses_of_mem_entry_key hs hq.model_mem hids
    · obtain ⟨hserved, rfl⟩ := Schema.mem_entry.mp hids
      have hf := List.mem_of_mem_filter hf
      rw [hs.serves_of_has _ (x := ⟨r.model, f⟩) ⟨hq.model_mem, hf⟩] at hserved
      exact Schema.addresses_singleton hs hq.model_mem hf hserved
    · have ha := (hq.target_of_expansion hs hx).1
      unfold Member.loaded at hids
      split at hids
      · obtain ⟨rest, n, hn, hids⟩ := ha.mem_select_block_iff.mp hids
        exact (ha.level hn).addresses_of_mem_levelEntries hs (h.leads_of_level hs hx hn)
          (h.serves_of_level hs hx hn) (List.cons_ne_nil _ _) hids
      · have hself := Selection.level?_nil a
        simp only [Projection.select_selecting] at hids
        split at hids
        · rw [List.mem_singleton.mp hids]
          exact ⟨(h.leads_of_level hs hx hself).exists_last (List.cons_ne_nil _ _),
            h.serves_of_level hs hx hself⟩
        · cases hids
    · exact Schema.addresses_of_mem_requiredEntries hs hq.model_mem hids

/-- Every operation selects paths from its own model. -/
theorem addresses_of_mem_selected (hs : s.Sound) (h : q.PlansTo s r p) :
    ∀ op ∈ p.operations, ∀ ids ∈ op.selected, s.Addresses p.dialect op.model ids := by
  intro op hop ids hids
  rcases List.mem_cons.mp hop with rfl | hop
  · have hmodel : p.primary.model = r.model.id := congrArg (·.primary.model) h.planned
    rw [congrArg Plan.primary h.planned, Resolved.selected_primary, List.mem_eraseDups] at hids
    exact hmodel ▸ h.addresses_of_mem_block hs hids
  · obtain ⟨picks, hq⟩ := h.resolves
    obtain ⟨f, hf, rfl⟩ := List.mem_map.mp hop
    obtain ⟨x, a, hx, rfl, _⟩ := h.requestable_of_mem_followUps hs hf
    have ha := (hq.target_of_expansion hs hx).1
    rw [Member.request, Operation.selected, Projection.selected_clauses, List.mem_eraseDups] at hids
    exact ha.addresses_of_mem_requestBlock hs (fun ids n hn g hg =>
      h.serves_of_level hs hx hn g (List.mem_cons_of_mem _ hg)) hids

/-- Every operation expands chains of expandables from its own model. -/
theorem leads_of_mem_expanded (hs : s.Sound) (h : q.PlansTo s r p) :
    ∀ op ∈ p.operations, ∀ ids ∈ op.expanded,
      (∃ t, s.Leads op.model ids t) ∧ ∀ f ∈ ids, s.serves p.dialect f = true := by
  obtain ⟨picks, hq⟩ := h.resolves
  intro op hop ids hids
  rcases List.mem_cons.mp hop with rfl | hop
  · have hmodel : p.primary.model = r.model.id := congrArg (·.primary.model) h.planned
    obtain ⟨x, a, hx, _, hids⟩ := (h.mem_expanded_primary_iff hs).mp hids
    obtain ⟨rest, n, hn, rfl⟩ := (hq.target_of_expansion hs hx).1.mem_expand_block_iff.mp hids
    exact ⟨⟨_, hmodel ▸ h.leads_of_level hs hx hn⟩, h.serves_of_level hs hx hn⟩
  · obtain ⟨f, hf, rfl⟩ := List.mem_map.mp hop
    obtain ⟨x, a, hx, rfl, _⟩ := h.requestable_of_mem_followUps hs hf
    have ha := (hq.target_of_expansion hs hx).1
    rw [Member.request, Operation.expanded, Projection.expanded_clauses, List.mem_eraseDups,
      ha.mem_expand_requestBlock_iff hs] at hids
    obtain ⟨_, n, hn⟩ := hids
    exact ⟨⟨_, ha.leads_of_level hs hn⟩, fun g hg =>
      h.serves_of_level hs hx hn g (List.mem_cons_of_mem _ hg)⟩

/-- Filters and sorts are on scalars of the main model that the dialect serves. -/
theorem isScalarOn_of_mem_compared (hs : s.Sound) (h : q.PlansTo s r p) :
    ∀ op ∈ p.operations, ∀ f ∈ op.compared,
      ∃ x ∈ r.model.fields, x.id = f ∧ x.isScalarOn p.dialect = true := by
  obtain ⟨picks, hq⟩ := h.resolves
  have scalar : ∀ {f}, r.model.HasScalar f → f ∈ r.named →
      ∃ x ∈ r.model.fields, x.id = f ∧ x.isScalarOn p.dialect = true := by
    rintro _ ⟨x, hx, rfl, ht⟩ hf
    have hserved := h.serves _ hf
    rw [hs.serves_of_has _ (x := ⟨r.model, x⟩) ⟨hq.model_mem, hx⟩] at hserved
    refine ⟨x, hx, rfl, ?_⟩
    simp [FieldDecl.isScalarOn, FieldDecl.isExpandable, ht, hserved]
  intro op hop f hf
  rcases List.mem_cons.mp hop with rfl | hop
  · rw [congrArg Plan.primary h.planned, Resolved.planned, Operation.compared, List.flatMap_append,
      Projection.compared_clauses, Resolved.compared_shapingClauses, List.nil_append,
      List.mem_append, List.mem_map, List.mem_map] at hf
    rcases hf with ⟨y, hy, rfl⟩ | ⟨y, hy, rfl⟩
    · exact scalar (hq.filters_scalar y hy) ((hq.mem_named_iff hs _).mpr (.inr (.inl ⟨y, hy, rfl⟩)))
    · exact scalar (hq.sorts_scalar y hy) ((hq.mem_named_iff hs _).mpr (.inr (.inr ⟨y, hy, rfl⟩)))
  · obtain ⟨g, hg, rfl⟩ := List.mem_map.mp hop
    obtain ⟨x, a, _, rfl, _⟩ := h.requestable_of_mem_followUps hs hg
    rw [Member.request, Operation.compared, Projection.compared_clauses] at hf
    cases hf

end Query.PlansTo

namespace Db

/-- Every plan is well typed over the model that the query is for. -/
theorem wellTyped_of_plan {b : Builder} {c : Connection} {db : Db} {q : Query} {p : Plan}
    (hb : b.build c = .ok db) (hp : db.plan q = .ok p) :
    ∃ m, db.schema.modelNamed? q.model = some m ∧ p.WellTyped db.schema m := by
  have hs := Builder.sound_of_build hb
  obtain ⟨r, h⟩ := Query.plansTo_of_plan hs hp
  obtain ⟨picks, hq⟩ := h.resolves
  refine ⟨r.model, hq.model, congrArg (·.primary.model) h.planned,
    h.addresses_of_mem_selected hs, fun op hop ids hids => ?_, h.isScalarOn_of_mem_compared hs,
    fun f hf => ?_⟩
  · obtain ⟨hne, _⟩ := h.inlineFrom_of_expanded hs op hop ids hids
    exact ⟨hne, h.leads_of_mem_expanded hs op hop ids hids⟩
  · have hfield := (h.fields_sublist hs).subset (List.mem_map_of_mem (f := FollowUp.field) hf)
    exact List.mem_map.mp hfield

/-- The sample query is planned as three paths of the site, one of them through its owner, and a
follow-up for its lists. -/
theorem wellTyped_of_plan_sample : ∃ p m, Sample.db.plan Sample.query = .ok p ∧
    [⟨⟨0⟩, 2⟩, ⟨⟨1⟩, 1⟩] ∈ p.primary.selected ∧
    Sample.db.schema.modelNamed? Sample.query.model = some m ∧ p.WellTyped Sample.db.schema m := by
  have h : (fun p => decide ([⟨⟨0⟩, 2⟩, ⟨⟨1⟩, 1⟩] ∈ p.primary.selected)) <$>
      Sample.db.plan Sample.query = .ok true := by decide +kernel
  obtain ⟨p, hp, hmem⟩ := Except.map_eq_ok_iff.mp h
  obtain ⟨m, hm, hw⟩ := wellTyped_of_plan Sample.build_eq hp
  exact ⟨p, m, hp, of_decide_eq_true hmem, hm, hw⟩

end Db

end ODataPlan
