import ODataPlan.Proofs.Plan.Operations

/-! What a request projects when nothing is selected. Main statement: nothing if that is left to the
server, else the key, the default set and the required fields, each once and in the order of the
dialect; and a query without selectors takes one request. -/
namespace ODataPlan

section Lists

variable {α : Type} [BEq α] {xs ys : List α}

theorem eraseDups_of_length_le_one (h : xs.length ≤ 1) : xs.eraseDups = xs := by
  match xs, h with
  | [], _ => rfl
  | [x], _ => rfl

variable [LawfulBEq α]

theorem removeAll_eq_nil (h : xs ⊆ ys) : xs.removeAll ys = [] :=
  List.filter_eq_nil_iff.mpr fun x hx => by simpa using h hx

theorem removeAll_append_of_subset (h : ys ⊆ xs) (zs : List α) :
    zs.removeAll (xs ++ ys) = zs.removeAll xs :=
  List.filter_congr fun z _ => by simpa using mt (h ·)

/-- What a list holds already adds nothing to its distinct entries, whatever comes behind. -/
theorem eraseDups_append_of_subset (h : ys ⊆ xs) (zs : List α) :
    (xs ++ ys ++ zs).eraseDups = (xs ++ zs).eraseDups := by
  rw [List.eraseDups_append, List.eraseDups_append, List.eraseDups_append, removeAll_eq_nil h,
    removeAll_append_of_subset h, List.eraseDups_nil, List.append_nil]

end Lists

namespace Model

/-- The endpoint of the model leaves the default set to the server. -/
def LeavesDefaults (m : Model) (d : Dialect) : Prop :=
  ∃ e, m.endpoint.get d = some e ∧ e.defaultSelect = .implicit

/-- The default set that a request for the model names. -/
inductive DefaultSet (m : Model) (d : Dialect) : List FieldId → Prop
  /-- The endpoint lists it. -/
  | fixed {e fs} (endpoint : m.endpoint.get d = some e) (select : e.defaultSelect = .fields fs) :
    DefaultSet m d fs
  /-- The endpoint refers to the flagged scalars that the dialect serves. -/
  | declared {e} (endpoint : m.endpoint.get d = some e) (select : e.defaultSelect = .declared) :
    DefaultSet m d ((m.fields.filter fun f => f.isDefault && f.isScalarOn d).map Field.id)
  /-- There is no endpoint; the flagged scalars are the default set then as well. -/
  | missing (endpoint : m.endpoint.get d = none) :
    DefaultSet m d ((m.fields.filter fun f => f.isDefault && f.isScalarOn d).map Field.id)

def required (m : Model) (d : Dialect) : List FieldId := ((m.endpoint.get d).map (·.required)).getD []

theorem requiredEntries_eq_map (m : Model) (d : Dialect) :
    m.requiredEntries d = (m.required d).map ([·]) := by
  unfold requiredEntries required
  cases m.endpoint.get d <;> rfl

theorem leavesDefaults_iff {m : Model} {d : Dialect} :
    m.LeavesDefaults d ↔ (m.endpoint.get d).map Endpoint.defaultSelect = some .implicit := by
  simp [LeavesDefaults]

theorem defaultSet_defaultIds {m : Model} {d : Dialect} (h : ¬ m.LeavesDefaults d) :
    m.DefaultSet d (m.defaultIds d) := by
  unfold defaultIds
  cases he : m.endpoint.get d with
  | none => exact .missing he
  | some e =>
    rw [Option.map_some]
    cases hd : e.defaultSelect with
    | implicit => exact absurd ⟨e, he, hd⟩ h
    | declared => exact .declared he hd
    | fields fs => exact .fixed he hd

end Model

namespace Schema

variable {s : Schema} {d : Dialect} {m : Model}

def servedKey (s : Schema) (d : Dialect) (m : Model) : List FieldId :=
  if s.serves d m.key then [m.key] else []

theorem entry_key (s : Schema) (d : Dialect) (m : Model) :
    s.entry d [] m.key = (s.servedKey d m).map ([·]) := by
  unfold entry servedKey
  split <;> rfl

theorem length_servedKey_le (s : Schema) (d : Dialect) (m : Model) :
    (s.servedKey d m).length ≤ 1 := by
  unfold servedKey
  split <;> simp

theorem mem_servedKey {f : FieldId} :
    f ∈ s.servedKey d m ↔ f = m.key ∧ s.serves d m.key = true := by
  unfold servedKey
  split <;> simp_all

/-- The ids are those that a request for a model selects when nothing is picked, in this order. -/
structure Lists (s : Schema) (d : Dialect) (m : Model) (defaults ids : List FieldId) : Prop where
  nodup : ids.Nodup
  mem_iff : ∀ f, f ∈ ids ↔ f ∈ s.servedKey d m ∨ f ∈ defaults ∨ f ∈ m.required d
  /-- On REST the key is first. -/
  rest : d = .rest → ids = s.servedKey d m ++ (defaults.removeAll (s.servedKey d m)).eraseDups ++
    ((m.required d).removeAll (s.servedKey d m ++ defaults)).eraseDups
  /-- On Graph the default set is first, and the key follows it. -/
  graph : d = .graph → ids = defaults.eraseDups ++ (s.servedKey d m).removeAll defaults ++
    ((m.required d).removeAll (defaults ++ s.servedKey d m)).eraseDups
  scalar : ∀ f ∈ ids, ∃ x ∈ m.fields, x.id = f ∧ x.isScalarOn d = true

/-- The ids that a request for a model selects when nothing is picked. -/
def defaultListing (s : Schema) (d : Dialect) (m : Model) : List FieldId :=
  ((if d = .rest then s.servedKey d m else []) ++ m.defaultIds d ++ s.servedKey d m ++
    m.required d).eraseDups

theorem mem_defaultListing {f : FieldId} : f ∈ s.defaultListing d m ↔
    f ∈ s.servedKey d m ∨ f ∈ m.defaultIds d ∨ f ∈ m.required d := by
  rw [defaultListing, List.mem_eraseDups]
  split <;> simp only [List.mem_append, List.not_mem_nil] <;> tauto

theorem Sound.scalar_of_mem_defaultListing (hs : s.Sound) (hm : m ∈ s.models) {f : FieldId}
    (hf : f ∈ s.defaultListing d m) : ∃ x ∈ m.fields, x.id = f ∧ x.isScalarOn d = true := by
  rcases mem_defaultListing.mp hf with hf | hf | hf
  · obtain ⟨rfl, served⟩ := mem_servedKey.mp hf
    obtain ⟨k, hk, _, hid, ht⟩ := hs.key_scalar m hm
    have supports : s.serves d k.id = k.supports d := hs.serves_of_has d (x := ⟨m, k⟩) ⟨hm, hk⟩
    refine ⟨k, hk, hid, ?_⟩
    rw [FieldDecl.isScalarOn, FieldDecl.isExpandable, ht, ← supports, hid, served]
    rfl
  · exact hs.scalar_of_mem_defaultIds hm hf
  · obtain ⟨x, hx, he, hscalar⟩ := hs.scalar_of_mem_requiredEntries (d := d) hm
      (m.requiredEntries_eq_map d ▸ List.mem_map_of_mem hf)
    exact ⟨x, hx, (List.singleton_inj.mp he).symm, hscalar⟩

theorem Sound.lists_defaultListing (hs : s.Sound) (hm : m ∈ s.models) :
    s.Lists d m (m.defaultIds d) (s.defaultListing d m) := by
  have hkey := length_servedKey_le s d m
  refine ⟨nodup_eraseDups _, fun f => mem_defaultListing, fun hd => ?_, fun hd => ?_,
    fun f => hs.scalar_of_mem_defaultListing hm⟩
  · -- the key is added a second time, to no effect
    have twice : s.servedKey d m ⊆ s.servedKey d m ++ m.defaultIds d := List.subset_append_left _ _
    rw [defaultListing, if_pos hd, eraseDups_append_of_subset twice, List.eraseDups_append,
      List.eraseDups_append, eraseDups_of_length_le_one hkey]
  · have hrest : ((s.servedKey d m).removeAll (m.defaultIds d)).length ≤ 1 :=
      Nat.le_trans (List.length_filter_le _ _) hkey
    rw [defaultListing, if_neg (by simp [hd]), List.nil_append, List.eraseDups_append,
      List.eraseDups_append, eraseDups_of_length_le_one hrest]

theorem select_defaultBlock (h : ¬ m.LeavesDefaults d) :
    (s.defaultBlock d m).select = ((if d = .rest then s.servedKey d m else []) ++ m.defaultIds d ++
      s.servedKey d m ++ m.required d).map ([·]) := by
  rw [defaultBlock, if_neg (mt Model.leavesDefaults_iff.mpr h), Projection.select_selecting,
    entry_key, m.requiredEntries_eq_map]
  split <;> simp

theorem defaultBlock_of_leavesDefaults (h : m.LeavesDefaults d) : s.defaultBlock d m = {} :=
  if_pos (Model.leavesDefaults_iff.mp h)

theorem exists_of_mem_defaultBlock {ids : FieldPath} (h : ids ∈ (s.defaultBlock d m).select) :
    ∃ f ∈ s.defaultListing d m, ids = [f] := by
  by_cases hd : m.LeavesDefaults d
  · rw [defaultBlock_of_leavesDefaults hd] at h
    cases h
  · rw [select_defaultBlock hd] at h
    obtain ⟨f, hf, rfl⟩ := List.mem_map.mp h
    exact ⟨f, List.mem_eraseDups.mpr hf, rfl⟩

theorem clauses_defaultBlock (h : ¬ m.LeavesDefaults d) : (s.defaultBlock d m).clauses =
    if s.defaultListing d m = [] then [] else [.select ((s.defaultListing d m).map ([·]))] := by
  have distinct : (s.defaultBlock d m).select.eraseDups = (s.defaultListing d m).map ([·]) := by
    rw [select_defaultBlock h, eraseDups_map fun f g hfg => List.singleton_inj.mp hfg]
    rfl
  have empty : (s.defaultBlock d m).select = [] ↔ s.defaultListing d m = [] := by
    rw [select_defaultBlock h, List.map_eq_nil_iff, defaultListing]
    simp only [List.eq_nil_iff_forall_not_mem, List.mem_eraseDups]
  rw [Projection.clauses, expand_defaultBlock, distinct]
  simp [empty]

end Schema

/-- The clauses of an operation that project. -/
def Operation.projecting (op : Operation) : List Clause := op.clauses.filter fun c => !c.shapes

/-- The operation projects what is due for a model when nothing is picked. -/
structure Operation.ProjectsDefaults (s : Schema) (m : Model) (op : Operation) : Prop where
  expand : ∀ paths, .expand paths ∉ op.clauses
  implicit : m.LeavesDefaults op.dialect → ∀ paths, .select paths ∉ op.clauses
  listed : ¬ m.LeavesDefaults op.dialect → ∃ defaults ids, m.DefaultSet op.dialect defaults ∧
    s.Lists op.dialect m defaults ids ∧
    op.projecting = if ids = [] then [] else [.select (ids.map ([·]))]

theorem Schema.Sound.projectsDefaults {s : Schema} (hs : s.Sound) {m : Model} (hm : m ∈ s.models)
    {op : Operation} (h : op.projecting = (s.defaultBlock op.dialect m).clauses) :
    op.ProjectsDefaults s m := by
  have projecting : ∀ c : Clause, c.shapes = false → c ∈ op.clauses →
      c ∈ (s.defaultBlock op.dialect m).clauses := by
    intro c hc hmem
    rw [← h]
    exact List.mem_filter.mpr ⟨hmem, by simp [hc]⟩
  refine ⟨fun paths hmem => ?_, fun hi paths hmem => ?_, fun hi => ?_⟩
  · have := projecting _ rfl hmem
    simp [Projection.clauses] at this
  · have := projecting _ rfl hmem
    simp [defaultBlock_of_leavesDefaults hi, Projection.clauses] at this
  · exact ⟨_, _, Model.defaultSet_defaultIds hi, hs.lists_defaultListing hm,
      h.trans (clauses_defaultBlock hi)⟩

theorem Projection.filter_clauses (p : Projection) :
    (p.clauses.filter fun c => !c.shapes) = p.clauses :=
  List.filter_eq_self.mpr fun c hc => by simp [p.not_shapes_of_mem_clauses c hc]

theorem Resolved.projecting_primary {s : Schema} {d : Dialect} {path : String} (r : Resolved) :
    (r.planned s d path).primary.projecting = (r.block s d).1.clauses := by
  have shaping : (r.shapingClauses.filter fun c => !c.shapes) = [] :=
    List.filter_eq_nil_iff.mpr fun c hc => by simp [r.shapes_of_mem_shapingClauses c hc]
  rw [planned, Operation.projecting, List.filter_append, shaping, List.append_nil,
    Projection.filter_clauses]

namespace Db

/-- Without selectors a query takes one request, and this and every follow-up for an expandable
within which nothing is picked project what is due by default. -/
theorem projectsDefaults_of_plan {b : Builder} {c : Connection} {db : Db} {q : Query} {p : Plan}
    (hb : b.build c = .ok db) (hp : db.plan q = .ok p) :
    (q.allSelectors = [] → p.followUps = [] ∧ ∃ m, db.schema.modelNamed? q.model = some m ∧
      p.primary.ProjectsDefaults db.schema m) ∧
    ∀ f ∈ p.followUps, ∃ x e t, q.Names db.schema .expandable [x] ∧ x.id = f.field ∧
      x.field.type = .expandable e ∧ db.schema.model? e.target = some t ∧
      (¬ q.Picks db.schema [x] → f.operation.ProjectsDefaults db.schema t) := by
  have hs := Builder.sound_of_build hb
  obtain ⟨r, h⟩ := Query.plansTo_of_plan hs hp
  obtain ⟨picks, hq⟩ := h.resolves
  refine ⟨fun he => ?_, fun f hf => ?_⟩
  · have hd : r.selection.isDefault = true := by
      rw [← Bool.not_eq_false, hq.picks_iff_of_root hs]
      rintro ⟨k, x, m, _, y, hy, _⟩
      simp [he] at hy
    refine ⟨by simp [h.followUps_eq hs, h.expansions_eq_nil hs hd], r.model, hq.model, ?_⟩
    refine hs.projectsDefaults hq.model_mem ?_
    rw [congrArg Plan.primary h.planned, r.projecting_primary, Resolved.block, if_pos hd]
    rfl
  · obtain ⟨x, a, hx, _, rfl⟩ := (h.mem_followUps_iff hs).mp hf
    obtain ⟨ha, e, he, ht⟩ := hq.target_of_expansion hs hx
    obtain ⟨t, hmem, hid⟩ := ha.model_mem
    have hmodel : db.schema.model? a.model = some t := hid ▸ hs.model?_of_mem t hmem
    refine ⟨x, e, t, (hq.exists_expansion_iff hs).mp ⟨a, hx⟩, rfl, he, ht ▸ hmodel, fun empty => ?_⟩
    have hd := mt (hq.picks_iff_of_expansion hs hx).mp empty
    rw [Bool.not_eq_false] at hd
    refine hs.projectsDefaults hmem ?_
    simp only [Operation.projecting, Member.request, Projection.filter_clauses,
      Selection.requestBlock, hmodel, hd, if_true]

/-- A site by itself, and its lists without anything within them: the key is selected. -/
theorem projectsDefaults_of_plan_sample :
    (∃ p m, Sample.db.plan (Query.entity "Site") = .ok p ∧
      p.primary.clauses = [.select [[⟨⟨0⟩, 0⟩]]] ∧ p.primary.ProjectsDefaults Sample.db.schema m) ∧
    ∃ p f t, Sample.db.plan ((Query.entity "Site").select [.field "Lists"]) = .ok p ∧
      p.followUps = [f] ∧ f.operation.clauses = [.select [[⟨⟨2⟩, 0⟩]]] ∧
      f.operation.ProjectsDefaults Sample.db.schema t := by
  have hsite : (fun p : Plan => p.primary.clauses) <$> Sample.db.plan (Query.entity "Site") =
      .ok [.select [[⟨⟨0⟩, 0⟩]]] := by decide +kernel
  have hlists : (fun p : Plan => p.followUps.map fun f => f.operation.clauses) <$>
      Sample.db.plan ((Query.entity "Site").select [.field "Lists"]) =
        .ok [[.select [[⟨⟨2⟩, 0⟩]]]] := by decide +kernel
  obtain ⟨p, hp, hclauses⟩ := Except.map_eq_ok_iff.mp hsite
  obtain ⟨p', hp', hclauses'⟩ := Except.map_eq_ok_iff.mp hlists
  obtain ⟨f, hf, hclauses'⟩ := List.map_eq_singleton_iff.mp hclauses'
  constructor
  · obtain ⟨_, m, _, hm⟩ := (projectsDefaults_of_plan Sample.build_eq hp).1 rfl
    exact ⟨p, m, hp, hclauses, hm⟩
  · obtain ⟨x, e, t, _, _, _, _, ht⟩ :=
      (projectsDefaults_of_plan Sample.build_eq hp').2 f (by simp [hf])
    refine ⟨p', f, t, hp', hf, hclauses', ht ?_⟩
    rintro ⟨k, y, m, _, z, hz, hn⟩
    obtain rfl : z = .field "Lists" := by simpa [Query.allSelectors, Query.select, Query.entity] using hz
    cases hn

end Db

end ODataPlan
