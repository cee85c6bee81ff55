import ODataPlan.Proofs.Plan.Planner

/-! The operations of a plan: what they select and expand, and which expandables have a follow-up. -/
namespace ODataPlan

namespace Clause

def selected : Clause → List FieldPath
  | select paths => paths
  | _ => []

def expanded : Clause → List FieldPath
  | expand paths => paths
  | _ => []

def shapes : Clause → Bool
  | select _ | expand _ => false
  | _ => true

theorem selected_of_shapes {c : Clause} (h : c.shapes = true) : c.selected = [] := by
  cases c <;> first | rfl | cases h

theorem expanded_of_shapes {c : Clause} (h : c.shapes = true) : c.expanded = [] := by
  cases c <;> first | rfl | cases h

end Clause

namespace Operation

def selected (op : Operation) : List FieldPath := op.clauses.flatMap Clause.selected

def expanded (op : Operation) : List FieldPath := op.clauses.flatMap Clause.expanded

end Operation

namespace Projection

variable (p : Projection)

theorem selected_clauses : p.clauses.flatMap Clause.selected = p.select.eraseDups := by
  obtain ⟨select, expand⟩ := p
  cases select <;> cases expand <;> simp [clauses, Clause.selected]

theorem expanded_clauses : p.clauses.flatMap Clause.expanded = p.expand.eraseDups := by
  obtain ⟨select, expand⟩ := p
  cases select <;> cases expand <;> simp [clauses, Clause.expanded]

theorem names_sublist : (p.clauses.map Clause.name).Sublist ["$select", "$expand"] := by
  obtain ⟨select, expand⟩ := p
  cases select <;> cases expand <;> simp [clauses, Clause.name]

theorem not_shapes_of_mem_clauses : ∀ c ∈ p.clauses, c.shapes = false := by
  intro c hc
  unfold clauses at hc
  rcases List.mem_append.mp hc with hc | hc
  all_goals
    split at hc
    · cases hc
    · rw [List.mem_singleton.mp hc]
      rfl

end Projection

namespace Resolved

theorem shapes_of_mem_shapingClauses (r : Resolved) : ∀ c ∈ r.shapingClauses, c.shapes = true := by
  intro c hc
  simp only [shapingClauses, List.mem_append, Option.mem_toList, Option.map_eq_some_iff] at hc
  rcases hc with ((hc | hc) | ⟨n, _, rfl⟩) | ⟨n, _, rfl⟩
  · split at hc <;> simp_all [Clause.shapes]
  · split at hc <;> simp_all [Clause.shapes]
  · rfl
  · rfl

theorem names_sublist (r : Resolved) :
    (r.shapingClauses.map Clause.name).Sublist ["$filter", "$orderby", "$top", "$skip"] := by
  unfold shapingClauses
  cases r.filters <;> cases r.sorts <;> cases r.top <;> cases r.skip <;> simp [Clause.name]

variable {s : Schema} {d : Dialect} {path : String} (r : Resolved)

theorem selected_primary :
    (r.planned s d path).primary.selected = (r.block s d).1.select.eraseDups := by
  have : r.shapingClauses.flatMap Clause.selected = [] := List.flatMap_eq_nil_iff.mpr fun c hc =>
    Clause.selected_of_shapes (r.shapes_of_mem_shapingClauses c hc)
  rw [planned, Operation.selected, List.flatMap_append, this, List.append_nil,
    Projection.selected_clauses]

theorem expanded_primary :
    (r.planned s d path).primary.expanded = (r.block s d).1.expand.eraseDups := by
  have : r.shapingClauses.flatMap Clause.expanded = [] := List.flatMap_eq_nil_iff.mpr fun c hc =>
    Clause.expanded_of_shapes (r.shapes_of_mem_shapingClauses c hc)
  rw [planned, Operation.expanded, List.flatMap_append, this, List.append_nil,
    Projection.expanded_clauses]

end Resolved

namespace Query

/-- The plan of a query together with the resolved query it was made from. -/
structure PlansTo (q : Query) (s : Schema) (r : Resolved) (p : Plan) : Prop where
  resolves : ∃ picks, q.ResolvesTo s r picks
  endpoint : r.model.path? p.dialect r.source = some p.primary.path
  serves : ∀ f ∈ r.named, s.serves p.dialect f = true
  loadable : r.Loadable s p.dialect
  planned : p = r.planned s p.dialect p.primary.path

variable {q : Query} {s : Schema} {r : Resolved} {p : Plan}

theorem ResolvesTo.plansTo (hs : s.Sound) {picks : List Pick} {preferred : Dialect}
    (hq : q.ResolvesTo s r picks) (h : r.plan s preferred = .ok p) : q.PlansTo s r p := by
  obtain ⟨d, hd, _⟩ := Except.bind_eq_ok_iff.mp h
  obtain ⟨⟨path, hp⟩, hserves⟩ := Resolved.serves_of_dialect hd
  obtain ⟨hl, rfl⟩ := (hq.plan_decides hs hd hp).of_eq_ok h
  exact ⟨⟨picks, hq⟩, hp, hserves, hl, rfl⟩

theorem plansTo_of_plan (hs : s.Sound) {preferred : Dialect} (h : q.plan s preferred = .ok p) :
    ∃ r, q.PlansTo s r p := by
  obtain ⟨r, hr, h⟩ := Except.bind_eq_ok_iff.mp h
  obtain ⟨picks, hq⟩ := resolvesTo_of_resolve hs hr
  exact ⟨r, hq.plansTo hs h⟩

namespace PlansTo

/-- The plan's dialect serves every field that the query names. -/
theorem serves_of_names (hs : s.Sound) (h : q.PlansTo s r p) {k : Mention} {path : List Member}
    {x : Member} (hx : q.Names s k (path ++ [x])) : s.serves p.dialect x.id = true := by
  obtain ⟨picks, hq⟩ := h.resolves
  exact h.serves _ ((hq.mem_named_iff hs _).mpr (.inl ⟨k, path, x, hx, rfl⟩))

theorem serves_of_mem_chain (hs : s.Sound) (h : q.PlansTo s r p) {k : Mention}
    {path : List Member} (hp : q.Names s k path) : ∀ f ∈ path.map Member.id,
      s.serves p.dialect f = true := by
  intro f hf
  obtain ⟨y, hy, rfl⟩ := List.mem_map.mp hf
  obtain ⟨before, after, rfl⟩ := List.append_of_mem hy
  by_cases ha : after = []
  · subst ha
    exact h.serves_of_names hs hp
  · exact h.serves_of_names hs (hp.take ha)

theorem expansions_eq_nil (hs : s.Sound) (h : q.PlansTo s r p)
    (hd : r.selection.isDefault = true) : r.expansions = [] := by
  obtain ⟨picks, hq⟩ := h.resolves
  refine List.eq_nil_iff_forall_not_mem.mpr fun x hx => ?_
  rw [hq.isDefault_of_expansion hs hx] at hd
  cases hd

/-- The follow-ups are the requests for the expandables that are not inline, in their order. -/
theorem followUps_eq (hs : s.Sound) (h : q.PlansTo s r p) : p.followUps =
    (r.expansions.filter fun x => ¬ x.1.InlineAt p.dialect 1).map fun x =>
      x.1.request s p.dialect x.2 := by
  have each : ∀ xs : List (Member × Selection),
      (xs.map fun x => x.1.loaded s p.dialect x.2).flatMap (·.2) =
        (xs.filter fun x => ¬ x.1.InlineAt p.dialect 1).map fun x =>
          x.1.request s p.dialect x.2 := by
    intro xs
    induction xs with
    | nil => rfl
    | cons x xs ih =>
      by_cases hx : x.1.InlineAt p.dialect 1 <;> simp_all [Member.loaded]
  rw [congrArg Plan.followUps h.planned]
  change (r.block s p.dialect).2 = _
  unfold Resolved.block
  split
  · rename_i hd
    rw [h.expansions_eq_nil hs hd]
    rfl
  · exact each r.expansions

theorem mem_followUps_iff (hs : s.Sound) (h : q.PlansTo s r p) {f : FollowUp} :
    f ∈ p.followUps ↔ ∃ x a, (x, a) ∈ r.expansions ∧ ¬ x.InlineAt p.dialect 1 ∧
      x.request s p.dialect a = f := by
  simp [h.followUps_eq hs, and_assoc]

/-- The main request expands every level of the expandables that are inline. -/
theorem mem_expanded_primary_iff (hs : s.Sound) (h : q.PlansTo s r p) {ids : FieldPath} :
    ids ∈ p.primary.expanded ↔ ∃ x a, (x, a) ∈ r.expansions ∧ x.InlineAt p.dialect 1 ∧
      ids ∈ (a.block s p.dialect [x.id]).expand := by
  rw [congrArg Plan.primary h.planned, Resolved.expanded_primary, List.mem_eraseDups]
  unfold Resolved.block
  split
  · rename_i hd
    simp [h.expansions_eq_nil hs hd]
  · simp only [Projection.expand_append, Projection.expand_selecting, Projection.expand_concat,
      List.nil_append, List.append_nil, List.mem_flatMap, List.mem_map, Resolved.loaded]
    constructor
    · rintro ⟨_, ⟨_, ⟨⟨x, a⟩, hx, rfl⟩, rfl⟩, h⟩
      unfold Member.loaded at h
      split at h
      · exact ⟨x, a, hx, ‹_›, h⟩
      · cases h
    · rintro ⟨x, a, hx, hi, h⟩
      refine ⟨_, ⟨_, ⟨(x, a), hx, rfl⟩, rfl⟩, ?_⟩
      rwa [Member.loaded, if_pos hi]

theorem mem_selected_primary_iff (h : q.PlansTo s r p) (hd : r.selection.isDefault = false)
    {ids : FieldPath} : ids ∈ p.primary.selected ↔ ids ∈ r.rootEntries s p.dialect ∨
      (∃ x a, (x, a) ∈ r.expansions ∧ ids ∈ (x.loaded s p.dialect a).1.select) ∨
      ids ∈ r.model.requiredEntries p.dialect := by
  rw [congrArg Plan.primary h.planned, Resolved.selected_primary, List.mem_eraseDups]
  simp [Resolved.block, hd, Resolved.loaded]

end PlansTo

end Query

end ODataPlan
