import ODataPlan.Plan.Planner
import ODataPlan.Proofs.Renaming.Resolution

/-! Planning over a registry that embeds another one: the plan is that over the other one, renamed,
and a refusal is the very same. -/
namespace ODataPlan

namespace Renaming

variable (ρ : Renaming)

def expand (e : Expand ModelId) : Expand ModelId := e.withTarget (ρ.id e.target)

def path (p : FieldPath) : FieldPath := p.map ρ.field

def projection (p : Projection) : Projection := ⟨p.select.map ρ.path, p.expand.map ρ.path⟩

def clause : Clause → Clause
  | .select ps => .select (ps.map ρ.path)
  | .expand ps => .expand (ps.map ρ.path)
  | .filter ps => .filter (ps.map ρ.predicate)
  | .orderBy ks => .orderBy (ks.map ρ.sortKey)
  | .top n => .top n
  | .skip n => .skip n

def operation (op : Operation) : Operation :=
  ⟨op.dialect, ρ.id op.model, op.path, op.clauses.map ρ.clause⟩

def followUp (f : FollowUp) : FollowUp := ⟨ρ.field f.field, ρ.operation f.operation⟩

def plan (p : Plan) : Plan := ⟨p.dialect, ρ.operation p.primary, p.followUps.map ρ.followUp⟩

theorem path_injective : Function.Injective ρ.path := List.map_injective_iff.mpr ρ.field_injective

@[simp] theorem path_nil : ρ.path [] = [] := rfl

@[simp] theorem path_append (p r : FieldPath) : ρ.path (p ++ r) = ρ.path p ++ ρ.path r :=
  List.map_append

@[simp] theorem path_singleton (f : FieldId) : ρ.path [f] = [ρ.field f] := rfl

@[simp] theorem projection_append (p r : Projection) :
    ρ.projection (p ++ r) = ρ.projection p ++ ρ.projection r := by
  change Projection.mk _ _ = Projection.mk _ _
  simp [projection]

@[simp] theorem projection_selecting (ps : List FieldPath) :
    ρ.projection (.selecting ps) = .selecting (ps.map ρ.path) := rfl

@[simp] theorem projection_mk (xs ys : List FieldPath) :
    ρ.projection ⟨xs, ys⟩ = ⟨xs.map ρ.path, ys.map ρ.path⟩ := rfl

theorem projection_concat (ps : List Projection) :
    ρ.projection (.concat ps) = .concat (ps.map ρ.projection) := by
  induction ps with
  | nil => rfl
  | cons p ps ih => rw [List.map_cons, Projection.concat, Projection.concat, projection_append, ih]

theorem clauses_projection (p : Projection) :
    (ρ.projection p).clauses = p.clauses.map ρ.clause := by
  unfold Projection.clauses
  rw [List.map_append]
  simp only [projection, List.isEmpty_map, eraseDups_map ρ.path_injective]
  congr 1 <;> split <;> rfl

theorem entries_declared (f : Field) (d : Dialect) (p : FieldPath) :
    (ρ.declared f).entries d (ρ.path p) = (f.entries d p).map ρ.path := by
  unfold Field.entries
  rw [supports_declared]
  split <;> simp

theorem defaultIds_model (m : Model) (d : Dialect) :
    (ρ.model m).defaultIds d = (m.defaultIds d).map ρ.field := by
  unfold Model.defaultIds
  rw [endpoint_model, defaultFields_model]
  cases m.endpoint.get d with
  | none => simp
  | some e =>
    simp only [Option.map_some, endpoint]
    cases e.defaultSelect <;> simp [defaults]

theorem requiredEntries_model (m : Model) (d : Dialect) :
    (ρ.model m).requiredEntries d = (m.requiredEntries d).map ρ.path := by
  unfold Model.requiredEntries
  rw [endpoint_model]
  cases m.endpoint.get d with
  | none => rfl
  | some e => simp [endpoint, path]

theorem defaultProjection_model (m : Model) (d : Dialect) :
    (ρ.model m).defaultProjection d = ρ.projection <$> m.defaultProjection d := by
  have implicit : ((ρ.model m).endpoint.get d).map Endpoint.defaultSelect = some .implicit ↔
      (m.endpoint.get d).map Endpoint.defaultSelect = some .implicit := by
    rw [endpoint_model]
    cases m.endpoint.get d with
    | none => simp
    | some e => cases he : e.defaultSelect <;> simp [endpoint, defaults, he]
  have entries := fun f => entries_declared ρ f d []
  unfold Model.defaultProjection
  simp only [implicit]
  split
  · rfl
  · simp only [keyField_model, bind_map_left, map_bind, map_pure, defaultIds_model,
      requiredEntries_model, path_nil] at entries ⊢
    simp only [entries, projection_selecting, List.map_append, List.map_map, Function.comp_def,
      path_singleton, apply_ite (List.map ρ.path), List.map_nil]

theorem expansion_member (x : Member) : (ρ.member x).expansion = ρ.expand <$> x.expansion := by
  unfold Member.expansion
  rw [field_member, type_declared]
  cases x.field.type <;> rfl

@[simp] theorem canInline_expand (e : Expand ModelId) (d : Dialect) (depth : Nat) :
    (ρ.expand e).canInline d depth = e.canInline d depth := rfl

@[simp] theorem target_expand (e : Expand ModelId) : (ρ.expand e).target = ρ.id e.target := rfl

@[simp] theorem requestPath_expand (e : Expand ModelId) :
    (ρ.expand e).requestPath = e.requestPath := rfl

theorem narrow_members (candidates : DialectSet) (xs : List Member) :
    candidates.narrow (xs.map ρ.member) = candidates.narrow xs := by
  induction xs generalizing candidates with
  | nil => rfl
  | cons x xs ih =>
    rw [List.map_cons, DialectSet.narrow, DialectSet.narrow]
    simp only [field_member, dialects_declared, ih]
    rfl

@[simp] theorem model_resolved (r : Resolved) : (ρ.resolved r).model = ρ.model r.model := rfl

@[simp] theorem source_resolved (r : Resolved) : (ρ.resolved r).source = r.source := rfl

@[simp] theorem selection_resolved (r : Resolved) :
    (ρ.resolved r).selection = ρ.selection r.selection := rfl

@[simp] theorem shaped_resolved (r : Resolved) : (ρ.resolved r).shaped = r.shaped := rfl

theorem expansions_resolved (r : Resolved) : (ρ.resolved r).expansions =
    r.expansions.map fun x => (ρ.member x.1, ρ.selection x.2) := by
  unfold Resolved.expansions
  rw [List.map_filterMap]
  simp only [resolved, members_model, List.filterMap_map, branches_selection]
  refine List.filterMap_congr fun x _ => ?_
  simp only [Function.comp_apply, field_member, id_declared, get?_branches]
  cases r.selection.branches.get? x.field.id <;> rfl

theorem shapingClauses_resolved (r : Resolved) :
    (ρ.resolved r).shapingClauses = r.shapingClauses.map ρ.clause := by
  simp only [Resolved.shapingClauses, resolved, List.isEmpty_map, List.map_append]
  congr 1
  · congr 1
    · congr 1
      · split <;> rfl
      · split <;> rfl
    · cases r.top <;> rfl
  · cases r.skip <;> rfl

namespace Embeds

variable {ρ} {s s' : Schema} (h : ρ.Embeds s s')

include h

theorem scalarEntries (d : Dialect) (p : FieldPath) (ids : List FieldId) :
    s'.scalarEntries d (ρ.path p) (ids.map ρ.field) =
      List.map ρ.path <$> s.scalarEntries d p ids := by
  unfold Schema.scalarEntries
  rw [mapM_map h.member, bind_map_left, map_bind]
  simp only [map_pure, List.flatMap_map, List.map_flatMap, field_member, entries_declared]

theorem defaultEntries (d : Dialect) (p : FieldPath) (m : ModelId) :
    s'.defaultEntries d (ρ.path p) (ρ.id m) = List.map ρ.path <$> s.defaultEntries d p m := by
  unfold Schema.defaultEntries
  rw [h.model, bind_map_left, map_bind]
  simp only [defaultIds_model, h.scalarEntries]

/-- The same dialect is chosen, or the choice is refused with the same words. -/
theorem dialect (r : Resolved) (preferred : Dialect) :
    (ρ.resolved r).dialect s' preferred = r.dialect s preferred := by
  have members : ((r.named.map ρ.field).mapM fun id => Outcome.ofLookup (s'.member id)) =
      List.map ρ.member <$> r.named.mapM fun id => Outcome.ofLookup (s.member id) :=
    mapM_map (fun f => by rw [h.member, Outcome.ofLookup_map]) r.named
  unfold Resolved.dialect
  simp only [resolved, dialects_model, members, bind_map_left]
  split
  · rfl
  · refine congrArg _ (funext fun xs => ?_)
    rw [List.find?_map, narrow_members]
    simp only [Function.comp_def, field_member, dialects_declared]
    cases xs.find? fun x => x.field.dialects.isEmpty <;> rfl

end Embeds

namespace Embeds

variable {ρ} {s s' : Schema}

mutual

/-- An inline expansion has the same entries under the new ids. -/
theorem inlineEntries (h : ρ.Embeds s s') (d : Dialect) : ∀ (a : Selection) (x : Member)
    (p : FieldPath) (depth : Nat),
    (ρ.selection a).inlineEntries s' d (ρ.member x) (ρ.path p) depth =
      ρ.projection <$> a.inlineEntries s d x p depth
  | .mk m fs bs defaults, x, p, depth => by
    rw [selection, Selection.inlineEntries, Selection.inlineEntries]
    simp only [List.isEmpty_map, isEmpty_branches]
    split
    · rfl
    · have nested := h.branchEntries d bs (FailureKind.requestInExpansion d x)
        (FailureKind.requestInExpansion d (ρ.member x)) (fun _ => rfl) p (depth + 1)
      simp only [h.defaultEntries, h.scalarEntries, nested, Outcome.liftM_eq_ofLookup,
        Outcome.ofLookup_map, bind_map_left]
      split <;> simp only [pure_bind, map_bind, map_pure, projection_append, projection_mk,
        List.map_append, List.map_cons, List.map_nil]

theorem branchEntries (h : ρ.Embeds s s') (d : Dialect) : ∀ (bs : Branches)
    (refuse refuse' : Member → FailureKind), (∀ x, refuse' (ρ.member x) = refuse x) →
    ∀ (p : FieldPath) (depth : Nat),
    (ρ.branches bs).inlineEntries s' d refuse' (ρ.path p) depth =
      ρ.projection <$> bs.inlineEntries s d refuse p depth
  | .nil, _, _, _, _, _ => rfl
  | .cons f n rest, refuse, refuse', hrefuse, p, depth => by
    rw [branches, Branches.inlineEntries, Branches.inlineEntries]
    simp only [h.member, Outcome.liftM_eq_ofLookup, Outcome.ofLookup_map, bind_map_left, map_bind,
      expansion_member]
    refine congrArg _ (funext fun x => congrArg _ (funext fun e => ?_))
    -- how deep a field stands is the same on both sides, and so is whether it can be inline
    have same := canInline_expand ρ e d depth
    by_cases hi : e.canInline d depth = true
    · rw [if_pos hi, if_pos (same.trans hi), ← path_singleton, ← path_append,
        h.inlineEntries d n x (p ++ [f]) depth,
        h.branchEntries d rest refuse refuse' hrefuse p depth]
      simp only [bind_map_left, map_bind, map_pure, projection_append]
    · rw [if_neg hi, if_neg (same ▸ hi), hrefuse, Outcome.map_raise]

end

variable (h : ρ.Embeds s s')

include h

theorem requestProjection (d : Dialect) (a : Selection) (x : Member) (t : Model) :
    (ρ.selection a).requestProjection s' d (ρ.member x) (ρ.model t) =
      ρ.projection <$> a.requestProjection s d x t := by
  have nested := h.branchEntries d a.branches (FailureKind.requestInRequest d x)
    (FailureKind.requestInRequest d (ρ.member x)) (fun _ => rfl) [] 1
  have entries := fun f => entries_declared ρ f d []
  have scalars := h.scalarEntries d [] a.fields
  have defaults := h.defaultEntries d [] t.id
  rw [path_nil] at nested scalars defaults
  simp only [path_nil] at entries
  unfold Selection.requestProjection
  simp only [isDefault_selection, defaultProjection_model, keyField_model, branches_selection,
    fields_selection, includeDefaults_selection, requiredEntries_model, id_model, nested, entries,
    scalars, defaults, Outcome.liftM_eq_ofLookup, Outcome.ofLookup_map, bind_map_left]
  split
  · rfl
  · simp only [map_bind]
    refine congrArg _ (funext fun key => ?_)
    split <;> simp only [pure_bind, map_bind, map_pure, projection_append, projection_selecting,
      List.map_append, apply_ite (List.map ρ.path), List.map_nil]

theorem followUp (d : Dialect) (source : Source) (shaped : Bool) (x : Member)
    (e : Expand ModelId) (a : Selection) :
    (ρ.selection a).followUp s' d source shaped (ρ.member x) (ρ.expand e) =
      ρ.followUp <$> a.followUp s d source shaped x e := by
  unfold Selection.followUp
  simp only [requestPath_expand, target_expand, h.model, Outcome.liftM_eq_ofLookup,
    Outcome.ofLookup_map, bind_map_left, h.requestProjection]
  split
  · rfl
  · split
    · rfl
    · split
      · rfl
      · simp only [map_bind, map_pure, clauses_projection]
        rfl

theorem load (d : Dialect) (source : Source) (shaped : Bool) (x : Member) (a : Selection) :
    (ρ.selection a).load s' d source shaped (ρ.member x) =
      Prod.map ρ.projection (List.map ρ.followUp) <$> a.load s d source shaped x := by
  have inline := h.inlineEntries d a x [x.field.id] 1
  rw [path_singleton] at inline
  unfold Selection.load
  simp only [expansion_member, bind_map_left, map_bind, field_member, id_declared,
    inline, h.followUp, isDefault_selection]
  refine congrArg _ (funext fun e => ?_)
  have same := canInline_expand ρ e d 1
  by_cases hi : e.canInline d 1 = true
  · rw [if_pos hi, if_pos (same.trans hi)]
    simp only [map_bind, map_pure, Prod.map_apply, List.map_nil]
  · rw [if_neg hi, if_neg (same ▸ hi)]
    simp only [map_bind, map_pure, Prod.map_apply, List.map_cons, List.map_nil,
      projection_selecting, apply_ite (List.map ρ.path), path_singleton]

theorem projection (r : Resolved) (d : Dialect) :
    (ρ.resolved r).projection s' d =
      Prod.map ρ.projection (List.map ρ.followUp) <$> r.projection s d := by
  have loaded : ((ρ.resolved r).expansions.mapM fun x =>
      x.2.load s' d r.source r.shaped x.1) =
      List.map (Prod.map ρ.projection (List.map ρ.followUp)) <$>
        r.expansions.mapM fun x => x.2.load s d r.source r.shaped x.1 := by
    rw [expansions_resolved]
    exact mapM_map (fun x => h.load d r.source r.shaped x.1 x.2) r.expansions
  have entries := fun f => entries_declared ρ f d []
  -- distinct fields stay distinct, so the key is left out of the other scalars on both sides
  have other : ∀ f : Field, ((ρ.declared f).id != (ρ.model r.model).key &&
      (r.selection.fields.map ρ.field).contains (ρ.declared f).id) =
      (f.id != r.model.key && r.selection.fields.contains f.id) := by
    intro f
    rw [id_declared, key_model, contains_map ρ.field_injective, Bool.eq_iff_iff]
    simp
  unfold Resolved.projection
  simp only [model_resolved, source_resolved, selection_resolved, shaped_resolved, path_nil,
    isDefault_selection, defaultProjection_model, keyField_model, fields_model, fields_selection,
    requiredEntries_model, List.filter_map, Function.comp_def, other, loaded,
    Outcome.liftM_eq_ofLookup, Outcome.ofLookup_map, bind_map_left] at entries ⊢
  split
  · simp only [map_bind, map_pure, Prod.map_apply, List.map_nil]
  · simp only [map_bind, map_pure, Prod.map_apply, projection_append, projection_selecting,
      projection_concat, List.map_append, List.map_flatMap, List.flatMap_map, List.map_map, entries,
      Function.comp_def, Prod.map_fst, Prod.map_snd]

/-- The plan is the same under the new ids, or planning fails likewise. -/
theorem plan (r : Resolved) (preferred : Dialect) :
    (ρ.resolved r).plan s' preferred = ρ.plan <$> r.plan s preferred := by
  unfold Resolved.plan
  simp only [h.dialect, model_resolved, source_resolved, path?_model, map_bind]
  refine congrArg _ (funext fun d => ?_)
  cases r.model.path? d r.source with
  | none => rfl
  | some path =>
    simp only [h.projection, bind_map_left, map_bind, map_pure, Prod.map_fst, Prod.map_snd,
      clauses_projection, shapingClauses_resolved, ← List.map_append]
    rfl

theorem query {q : Query}
    (hm : s'.modelNamed? q.model = (s.modelNamed? q.model).map ρ.model) (preferred : Dialect) :
    q.plan s' preferred = ρ.plan <$> q.plan s preferred := by
  unfold Query.plan
  simp only [h.resolve hm, bind_map_left, h.plan, map_bind]

end Embeds

end Renaming

end ODataPlan
