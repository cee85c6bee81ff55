import ODataPlan.Plan.Planner
import ODataPlan.Proofs.Registry
import ODataPlan.Proofs.Selection.Merging

/-! A query is planned by the effect of its selectors and by nothing else about them. Main statement:
selectors that are given a second time change neither the plan nor the failure, and the names in the
`select` and `expand` directives count as selectors behind those of the query. -/
namespace ODataPlan

namespace Selector

variable {s : Schema} {t : ModelId} {xs ys : List Selector}

/-- Looks up a selector on the model of an id. -/
def resolveOn (s : Schema) (t : ModelId) (x : Selector) : Outcome Pick := do
  let m ← s.model t
  x.resolve s m

theorem resolveAll_eq_mapM_resolveOn (s : Schema) (t : ModelId) (xs : List Selector) :
    resolveAll s t xs = xs.mapM (resolveOn s t) := by
  induction xs with
  | nil => rfl
  | cons x xs ih =>
    rw [resolveAll, ih, List.mapM_cons, resolveOn]
    cases s.model t <;> rfl

/-- What selectors on the model of an id do, or why they cannot be looked up. -/
def effect (s : Schema) (t : ModelId) (xs : List Selector) : Outcome Effect :=
  Effect.ofPicks <$> resolveAll s t xs

theorem effect_append (s : Schema) (t : ModelId) (xs ys : List Selector) :
    effect s t (xs ++ ys) = do
      let e ← effect s t xs
      let e' ← effect s t ys
      return e.andThen e' := by
  simp only [effect, resolveAll_eq_mapM_resolveOn, List.mapM_append]
  cases xs.mapM (resolveOn s t) with
  | error e => rfl
  | ok ps =>
    cases ys.mapM (resolveOn s t) with
    | error e => rfl
    | ok qs => exact congrArg Except.ok (Effect.ofPicks_append ps qs)

theorem effect_append_congr {xs' ys' : List Selector} (hx : effect s t xs = effect s t xs')
    (hy : effect s t ys = effect s t ys') : effect s t (xs ++ ys) = effect s t (xs' ++ ys') := by
  rw [effect_append, effect_append, hx, hy]

theorem effect_cons_congr {x : Selector} {ys zs : List Selector}
    (hx : effect s t [x] = effect s t ys) (hxs : effect s t xs = effect s t zs) :
    effect s t (x :: xs) = effect s t (ys ++ zs) := by
  rw [← List.singleton_append]
  exact effect_append_congr hx hxs

/-- Selectors that are given a second time do nothing. -/
theorem effect_append_of_subset (h : ys ⊆ xs) : effect s t (xs ++ ys) = effect s t xs := by
  simp only [effect, resolveAll_eq_mapM_resolveOn, List.mapM_append]
  cases hps : xs.mapM (resolveOn s t) with
  | error e => rfl
  | ok ps =>
    have found := Except.forall_of_mapM_eq_ok hps
    obtain ⟨qs, hqs⟩ : ∃ qs, ys.mapM (resolveOn s t) = .ok qs :=
      Except.exists_mapM_eq_ok fun y hy => by
        obtain ⟨p, _, hp⟩ := found y (h hy)
        exact ⟨p, hp⟩
    have given : ∀ q ∈ qs, q ∈ ps := by
      intro q hq
      obtain ⟨y, hy, hyq⟩ := Except.exists_of_mapM_eq_ok hqs q hq
      obtain ⟨p, hp, hyp⟩ := found y (h hy)
      cases hyq.symm.trans hyp
      exact hp
    rw [hqs]
    exact congrArg Except.ok (Effect.ofPicks_append_of_subset given)

end Selector

theorem Effect.eraseDups_named_congr {ps qs : List Pick} (h : ofPicks ps = ofPicks qs)
    (fs : List FieldId) :
    (Pick.namedAll ps ++ fs).eraseDups = (Pick.namedAll qs ++ fs).eraseDups := by
  have hname : appendNew [] (Pick.namedAll ps) = appendNew [] (Pick.namedAll qs) :=
    congrFun (congrArg Effect.name h) []
  rw [eraseDups_eq_appendNew, eraseDups_eq_appendNew, appendNew_append, appendNew_append, hname]

namespace Query

variable {s : Schema} {q : Query} {xs : List Selector}

/-- Queries whose selectors have one effect resolve to the same, or fail the same way. -/
theorem resolve_of_effect (h : ∀ t, Selector.effect s t xs = Selector.effect s t q.selectors) :
    Query.resolve s { q with selectors := xs } = q.resolve s := by
  unfold resolve
  cases hm : s.modelNamed? q.model with
  | none => rfl
  | some m =>
    have heffect : Selector.effect s m.id ({ q with selectors := xs } : Query).allSelectors =
        Selector.effect s m.id q.allSelectors := Selector.effect_append_congr (h m.id) rfl
    refine Except.bind_congr_of_map heffect fun ps qs hpicks => ?_
    have hselect : (Selection.empty m.id).addAll ps = (Selection.empty m.id).addAll qs :=
      congrFun (congrArg Effect.select hpicks) _
    simp only [hselect, List.append_assoc, Effect.eraseDups_named_congr hpicks]

theorem plan_of_effect (h : ∀ t, Selector.effect s t xs = Selector.effect s t q.selectors)
    (preferred : Dialect) :
    Query.plan { q with selectors := xs } s preferred = q.plan s preferred := by
  rw [plan, plan, resolve_of_effect h]

/-- The query with the names in its directives among its selectors. -/
def folded (q : Query) : Query :=
  { q with
    selectors := q.selectors ++
      (q.directives.select.map Selector.ofPath ++ q.directives.expand.map Selector.ofPath)
    directives := { q.directives with select := [], expand := [] } }

theorem allSelectors_folded (q : Query) : q.folded.allSelectors = q.allSelectors := by
  simp [allSelectors, folded]

theorem resolve_folded (s : Schema) (q : Query) : q.folded.resolve s = q.resolve s := by
  unfold resolve
  rw [allSelectors_folded]
  rfl

end Query

namespace Db

/-- Selectors that the query has already can be given again, and names in its directives can be given
as selectors, without a difference to the plan or the failure. -/
theorem plan_repeated_and_folded (db : Db) (q : Query) :
    (∀ xs, xs ⊆ q.selectors → db.plan (q.select xs) = db.plan q) ∧
    db.plan q.folded = db.plan q := by
  refine ⟨fun xs h => Query.plan_of_effect (fun t => Selector.effect_append_of_subset h) _, ?_⟩
  rw [plan, plan, Query.plan, Query.plan, Query.resolve_folded]
  rfl

/-- The owner of a site, selected again behind its lists; the title, named by a directive. -/
theorem plan_repeated_and_folded_sample : ∃ p, Sample.db.plan Sample.query = .ok p ∧
    Sample.db.plan (Sample.query.select [.nested "Owner" [.field "Name"], .field "Title"]) =
      .ok p ∧
    Sample.db.plan ((Sample.query.withDirectives { select := ["Title"], expand := ["Owner.Name"] }
      ).folded) = .ok p := by
  obtain ⟨p, hp⟩ := Except.exists_of_isOk
    (show (Sample.db.plan Sample.query).isOk = true by decide +kernel)
  refine ⟨p, hp, ?_, ?_⟩
  · rw [(plan_repeated_and_folded Sample.db Sample.query).1 _ (by simp [Sample.query, Query.select]), hp]
  · have : Sample.db.plan (Sample.query.withDirectives
        { select := ["Title"], expand := ["Owner.Name"] }) = Sample.db.plan Sample.query := by
      decide +kernel
    rw [(plan_repeated_and_folded Sample.db _).2, this, hp]

end Db

end ODataPlan
