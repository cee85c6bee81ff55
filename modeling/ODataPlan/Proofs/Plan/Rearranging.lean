import Mathlib.Data.List.Perm.Basic
import ODataPlan.Proofs.Plan.Binding
import ODataPlan.Proofs.Plan.Projecting
import ODataPlan.Proofs.Selection.Similar

/-! Plans of queries whose selectors stand in another order. Main statement: they make the same
requests but for the order within `$select` and `$expand`, and the very same requests if nothing is
selected within any selector. -/
namespace ODataPlan

/-- The same clause but for the order of the paths it selects or expands. -/
inductive Clause.Alike : Clause → Clause → Prop
  | select {xs ys} (order : xs.Perm ys) : Alike (.select xs) (.select ys)
  | expand {xs ys} (order : xs.Perm ys) : Alike (.expand xs) (.expand ys)
  | shaping {c} (shapes : c.shapes = true) : Alike c c

/-- The same request but for the order of the paths it selects and expands. -/
structure Operation.Alike (op op' : Operation) : Prop where
  dialect : op.dialect = op'.dialect
  model : op.model = op'.model
  path : op.path = op'.path
  clauses : List.Forall₂ Clause.Alike op.clauses op'.clauses

/-- The same requests but for the order of the paths each selects and expands. -/
structure Plan.Alike (p p' : Plan) : Prop where
  dialect : p.dialect = p'.dialect
  primary : p.primary.Alike p'.primary
  followUps : List.Forall₂ (fun f f' => f.field = f'.field ∧ f.operation.Alike f'.operation)
    p.followUps p'.followUps

theorem eraseDups_perm {α : Type} [BEq α] [LawfulBEq α] {xs ys : List α}
    (h : ∀ x, x ∈ xs ↔ x ∈ ys) : xs.eraseDups.Perm ys.eraseDups := by
  rw [List.perm_ext_iff_of_nodup (nodup_eraseDups xs) (nodup_eraseDups ys)]
  simpa only [List.mem_eraseDups] using h

theorem Projection.clauses_alike {p p' : Projection} (hs : ∀ ids, ids ∈ p.select ↔ ids ∈ p'.select)
    (he : ∀ ids, ids ∈ p.expand ↔ ids ∈ p'.expand) :
    List.Forall₂ Clause.Alike p.clauses p'.clauses := by
  unfold clauses
  rw [isEmpty_eq_of_mem_iff hs, isEmpty_eq_of_mem_iff he]
  refine List.rel_append ?_ ?_
  · split
    · exact .nil
    · exact .cons (.select (eraseDups_perm hs)) .nil
  · split
    · exact .nil
    · exact .cons (.expand (eraseDups_perm he)) .nil

namespace Query

variable {q q' : Query} {s : Schema} {d : Dialect} {root : Model} {base : List Member}
  {apart : List FieldId} {ids : FieldPath} {r r' : Resolved} {p p' : Plan}

theorem Projects.of_names_iff (h : ∀ k path, q.Names s k path ↔ q'.Names s k path)
    (hp : q.Projects s d root base apart ids) : q'.Projects s d root base apart ids := by
  have picks : ∀ path, q.Picks s path ↔ q'.Picks s path := fun path => by
    simp only [Picks, h]
  cases hp with
  | scalar named here => exact .scalar ((h _ _).mp named) here
  | key hp here model served => exact .key (hp.imp_right (picks _).mp) here model served
  | default bare hp here model default served =>
    exact .default ((h _ _).mp bare) ((picks _).mp hp) here model default served
  | required model required => exact .required model required
  | expandable named here empty =>
    exact .expandable ((h _ _).mp named) here (mt (picks _).mpr empty)

theorem Reordered.projects_iff (h : q.Reordered q') :
    q.Projects s d root base apart ids ↔ q'.Projects s d root base apart ids :=
  ⟨.of_names_iff fun _ _ => h.names_iff, .of_names_iff fun _ _ => h.names_iff.symm⟩

theorem Reordered.picks_iff (h : q.Reordered q') {path : List Member} :
    q.Picks s path ↔ q'.Picks s path := by
  simp only [Picks, h.names_iff]

theorem Reordered.model_eq (h : q.Reordered q') {picks picks' : List Pick}
    (hq : q.ResolvesTo s r picks) (hq' : q'.ResolvesTo s r' picks') : r.model = r'.model := by
  have := hq'.model
  rw [h.model, hq.model] at this
  exact Option.some.inj this

/-- The selected expandables of both are the same, in declaration order. -/
theorem Reordered.expansions_forall₂ (h : q.Reordered q') (hs : s.Sound) {picks picks' : List Pick}
    (hq : q.ResolvesTo s r picks) (hq' : q'.ResolvesTo s r' picks') :
    List.Forall₂ (fun u v => u.1 = v.1 ∧ u ∈ r.expansions ∧ v ∈ r'.expansions)
      r.expansions r'.expansions := by
  have hm := h.model_eq hq hq'
  have members : List.Forall₂ (fun x y => x = y ∧ s.Has x) r.model.members r'.model.members := by
    rw [← hm]
    refine List.forall₂_same.mpr fun x hx => ⟨rfl, ?_⟩
    obtain ⟨f, hf, rfl⟩ := List.mem_map.mp hx
    exact ⟨hq.model_mem, hf⟩
  refine List.rel_filterMap (R := fun x y => x = y ∧ s.Has x) ?_ members
  rintro x _ ⟨rfl, hx⟩
  have hiff := (hq.exists_expansion_iff hs (x := x)).trans
    (h.names_iff.trans (hq'.exists_expansion_iff hs).symm)
  simp only [hq.mem_expansions_iff hs, hq'.mem_expansions_iff hs, hx, true_and, Member.id] at hiff ⊢
  cases ha : r.selection.branches.get? x.field.id with
  | none =>
    cases hb : r'.selection.branches.get? x.field.id with
    | none => exact .none
    | some b => simp [ha, hb] at hiff
  | some a =>
    cases hb : r'.selection.branches.get? x.field.id with
    | none => simp [ha, hb] at hiff
    | some b => exact .some ⟨rfl, ⟨hx, ha⟩, hx, hb⟩

theorem Reordered.request_alike (h : q.Reordered q') (hs : s.Sound) (hp : q.PlansTo s r p)
    (hp' : q'.PlansTo s r' p') (hd : p.dialect = p'.dialect) {x : Member} {a b : Selection}
    (ha : (x, a) ∈ r.expansions) (hb : (x, b) ∈ r'.expansions) :
    (x.request s p.dialect a).operation.Alike (x.request s p'.dialect b).operation := by
  obtain ⟨picks, hq⟩ := hp.resolves
  obtain ⟨picks', hq'⟩ := hp'.resolves
  have hm := h.model_eq hq hq'
  obtain ⟨_, e, he, hta⟩ := hq.target_of_expansion hs ha
  obtain ⟨_, e', he', htb⟩ := hq'.target_of_expansion hs hb
  rw [he] at he'
  cases he'
  have model : a.model = b.model := hta.symm.trans htb
  have hexpand : ∀ ids, ids ∈ (a.requestBlock s p.dialect).expand ↔
      ids ∈ (b.requestBlock s p.dialect).expand := by
    intro ids
    have left : ids ∈ _ ↔ _ := hp.mem_expanded_request_iff_names hs ha
    have right : ids ∈ _ ↔ _ := hp'.mem_expanded_request_iff_names hs hb
    simp only [Member.request, Operation.expanded, Projection.expanded_clauses, List.mem_eraseDups,
      ← hd] at left right
    rw [left, right]
    simp only [h.names_iff]
  have hselect : ∀ ids, ids ∈ (a.requestBlock s p.dialect).select ↔
      ids ∈ (b.requestBlock s p.dialect).select := by
    intro ids
    -- with nothing picked within, the entries are the default set whatever the order
    by_cases picked : q.Picks s [x]
    · have left : ids ∈ _ ↔ _ := hp.mem_selected_request_iff hs ha picked
      have right : ids ∈ _ ↔ _ := hp'.mem_selected_request_iff hs hb (h.picks_iff.mp picked)
      simp only [Member.request, Operation.selected, Projection.selected_clauses,
        List.mem_eraseDups, ← hd, ← hm] at left right
      rw [left, right, h.projects_iff]
    · have hda := mt (hq.picks_iff_of_expansion hs ha).mp picked
      have hdb := mt (hq'.picks_iff_of_expansion hs hb).mp (mt h.picks_iff.mpr picked)
      rw [Bool.not_eq_false] at hda hdb
      simp only [Selection.requestBlock, model, hda, hdb, if_true]
  refine ⟨hd, model, by simp only [Member.request, hd], ?_⟩
  simp only [Member.request, ← hd]
  exact Projection.clauses_alike hselect hexpand

theorem Reordered.followUps_alike (h : q.Reordered q') (hs : s.Sound) (hp : q.PlansTo s r p)
    (hp' : q'.PlansTo s r' p') (hd : p.dialect = p'.dialect) :
    List.Forall₂ (fun f f' => f.field = f'.field ∧ f.operation.Alike f'.operation)
      p.followUps p'.followUps := by
  obtain ⟨picks, hq⟩ := hp.resolves
  obtain ⟨picks', hq'⟩ := hp'.resolves
  rw [hp.followUps_eq hs, hp'.followUps_eq hs, List.forall₂_map_left_iff,
    List.forall₂_map_right_iff]
  have apart := List.rel_filter (p := fun x => decide ¬ x.1.InlineAt p.dialect 1)
    (q := fun x => decide ¬ x.1.InlineAt p'.dialect 1) (fun u v huv => by simp [huv.1, hd])
    (h.expansions_forall₂ hs hq hq')
  refine apart.imp ?_
  rintro ⟨x, a⟩ ⟨_, b⟩ ⟨rfl, ha, hb⟩
  exact ⟨rfl, h.request_alike hs hp hp' hd ha hb⟩

theorem Reordered.fields_eq (h : q.Reordered q') (hs : s.Sound) (hp : q.PlansTo s r p)
    (hp' : q'.PlansTo s r' p') (hd : p.dialect = p'.dialect) : p.fields = p'.fields := by
  have each := (h.followUps_alike hs hp hp' hd).imp fun _ _ => And.left
  rwa [← List.forall₂_map_right_iff (f := FollowUp.field),
    ← List.forall₂_map_left_iff (f := FollowUp.field), List.forall₂_eq_eq_eq] at each

/-- Below the clauses that shape it, the main request is the same but for order. -/
theorem Reordered.primary_alike (h : q.Reordered q') (hs : s.Sound) (hp : q.PlansTo s r p)
    (hp' : q'.PlansTo s r' p') (hd : p.dialect = p'.dialect)
    (hc : r.shapingClauses = r'.shapingClauses) : p.primary.Alike p'.primary := by
  obtain ⟨picks, hq⟩ := hp.resolves
  obtain ⟨picks', hq'⟩ := hp'.resolves
  have hm := h.model_eq hq hq'
  have hf := h.fields_eq hs hp hp' hd
  have hexpand : ∀ ids, ids ∈ (r.block s p.dialect).1.expand ↔
      ids ∈ (r'.block s p'.dialect).1.expand := by
    intro ids
    have left : ids ∈ _ ↔ _ := hp.mem_expanded_primary_iff_names hs
    have right : ids ∈ _ ↔ _ := hp'.mem_expanded_primary_iff_names hs
    rw [congrArg Plan.primary hp.planned, Resolved.expanded_primary, List.mem_eraseDups] at left
    rw [congrArg Plan.primary hp'.planned, Resolved.expanded_primary, List.mem_eraseDups] at right
    rw [left, right, hf]
    simp only [h.names_iff]
  have hselect : ∀ ids, ids ∈ (r.block s p.dialect).1.select ↔
      ids ∈ (r'.block s p'.dialect).1.select := by
    intro ids
    by_cases picked : q.Picks s []
    · have left : ids ∈ _ ↔ _ := hp.mem_selected_primary_iff_projects hs picked
      have right : ids ∈ _ ↔ _ :=
        hp'.mem_selected_primary_iff_projects hs (h.picks_iff.mp picked)
      rw [congrArg Plan.primary hp.planned, Resolved.selected_primary, List.mem_eraseDups] at left
      rw [congrArg Plan.primary hp'.planned, Resolved.selected_primary, List.mem_eraseDups] at right
      rw [left, right, h.projects_iff, hf, hd, hm]
    · have hda := mt (hq.picks_iff_of_root hs).mp picked
      have hdb := mt (hq'.picks_iff_of_root hs).mp (mt h.picks_iff.mpr picked)
      rw [Bool.not_eq_false] at hda hdb
      simp only [Resolved.block, hm, hd, hda, hdb, if_true]
  have hpath : p.primary.path = p'.primary.path := by
    have left := hp.endpoint
    rw [hm, hd, hq.source, ← h.source, ← hq'.source, hp'.endpoint] at left
    exact (Option.some.inj left).symm
  rw [congrArg Plan.primary hp.planned, congrArg Plan.primary hp'.planned]
  refine ⟨hd, congrArg Model.id hm, hpath, ?_⟩
  refine List.rel_append (Projection.clauses_alike hselect hexpand) ?_
  rw [← hc]
  exact List.forall₂_same.mpr fun c hc => .shaping (r.shapes_of_mem_shapingClauses c hc)

variable {xs : List Selector}

theorem reordered_of_selectors (h : Selector.ReorderedAll q.selectors xs) :
    q.Reordered { q with selectors := xs } :=
  ⟨rfl, rfl, rfl, h.append_right _, .refl _, .refl _, rfl, rfl⟩

theorem shapingClauses_of_selectors {picks picks' : List Pick} (hm : r.model = r'.model)
    (hq : q.ResolvesTo s r picks) (hq' : ResolvesTo { q with selectors := xs } s r' picks') :
    r.shapingClauses = r'.shapingClauses := by
  have filters : r.filters = r'.filters := by
    have := hq'.filters
    rw [← hm] at this
    exact Except.ok.inj (hq.filters.symm.trans this)
  have sorts : r.sorts = r'.sorts := by
    have := hq'.sorts
    rw [← hm] at this
    exact Except.ok.inj (hq.sorts.symm.trans this)
  simp only [Resolved.shapingClauses, filters, sorts, hq.top, hq'.top, hq.skip, hq'.skip]

/-- Looking up the names succeeds for both or fails for both in one way. -/
theorem resolve_alike_of_selectors (hs : s.Sound) (h : Selector.ReorderedAll q.selectors xs) :
    (q.resolve s).Alike (fun _ _ => True) (Query.resolve s { q with selectors := xs }) := by
  have hall := (reordered_of_selectors h).selectors
  unfold resolve
  cases hm : s.modelNamed? q.model with
  | none => exact Outcome.alike_raise rfl
  | some m =>
    have hmem := Schema.mem_of_modelNamed? hm
    simp only [Selector.resolveAll_eq_mapM (hs.model_of_mem hmem)]
    have picked : Outcome.Alike (fun _ _ => True) (q.allSelectors.mapM (·.resolve s m))
        (({ q with selectors := xs } : Query).allSelectors.mapM (·.resolve s m)) := by
      refine Outcome.Mismatches.alike (.mapM fun x _ => x.mismatches_resolve hs hmem)
        (.mapM fun x _ => x.mismatches_resolve hs hmem) ?_
      rw [Except.exists_mapM_eq_ok_iff, Except.exists_mapM_eq_ok_iff]
      exact hall.forall_iff fun x _ y hxy => hxy.resolve_iff hs hmem
    have filtered := Outcome.Proper.alike
      (.mapM fun f (_ : f ∈ q.directives.filters) => f.proper_resolve m)
    have sorted := Outcome.Proper.alike
      (.mapM fun o (_ : o ∈ q.directives.orders) => o.proper_resolve m)
    refine picked.bind fun picks picks' hp hp' _ => filtered.bind fun _ _ _ _ _ =>
      sorted.bind fun _ _ _ _ _ => ?_
    simp only [ensureKey_of_picks hs hmem hp, ensureKey_of_picks hs hmem hp']
    exact .ok trivial

/-- The plans of both are the same but for order, or both are refused in one way. -/
theorem plan_alike_of_selectors (hs : s.Sound) (h : Selector.ReorderedAll q.selectors xs)
    (preferred : Dialect) :
    (q.plan s preferred).Alike Plan.Alike (Query.plan { q with selectors := xs } s preferred) := by
  have hr := reordered_of_selectors h
  refine (resolve_alike_of_selectors hs h).bind fun r r' hq hq' _ => ?_
  obtain ⟨picks, hq⟩ := resolvesTo_of_resolve hs hq
  obtain ⟨picks', hq'⟩ := resolvesTo_of_resolve hs hq'
  have hc := shapingClauses_of_selectors (hr.model_eq hq hq') hq hq'
  exact hr.plan_alike hs hq hq' fun p p' hp hp' hd =>
    ⟨hd, hr.primary_alike hs hp hp' hd hc, hr.followUps_alike hs hp hp' hd⟩

end Query

theorem Resolved.block_congr {r r' : Resolved} {s : Schema} {d : Dialect}
    (hm : r.model = r'.model) (h : r.selection.Similar r'.selection) :
    r.block s d = r'.block s d := by
  have expansions : r.expansions = r'.expansions := by
    simp only [Resolved.expansions, hm, h.branches]
  have entries : r.rootEntries s d = r'.rootEntries s d := by
    have contains : ∀ f, r.selection.fields.contains f = r'.selection.fields.contains f := by
      intro f
      rw [Bool.eq_iff_iff, List.contains_iff_mem, List.contains_iff_mem, h.fields]
    simp only [Resolved.rootEntries, hm, contains]
  simp only [Resolved.block, h.isDefault_eq, hm, entries, Resolved.loaded, expansions]

namespace Query

variable {q : Query} {s : Schema} {r r' : Resolved} {xs : List Selector} {picks picks' : List Pick}

theorem flat_of_resolve {m : Model} {name : String} {p : Pick}
    (h : (Selector.field name).resolve s m = .ok p) : p.Flat := by
  obtain ⟨f, _, ⟨_, rfl⟩ | ⟨e, _, rfl⟩⟩ := Selector.resolve_field_eq_ok h <;> trivial

theorem perm_of_bare {ys : List Selector} (h : Selector.ReorderedAll xs ys)
    (bare : ∀ x ∈ xs, ∃ name, x = .field name) : xs.Perm ys := by
  obtain ⟨zs, each, order⟩ := h
  suffices xs = zs by rwa [this]
  clear order
  induction each with
  | nil => rfl
  | cons hx each ih =>
    obtain ⟨⟨name, rfl⟩, hxs⟩ := List.forall_mem_cons.mp bare
    cases hx
    rw [ih hxs]

theorem picks_perm {α β : Type} {f : α → Outcome β} {xs ys : List α} {ps qs : List β}
    (order : xs.Perm ys) (hp : xs.mapM f = .ok ps) (hq : ys.mapM f = .ok qs) : ps.Perm qs := by
  have image : ∀ {xs : List α} {ps : List β}, xs.mapM f = .ok ps → xs.map f = ps.map .ok := by
    intro xs ps h
    induction Except.mapM_eq_ok_iff.mp h with
    | nil => rfl
    | cons hxy hs ih =>
      rw [List.map_cons, List.map_cons, hxy, ih (Except.mapM_eq_ok_iff.mpr hs)]
  have := order.map f
  rw [image hp, image hq] at this
  exact (List.map_perm_map_iff fun _ _ h => Except.ok.inj h).mp this

/-- Where no selector selects anything within an expandable, the selections differ only in the
order at their root. -/
theorem similar_of_bare (hs : s.Sound) (h : Selector.ReorderedAll q.selectors xs)
    (bare : ∀ x ∈ q.selectors, ∃ name, x = .field name) (hm : r.model = r'.model)
    (hq : q.ResolvesTo s r picks) (hq' : ResolvesTo { q with selectors := xs } s r' picks') :
    r.selection.Similar r'.selection := by
  have hmem := hq.model_mem
  have left := hq.selectors
  have right := hq'.selectors
  rw [allSelectors, List.mapM_append] at left right
  obtain ⟨own, hown, left⟩ := Except.bind_eq_ok_iff.mp left
  obtain ⟨own', hown', right⟩ := Except.bind_eq_ok_iff.mp right
  obtain ⟨directed, hdirected, left⟩ := Except.bind_eq_ok_iff.mp left
  obtain ⟨directed', hdirected', right⟩ := Except.bind_eq_ok_iff.mp right
  cases left
  cases right
  rw [← hm] at hown' hdirected'
  cases hdirected.symm.trans hdirected'
  have order := picks_perm (perm_of_bare h bare) hown hown'
  have flat : ∀ p ∈ own, p.Flat := by
    intro p hp
    obtain ⟨x, hx, hr⟩ := Except.exists_of_mapM_eq_ok hown p hp
    obtain ⟨name, rfl⟩ := bare x hx
    exact flat_of_resolve hr
  have similar := (Selection.Similar.addAll_perm hs hmem (.refl (Selection.empty r.model.id)) order
    flat (wellTyped_picks hs hmem hown)).addAll directed
  have model := hs.model?_of_mem _ hmem
  rw [← (hq.wellTyped_merged hs).2] at model
  rw [hq.selection, hq'.selection, ← hm]
  refine Selection.Similar.keyed ?_ model
  simpa only [Pick.merged, Selection.addAll_eq_foldl, List.foldl_append] using similar

/-- Where no selector selects anything within an expandable, the plans are equal. -/
theorem plan_eq_of_bare (hs : s.Sound) (h : Selector.ReorderedAll q.selectors xs)
    (bare : ∀ x ∈ q.selectors, ∃ name, x = .field name) (preferred : Dialect) :
    (q.plan s preferred).Alike Eq (Query.plan { q with selectors := xs } s preferred) := by
  have hr := reordered_of_selectors h
  refine (resolve_alike_of_selectors hs h).bind fun r r' hq hq' _ => ?_
  obtain ⟨picks, hq⟩ := resolvesTo_of_resolve hs hq
  obtain ⟨picks', hq'⟩ := resolvesTo_of_resolve hs hq'
  have hm := hr.model_eq hq hq'
  have hc := shapingClauses_of_selectors hm hq hq'
  have similar := similar_of_bare hs h bare hm hq hq'
  refine hr.plan_alike hs hq hq' fun p p' hp hp' hd => ?_
  have path := (hr.primary_alike hs hp hp' hd hc).path
  have block := Resolved.block_congr (s := s) (d := p.dialect) hm similar
  rw [hp.planned, hp'.planned, Resolved.planned, Resolved.planned, block, hm, hc, hd, path]

end Query

namespace Db

/-- The order of selectors, at the top and within selectors at any depth, makes no difference to
what a plan loads; where nothing is selected within any of them, none to the plan. -/
theorem plan_alike_of_reordered {b : Builder} {c : Connection} {db : Db} {q : Query}
    {xs : List Selector} (hb : b.build c = .ok db) (h : Selector.ReorderedAll q.selectors xs) :
    (db.plan q).Alike Plan.Alike (db.plan { q with selectors := xs }) ∧
    ((∀ x ∈ q.selectors, ∃ name, x = .field name) →
      (db.plan q).Alike Eq (db.plan { q with selectors := xs })) := by
  have hs := Builder.sound_of_build hb
  exact ⟨Query.plan_alike_of_selectors hs h db.preferred,
    fun bare => Query.plan_eq_of_bare hs h bare db.preferred⟩

/-- The title and the owner of a site, in either order; and so for the scalars of the owner. -/
theorem plan_alike_of_reordered_sample :
    (∃ p, Sample.db.plan ((Query.entity "Site").select
      [.field "Title", .nested "Owner" [.field "Id", .field "Name"]]) = .ok p) ∧
    (Sample.db.plan ((Query.entity "Site").select
        [.field "Title", .nested "Owner" [.field "Id", .field "Name"]])).Alike Plan.Alike
      (Sample.db.plan ((Query.entity "Site").select
        [.nested "Owner" [.field "Name", .field "Id"], .field "Title"])) ∧
    (Sample.db.plan ((Query.entity "Site").select [.field "Title", .field "Owner"])).Alike Eq
      (Sample.db.plan ((Query.entity "Site").select [.field "Owner", .field "Title"])) := by
  have nested : Selector.ReorderedAll [.field "Title", .nested "Owner" [.field "Id", .field "Name"]]
      [.nested "Owner" [.field "Name", .field "Id"], .field "Title"] :=
    ⟨[.field "Title", .nested "Owner" [.field "Name", .field "Id"]],
      .cons (.refl _) (.cons (.nested (.cons (.refl _) (.cons (.refl _) .nil)) (.swap _ _ _)) .nil),
      .swap _ _ _⟩
  have bare : Selector.ReorderedAll [.field "Title", .field "Owner"]
      [.field "Owner", .field "Title"] := .of_perm (.swap _ _ _)
  refine ⟨Except.exists_of_isOk (by decide +kernel), ?_, ?_⟩
  · exact (plan_alike_of_reordered Sample.build_eq nested).1
  · exact (plan_alike_of_reordered Sample.build_eq bare).2 fun x hx => by
      rcases List.mem_pair.mp hx with rfl | rfl
      · exact ⟨_, rfl⟩
      · exact ⟨_, rfl⟩

end Db

end ODataPlan
