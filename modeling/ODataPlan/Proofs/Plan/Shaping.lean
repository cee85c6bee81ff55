import ODataPlan.Proofs.Directives
import ODataPlan.Proofs.Plan.Binding

/-! From the calls that build a query to the clauses of its requests. Main statement: the main request
carries every filter and sort key that some call supplies, once and in order of first occurrence, and
the page that was asked for last; where any of these is supplied there are no other requests. -/
namespace ODataPlan

/-- What a call supplies for merging into the directives of a query. -/
def QueryStep.supplied : QueryStep → Directives
  | .filter f => { filters := [f] }
  | .orderBy o => { orders := [o] }
  | .top n => { top := some n }
  | .skip n => { skip := some n }
  | .directives d => d
  | .select _ | .prefer _ => {}

namespace Query

variable (q : Query)

/-- A call merges what it supplies, and nothing else, into the directives. -/
theorem directives_step (c : QueryStep) :
    (q.step c).directives = q.directives.merge c.supplied := by
  cases c <;> rfl

theorem model_steps (calls : List QueryStep) : (q.steps calls).model = q.model := by
  induction calls generalizing q with
  | nil => rfl
  | cons c calls ih =>
    refine (ih (q.step c)).trans ?_
    cases c <;> rfl

/-- A list of directives that every merge extends holds, after a run of calls, what each of them
supplied. -/
theorem list_steps {α : Type} [DecidableEq α] (list : Directives → List α)
    (hmerge : ∀ a b : Directives, list (a.merge b) = appendNew (list a) (list b))
    (calls : List QueryStep) : list (q.steps calls).directives =
      appendNew (list q.directives) (calls.flatMap fun c => list c.supplied) := by
  induction calls generalizing q with
  | nil => rfl
  | cons c calls ih =>
    rw [List.flatMap_cons, appendNew_append, ← hmerge, ← directives_step]
    exact ih (q.step c)

/-- A number that every merge may overwrite is, after a run of calls, the one supplied last. -/
theorem number_steps (number : Directives → Option Nat)
    (hmerge : ∀ a b : Directives, number (a.merge b) = (number b).or (number a))
    (calls : List QueryStep) : number (q.steps calls).directives =
      ((calls.filterMap fun c => number c.supplied).getLast?).or (number q.directives) := by
  induction calls generalizing q with
  | nil => rfl
  | cons c calls ih =>
    refine (ih (q.step c)).trans ?_
    rw [directives_step, hmerge, ← Option.or_assoc]
    cases hc : number c.supplied <;> simp [hc, List.getLast?_cons]

end Query

/-- The predicate is the filter with its name replaced by the id of that scalar. -/
def Filter.StandsFor (m : Model) (f : Filter) (p : Predicate) : Prop :=
  (∃ x, m.field? f.field = some x ∧ x.isExpandable = false ∧ x.id = p.field) ∧
    p.op = f.op ∧ p.value = f.value

/-- The sort key is the order with its name replaced by the id of that scalar. -/
def Order.StandsFor (m : Model) (o : Order) (k : SortKey) : Prop :=
  (∃ x, m.field? o.field = some x ∧ x.isExpandable = false ∧ x.id = k.field) ∧
    k.direction = o.direction

theorem Filter.resolve_eq_ok_iff {m : Model} {f : Filter} {p : Predicate} :
    f.resolve m = .ok p ↔ f.StandsFor m p := by
  obtain ⟨field, op, value⟩ := p
  rw [resolve, StandsFor, Except.bind_eq_ok_iff, ← Model.scalarId_eq_ok_iff]
  constructor
  · rintro ⟨id, hid, h⟩
    cases h
    exact ⟨hid, rfl, rfl⟩
  · rintro ⟨hid, rfl, rfl⟩
    exact ⟨field, hid, rfl⟩

theorem Order.resolve_eq_ok_iff {m : Model} {o : Order} {k : SortKey} :
    o.resolve m = .ok k ↔ o.StandsFor m k := by
  obtain ⟨field, direction⟩ := k
  rw [resolve, StandsFor, Except.bind_eq_ok_iff, ← Model.scalarId_eq_ok_iff]
  constructor
  · rintro ⟨id, hid, h⟩
    cases h
    exact ⟨hid, rfl⟩
  · rintro ⟨hid, rfl⟩
    exact ⟨field, hid, rfl⟩

theorem Filter.biUnique_standsFor {s : Schema} (hs : s.Sound) {m : Model} (hm : m ∈ s.models) :
    Relator.BiUnique (Filter.StandsFor m) := by
  constructor
  · rintro ⟨a, _, _⟩ ⟨b, _, _⟩ p ⟨⟨x, hx, _, hxid⟩, rfl, rfl⟩ ⟨⟨y, hy, _, hyid⟩, rfl, rfl⟩
    obtain rfl : a = b := hs.name_unique hm hx hy (hxid.trans hyid.symm)
    rfl
  · intro f p p' h h'
    exact Except.ok.inj ((resolve_eq_ok_iff.mpr h).symm.trans (resolve_eq_ok_iff.mpr h'))

theorem Order.biUnique_standsFor {s : Schema} (hs : s.Sound) {m : Model} (hm : m ∈ s.models) :
    Relator.BiUnique (Order.StandsFor m) := by
  constructor
  · rintro ⟨a, _⟩ ⟨b, _⟩ k ⟨⟨x, hx, _, hxid⟩, rfl⟩ ⟨⟨y, hy, _, hyid⟩, rfl⟩
    obtain rfl : a = b := hs.name_unique hm hx hy (hxid.trans hyid.symm)
    rfl
  · intro o k k' h h'
    exact Except.ok.inj ((resolve_eq_ok_iff.mpr h).symm.trans (resolve_eq_ok_iff.mpr h'))

/-- How an operation is shaped by filters and sort keys that were supplied in this order, and by
this page. -/
structure Operation.ShapedBy (m : Model) (filters : List Filter) (orders : List Order)
    (top skip : Option Nat) (op : Operation) : Prop where
  /-- Clauses stand in the fixed order, none twice. -/
  order : (op.clauses.map Clause.name).Sublist
    ["$select", "$expand", "$filter", "$orderby", "$top", "$skip"]
  /-- A filter clause is there if any filter was supplied. It holds each of them once, at the place
  of its first occurrence. -/
  filter : ∃ predicates, List.Forall₂ (Filter.StandsFor m) filters.eraseDups predicates ∧
    predicates.Nodup ∧ ∀ ps, .filter ps ∈ op.clauses ↔ ps = predicates ∧ filters ≠ []
  /-- Likewise for a sort clause. -/
  orderBy : ∃ keys, List.Forall₂ (Order.StandsFor m) orders.eraseDups keys ∧
    keys.Nodup ∧ ∀ ks, .orderBy ks ∈ op.clauses ↔ ks = keys ∧ orders ≠ []
  top : ∀ n, .top n ∈ op.clauses ↔ top = some n
  skip : ∀ n, .skip n ∈ op.clauses ↔ skip = some n

/-- Entries that stand for others one by one repeat nothing where those do not. -/
theorem nodup_of_forall₂_eraseDups {α β : Type} [BEq α] [LawfulBEq α] {R : α → β → Prop}
    (hR : Relator.BiUnique R) {xs : List α} {ys : List β}
    (h : List.Forall₂ R xs.eraseDups ys) : ys.Nodup :=
  (List.rel_nodup hR h).mp (nodup_eraseDups xs)

namespace Query.PlansTo

variable {q : Query} {s : Schema} {r : Resolved} {p : Plan}

theorem clauses_primary (h : q.PlansTo s r p) : p.primary.clauses =
    (r.block s p.dialect).1.clauses ++ r.shapingClauses := congrArg (·.primary.clauses) h.planned

theorem mem_clauses_primary_iff_of_shapes (h : q.PlansTo s r p) {c : Clause}
    (hc : c.shapes = true) : c ∈ p.primary.clauses ↔ c ∈ r.shapingClauses := by
  rw [h.clauses_primary, List.mem_append, or_iff_right]
  intro hmem
  rw [Projection.not_shapes_of_mem_clauses _ c hmem] at hc
  cases hc

theorem names_primary (h : q.PlansTo s r p) : (p.primary.clauses.map Clause.name).Sublist
    ["$select", "$expand", "$filter", "$orderby", "$top", "$skip"] := by
  rw [h.clauses_primary, List.map_append]
  exact (Projection.names_sublist _).append r.names_sublist

/-- Next to a filter, a sort key or a page there are no follow-ups. -/
theorem followUps_eq_nil (hs : s.Sound) (h : q.PlansTo s r p)
    (hshaped : q.directives.filters ≠ [] ∨ q.directives.orders ≠ [] ∨
      q.directives.top ≠ none ∨ q.directives.skip ≠ none) : p.followUps = [] := by
  refine List.eq_nil_iff_forall_not_mem.mpr fun f hf => ?_
  obtain ⟨x, a, _, _, _, hfree, _⟩ := h.requestable_of_mem_followUps hs hf
  obtain ⟨hfilters, horders, htop, hskip⟩ := (Directives.shapesPrimary_eq_false_iff _).mp hfree
  simp [hfilters, horders, htop, hskip] at hshaped

/-- The main request is shaped by the directives of the query. -/
theorem shapedBy_primary (hs : s.Sound) (h : q.PlansTo s r p) {filters : List Filter}
    {orders : List Order} (hfilters : q.directives.filters = filters.eraseDups)
    (horders : q.directives.orders = orders.eraseDups) :
    p.primary.ShapedBy r.model filters orders q.directives.top q.directives.skip := by
  obtain ⟨picks, hq⟩ := h.resolves
  have filtered : List.Forall₂ (Filter.StandsFor r.model) filters.eraseDups r.filters := by
    rw [← hfilters]
    exact (Except.mapM_eq_ok_iff.mp hq.filters).imp fun _ _ => Filter.resolve_eq_ok_iff.mp
  have sorted : List.Forall₂ (Order.StandsFor r.model) orders.eraseDups r.sorts := by
    rw [← horders]
    exact (Except.mapM_eq_ok_iff.mp hq.sorts).imp fun _ _ => Order.resolve_eq_ok_iff.mp
  have noFilters : r.filters = [] ↔ filters = [] := by
    rw [← List.length_eq_zero_iff, ← filtered.length_eq, List.length_eq_zero_iff,
      eraseDups_eq_nil_iff]
  have noOrders : r.sorts = [] ↔ orders = [] := by
    rw [← List.length_eq_zero_iff, ← sorted.length_eq, List.length_eq_zero_iff,
      eraseDups_eq_nil_iff]
  refine ⟨h.names_primary,
    ⟨r.filters, filtered, nodup_of_forall₂_eraseDups (Filter.biUnique_standsFor hs hq.model_mem)
      filtered, fun ps => ?_⟩,
    ⟨r.sorts, sorted, nodup_of_forall₂_eraseDups (Order.biUnique_standsFor hs hq.model_mem)
      sorted, fun ks => ?_⟩, fun n => ?_, fun n => ?_⟩
  all_goals rw [h.mem_clauses_primary_iff_of_shapes rfl, Resolved.shapingClauses]
  · rw [← noFilters.ne]
    cases r.filters <;> cases r.sorts <;> cases r.top <;> cases r.skip <;> simp
  · rw [← noOrders.ne]
    cases r.filters <;> cases r.sorts <;> cases r.top <;> cases r.skip <;> simp
  · rw [← hq.top]
    cases r.filters <;> cases r.sorts <;> cases r.top <;> cases r.skip <;> simp [eq_comm]
  · rw [← hq.skip]
    cases r.filters <;> cases r.sorts <;> cases r.top <;> cases r.skip <;> simp [eq_comm]

end Query.PlansTo

namespace Db

/-- The requests for a query that was built by calls, in terms of what the calls supplied. -/
theorem shapedBy_of_plan {b : Builder} {c : Connection} {db : Db} {name : String} {start : Query}
    {calls : List QueryStep} {p : Plan} (hb : b.build c = .ok db)
    (hstart : start = Query.entity name ∨ start = Query.collection name)
    (hp : db.plan (start.steps calls) = .ok p) :
    ∃ m, db.schema.modelNamed? name = some m ∧
      p.primary.ShapedBy m (calls.flatMap (·.supplied.filters)) (calls.flatMap (·.supplied.orders))
        (calls.filterMap (·.supplied.top)).getLast? (calls.filterMap (·.supplied.skip)).getLast? ∧
      (∀ f ∈ p.followUps, ∀ k ∈ f.operation.clauses, k.shapes = false) ∧
      ((∃ k ∈ calls, k.supplied.filters ≠ [] ∨ k.supplied.orders ≠ [] ∨ k.supplied.top ≠ none ∨
        k.supplied.skip ≠ none) → p.followUps = []) := by
  have hs := Builder.sound_of_build hb
  obtain ⟨r, h⟩ := Query.plansTo_of_plan hs hp
  obtain ⟨picks, hq⟩ := h.resolves
  have fresh : start.model = name ∧ start.directives = {} := by
    rcases hstart with rfl | rfl <;> exact ⟨rfl, rfl⟩
  have filters := Query.list_steps start Directives.filters (fun _ _ => rfl) calls
  have orders := Query.list_steps start Directives.orders (fun _ _ => rfl) calls
  have top := Query.number_steps start Directives.top (fun a b => Option.orElse_eq_or) calls
  have skip := Query.number_steps start Directives.skip (fun a b => Option.orElse_eq_or) calls
  rw [fresh.2, ← eraseDups_eq_appendNew] at filters orders
  rw [fresh.2, Option.or_none] at top skip
  have model := hq.model
  rw [Query.model_steps, fresh.1] at model
  refine ⟨r.model, model, ?_, fun f hf => ?_, fun ⟨k, hk, supplied⟩ => ?_⟩
  · rw [← top, ← skip]
    exact h.shapedBy_primary hs filters orders
  · obtain ⟨_, _, _, _, _, _, _, _, shapes⟩ := h.followUp_operation hs hf
    exact shapes
  · refine h.followUps_eq_nil hs ?_
    rw [filters, orders, top, skip]
    simp only [ne_eq, eraseDups_eq_nil_iff, List.flatMap_eq_nil_iff, List.getLast?_eq_none_iff,
      List.filterMap_eq_nil_iff, not_forall]
    rcases supplied with h | h | h | h
    · exact .inl ⟨k, hk, h⟩
    · exact .inr (.inl ⟨k, hk, h⟩)
    · exact .inr (.inr (.inl ⟨k, hk, h⟩))
    · exact .inr (.inr (.inr ⟨k, hk, h⟩))

end Db

namespace Sample

/-- Calls that give one filter twice and ask for a page, and then for another. -/
def calls : List QueryStep :=
  [.top 9, .filter ⟨"Title", .ne, .null⟩, .select [.field "Owner"],
    .directives { filters := [⟨"Id", .gt, .int 3⟩, ⟨"Title", .ne, .null⟩], top := some 2 },
    .orderBy ⟨"Title", .desc⟩, .prefer .rest]

end Sample

namespace Db

/-- The filter given twice stays at its first place, and the page asked for last is the one. -/
theorem shapedBy_of_plan_sample :
    ∃ p m, Sample.db.plan ((Query.entity "Site").steps Sample.calls) = .ok p ∧
      p.primary.clauses.filter Clause.shapes =
        [.filter [⟨⟨⟨0⟩, 1⟩, .ne, .null⟩, ⟨⟨⟨0⟩, 0⟩, .gt, .int 3⟩], .orderBy [⟨⟨⟨0⟩, 1⟩, .desc⟩],
          .top 2] ∧
      p.primary.ShapedBy m
        [⟨"Title", .ne, .null⟩, ⟨"Id", .gt, .int 3⟩, ⟨"Title", .ne, .null⟩] [⟨"Title", .desc⟩]
        (some 2) none ∧
      p.followUps = [] := by
  have h : (fun p : Plan => p.primary.clauses.filter Clause.shapes) <$>
      Sample.db.plan ((Query.entity "Site").steps Sample.calls) =
        .ok [.filter [⟨⟨⟨0⟩, 1⟩, .ne, .null⟩, ⟨⟨⟨0⟩, 0⟩, .gt, .int 3⟩],
          .orderBy [⟨⟨⟨0⟩, 1⟩, .desc⟩], .top 2] := by decide +kernel
  obtain ⟨p, hp, hclauses⟩ := Except.map_eq_ok_iff.mp h
  obtain ⟨m, _, hshaped, _, hnone⟩ := shapedBy_of_plan Sample.build_eq (.inl rfl) hp
  refine ⟨p, m, hp, hclauses, hshaped, hnone ⟨.top 9, List.mem_cons_self, ?_⟩⟩
  exact .inr (.inr (.inl (Option.some_ne_none 9)))

end Db

end ODataPlan
