import ODataPlan.Proofs.Resolution

/-! Queries that name the same things in another order. Main statement: they name the same chains of
fields, and the names of both can be looked up or of neither. -/
namespace ODataPlan

theorem isEmpty_eq_of_mem_iff {α : Type} {xs ys : List α} (h : ∀ x, x ∈ xs ↔ x ∈ ys) :
    xs.isEmpty = ys.isEmpty := by
  rw [Bool.eq_iff_iff, List.isEmpty_iff, List.isEmpty_iff, List.eq_nil_iff_forall_not_mem,
    List.eq_nil_iff_forall_not_mem]
  simp only [h]

namespace Selector

/-- The same selector but for the order of the selectors within it, at any depth. -/
inductive Reordered : Selector → Selector → Prop
  | field {name} : Reordered (.field name) (.field name)
  | nested {name xs ys zs} (each : List.Forall₂ Reordered xs ys) (order : ys.Perm zs) :
    Reordered (.nested name xs) (.nested name zs)

/-- The same selectors but for their order and the order within each, at any depth. -/
def ReorderedAll (xs zs : List Selector) : Prop := ∃ ys, List.Forall₂ Reordered xs ys ∧ ys.Perm zs

variable {s : Schema} {m : Model} {k : Mention} {path : List Member} {x y : Selector}
  {xs ys : List Selector}

theorem Reordered.refl (x : Selector) : x.Reordered x := by
  induction x using Selector.induction with
  | field name => exact .field
  | nested name xs ih => exact .nested (List.forall₂_same.mpr ih) (.refl xs)

theorem ReorderedAll.of_perm (h : xs.Perm ys) : ReorderedAll xs ys :=
  ⟨xs, List.forall₂_same.mpr fun x _ => .refl x, h⟩

theorem ReorderedAll.append_right (h : ReorderedAll xs ys) (zs : List Selector) :
    ReorderedAll (xs ++ zs) (ys ++ zs) := by
  obtain ⟨ms, each, order⟩ := h
  refine ⟨ms ++ zs, List.rel_append each ?_, order.append_right zs⟩
  exact List.forall₂_same.mpr fun x _ => .refl x

theorem ReorderedAll.exists_right (h : ReorderedAll xs ys) (hx : x ∈ xs) :
    ∃ y ∈ ys, x.Reordered y := by
  obtain ⟨ms, each, order⟩ := h
  obtain ⟨y, hy, hxy⟩ := (exists_of_forall₂ each).1 x hx
  exact ⟨y, order.mem_iff.mp hy, hxy⟩

theorem ReorderedAll.exists_left (h : ReorderedAll xs ys) (hy : y ∈ ys) :
    ∃ x ∈ xs, x.Reordered y := by
  obtain ⟨ms, each, order⟩ := h
  exact (exists_of_forall₂ each).2 y (order.mem_iff.mpr hy)

/-- What holds of a selector exactly where it holds of its reorderings holds of all or of none. -/
theorem ReorderedAll.forall_iff {P Q : Selector → Prop} (h : ReorderedAll xs ys)
    (hPQ : ∀ x ∈ xs, ∀ y, x.Reordered y → (P x ↔ Q y)) : (∀ x ∈ xs, P x) ↔ ∀ y ∈ ys, Q y := by
  constructor
  · intro hP y hy
    obtain ⟨x, hx, hxy⟩ := h.exists_left hy
    exact (hPQ x hx y hxy).mp (hP x hx)
  · intro hQ x hx
    obtain ⟨y, hy, hxy⟩ := h.exists_right hx
    exact (hPQ x hx y hxy).mpr (hQ y hy)

theorem ReorderedAll.exists_iff {P Q : Selector → Prop} (h : ReorderedAll xs ys)
    (hPQ : ∀ x ∈ xs, ∀ y, x.Reordered y → (P x ↔ Q y)) :
    (∃ x ∈ xs, P x) ↔ ∃ y ∈ ys, Q y := by
  constructor
  · rintro ⟨x, hx, hP⟩
    obtain ⟨y, hy, hxy⟩ := h.exists_right hx
    exact ⟨y, hy, (hPQ x hx y hxy).mp hP⟩
  · rintro ⟨y, hy, hQ⟩
    obtain ⟨x, hx, hxy⟩ := h.exists_left hy
    exact ⟨x, hx, (hPQ x hx y hxy).mpr hQ⟩

theorem names_nested_iff_cases {name : String} : (nested name xs).Names s k m path ↔
    (∃ f, m.field? name = some f ∧ path = [⟨m, f⟩] ∧
      ((f.type = .scalar ∧ k = .scalar) ∨ ∃ e, f.type = .expandable e ∧ k = .expandable)) ∨
    ∃ f e t rest, m.field? name = some f ∧ f.type = .expandable e ∧ s.model? e.target = some t ∧
      path = ⟨m, f⟩ :: rest ∧ ∃ x ∈ xs, x.Names s k t rest := by
  constructor
  · intro h
    cases h with
    | scalar found type => exact .inl ⟨_, found, rfl, .inl ⟨type, rfl⟩⟩
    | expandable found type => exact .inl ⟨_, found, rfl, .inr ⟨_, type, rfl⟩⟩
    | within found type target mem names =>
      exact .inr ⟨_, _, _, _, found, type, target, rfl, _, mem, names⟩
  · rintro (⟨f, found, rfl, ⟨type, rfl⟩ | ⟨e, type, rfl⟩⟩ |
      ⟨f, e, t, rest, found, type, target, rfl, x, mem, names⟩)
    · exact .scalar found type
    · exact .expandable found type
    · exact .within found type target mem names

theorem Reordered.names_iff (h : x.Reordered y) : x.Names s k m path ↔ y.Names s k m path := by
  induction x using Selector.induction generalizing y m path with
  | field name =>
    cases h
    exact Iff.rfl
  | nested name xs ih =>
    cases h with
    | nested each order =>
      have hall : ReorderedAll xs _ := ⟨_, each, order⟩
      rw [names_nested_iff_cases, names_nested_iff_cases]
      simp only [hall.exists_iff fun x hx y hxy => ih x hx hxy]

theorem Reordered.resolve_iff (hs : s.Sound) (hm : m ∈ s.models) (h : x.Reordered y) :
    (∃ p, x.resolve s m = .ok p) ↔ ∃ p, y.resolve s m = .ok p := by
  induction x using Selector.induction generalizing y m with
  | field name =>
    cases h
    exact Iff.rfl
  | nested name xs ih =>
    obtain _ | ⟨each, order⟩ := h
    rename_i ys zs
    have hall : ReorderedAll xs zs := ⟨ys, each, order⟩
    unfold resolve
    cases hf : m.field? name with
    | none => exact Iff.rfl
    | some f =>
      simp only
      cases ht : f.type with
      | scalar =>
        have hnil : xs = [] ↔ zs = [] := by
          rw [← List.length_eq_zero_iff, each.length_eq, order.length_eq, List.length_eq_zero_iff]
        cases xs <;> cases zs <;> simp_all [FailureKind.raise]
      | expandable e =>
        obtain ⟨t, he⟩ := hs.target_registered ⟨m, f⟩ ⟨hm, Model.mem_of_field? hf⟩ e ht
        -- the selectors within are looked up in the target, where the hypothesis has them
        have hmt := Schema.mem_of_model? he
        have hids : t.id = e.target := Schema.id_of_model? he
        have hiff := hall.forall_iff fun x hx y hxy => ih x hx hmt hxy
        rw [← Except.exists_mapM_eq_ok_iff, ← Except.exists_mapM_eq_ok_iff] at hiff
        simp only [← hids, resolveAll_eq_mapM (hs.model_of_mem hmt)]
        have hmap : ∀ o : Outcome (List Pick),
            (∃ p, o.map (Pick.within f.id t.id) = .ok p) ↔ ∃ ps, o = .ok ps := by
          intro o
          cases o <;> simp [Except.map]
        rw [hmap, hmap, hiff]

/-- Looking up the names of a selector fails only for names that a model does not have. -/
theorem mismatches_resolve (hs : s.Sound) (x : Selector) (hm : m ∈ s.models) :
    (x.resolve s m).Mismatches := by
  induction x using Selector.induction generalizing m with
  | field name =>
    unfold resolve
    split
    · exact Outcome.mismatches_raise _ _
    · split <;> exact Outcome.mismatches_ok _
  | nested name xs ih =>
    unfold resolve
    split
    · exact Outcome.mismatches_raise _ _
    · rename_i f hf
      split
      · split
        · exact Outcome.mismatches_ok _
        · exact Outcome.mismatches_raise _ _
      · rename_i e ht
        obtain ⟨t, he⟩ := hs.target_registered ⟨m, f⟩ ⟨hm, Model.mem_of_field? hf⟩ e ht
        have hmt := Schema.mem_of_model? he
        rw [← Schema.id_of_model? he, resolveAll_eq_mapM (hs.model_of_mem hmt)]
        exact (Outcome.Mismatches.mapM fun x hx => ih x hx hmt).map _

end Selector

namespace Query

/-- The same query but for the order in which it names things: the selectors with the directives
read as selectors, the filters and the sorts. -/
structure Reordered (q q' : Query) : Prop where
  model : q'.model = q.model
  source : q'.source = q.source
  preference : q'.preference = q.preference
  selectors : Selector.ReorderedAll q.allSelectors q'.allSelectors
  filters : q.directives.filters.Perm q'.directives.filters
  orders : q.directives.orders.Perm q'.directives.orders
  top : q'.directives.top = q.directives.top
  skip : q'.directives.skip = q.directives.skip

variable {q q' : Query} {s : Schema} {k : Mention} {path : List Member}

theorem Reordered.names_iff (h : q.Reordered q') : q.Names s k path ↔ q'.Names s k path := by
  unfold Names
  rw [h.model]
  simp only [h.selectors.exists_iff fun x _ y hxy => hxy.names_iff]

theorem Reordered.shapesPrimary_eq (h : q.Reordered q') :
    q'.directives.shapesPrimary = q.directives.shapesPrimary := by
  simp only [Directives.shapesPrimary, h.top, h.skip,
    isEmpty_eq_of_mem_iff fun _ => h.filters.mem_iff,
    isEmpty_eq_of_mem_iff fun _ => h.orders.mem_iff]

/-- The names of a query can be looked up exactly if each of them can. -/
theorem exists_resolve_iff (hs : s.Sound) : (∃ r, q.resolve s = .ok r) ↔
    ∃ m, s.modelNamed? q.model = some m ∧ (∀ x ∈ q.allSelectors, ∃ p, x.resolve s m = .ok p) ∧
      (∀ f ∈ q.directives.filters, ∃ p, f.resolve m = .ok p) ∧
      ∀ o ∈ q.directives.orders, ∃ k, o.resolve m = .ok k := by
  constructor
  · rintro ⟨r, hr⟩
    obtain ⟨picks, h⟩ := resolvesTo_of_resolve hs hr
    exact ⟨r.model, h.model, Except.exists_mapM_eq_ok_iff.mp ⟨_, h.selectors⟩,
      Except.exists_mapM_eq_ok_iff.mp ⟨_, h.filters⟩, Except.exists_mapM_eq_ok_iff.mp ⟨_, h.sorts⟩⟩
  · rintro ⟨m, hm, hx, hf, ho⟩
    have hmem := Schema.mem_of_modelNamed? hm
    obtain ⟨picks, hx⟩ := Except.exists_mapM_eq_ok_iff.mpr hx
    obtain ⟨filters, hf⟩ := Except.exists_mapM_eq_ok_iff.mpr hf
    obtain ⟨sorts, ho⟩ := Except.exists_mapM_eq_ok_iff.mpr ho
    simp [resolve, hm, Selector.resolveAll_eq_mapM (hs.model_of_mem hmem), hx, hf, ho,
      ensureKey_of_picks hs hmem hx, pure, Except.pure]

theorem Reordered.resolve_iff (hs : s.Sound) (h : q.Reordered q') :
    (∃ r, q.resolve s = .ok r) ↔ ∃ r, q'.resolve s = .ok r := by
  rw [exists_resolve_iff hs, exists_resolve_iff hs, h.model]
  refine exists_congr fun m => and_congr_right fun hm => ?_
  have hmem := Schema.mem_of_modelNamed? hm
  rw [h.selectors.forall_iff fun x _ y hxy => hxy.resolve_iff hs hmem]
  simp only [h.filters.mem_iff, h.orders.mem_iff]

end Query

end ODataPlan
