import Mathlib.Data.List.Basic
import ODataPlan.Proofs.Folding

/-! Selectors written as dotted paths. Main statement: a query whose selectors are replaced by the
dotted paths to their leaves, depth first, has the same plan or fails in the same way. -/
namespace ODataPlan

namespace Selector

mutual

/-- The chains of names from the outermost property of a selector to each property without selectors
within it, depth first. -/
def chains : Selector → List (List String)
  | field name => [[name]]
  | nested name selectors => (chainsAll selectors).map (name :: ·)

/-- The chains of several selectors, in turn. -/
def chainsAll : List Selector → List (List String)
  | [] => []
  | x :: xs => x.chains ++ chainsAll xs

end

/-- The paths to the leaves of a selector, each with its names joined by dots. -/
def dotted (x : Selector) : List String := x.chains.map ".".intercalate

/-- No name in the selector has a dot in it, and every nested selector has a leaf. -/
inductive Dottable : Selector → Prop
  | field {name} (plain : '.' ∉ name.toList) : Dottable (field name)
  | nested {name xs} (plain : '.' ∉ name.toList) (nonempty : xs ≠ [])
    (within : ∀ x ∈ xs, Dottable x) : Dottable (nested name xs)

theorem chainsAll_eq_flatMap (xs : List Selector) : chainsAll xs = xs.flatMap chains := by
  induction xs with
  | nil => rfl
  | cons x xs ih => rw [chainsAll, ih, List.flatMap_cons]

theorem ofSegments_cons (name : String) {names : List String} (h : names ≠ []) :
    ofSegments (name :: names) = nested name [ofSegments names] := by
  cases names with
  | nil => exact absurd rfl h
  | cons n names => rfl

@[simp] theorem name_ofSegments_cons (name : String) (names : List String) :
    (ofSegments (name :: names)).name = name := by
  cases names <;> rfl

/-- Reading a chain of names without dots that are joined by dots gives the chain. -/
theorem ofPath_intercalate {names : List String} (hne : names ≠ [])
    (plain : ∀ n ∈ names, '.' ∉ n.toList) : ofPath (".".intercalate names) = ofSegments names := by
  have split : (['.'].intercalate (names.map String.toList)).splitOn '.' =
      names.map String.toList :=
    List.splitOn_intercalate '.' (by simpa using plain) (by simpa using hne)
  have sep : ".".toList = ['.'] := rfl
  rw [ofPath, String.toList_intercalate, sep, split, List.map_map]
  congr 1
  simp [Function.comp_def]

/-- The first chain of a selector starts with its name. -/
theorem Dottable.exists_chains {x : Selector} (h : x.Dottable) :
    ∃ names rest, x.chains = (x.name :: names) :: rest := by
  induction h with
  | field plain => exact ⟨[], [], by rw [chains, name_field]⟩
  | nested plain nonempty within ih =>
    obtain ⟨x, xs, rfl⟩ := List.exists_cons_of_ne_nil nonempty
    obtain ⟨names, rest, hx⟩ := ih x List.mem_cons_self
    exact ⟨_, _, by rw [chains, chainsAll, hx, List.cons_append, List.map_cons, name_nested]⟩

theorem Dottable.plain_of_mem_chains {x : Selector} (h : x.Dottable) :
    ∀ names ∈ x.chains, names ≠ [] ∧ ∀ n ∈ names, '.' ∉ n.toList := by
  induction h with
  | field plain => simpa [chains] using plain
  | nested plain nonempty within ih =>
    intro names hnames
    rw [chains, chainsAll_eq_flatMap, List.mem_map] at hnames
    obtain ⟨rest, hrest, rfl⟩ := hnames
    obtain ⟨x, hx, hrest⟩ := List.mem_flatMap.mp hrest
    exact ⟨List.cons_ne_nil _ _, List.forall_mem_cons.mpr ⟨plain, (ih x hx rest hrest).2⟩⟩

/-- The paths of a selector read back as its chains. -/
theorem Dottable.map_ofPath_dotted {x : Selector} (h : x.Dottable) :
    x.dotted.map ofPath = x.chains.map ofSegments := by
  rw [dotted, List.map_map]
  refine List.map_congr_left fun names hnames => ?_
  obtain ⟨hne, plain⟩ := h.plain_of_mem_chains names hnames
  exact ofPath_intercalate hne plain

variable {s : Schema} {t : ModelId}

theorem effect_singleton (s : Schema) (t : ModelId) (x : Selector) :
    effect s t [x] = (fun p => Effect.ofPicks [p]) <$> x.resolveOn s t := by
  rw [effect, resolveAll_eq_mapM_resolveOn, List.mapM_cons]
  cases x.resolveOn s t <;> rfl

theorem effect_pair (s : Schema) (t : ModelId) (x y : Selector) : effect s t [x, y] = do
    let e ← effect s t [x]
    let e' ← effect s t [y]
    return e.andThen e' := effect_append s t [x] [y]

/-- Selecting within a property fails by reason of the first name there, or does what is done on the
target of the property. -/
theorem effect_nested_cases (s : Schema) (t : ModelId) (name : String) :
    (∃ stop : String → Stop, ∀ x xs, effect s t [nested name (x :: xs)] = .error (stop x.name)) ∨
    ∃ f target, ∀ xs, effect s t [nested name xs] =
      (fun ps => Effect.ofPicks [.within f target ps]) <$> resolveAll s target xs := by
  simp only [effect_singleton, resolveOn, resolve]
  cases hm : s.model t with
  | error e => exact .inl ⟨fun _ => .dangling e, fun x xs => rfl⟩
  | ok m =>
    simp only [Outcome.liftM_eq_ofLookup, Outcome.ofLookup_ok, Except.ok_bind]
    cases m.field? name with
    | none => exact .inl ⟨fun _ => .failed (FailureKind.unknownProperty m name), fun x xs => rfl⟩
    | some f =>
      cases ht : f.type with
      | scalar =>
        refine .inl ⟨fun first => .failed (FailureKind.noPropertiesWithin ⟨m, f⟩ first), fun x xs => ?_⟩
        simp only [ht]
        rfl
      | expandable e =>
        refine .inr ⟨f.id, e.target, fun xs => ?_⟩
        simp only [ht]
        cases resolveAll s e.target xs <;> rfl

/-- Selectors within one property can be given together or apart. -/
theorem effect_nested_append (s : Schema) (t : ModelId) (name : String) {xs ys : List Selector}
    (hx : xs ≠ []) (hy : ys ≠ []) :
    effect s t [nested name (xs ++ ys)] = effect s t [nested name xs, nested name ys] := by
  obtain ⟨x, xs, rfl⟩ := List.exists_cons_of_ne_nil hx
  obtain ⟨y, ys, rfl⟩ := List.exists_cons_of_ne_nil hy
  rw [effect_pair]
  rcases effect_nested_cases s t name with ⟨stop, hstop⟩ | ⟨f, target, hwithin⟩
  · rw [List.cons_append, hstop, hstop, Except.error_bind]
  · simp only [hwithin, resolveAll_eq_mapM_resolveOn, List.mapM_append]
    cases (x :: xs).mapM (resolveOn s target) with
    | error e => rfl
    | ok ps =>
      cases (y :: ys).mapM (resolveOn s target) with
      | error e => rfl
      | ok qs => exact congrArg Except.ok (Effect.ofPicks_within_append f target ps qs).symm

/-- What is selected within a property matters by its effect and its first name alone. -/
theorem effect_nested_congr (name : String) {x y : Selector} {xs ys : List Selector}
    (hname : x.name = y.name) (h : ∀ t, effect s t (x :: xs) = effect s t (y :: ys)) :
    effect s t [nested name (x :: xs)] = effect s t [nested name (y :: ys)] := by
  rcases effect_nested_cases s t name with ⟨stop, hstop⟩ | ⟨f, target, hwithin⟩
  · rw [hstop, hstop, hname]
  · rw [hwithin, hwithin]
    have heffect := h target
    unfold effect at heffect
    exact Except.bind_congr_of_map heffect fun ps qs hpicks =>
      congrArg Except.ok (Effect.ofPicks_within_congr f target hpicks)

theorem effect_nested_apart (s : Schema) (t : ModelId) (name : String) {xs : List Selector}
    (hx : xs ≠ []) :
    effect s t [nested name xs] = effect s t (xs.map fun x => nested name [x]) := by
  induction xs with
  | nil => exact absurd rfl hx
  | cons x xs ih =>
    cases xs with
    | nil => rfl
    | cons y ys =>
      have apart : effect s t [nested name (x :: y :: ys)] = _ :=
        effect_nested_append s t name (List.cons_ne_nil x []) (List.cons_ne_nil y ys)
      rw [apart]
      exact effect_cons_congr rfl (ih (List.cons_ne_nil y ys))

theorem effect_chainsAll {xs : List Selector}
    (h : ∀ x ∈ xs, effect s t [x] = effect s t (x.chains.map ofSegments)) :
    effect s t xs = effect s t ((chainsAll xs).map ofSegments) := by
  induction xs with
  | nil => rfl
  | cons x xs ih =>
    obtain ⟨hx, hxs⟩ := List.forall_mem_cons.mp h
    rw [chainsAll, List.map_append]
    exact effect_cons_congr hx (ih hxs)

/-- A selector does what its chains do. -/
theorem Dottable.effect_chains {x : Selector} (h : x.Dottable) (t : ModelId) :
    effect s t [x] = effect s t (x.chains.map ofSegments) := by
  induction h generalizing t with
  | field plain => rfl
  | @nested name xs plain nonempty within ih =>
    obtain ⟨x, rest, rfl⟩ := List.exists_cons_of_ne_nil nonempty
    obtain ⟨names, others, hx⟩ := (within x List.mem_cons_self).exists_chains
    have hall : ∀ names ∈ chainsAll (x :: rest), names ≠ [] := by
      intro names hnames
      rw [chainsAll_eq_flatMap, List.mem_flatMap] at hnames
      obtain ⟨y, hy, hnames⟩ := hnames
      exact ((within y hy).plain_of_mem_chains names hnames).1
    have hcons : (chainsAll (x :: rest)).map ofSegments = ofSegments (x.name :: names) ::
        (others ++ chainsAll rest).map ofSegments := by
      rw [chainsAll, hx]
      rfl
    calc effect s t [.nested name (x :: rest)]
        = effect s t [.nested name ((chainsAll (x :: rest)).map ofSegments)] := by
          rw [hcons]
          refine effect_nested_congr name (name_ofSegments_cons _ _).symm fun t => ?_
          rw [← hcons]
          exact effect_chainsAll fun y hy => ih y hy t
      _ = effect s t (((chainsAll (x :: rest)).map ofSegments).map fun y => .nested name [y]) :=
          effect_nested_apart s t name (by simp [hcons])
      _ = effect s t ((Selector.nested name (x :: rest)).chains.map ofSegments) := by
          rw [chains, List.map_map, List.map_map]
          congr 1
          exact List.map_congr_left fun names hnames => (ofSegments_cons name (hall names hnames)).symm

theorem effect_dotted {xs : List Selector} (h : ∀ x ∈ xs, x.Dottable) (t : ModelId) :
    effect s t ((xs.flatMap dotted).map ofPath) = effect s t xs := by
  have chained : (xs.flatMap dotted).map ofPath = (chainsAll xs).map ofSegments := by
    rw [chainsAll_eq_flatMap, List.map_flatMap, List.map_flatMap]
    exact List.flatMap_congr fun x hx => (h x hx).map_ofPath_dotted
  rw [chained, effect_chainsAll fun x hx => (h x hx).effect_chains t]

end Selector

namespace Db

/-- Selectors can be written as the dotted paths to their leaves, depth first, without a difference
to the plan or the failure. -/
theorem plan_dotted (db : Db) (q : Query) (h : ∀ x ∈ q.selectors, x.Dottable) :
    db.plan { q with selectors := (q.selectors.flatMap Selector.dotted).map Selector.ofPath } =
      db.plan q :=
  Query.plan_of_effect (Selector.effect_dotted h) _

/-- The sample query, written as dotted paths; the same with an unknown name behind a known one. -/
theorem plan_dotted_sample :
    (∃ p, Sample.db.plan Sample.query = .ok p ∧
      Sample.db.plan ((Query.entity "Site").select
        (["Title", "Owner.Name", "Lists.Title"].map Selector.ofPath)) = .ok p) ∧
    Sample.db.plan ((Query.entity "Site").select
        (["Owner.Name", "Owner.Age"].map Selector.ofPath)) =
      Sample.db.plan ((Query.entity "Site").select
        [.nested "Owner" [.field "Name", .field "Age"]]) := by
  obtain ⟨p, hp⟩ := Except.exists_of_isOk
    (show (Sample.db.plan Sample.query).isOk = true by decide +kernel)
  have site : ∀ x ∈ Sample.query.selectors, x.Dottable := by
    simp only [Sample.query, Query.select, Query.entity, List.nil_append, List.forall_mem_cons,
      List.not_mem_nil, false_implies, implies_true, and_true]
    refine ⟨.field (by decide), .nested (by decide) (by decide) ?_, .nested (by decide) (by decide) ?_⟩
      <;> exact List.forall_mem_singleton.mpr (.field (by decide))
  have owner : ∀ x ∈ ((Query.entity "Site").select
      [.nested "Owner" [.field "Name", .field "Age"]]).selectors, x.Dottable := by
    refine List.forall_mem_singleton.mpr (.nested (by decide) (by decide) ?_)
    simp only [List.forall_mem_cons, List.not_mem_nil, false_implies, implies_true, and_true]
    exact ⟨.field (by decide), .field (by decide)⟩
  have leaves : Sample.query.selectors.flatMap Selector.dotted =
      ["Title", "Owner.Name", "Lists.Title"] := by decide +kernel
  have leaves' : ((Query.entity "Site").select
      [.nested "Owner" [.field "Name", .field "Age"]]).selectors.flatMap Selector.dotted =
      ["Owner.Name", "Owner.Age"] := by decide +kernel
  have hsite := plan_dotted Sample.db Sample.query site
  have howner := plan_dotted Sample.db _ owner
  rw [leaves, hp] at hsite
  rw [leaves'] at howner
  exact ⟨⟨p, hp, hsite⟩, howner⟩

end Db

end ODataPlan
