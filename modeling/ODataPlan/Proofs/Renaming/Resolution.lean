import ODataPlan.Proofs.Renaming.Basic
import ODataPlan.Proofs.Selection.Keys
import ODataPlan.Query.Resolve

/-! Looking up the names of a query in a registry that embeds another one: what comes of it is what
comes of it in the other one, renamed. -/
namespace ODataPlan

namespace Renaming

mutual

def pick (ρ : Renaming) : Pick → Pick
  | .scalar f => .scalar (ρ.field f)
  | .bare f t => .bare (ρ.field f) (ρ.id t)
  | .within f t ps => .within (ρ.field f) (ρ.id t) (ρ.picks ps)

def picks (ρ : Renaming) : List Pick → List Pick
  | [] => []
  | p :: ps => ρ.pick p :: ρ.picks ps

end

mutual

def selection (ρ : Renaming) : Selection → Selection
  | .mk m fs bs d => .mk (ρ.id m) (fs.map ρ.field) (ρ.branches bs) d

def branches (ρ : Renaming) : Branches → Branches
  | .nil => .nil
  | .cons f n rest => .cons (ρ.field f) (ρ.selection n) (ρ.branches rest)

end

variable (ρ : Renaming)

def predicate (p : Predicate) : Predicate := { p with field := ρ.field p.field }

def sortKey (k : SortKey) : SortKey := { k with field := ρ.field k.field }

def resolved (r : Resolved) : Resolved where
  model := ρ.model r.model
  source := r.source
  selection := ρ.selection r.selection
  named := r.named.map ρ.field
  filters := r.filters.map ρ.predicate
  sorts := r.sorts.map ρ.sortKey
  top := r.top
  skip := r.skip
  shaped := r.shaped

theorem picks_eq_map (ps : List Pick) : ρ.picks ps = ps.map ρ.pick := by
  induction ps with
  | nil => rfl
  | cons p ps ih => rw [picks, ih, List.map_cons]

section Branches

@[simp] theorem isEmpty_branches (bs : Branches) : (ρ.branches bs).isEmpty = bs.isEmpty := by
  cases bs <;> rfl

theorem get?_branches (f : FieldId) (bs : Branches) :
    (ρ.branches bs).get? (ρ.field f) = (bs.get? f).map ρ.selection := by
  induction bs using Branches.induction with
  | nil => rfl
  | cons g n rest ih =>
    rw [branches, Branches.get?, Branches.get?, ih]
    simp only [field_inj]
    split <;> rfl

theorem set_branches (f : FieldId) (n : Selection) (bs : Branches) :
    (ρ.branches bs).set (ρ.field f) (ρ.selection n) = ρ.branches (bs.set f n) := by
  induction bs using Branches.induction with
  | nil => rfl
  | cons g k rest ih =>
    rw [branches, Branches.set, Branches.set, ih]
    simp only [field_inj]
    split <;> rfl

end Branches

section Selection

variable (a : Selection)

@[simp] theorem model_selection : (ρ.selection a).model = ρ.id a.model := by
  cases a
  rfl

@[simp] theorem fields_selection : (ρ.selection a).fields = a.fields.map ρ.field := by
  cases a
  rfl

@[simp] theorem branches_selection : (ρ.selection a).branches = ρ.branches a.branches := by
  cases a
  rfl

@[simp] theorem includeDefaults_selection :
    (ρ.selection a).includeDefaults = a.includeDefaults := by
  cases a
  rfl

@[simp] theorem isDefault_selection : (ρ.selection a).isDefault = a.isDefault := by
  simp [Selection.isDefault]

theorem insertField_selection (f : FieldId) :
    (ρ.selection a).insertField (ρ.field f) = ρ.selection (a.insertField f) := by
  cases a
  simp [selection, Selection.insertField, addNew_map ρ.field_injective]

theorem withDefaults_selection (d : Bool) :
    (ρ.selection a).withDefaults d = ρ.selection (a.withDefaults d) := by
  cases a
  rfl

theorem branch_selection (f : FieldId) (t : ModelId) :
    (ρ.selection a).branch (ρ.field f) (ρ.id t) = ρ.selection (a.branch f t) := by
  rw [Selection.branch, Selection.branch, branches_selection, get?_branches]
  cases a.branches.get? f <;> rfl

theorem setBranch_selection (f : FieldId) (n : Selection) :
    (ρ.selection a).setBranch (ρ.field f) (ρ.selection n) = ρ.selection (a.setBranch f n) := by
  simp [Selection.setBranch, selection, set_branches]

theorem alterBranch_selection {w w' : Selection → Selection}
    (hw : ∀ n, w' (ρ.selection n) = ρ.selection (w n)) (f : FieldId) (t : ModelId) :
    (ρ.selection a).alterBranch (ρ.field f) (ρ.id t) w' = ρ.selection (a.alterBranch f t w) := by
  rw [Selection.alterBranch, branch_selection, hw, setBranch_selection, Selection.alterBranch]

theorem addAll_of_add {ps : List Pick}
    (each : ∀ p ∈ ps, ∀ a, (ρ.selection a).add (ρ.pick p) = ρ.selection (a.add p)) :
    (ρ.selection a).addAll (ρ.picks ps) = ρ.selection (a.addAll ps) := by
  induction ps generalizing a with
  | nil => rfl
  | cons p ps ih =>
    obtain ⟨hp, hps⟩ := List.forall_mem_cons.mp each
    rw [picks, Selection.addAll, hp, ih _ hps, Selection.addAll]

theorem add_selection (p : Pick) : (ρ.selection a).add (ρ.pick p) = ρ.selection (a.add p) := by
  induction p using Pick.induction generalizing a with
  | scalar f => exact insertField_selection ρ a f
  | bare f t => exact alterBranch_selection ρ a (fun n => withDefaults_selection ρ n true) f t
  | within f t ps ih =>
    -- the picks within go into the branch, whatever it holds already
    rw [pick, Selection.add, Selection.add]
    exact alterBranch_selection ρ a (fun n => addAll_of_add ρ n fun p hp a => ih p hp a) f t

theorem addAll_selection (ps : List Pick) :
    (ρ.selection a).addAll (ρ.picks ps) = ρ.selection (a.addAll ps) :=
  addAll_of_add ρ a fun p _ a => add_selection ρ a p

end Selection

theorem named_pick (p : Pick) : (ρ.pick p).named = p.named.map ρ.field := by
  induction p using Pick.induction with
  | scalar f => rfl
  | bare f t => rfl
  | within f t ps ih =>
    rw [pick, Pick.named, Pick.named, picks_eq_map, Pick.namedAll_eq_flatMap,
      Pick.namedAll_eq_flatMap, List.map_cons, List.map_flatMap, List.flatMap_map]
    exact congrArg _ (List.flatMap_congr ih)

theorem namedAll_picks (ps : List Pick) :
    Pick.namedAll (ρ.picks ps) = (Pick.namedAll ps).map ρ.field := by
  simp only [picks_eq_map, Pick.namedAll_eq_flatMap, List.flatMap_map, List.map_flatMap, named_pick]

theorem named_of_picks (ps : List Pick) (fs : List Predicate) (ks : List SortKey) :
    (Pick.namedAll (ρ.picks ps) ++ (fs.map ρ.predicate).map (·.field) ++
      (ks.map ρ.sortKey).map (·.field)).eraseDups =
    (Pick.namedAll ps ++ fs.map (·.field) ++ ks.map (·.field)).eraseDups.map ρ.field := by
  rw [← eraseDups_map ρ.field_injective]
  simp [namedAll_picks, predicate, sortKey, Function.comp_def]

namespace Embeds

variable {ρ} {s s' : Schema}

mutual

theorem ensureKey (h : ρ.Embeds s s') : ∀ a : Selection,
    (ρ.selection a).ensureKey s' = ρ.selection <$> a.ensureKey s
  | .mk m fs bs d => by
    rw [selection, Selection.ensureKey, Selection.ensureKey]
    simp only [List.isEmpty_map, isEmpty_branches, h.model, h.ensureKeys bs]
    split
    · rfl
    · simp only [bind_map_left, map_bind, map_pure, key_model, addNew_map ρ.field_injective,
        selection]

theorem ensureKeys (h : ρ.Embeds s s') : ∀ bs : Branches,
    (ρ.branches bs).ensureKeys s' = ρ.branches <$> bs.ensureKeys s
  | .nil => rfl
  | .cons f n rest => by
    rw [branches, Branches.ensureKeys, Branches.ensureKeys, h.ensureKey n, h.ensureKeys rest]
    simp only [bind_map_left, map_bind, map_pure, branches]

end

mutual

/-- Looking up the names of a selector finds the same under the new ids, or fails likewise. -/
theorem selector (h : ρ.Embeds s s') : ∀ (x : Selector) (m : Model),
    x.resolve s' (ρ.model m) = ρ.pick <$> x.resolve s m
  | .field name, m => by
    rw [Selector.resolve, Selector.resolve, field?_model]
    cases m.field? name with
    | none => rfl
    | some f =>
      simp only [Option.map_some, type_declared]
      cases f.type <;> rfl
  | .nested name xs, m => by
    rw [Selector.resolve, Selector.resolve, field?_model]
    cases m.field? name with
    | none => rfl
    | some f =>
      simp only [Option.map_some, type_declared]
      cases f.type with
      | scalar => cases xs <;> rfl
      | expandable e =>
        change (Selector.resolveAll s' (ρ.id e.target) xs).map _ =
          ρ.pick <$> (Selector.resolveAll s e.target xs).map _
        rw [h.selectors xs]
        cases Selector.resolveAll s e.target xs <;> rfl

theorem selectors (h : ρ.Embeds s s') : ∀ (xs : List Selector) (t : ModelId),
    Selector.resolveAll s' (ρ.id t) xs = ρ.picks <$> Selector.resolveAll s t xs
  | [], _ => rfl
  | x :: xs, t => by
    rw [Selector.resolveAll, Selector.resolveAll]
    simp only [h.model, Outcome.liftM_eq_ofLookup, Outcome.ofLookup_map, bind_map_left,
      h.selector x, h.selectors xs t, map_bind, map_pure, picks]

end

theorem scalarId (m : Model) (name : String) :
    (ρ.model m).scalarId name = ρ.field <$> m.scalarId name := by
  unfold Model.scalarId
  rw [field?_model]
  cases m.field? name with
  | none => rfl
  | some f =>
    simp only [Option.map_some, isExpandable_declared]
    split <;> rfl

theorem filter (m : Model) (f : Filter) :
    f.resolve (ρ.model m) = ρ.predicate <$> f.resolve m := by
  unfold Filter.resolve
  rw [scalarId, bind_map_left, map_bind]
  rfl

theorem order (m : Model) (o : Order) :
    o.resolve (ρ.model m) = ρ.sortKey <$> o.resolve m := by
  unfold Order.resolve
  rw [scalarId, bind_map_left, map_bind]
  rfl

/-- Looking up the names of a query finds the same under the new ids, or fails likewise. -/
theorem resolve (h : ρ.Embeds s s') {q : Query}
    (hm : s'.modelNamed? q.model = (s.modelNamed? q.model).map ρ.model) :
    q.resolve s' = ρ.resolved <$> q.resolve s := by
  unfold Query.resolve
  rw [hm]
  cases s.modelNamed? q.model with
  | none => rfl
  | some m =>
    have filters : q.directives.filters.mapM (·.resolve (ρ.model m)) =
        List.map ρ.predicate <$> q.directives.filters.mapM (·.resolve m) := mapM_congr (filter m) _
    have orders : q.directives.orders.mapM (·.resolve (ρ.model m)) =
        List.map ρ.sortKey <$> q.directives.orders.mapM (·.resolve m) := mapM_congr (order m) _
    -- the selection starts empty, so adding the picks and the keys is all that has to commute
    have selection : ∀ ps, ((Selection.empty (ρ.id m.id)).addAll (ρ.picks ps)).ensureKey s' =
        ρ.selection <$> ((Selection.empty m.id).addAll ps).ensureKey s := by
      intro ps
      rw [← h.ensureKey, ← addAll_selection]
      rfl
    simp only [Option.map_some, id_model, h.selectors, filters, orders, selection,
      Outcome.liftM_eq_ofLookup, Outcome.ofLookup_map, bind_map_left, map_bind, map_pure, resolved,
      named_of_picks]

end Embeds

end Renaming

end ODataPlan
