import Mathlib.Data.List.Induction
import ODataPlan.Proofs.Plan.Defaults
import ODataPlan.Proofs.Plan.Projecting

/-! How `$select` and `$expand` of one request fit together. Main statement: the prefixes of an
expanded path are expanded before it, what is selected within an expandable has it expanded, and
nothing is expanded that the selection does not reach. -/
namespace ODataPlan

/-- Each path is a single id or stands behind its parent; the parent may also be one of `seen`. -/
def ParentsFirst (seen : List FieldPath) : List FieldPath → Prop
  | [] => True
  | ids :: rest => (ids.dropLast = [] ∨ ids.dropLast ∈ seen) ∧ ParentsFirst (ids :: seen) rest

namespace ParentsFirst

variable {seen : List FieldPath} {xs ys : List FieldPath}

theorem mono {seen' : List FieldPath} (h : ParentsFirst seen xs) (hsub : seen ⊆ seen') :
    ParentsFirst seen' xs := by
  induction xs generalizing seen seen' with
  | nil => trivial
  | cons ids xs ih => exact ⟨h.1.imp_right (hsub ·), ih h.2 (List.cons_subset_cons ids hsub)⟩

theorem append (hx : ParentsFirst seen xs) (hy : ParentsFirst seen ys) :
    ParentsFirst seen (xs ++ ys) := by
  induction xs generalizing seen with
  | nil => exact hy
  | cons ids xs ih => exact ⟨hx.1, ih hx.2 (hy.mono (List.subset_cons_self ids seen))⟩

theorem flatMap {α : Type} {as : List α} {f : α → List FieldPath}
    (h : ∀ a ∈ as, ParentsFirst seen (f a)) : ParentsFirst seen (as.flatMap f) := by
  induction as with
  | nil => trivial
  | cons a as ih =>
    obtain ⟨ha, has⟩ := List.forall_mem_cons.mp h
    exact ha.append (ih has)

theorem filter_ne {ids : FieldPath} (h : ParentsFirst seen xs) (hids : ids ∈ seen) :
    ParentsFirst seen (xs.filter fun y => !y == ids) := by
  induction xs generalizing seen with
  | nil => trivial
  | cons x xs ih =>
    by_cases hx : x = ids
    · subst hx
      simpa using ih (h.2.mono (List.cons_subset.mpr ⟨hids, List.Subset.refl seen⟩)) hids
    · rw [List.filter_cons_of_pos (by simpa using hx)]
      exact ⟨h.1, ih h.2 (List.mem_cons_of_mem x hids)⟩

theorem eraseDups (h : ParentsFirst seen xs) : ParentsFirst seen xs.eraseDups := by
  induction xs using eraseDups_induction generalizing seen with
  | nil => trivial
  | cons x xs ih =>
    rw [List.eraseDups_cons]
    exact ⟨h.1, ih (h.2.filter_ne List.mem_cons_self)⟩

/-- The parent of a path stands before it. -/
theorem parent_mem {before after : List FieldPath} {ids : FieldPath}
    (h : ParentsFirst seen (before ++ ids :: after)) (hids : ids.dropLast ≠ []) :
    ids.dropLast ∈ before ∨ ids.dropLast ∈ seen := by
  induction before generalizing seen with
  | nil => exact .inr (h.1.resolve_left hids)
  | cons x before ih =>
    rcases ih h.2 with hmem | hmem
    · exact .inl (List.mem_cons_of_mem x hmem)
    · rcases List.mem_cons.mp hmem with heq | hmem
      · exact .inl (heq ▸ List.mem_cons_self)
      · exact .inr hmem

/-- All prefixes of a path stand before it, each behind its own. -/
theorem prefix_mem {before after : List FieldPath} {pre ids : FieldPath}
    (h : ParentsFirst [] (before ++ ids :: after)) (hne : pre ≠ []) (hpre : pre <+: ids)
    (hproper : pre ≠ ids) : pre ∈ before := by
  induction ids using List.reverseRecOn generalizing before after with
  | nil => exact absurd (List.prefix_nil.mp hpre) hne
  | append_singleton ids f ih =>
    have hpre : pre <+: ids := (List.prefix_concat_iff.mp hpre).resolve_left hproper
    have hparent : ids ∈ before := by
      have hids : ids ≠ [] := fun hids => hne (List.prefix_nil.mp (hids ▸ hpre))
      simpa using h.parent_mem (by simpa using hids)
    by_cases heq : pre = ids
    · exact heq ▸ hparent
    · obtain ⟨first, rest, rfl⟩ := List.append_of_mem hparent
      rw [List.append_assoc, List.cons_append] at h
      exact List.mem_append_left _ (ih h hpre heq)

end ParentsFirst

namespace Selection

variable {s : Schema} {d : Dialect} {path : FieldPath} {seen : List FieldPath}

theorem expand_branches (path : FieldPath) (a : Selection) : (a.branches.blocks s d path).expand =
    a.branches.toList.flatMap fun b => (b.2.block s d (path ++ [b.1])).expand := by
  rw [Branches.blocks_eq_concat, Projection.expand_concat, List.flatMap_map]

/-- An inline expansion names a level to expand before the levels within it. -/
theorem WellTyped.parentsFirst_block {a : Selection} (ha : a.WellTyped s)
    (hpath : path.dropLast = [] ∨ path.dropLast ∈ seen) :
    ParentsFirst seen (a.block s d path).expand := by
  induction ha generalizing path seen with
  | @mk m fields branches defaults model scalars nodup expandables nested ih =>
    rw [expand_block, expand_branches]
    exact ⟨hpath, .flatMap fun b hb => ih b.1 b.2 hb (.inr (by simp))⟩

theorem WellTyped.parentsFirst_requestBlock {a : Selection} (ha : a.WellTyped s) :
    ParentsFirst [] (a.requestBlock s d).expand := by
  unfold requestBlock
  split
  · trivial
  · split
    · rw [Schema.expand_defaultBlock]
      trivial
    · rw [Projection.expand_append, Projection.expand_selecting, List.nil_append, expand_branches]
      exact .flatMap fun b hb => (ha.of_branch hb).parentsFirst_block (.inl rfl)

/-- Every selection has a level without expandables. -/
theorem WellTyped.exists_leaf {a : Selection} (ha : a.WellTyped s) :
    ∃ ids n, a.level? ids = some n ∧ n.branches = .nil := by
  induction ha with
  | @mk m fields branches defaults model scalars nodup expandables nested ih =>
    cases branches with
    | nil => exact ⟨[], _, rfl, rfl⟩
    | cons f n rest =>
      obtain ⟨ids, k, hk, hleaf⟩ := ih f n List.mem_cons_self
      exact ⟨f :: ids, k, by simpa [level?_cons, Branches.get?] using hk, hleaf⟩

end Selection

/-- `$select` and `$expand` of an operation fit together. -/
structure Operation.Coherent (op : Operation) : Prop where
  /-- The proper prefixes of an expanded path are expanded before it. -/
  prefixes : ∀ before ids after, op.expanded = before ++ ids :: after →
    ∀ pre, pre ≠ [] → pre <+: ids → pre ≠ ids → pre ∈ before
  /-- What is selected within an expandable has the path to it expanded. -/
  parents : ∀ ids f, ids ≠ [] → ids ++ [f] ∈ op.selected → ids ∈ op.expanded
  /-- An expanded path is selected, or something within it is. -/
  used : ∀ ids ∈ op.expanded, ∃ path ∈ op.selected, ids <+: path

namespace Query

/-- What the request for the end of a chain `base` expands, by paths from there. Chains that start
with a field in `apart` belong to another request. -/
def Expands (q : Query) (s : Schema) (base : List Member) (apart : List FieldId)
    (ids : FieldPath) : Prop :=
  ∃ path, path ≠ [] ∧ q.Names s .expandable (base ++ path) ∧ Covers apart path ∧
    path.map Member.id = ids

/-- The operation is the request for the end of a chain `base`. -/
structure RequestAt (q : Query) (s : Schema) (d : Dialect) (root : Model) (base : List Member)
    (apart : List FieldId) (op : Operation) : Prop where
  expanded : ∀ ids, ids ∈ op.expanded ↔ q.Expands s base apart ids
  order : ParentsFirst [] op.expanded
  selected : q.Picks s base → ∀ ids, ids ∈ op.selected ↔ q.Projects s d root base apart ids
  defaults : ¬ q.Picks s base → ∀ ids ∈ op.selected, ∃ f, ids = [f]

variable {q : Query} {s : Schema} {d : Dialect} {root : Model} {base : List Member}
  {apart : List FieldId} {op : Operation} {r : Resolved} {p : Plan}

theorem Covers.append {path rest : List Member} (h : Covers apart path) (hne : path ≠ []) :
    Covers apart (path ++ rest) := by
  cases path with
  | nil => exact absurd rfl hne
  | cons x path => exact h

theorem Covers.of_append {path rest : List Member} (h : Covers apart (path ++ rest)) :
    Covers apart path := by
  cases path with
  | nil => simp [Covers]
  | cons x path => exact h

theorem Names.parent {k : Mention} {path : List Member} {x : Member}
    (h : q.Names s k (path ++ [x])) : path = [] ∨ q.Names s .expandable path :=
  Picks.named ⟨k, x, h⟩

/-- Below every chain of expandables that a query names, there is a scalar or an expandable within
which nothing is picked. -/
theorem ResolvesTo.exists_end {picks : List Pick} (hq : q.ResolvesTo s r picks) (hs : s.Sound)
    {path : List Member} (named : q.Names s .expandable path) :
    (∃ rest x, q.Names s .scalar (path ++ rest ++ [x])) ∨
      ∃ rest, q.Names s .expandable (path ++ rest) ∧ ¬ q.Picks s (path ++ rest) := by
  obtain ⟨a, ha, _⟩ := hq.exists_level hs named
  obtain ⟨ids, n, hn, hleaf⟩ := ((hq.wellTyped hs).1.level ha).exists_leaf
  have hlevel : r.selection.level? (path.map Member.id ++ ids) = some n := by
    rw [Selection.level?_append, ha, Option.bind_some, hn]
  obtain ⟨chain, hchain, hl⟩ := hq.levelAt hs hlevel
  obtain ⟨path', rest, rfl, hpath, rfl⟩ := List.map_eq_append_iff.mp hchain
  have hne : path' ≠ [] := by
    rintro rfl
    exact named.ne_nil (List.map_eq_nil_iff.mp hpath.symm)
  have expandable := hl.named.resolve_left (by simp [hne])
  obtain rfl := hs.eq_of_map_id_eq
    (fun y hy => expandable.has y (List.mem_append_left _ hy)) named.has hpath
  by_cases picked : q.Picks s (path' ++ rest)
  · obtain ⟨k, x, hx⟩ := picked
    -- nothing but a scalar can be picked, since an expandable would be a level of its own
    have leaf : ¬ q.Names s .expandable (path' ++ rest ++ [x]) := by
      intro hx
      obtain ⟨b, hb, _⟩ := hq.exists_level hs hx
      rw [List.map_append, Selection.level?_append, List.map_append, hlevel] at hb
      simp [hleaf, Selection.level?_cons, Branches.get?] at hb
    cases k with
    | scalar => exact .inl ⟨rest, x, hx⟩
    | expandable => exact absurd hx leaf
    | bare => exact absurd hx.expandable_of_bare leaf
  · exact .inr ⟨rest, expandable, picked⟩

/-- What a request selects is a field of its model or stands within an expandable of it. -/
theorem Projects.parent {ids : FieldPath} (h : q.Projects s d root base apart ids) :
    (∃ f, ids = [f]) ∨ ∃ above f, q.Expands s base apart above ∧ ids = above ++ [f] := by
  have level : ∀ path f, Covers apart path →
      (path ≠ [] → base ++ path = [] ∨ q.Names s .expandable (base ++ path)) →
      (∃ g, path.map Member.id ++ [f] = [g]) ∨
        ∃ above g, q.Expands s base apart above ∧ path.map Member.id ++ [f] = above ++ [g] := by
    intro path f here named
    by_cases hne : path = []
    · exact .inl ⟨f, by rw [hne]; rfl⟩
    · have named := (named hne).resolve_left (by simp [hne])
      exact .inr ⟨_, f, ⟨path, hne, named, here, rfl⟩, rfl⟩
  cases h with
  | scalar named here =>
    rw [List.map_append]
    exact level _ _ here fun _ => named.parent
  | key picks here model served => exact level _ _ here fun hne => (picks.resolve_left hne).named
  | default bare picks here model default served => exact level _ _ here fun _ => picks.named
  | required model required =>
    rw [Model.requiredEntries_eq_map] at required
    obtain ⟨f, _, rfl⟩ := List.mem_map.mp required
    exact .inl ⟨f, rfl⟩
  | expandable named here empty =>
    rw [List.map_append]
    exact level _ _ here fun _ => named.parent

/-- The request selects something at or below every chain of expandables that is its own. -/
theorem ResolvesTo.exists_projects {picks : List Pick} (hq : q.ResolvesTo s r picks) (hs : s.Sound)
    {path : List Member} (picked : q.Picks s base) (named : q.Names s .expandable (base ++ path))
    (here : ∀ rest, Covers apart (path ++ rest)) :
    ∃ ids, q.Projects s d root base apart ids ∧ path.map Member.id <+: ids := by
  rcases hq.exists_end hs named with ⟨rest, x, scalar⟩ | ⟨rest, expandable, empty⟩
  · rw [List.append_assoc base] at scalar
    refine ⟨_, .scalar scalar (here rest), ?_⟩
    rw [List.append_assoc, List.map_append]
    exact List.prefix_append _ _
  · rw [List.append_assoc] at expandable empty
    rcases List.eq_nil_or_concat (path ++ rest) with hend | ⟨chain, y, hend⟩
    · rw [hend, List.append_nil] at empty
      exact absurd picked empty
    · rw [List.concat_eq_append] at hend
      rw [hend, ← List.append_assoc] at expandable empty
      refine ⟨_, .expandable expandable (Covers.of_append (hend ▸ here rest)) empty, ?_⟩
      rw [← hend, List.map_append]
      exact List.prefix_append _ _

theorem Expands.picks {ids : FieldPath} (h : q.Expands s base apart ids) : q.Picks s base := by
  obtain ⟨_ | ⟨x, path⟩, hne, named, _⟩ := h
  · exact absurd rfl hne
  · cases path with
    | nil => exact ⟨_, x, named⟩
    | cons y path => exact ⟨_, x, named.take (List.cons_ne_nil y path)⟩

/-- The clauses of a request fit together. -/
theorem RequestAt.coherent {picks : List Pick} (h : q.RequestAt s d root base apart op)
    (hq : q.ResolvesTo s r picks) (hs : s.Sound) : op.Coherent := by
  refine ⟨fun before ids after he pre hne hpre hproper => ?_, fun ids f hne hids => ?_,
    fun ids hids => ?_⟩
  · exact (he ▸ h.order).prefix_mem hne hpre hproper
  · have single : ¬ ∃ g, ids ++ [f] = [g] := fun ⟨g, hg⟩ =>
      hne (List.append_eq_singleton_iff.mp hg |>.resolve_right (by simp)).1
    by_cases picked : q.Picks s base
    · rcases ((h.selected picked _).mp hids).parent with hg | ⟨above, g, expands, he⟩
      · exact absurd hg single
      · obtain ⟨rfl, _⟩ := List.append_inj' he rfl
        exact (h.expanded _).mpr expands
    · exact absurd (h.defaults picked _ hids) single
  · have expands := (h.expanded ids).mp hids
    have picked := expands.picks
    obtain ⟨path, hne, named, here, rfl⟩ := expands
    obtain ⟨ids, projects, hpre⟩ :
        ∃ ids, q.Projects s d root base apart ids ∧ path.map Member.id <+: ids :=
      hq.exists_projects hs picked named fun rest => here.append hne
    exact ⟨ids, (h.selected picked _).mpr projects, hpre⟩

theorem ResolvesTo.parentsFirst_block {picks : List Pick} (hq : q.ResolvesTo s r picks)
    (hs : s.Sound) : ParentsFirst [] (r.block s d).1.expand := by
  unfold Resolved.block
  split
  · rw [Schema.expand_defaultBlock]
    trivial
  · simp only [Projection.expand_append, Projection.expand_selecting, Projection.expand_concat,
      List.nil_append, List.append_nil, Resolved.loaded, List.map_map, List.flatMap_map]
    refine .flatMap fun x hx => ?_
    simp only [Function.comp_apply, Member.loaded]
    split
    · exact (hq.target_of_expansion hs hx).1.parentsFirst_block (.inl rfl)
    · trivial

namespace PlansTo

theorem mem_expanded_primary_iff_expands (hs : s.Sound) (h : q.PlansTo s r p) {ids : FieldPath} :
    ids ∈ p.primary.expanded ↔ q.Expands s [] p.fields ids := by
  rw [h.mem_expanded_primary_iff_names hs]
  constructor
  · rintro ⟨x, path, named, hx, rfl⟩
    exact ⟨x :: path, List.cons_ne_nil x path, named, by simpa [Covers] using hx, rfl⟩
  · rintro ⟨_ | ⟨x, path⟩, hne, named, here, rfl⟩
    · exact absurd rfl hne
    · exact ⟨x, path, named, here x rfl, rfl⟩

/-- The main request is the one for what no follow-up answers. -/
theorem requestAt_primary (hs : s.Sound) (h : q.PlansTo s r p) :
    q.RequestAt s p.dialect r.model [] p.fields p.primary := by
  obtain ⟨picks, hq⟩ := h.resolves
  refine ⟨fun ids => h.mem_expanded_primary_iff_expands hs, ?_,
    fun picked ids => h.mem_selected_primary_iff_projects hs picked, fun picked ids hids => ?_⟩
  · rw [congrArg Plan.primary h.planned, Resolved.expanded_primary]
    exact (hq.parentsFirst_block hs).eraseDups
  · have hd := mt (hq.picks_iff_of_root hs).mp picked
    rw [Bool.not_eq_false] at hd
    rw [congrArg Plan.primary h.planned, Resolved.selected_primary, List.mem_eraseDups,
      Resolved.block, if_pos hd] at hids
    obtain ⟨f, _, hf⟩ := Schema.exists_of_mem_defaultBlock hids
    exact ⟨f, hf⟩

/-- A follow-up is the request for its expandable. -/
theorem requestAt_request (hs : s.Sound) (h : q.PlansTo s r p) {x : Member} {a : Selection}
    (hx : (x, a) ∈ r.expansions) :
    q.RequestAt s p.dialect r.model [x] [] (x.request s p.dialect a).operation := by
  obtain ⟨picks, hq⟩ := h.resolves
  have ha := (hq.target_of_expansion hs hx).1
  refine ⟨fun ids => ?_, ?_, fun picked ids => h.mem_selected_request_iff hs hx picked,
    fun picked ids hids => ?_⟩
  · rw [h.mem_expanded_request_iff_names hs hx]
    simp [Expands, Covers]
  · rw [Member.request, Operation.expanded, Projection.expanded_clauses]
    exact .eraseDups ha.parentsFirst_requestBlock
  · have hd := mt (hq.picks_iff_of_expansion hs hx).mp picked
    rw [Bool.not_eq_false] at hd
    obtain ⟨m, hm, hid⟩ := ha.model_mem
    rw [Member.request, Operation.selected, Projection.selected_clauses, List.mem_eraseDups,
      Selection.requestBlock, hid, hs.model?_of_mem m hm] at hids
    simp only [hd, if_true] at hids
    obtain ⟨f, _, hf⟩ := Schema.exists_of_mem_defaultBlock hids
    exact ⟨f, hf⟩

end PlansTo

end Query

namespace Db

/-- In every operation of a plan `$select` and `$expand` fit together, and an operation for a model
on which something is picked selects something. -/
theorem coherent_of_plan {b : Builder} {c : Connection} {db : Db} {q : Query} {p : Plan}
    (hb : b.build c = .ok db) (hp : db.plan q = .ok p) :
    (∀ op ∈ p.operations, op.Coherent) ∧
    (q.allSelectors ≠ [] → p.primary.selected ≠ []) ∧
    ∀ f ∈ p.followUps, ∃ x, q.Names db.schema .expandable [x] ∧ x.id = f.field ∧
      (q.Picks db.schema [x] → f.operation.selected ≠ []) := by
  have hs := Builder.sound_of_build hb
  obtain ⟨r, h⟩ := Query.plansTo_of_plan hs hp
  obtain ⟨picks, hq⟩ := h.resolves
  refine ⟨fun op hop => ?_, fun hsel => ?_, fun f hf => ?_⟩
  · rcases List.mem_cons.mp hop with rfl | hop
    · exact (h.requestAt_primary hs).coherent hq hs
    · obtain ⟨f, hf, rfl⟩ := List.mem_map.mp hop
      obtain ⟨x, a, hx, _, rfl⟩ := (h.mem_followUps_iff hs).mp hf
      exact (h.requestAt_request hs hx).coherent hq hs
  · -- the key is served wherever there is an endpoint
    obtain ⟨e, he, _⟩ := Option.bind_eq_some_iff.mp h.endpoint
    have served := hs.key_served r.model hq.model_mem p.dialect e he
    have key : q.Projects db.schema p.dialect r.model [] p.fields
        (([] : List Member).map Member.id ++ [r.model.key]) :=
      .key (.inl rfl) (by simp [Query.Covers]) rfl served
    exact List.ne_nil_of_mem ((h.mem_selected_primary_iff_projects hs
      (Query.picks_nil_of_resolve hq hsel)).mpr key)
  · obtain ⟨x, a, hx, _, rfl⟩ := (h.mem_followUps_iff hs).mp hf
    have named := (hq.exists_expansion_iff hs).mp ⟨a, hx⟩
    refine ⟨x, named, rfl, fun picked => ?_⟩
    obtain ⟨ids, projects, _⟩ : ∃ ids, q.Projects db.schema p.dialect r.model [x] [] ids ∧
        ([] : List Member).map Member.id <+: ids :=
      hq.exists_projects hs picked named (by simp [Query.Covers])
    exact List.ne_nil_of_mem ((h.mem_selected_request_iff hs hx picked).mpr projects)

/-- The requests of the sample query: for the site, with its owner expanded, and for its lists. -/
theorem coherent_of_plan_sample : ∃ p, Sample.db.plan Sample.query = .ok p ∧
    p.operations.map (fun op => (op.expanded.length, op.selected.length)) = [(1, 4), (0, 2)] ∧
    ∀ op ∈ p.operations, op.Coherent := by
  have h : (fun p : Plan => p.operations.map fun op => (op.expanded.length, op.selected.length)) <$>
      Sample.db.plan Sample.query = .ok [(1, 4), (0, 2)] := by decide +kernel
  obtain ⟨p, hp, hlen⟩ := Except.map_eq_ok_iff.mp h
  exact ⟨p, hp, hlen, (coherent_of_plan Sample.build_eq hp).1⟩

end Db

end ODataPlan
