import ODataPlan.Proofs.Plan.Defaults
import ODataPlan.Proofs.Plan.Projecting
import ODataPlan.Proofs.Selection.Levels
import ODataPlan.Proofs.Selection.Listing

/-! The order in which a plan projects. Main statement: with an explicit selection the main request
lists its key, its scalars and its expandables in declaration order, everything below an expandable
stands in the order in which the query first names it, level by level, and an entry that is due twice
stays at its first place. -/
namespace ODataPlan

namespace Query

/-- What a level with picks selects: its default set if it is named bare as well, its scalars in the
order of first mention, and its key behind them unless it is one of them. -/
def levelIds (q : Query) (s : Schema) (d : Dialect) (chain : List Member) (m : Model) :
    List FieldId :=
  (if q.Names s .bare chain then m.defaultIds d else []) ++
    appendNew ((q.firstMentions s .scalar chain).map Member.id) (s.servedKey d m)

mutual

/-- What the inline expansion of a path projects in a request for the end of `base`: its level and
then the levels below it, depth first. -/
inductive Block (q : Query) (s : Schema) (d : Dialect) (root : Model) (base : List Member) :
    List Member → Projection → Prop
  /-- Without picks, the path alone. -/
  | alone {path} (empty : ¬ q.Picks s (base ++ path)) :
    Block q s d root base path ⟨[path.map Member.id], [path.map Member.id]⟩
  | level {path m below} (picks : q.Picks s (base ++ path))
    (model : s.endOf? root (base ++ path) = some m)
    (nested : Blocks q s d root base path (q.firstMentions s .expandable (base ++ path)) below) :
    Block q s d root base path
      (⟨(q.levelIds s d (base ++ path) m).map (path.map Member.id ++ [·]), [path.map Member.id]⟩ ++
        below)

/-- What the inline expansions of several fields behind a path project, in turn. -/
inductive Blocks (q : Query) (s : Schema) (d : Dialect) (root : Model) (base : List Member) :
    List Member → List Member → Projection → Prop
  | nil {path} : Blocks q s d root base path [] {}
  | cons {path x xs here others} (first : Block q s d root base (path ++ [x]) here)
    (rest : Blocks q s d root base path xs others) :
    Blocks q s d root base path (x :: xs) (here ++ others)

end

/-- What an expandable selected at the root adds to the main request, where the fields in `apart`
are loaded by requests of their own. -/
inductive RootBlock (q : Query) (s : Schema) (d : Dialect) (root : Model) (apart : List FieldId)
    (x : Member) : Projection → Prop
  | inline {entries} (here : x.id ∉ apart) (block : q.Block s d root [] [x] entries) :
    RootBlock q s d root apart x entries
  /-- Without picks, its name is selected for the request of its own. -/
  | named (there : x.id ∈ apart) (empty : ¬ q.Picks s [x]) :
    RootBlock q s d root apart x (.selecting [[x.id]])
  | none (there : x.id ∈ apart) (picks : q.Picks s [x]) : RootBlock q s d root apart x {}

/-- The scalars other than the key that are named at the root, in declaration order. -/
def rootScalars (q : Query) (s : Schema) (m : Model) : List Member :=
  m.members.filter fun x => x.id ≠ m.key ∧ q.Names s .scalar [x]

/-- The expandables that are named at the root, in declaration order. -/
def rootExpandables (q : Query) (s : Schema) (m : Model) : List Member :=
  m.members.filter fun x => q.Names s .expandable [x]

/-- The order of what a plan projects for an explicit selection. What is due twice stays at its first
place. -/
structure OrderedBy (q : Query) (s : Schema) (m : Model) (p : Plan) : Prop where
  /-- The main request selects the key, the other scalars and what is within the expandables in
  declaration order, and then the required fields. -/
  primary : ∃ blocks,
    List.Forall₂ (q.RootBlock s p.dialect m p.fields) (q.rootExpandables s m) blocks ∧
    p.primary.selected = ([m.key] :: (q.rootScalars s m).map (fun x => [x.id]) ++
      blocks.flatMap Projection.select ++ (m.required p.dialect).map ([·])).eraseDups ∧
    p.primary.expanded = blocks.flatMap Projection.expand
  /-- A follow-up for a field with picks selects the key on REST, its level as any other, the
  required fields, and what is within the expandables below in the order of first mention. -/
  followUp : ∀ f ∈ p.followUps, ∃ x, q.Names s .expandable [x] ∧ x.id = f.field ∧
    (q.Picks s [x] → ∃ t below, s.endOf? m [x] = some t ∧
      q.Blocks s p.dialect m [x] [] (q.firstMentions s .expandable [x]) below ∧
      f.operation.selected = (((if p.dialect = .rest then s.servedKey p.dialect t else []) ++
        q.levelIds s p.dialect [x] t ++ t.required p.dialect).map ([·]) ++
          below.select).eraseDups ∧
      f.operation.expanded = below.expand)

end Query

namespace Schema

variable {s : Schema} {d : Dialect} {path : FieldPath}

theorem flatMap_entry {fs : List FieldId} (h : ∀ f ∈ fs, s.serves d f = true) :
    fs.flatMap (s.entry d path) = fs.map (path ++ [·]) := by
  rw [← List.flatMap_pure_eq_map]
  exact List.flatMap_congr fun f hf => by rw [entry, if_pos (h f hf)]; rfl

theorem flatMap_entry_addNew {fs : List FieldId} (h : ∀ f ∈ fs, s.serves d f = true) (m : Model) :
    (addNew fs m.key).flatMap (s.entry d path) =
      (appendNew fs (s.servedKey d m)).map (path ++ [·]) := by
  by_cases served : s.serves d m.key = true
  · rw [servedKey, if_pos served, appendNew_cons, appendNew_nil, flatMap_entry]
    intro f hf
    rcases mem_addNew.mp hf with hf | rfl
    · exact h f hf
    · exact served
  · have hkey : m.key ∉ fs := fun hf => served (h _ hf)
    rw [servedKey, if_neg served, appendNew_nil, addNew, if_neg hkey, List.flatMap_append,
      flatMap_entry h]
    simp [entry, served]

theorem Sound.serves_of_mem_defaultIds (hs : s.Sound) {m : Model} (hm : m ∈ s.models) {f : FieldId}
    (hf : f ∈ m.defaultIds d) : s.serves d f = true := by
  obtain ⟨x, hx, rfl, hscalar⟩ := hs.scalar_of_mem_defaultIds hm hf
  have := hs.serves_of_has d (x := ⟨m, x⟩) ⟨hm, hx⟩
  rw [FieldDecl.isScalarOn, Bool.and_eq_true] at hscalar
  exact this.trans hscalar.1

end Schema

namespace Selection

variable {s : Schema} {d : Dialect} {a : Selection}

theorem WellTyped.prefix_of_mem_expand_block (ha : a.WellTyped s) {path ids : FieldPath}
    (h : ids ∈ (a.block s d path).expand) : path <+: ids := by
  obtain ⟨rest, _, _, rfl⟩ := ha.mem_expand_block_iff.mp h
  exact List.prefix_append path rest

/-- Inline expansions name every level once. -/
theorem WellTyped.nodup_expand_branches (ha : a.WellTyped s) (path : FieldPath) :
    (a.branches.blocks s d path).expand.Nodup := by
  induction ha generalizing path with
  | @mk m fields branches defaults model scalars nodup expandables nested ih =>
    rw [Branches.blocks_eq_concat, Projection.expand_concat, List.flatMap_map]
    refine nodup_flatMap_of_prefix path nodup fun b hb => ⟨?_, fun ids hids =>
      (nested _ _ hb).prefix_of_mem_expand_block hids⟩
    rw [expand_block]
    refine List.nodup_cons.mpr ⟨fun hmem => ?_, ih _ _ hb _⟩
    obtain ⟨f, rest, _, _, he⟩ := (nested _ _ hb).mem_expand_branches_iff.mp hmem
    simp at he

theorem WellTyped.nodup_expand_block (ha : a.WellTyped s) (path : FieldPath) :
    (a.block s d path).expand.Nodup := by
  rw [expand_block]
  refine List.nodup_cons.mpr ⟨fun hmem => ?_, ha.nodup_expand_branches path⟩
  obtain ⟨f, rest, _, _, he⟩ := ha.mem_expand_branches_iff.mp hmem
  simp at he

end Selection

namespace Query

variable {q : Query} {s : Schema} {d : Dialect} {root : Model} {r : Resolved} {picks : List Pick}

namespace PlansTo

variable {p : Plan}

/-- A level with picks selects its default set, its scalars and its key in their order. -/
theorem ownEntries_eq (hs : s.Sound) (h : q.PlansTo s r p) {chain : List Member}
    (has : ∀ y ∈ chain, s.Has y) {n : Selection} {m : Model}
    (hn : r.selection.level? (chain.map Member.id) = some n)
    (hm : s.endOf? r.model chain = some m) (hp : q.Picks s chain) (pre : FieldPath) :
    n.ownEntries s p.dialect pre = (q.levelIds s p.dialect chain m).map (pre ++ [·]) := by
  obtain ⟨picks, hq⟩ := h.resolves
  have hl := hq.levelAt_of_has hs has hn
  obtain ⟨m', hm', hend, hid⟩ := hl.model
  cases hend.symm.trans hm
  have hfields := (hq.listed_of_level hs has hn).2 (hl.picks.mpr hp) m hm
  have served : ∀ f ∈ (q.firstMentions s .scalar chain).map Member.id,
      s.serves p.dialect f = true := by
    intro f hf
    obtain ⟨x, hx, rfl⟩ := List.mem_map.mp hf
    exact h.serves_of_names hs (mem_firstMentions_iff.mp hx)
  have hdefaults : (if n.includeDefaults then
      (s.defaultIds p.dialect n.model).flatMap (s.entry p.dialect pre) else []) =
        (if q.Names s .bare chain then m.defaultIds p.dialect else []).map (pre ++ [·]) := by
    rw [Schema.defaultIds, hid, hs.model?_of_mem m hm']
    by_cases hb : q.Names s .bare chain
    · rw [if_pos hb, if_pos (hl.defaults.mpr hb),
        Schema.flatMap_entry fun f hf => hs.serves_of_mem_defaultIds hm' hf]
    · rw [if_neg hb, if_neg (mt hl.defaults.mp hb), List.map_nil]
  rw [Selection.ownEntries, hdefaults, hfields, Schema.flatMap_entry_addNew served, ← List.map_append]
  rfl

end PlansTo

/-- Branches whose fields are the given ones project block by block. -/
theorem blocks_of_keys {base path xs : List Member} {bs : Branches}
    (hkeys : bs.keys = xs.map Member.id)
    (each : ∀ x ∈ xs, ∀ k, (x.id, k) ∈ bs.toList →
      q.Block s d root base (path ++ [x]) (k.block s d ((path ++ [x]).map Member.id))) :
    q.Blocks s d root base path xs (bs.blocks s d (path.map Member.id)) := by
  induction bs using Branches.induction generalizing xs with
  | nil =>
    obtain rfl := List.map_eq_nil_iff.mp hkeys.symm
    exact .nil
  | cons f n rest ih =>
    obtain ⟨x, xs, rfl, rfl, hrest⟩ := List.map_eq_cons_iff.mp hkeys.symm
    have here := each x List.mem_cons_self n List.mem_cons_self
    rw [List.map_append] at here
    exact .cons here <| ih hrest.symm fun y hy k hk =>
      each y (List.mem_cons_of_mem x hy) k (List.mem_cons_of_mem _ hk)

namespace PlansTo

variable {p : Plan}

/-- The branches of a level project block by block in the order of first mention, if each one does
project its block. -/
theorem blocks_of_level (hs : s.Sound) (h : q.PlansTo s r p) (base path : List Member)
    (has : ∀ y ∈ base ++ path, s.Has y) {n : Selection} (hn : n.WellTyped s)
    (hlevel : r.selection.level? ((base ++ path).map Member.id) = some n)
    (each : ∀ f k, (f, k) ∈ n.branches.toList → ∀ path, (∀ y ∈ base ++ path, s.Has y) →
      r.selection.level? ((base ++ path).map Member.id) = some k →
      q.Block s p.dialect r.model base path (k.block s p.dialect (path.map Member.id))) :
    q.Blocks s p.dialect r.model base path (q.firstMentions s .expandable (base ++ path))
      (n.branches.blocks s p.dialect (path.map Member.id)) := by
  obtain ⟨picks, hq⟩ := h.resolves
  refine blocks_of_keys (hq.listed_of_level hs has hlevel).1 fun x hx k hk => ?_
  have named := mem_firstMentions_iff.mp hx
  refine each x.id k hk (path ++ [x]) ?_ ?_
  · rw [← List.append_assoc]
    exact named.has
  · rw [← List.append_assoc, List.map_append, Selection.level?_append, hlevel, Option.bind_some]
    exact (Selection.level?_singleton n x.id).trans
      ((Branches.get?_eq_some_iff hn.nodup_keys).mpr hk)

/-- The inline expansion of a level projects its block. -/
theorem block_of_level (hs : s.Sound) (h : q.PlansTo s r p) (base path : List Member)
    (has : ∀ y ∈ base ++ path, s.Has y) {n : Selection} (hn : n.WellTyped s)
    (hlevel : r.selection.level? ((base ++ path).map Member.id) = some n) :
    q.Block s p.dialect r.model base path (n.block s p.dialect (path.map Member.id)) := by
  obtain ⟨picks, hq⟩ := h.resolves
  induction hn generalizing path with
  | @mk m fields branches defaults model scalars nodup expandables nested ih =>
    have hw := Selection.WellTyped.mk (d := defaults) model scalars nodup expandables nested
    have hl := hq.levelAt_of_has hs has hlevel
    have below := h.blocks_of_level hs base path has hw hlevel ih
    rw [Selection.block, Selection.levelEntries]
    split
    · rename_i hd
      have hb : branches = .nil := by
        cases branches with
        | nil => rfl
        | cons f n rest => simp [Selection.isDefault, Branches.isEmpty] at hd
      subst hb
      exact .alone (mt hl.picks.mpr (by simp [hd]))
    · rename_i hd
      rw [Bool.not_eq_true] at hd
      obtain ⟨m', _, hend, _⟩ := hl.model
      rw [h.ownEntries_eq hs has hlevel hend (hl.picks.mp hd)]
      exact .level (hl.picks.mp hd) hend below

/-- What loading an expandable adds to the main request is its block there. -/
theorem rootBlock_of_expansion (hs : s.Sound) (h : q.PlansTo s r p) {x : Member} {a : Selection}
    (hx : (x, a) ∈ r.expansions) :
    q.RootBlock s p.dialect r.model p.fields x (x.loaded s p.dialect a).1 := by
  obtain ⟨picks, hq⟩ := h.resolves
  obtain ⟨has, ha⟩ := (hq.mem_expansions_iff hs).mp hx
  have hfields := h.mem_fields_of_expansion hs hx
  have hpicks := hq.picks_iff_of_expansion hs hx
  unfold Member.loaded
  split
  · rename_i hi
    refine .inline (fun hf => hfields.mp hf hi) ?_
    exact h.block_of_level hs [] [x] (by simpa using has)
      (hq.target_of_expansion hs hx).1 (by simpa using ha)
  · rename_i hi
    cases hd : a.isDefault with
    | true => exact .named (hfields.mpr hi) (by simp [← hpicks, hd])
    | false => exact .none (hfields.mpr hi) (hpicks.mp hd)

/-- The main request selects its key and then its other scalars in declaration order. -/
theorem rootEntries_eq (hs : s.Sound) (h : q.PlansTo s r p) : r.rootEntries s p.dialect =
    [r.model.key] :: (q.rootScalars s r.model).map fun x => [x.id] := by
  obtain ⟨picks, hq⟩ := h.resolves
  obtain ⟨e, he, _⟩ := Option.bind_eq_some_iff.mp h.endpoint
  have hkey := hs.key_served _ hq.model_mem _ e he
  have hl := hq.levelAt_root hs
  have scalar : ∀ f ∈ r.model.fields, f.id ≠ r.model.key →
      (f.id ∈ r.selection.fields ↔ q.Names s .scalar [⟨r.model, f⟩]) := by
    intro f hf hne
    rw [hl.scalars r.model rfl]
    constructor
    · rintro (⟨x, hx, hid⟩ | ⟨_, hid⟩)
      · have hf : s.Has ⟨r.model, f⟩ := ⟨hq.model_mem, hf⟩
        rwa [hs.eq_of_id_eq (hx.has x (by simp)) hf hid] at hx
      · exact absurd hid hne
    · exact fun hx => .inl ⟨_, hx, rfl⟩
  have same : (r.model.fields.filter fun f =>
      f.id != r.model.key && r.selection.fields.contains f.id).map Field.id =
        (q.rootScalars s r.model).map Member.id := by
    rw [rootScalars, Model.members, List.filter_map, List.map_map]
    refine congrArg (List.map Field.id) (List.filter_congr fun f hf => ?_)
    by_cases hne : f.id = r.model.key
    · simp [Member.id, hne]
    · simp [Member.id, hne, scalar f hf hne]
  have served : ∀ f ∈ (q.rootScalars s r.model).map Member.id, s.serves p.dialect f = true := by
    intro f hf
    obtain ⟨x, hx, rfl⟩ := List.mem_map.mp hf
    have named : q.Names s .scalar ([] ++ [x]) := (of_decide_eq_true (List.mem_filter.mp hx).2).2
    exact h.serves_of_names hs named
  rw [Resolved.rootEntries, ← List.flatMap_map, same, Schema.flatMap_entry served, Schema.entry,
    if_pos hkey, List.map_map]
  rfl

/-- The expandables to load are those named at the root, in declaration order. -/
theorem map_fst_expansions (hs : s.Sound) (h : q.PlansTo s r p) :
    r.expansions.map Prod.fst = q.rootExpandables s r.model := by
  obtain ⟨picks, hq⟩ := h.resolves
  have each : ∀ x ∈ r.model.members,
      (r.selection.branches.get? x.id).isSome = decide (q.Names s .expandable [x]) := by
    intro x hx
    obtain ⟨f, hf, rfl⟩ := List.mem_map.mp hx
    have has : s.Has ⟨r.model, f⟩ := ⟨hq.model_mem, hf⟩
    rw [Bool.eq_iff_iff, Option.isSome_iff_exists, decide_eq_true_iff, ← hq.exists_expansion_iff hs]
    simp only [hq.mem_expansions_iff hs, has, true_and]
  rw [rootExpandables, ← List.filter_congr each, Resolved.expansions, List.map_filterMap,
    ← List.filterMap_eq_filter]
  refine List.filterMap_congr fun x _ => ?_
  change _ = Option.guard (fun y : Member => (r.selection.branches.get? y.field.id).isSome) x
  cases hx : r.selection.branches.get? x.field.id <;> simp [Option.guard, hx]

/-- The main request expands every level once. -/
theorem nodup_expand_loaded (hs : s.Sound) (h : q.PlansTo s r p) :
    (r.expansions.flatMap fun x => (x.1.loaded s p.dialect x.2).1.expand).Nodup := by
  obtain ⟨picks, hq⟩ := h.resolves
  refine nodup_flatMap_of_prefix [] (Resolved.nodup_expansions hs hq.model_mem)
    fun x hx => ?_
  have ha := (hq.target_of_expansion hs hx).1
  unfold Member.loaded
  split
  · exact ⟨ha.nodup_expand_block _, fun _ hids => ha.prefix_of_mem_expand_block hids⟩
  · exact ⟨List.nodup_nil, nofun⟩

/-- The main request projects its own scalars, a block for each expandable and the required fields,
in this order. -/
theorem primary_eq (hs : s.Sound) (h : q.PlansTo s r p) (hp : q.Picks s []) : ∃ blocks,
    List.Forall₂ (q.RootBlock s p.dialect r.model p.fields) (q.rootExpandables s r.model) blocks ∧
    p.primary.selected = ([r.model.key] :: (q.rootScalars s r.model).map (fun x => [x.id]) ++
      blocks.flatMap Projection.select ++ (r.model.required p.dialect).map ([·])).eraseDups ∧
    p.primary.expanded = blocks.flatMap Projection.expand := by
  obtain ⟨picks, hq⟩ := h.resolves
  have hd : ¬ r.selection.isDefault = true := by simp [(hq.picks_iff_of_root hs).mpr hp]
  refine ⟨r.expansions.map fun x => (x.1.loaded s p.dialect x.2).1, ?_, ?_, ?_⟩
  · rw [← h.map_fst_expansions hs, List.forall₂_map_left_iff, List.forall₂_map_right_iff,
      List.forall₂_same]
    exact fun x hx => h.rootBlock_of_expansion hs hx
  · rw [congrArg Plan.primary h.planned, Resolved.selected_primary, Resolved.block, if_neg hd]
    simp only [Projection.select_append, Projection.select_selecting, Projection.select_concat,
      Resolved.loaded, List.map_map, h.rootEntries_eq hs, Model.requiredEntries_eq_map]
    rfl
  · rw [congrArg Plan.primary h.planned, Resolved.expanded_primary, Resolved.block, if_neg hd]
    simp only [Projection.expand_append, Projection.expand_selecting, Projection.expand_concat,
      Resolved.loaded, List.map_map, List.nil_append, List.append_nil]
    rw [List.flatMap_map, List.flatMap_map]
    exact eraseDups_of_nodup (h.nodup_expand_loaded hs)

/-- A follow-up for a field with picks projects what is named there, the required fields and the
blocks below. -/
theorem request_eq (hs : s.Sound) (h : q.PlansTo s r p) {x : Member} {a : Selection}
    (hx : (x, a) ∈ r.expansions) (hp : q.Picks s [x]) : ∃ t below,
    s.endOf? r.model [x] = some t ∧
    q.Blocks s p.dialect r.model [x] [] (q.firstMentions s .expandable [x]) below ∧
    (x.request s p.dialect a).operation.selected =
      (((if p.dialect = .rest then s.servedKey p.dialect t else []) ++
        q.levelIds s p.dialect [x] t ++ t.required p.dialect).map ([·]) ++
          below.select).eraseDups ∧
    (x.request s p.dialect a).operation.expanded = below.expand := by
  obtain ⟨picks, hq⟩ := h.resolves
  have ha := (hq.target_of_expansion hs hx).1
  obtain ⟨has, hget⟩ := (hq.mem_expansions_iff hs).mp hx
  have has : ∀ y ∈ [x], s.Has y := by simpa using has
  have hlevel : r.selection.level? ([x].map Member.id) = some a := by simpa using hget
  have hl := hq.levelAt_of_has hs has hlevel
  obtain ⟨t, ht, hend, hid⟩ := hl.model
  have below := h.blocks_of_level hs [x] [] has ha hlevel
    fun f k hk path has => h.block_of_level hs [x] path has (ha.of_branch hk)
  refine ⟨t, _, hend, below, ?_, ?_⟩
  · rw [Member.request, Operation.selected, Projection.selected_clauses, Selection.requestBlock, hid,
      hs.model?_of_mem t ht]
    simp only [hl.picks.mpr hp, Bool.false_eq_true, if_false, Projection.select_append,
      Projection.select_selecting, h.ownEntries_eq hs has hlevel hend hp, Schema.entry_key,
      Model.requiredEntries_eq_map, List.map_append]
    split <;> rfl
  · rw [Member.request, Operation.expanded, Projection.expanded_clauses, Selection.requestBlock, hid,
      hs.model?_of_mem t ht]
    simp only [hl.picks.mpr hp, Bool.false_eq_true, if_false, Projection.expand_append,
      Projection.expand_selecting, List.nil_append]
    exact eraseDups_of_nodup (ha.nodup_expand_branches [])

end PlansTo

end Query

namespace Db

/-- With an explicit selection the entries of every request stand in the order that declarations and
first mentions give them. -/
theorem orderedBy_of_plan {b : Builder} {c : Connection} {db : Db} {q : Query} {p : Plan}
    {m : Model} (hb : b.build c = .ok db) (he : q.allSelectors ≠ []) (hp : db.plan q = .ok p)
    (hm : db.schema.modelNamed? q.model = some m) : q.OrderedBy db.schema m p := by
  have hs := Builder.sound_of_build hb
  obtain ⟨r, h⟩ := Query.plansTo_of_plan hs hp
  obtain ⟨picks, hq⟩ := h.resolves
  cases hq.model.symm.trans hm
  refine ⟨h.primary_eq hs (Query.picks_nil_of_resolve hq he), fun f hf => ?_⟩
  obtain ⟨x, a, hx, _, rfl⟩ := (h.mem_followUps_iff hs).mp hf
  exact ⟨x, (hq.exists_expansion_iff hs).mp ⟨a, hx⟩, rfl, h.request_eq hs hx⟩

end Db

namespace Sample

/-- A site, with what is named first declared last. -/
def reversed : Query :=
  (Query.entity "Site").select
    [.nested "Lists" [.field "Title"], .nested "Owner" [.field "Name"], .field "Title"]

end Sample

namespace Db

/-- The title and the owner of a site are listed as they are declared, the name of the owner as it is
mentioned, before the key of the owner. -/
theorem orderedBy_of_plan_sample : ∃ p m, Sample.db.plan Sample.reversed = .ok p ∧
    Sample.db.schema.modelNamed? "Site" = some m ∧
    p.primary.selected = [[⟨⟨0⟩, 0⟩], [⟨⟨0⟩, 1⟩], [⟨⟨0⟩, 2⟩, ⟨⟨1⟩, 1⟩], [⟨⟨0⟩, 2⟩, ⟨⟨1⟩, 0⟩]] ∧
    Sample.reversed.OrderedBy Sample.db.schema m p := by
  have h : (·.primary.selected) <$> Sample.db.plan Sample.reversed =
      .ok [[⟨⟨0⟩, 0⟩], [⟨⟨0⟩, 1⟩], [⟨⟨0⟩, 2⟩, ⟨⟨1⟩, 1⟩], [⟨⟨0⟩, 2⟩, ⟨⟨1⟩, 0⟩]] := by decide +kernel
  obtain ⟨p, hp, hselected⟩ := Except.map_eq_ok_iff.mp h
  have hm : (Sample.db.schema.modelNamed? "Site").isSome = true := by decide +kernel
  obtain ⟨m, hm⟩ := Option.isSome_iff_exists.mp hm
  have he : Sample.reversed.allSelectors ≠ [] := by
    simp [Query.allSelectors, Sample.reversed, Query.select]
  exact ⟨p, m, hp, hm, hselected, orderedBy_of_plan Sample.build_eq he hp hm⟩

end Db

end ODataPlan
