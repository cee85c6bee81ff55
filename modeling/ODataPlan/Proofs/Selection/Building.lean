import ODataPlan.Proofs.Plan.Binding
import ODataPlan.Proofs.Selection.Levels
import ODataPlan.Proofs.Selection.Listing

/-! How the selection of a query is built. Main statement: it has one level for each chain of
expandables that is named, with what is named there and the key behind it, and it could be built in
one pass over the selectors that never puts a field into a level of another model. -/
namespace ODataPlan

/-- A selection that is being built, with the fields that were named so far. -/
structure Draft where
  selection : Selection
  named : List FieldId

namespace Draft

def add (a : Draft) (p : Pick) : Draft := ⟨a.selection.add p, appendNew a.named p.named⟩

def addAll (a : Draft) (ps : List Pick) : Draft :=
  ⟨a.selection.addAll ps, appendNew a.named (Pick.namedAll ps)⟩

theorem addAll_cons (a : Draft) (p : Pick) (ps : List Pick) :
    a.addAll (p :: ps) = (a.add p).addAll ps := by
  rw [addAll, addAll, Selection.addAll, Pick.namedAll, appendNew_append]
  rfl

/-- A field may be put into a level of its own model only. -/
def guarded (a : Selection) (f : FieldId) (b : Draft) : Outcome Draft :=
  if f.model = a.model then .ok b else .error Dangling.foreign

mutual

/-- Looks up a selector on the model of the selection and puts what it names there at once. -/
def merge (s : Schema) (a : Draft) : Selector → Outcome Draft
  | .field name => do
    let m ← s.model a.selection.model
    match m.field? name with
    | none => (FailureKind.unknownProperty m name).raise
    | some f =>
      let named := addNew a.named f.id
      match f.type with
      | .scalar => guarded a.selection f.id ⟨a.selection.insertField f.id, named⟩
      | .expandable e =>
        guarded a.selection f.id
          ⟨a.selection.alterBranch f.id e.target (.withDefaults true), named⟩
  | .nested name selectors => do
    let m ← s.model a.selection.model
    match m.field? name with
    | none => (FailureKind.unknownProperty m name).raise
    | some f =>
      let named := addNew a.named f.id
      match f.type with
      | .scalar =>
        match selectors with
        | [] => guarded a.selection f.id ⟨a.selection.insertField f.id, named⟩
        | x :: _ => (FailureKind.noPropertiesWithin ⟨m, f⟩ x.name).raise
      | .expandable e => do
        let branch ← guarded a.selection f.id ⟨a.selection.branch f.id e.target, named⟩
        let within ← mergeAll s branch selectors
        return ⟨a.selection.setBranch f.id within.selection, within.named⟩

/-- Looks up selectors in turn, each in the selection that those before it have built. -/
def mergeAll (s : Schema) (a : Draft) : List Selector → Outcome Draft
  | [] => .ok a
  | x :: xs => do
    let b ← merge s a x
    mergeAll s b xs

end

theorem guarded_eq_ok {s : Schema} (hs : s.Sound) {a : Selection} {x : Member} (hx : s.Has x)
    (hid : a.model = x.model.id) (b : Draft) : guarded a x.field.id b = .ok b :=
  if_pos ((hs.model_id_of_has hx).trans hid.symm)

theorem mergeAll_eq {s : Schema} (hs : s.Sound) {t : Model} (ht : t ∈ s.models)
    {xs : List Selector} (each : ∀ x ∈ xs, ∀ a : Draft, a.selection.WellTyped s →
      a.selection.model = t.id → merge s a x = a.add <$> x.resolve s t)
    {a : Draft} (ha : a.selection.WellTyped s) (hid : a.selection.model = t.id) :
    mergeAll s a xs = a.addAll <$> xs.mapM (·.resolve s t) := by
  induction xs generalizing a with
  | nil => rfl
  | cons x xs ih =>
    obtain ⟨hx, hxs⟩ := List.forall_mem_cons.mp each
    rw [mergeAll, hx a ha hid, List.mapM_cons]
    cases hp : x.resolve s t with
    | error e => rfl
    | ok p =>
      have hb : (a.add p).selection.WellTyped s :=
        ha.add hs p ht hid (x.wellTyped_of_resolve hs ht hp)
      have hbm : (a.add p).selection.model = t.id := (Selection.model_add p _).trans hid
      change mergeAll s (a.add p) xs = _
      rw [ih hxs hb hbm]
      cases xs.mapM (·.resolve s t) with
      | error e => rfl
      | ok ps => exact congrArg Except.ok (a.addAll_cons p ps).symm

/-- In one pass a selector comes to what it comes to when its names are looked up first. No field is
put into a level of another model, whatever is in the selection by then. -/
theorem merge_eq {s : Schema} (hs : s.Sound) (x : Selector) {m : Model} (hm : m ∈ s.models)
    {a : Draft} (ha : a.selection.WellTyped s) (hid : a.selection.model = m.id) :
    merge s a x = a.add <$> x.resolve s m := by
  induction x using Selector.induction generalizing m a with
  | field name =>
    rw [merge, hid, hs.model_of_mem hm, Selector.resolve]
    cases hf : m.field? name with
    | none => simp [hf]
    | some f =>
      have own := guarded_eq_ok hs (x := ⟨m, f⟩) ⟨hm, Model.mem_of_field? hf⟩ hid
      cases ht : f.type with
      | scalar =>
        simp only [hf, ht, own, Outcome.liftM_eq_ofLookup, Outcome.ofLookup_ok, Except.ok_bind]
        rfl
      | expandable e =>
        simp only [hf, ht, own, Outcome.liftM_eq_ofLookup, Outcome.ofLookup_ok, Except.ok_bind]
        rfl
  | nested name xs ih =>
    rw [merge, hid, hs.model_of_mem hm, Selector.resolve]
    cases hf : m.field? name with
    | none => simp [hf]
    | some f =>
      have own := guarded_eq_ok hs (x := ⟨m, f⟩) ⟨hm, Model.mem_of_field? hf⟩ hid
      cases ht : f.type with
      | scalar =>
        cases xs with
        | nil =>
          simp only [hf, ht, own, Outcome.liftM_eq_ofLookup, Outcome.ofLookup_ok, Except.ok_bind]
          rfl
        | cons x xs => simp [hf, ht]
      | expandable e =>
        obtain ⟨t, he⟩ := hs.target_registered ⟨m, f⟩ ⟨hm, Model.mem_of_field? hf⟩ e ht
        have hmt := Schema.mem_of_model? he
        have target := Schema.id_of_model? he
        obtain ⟨hb, hbm⟩ := ha.branch hs hm hid hmt
          ⟨f, Model.mem_of_field? hf, rfl, e, ht, target.symm⟩
        have within : mergeAll s ⟨a.selection.branch f.id t.id, addNew a.named f.id⟩ xs =
            addAll ⟨a.selection.branch f.id t.id, addNew a.named f.id⟩ <$>
              xs.mapM (·.resolve s t) :=
          mergeAll_eq hs hmt (fun x hx a ha hid => ih x hx hmt ha hid) hb hbm
        simp only [hf, ht, own, Outcome.liftM_eq_ofLookup, Outcome.ofLookup_ok, Except.ok_bind,
          ← target, within, Selector.resolveAll_eq_mapM (hs.model_of_mem hmt)]
        cases xs.mapM (·.resolve s t) with
        | error e => rfl
        | ok ps => rfl

end Draft

namespace Query

variable {q : Query} {s : Schema} {r : Resolved} {picks : List Pick} {path : List Member}
  {m : Model} {n : Selection}

/-- A level of a merged selection has what the query names behind its chain, each field once and in
the order of first mention, and all of it belongs to the model at the end of the chain. -/
structure MergedAt (q : Query) (s : Schema) (root : Model) (path : List Member) (m : Model)
    (n : Selection) : Prop extends q.LevelAt s root path n where
  target : s.endOf? root path = some m
  unpicked : ¬ q.Picks s path → n.fields = []
  picked : q.Picks s path →
    n.fields = addNew ((q.firstMentions s .scalar path).map Member.id) m.key
  expandables : n.branches.keys = (q.firstMentions s .expandable path).map Member.id
  nodup : n.fields.Nodup ∧ n.branches.keys.Nodup
  ownScalars : ∀ f ∈ n.fields, f.model = n.model ∧ m.HasScalar f
  ownExpandables : ∀ f k, (f, k) ∈ n.branches.toList → f.model = n.model ∧ m.HasExpandable f k.model

theorem ResolvesTo.nodup_firstMentions (h : q.ResolvesTo s r picks) (hs : s.Sound)
    (has : ∀ y ∈ path, s.Has y) (k : Mention) :
    ((q.firstMentions s k path).map Member.id).Nodup := by
  rw [h.map_firstMentions hs has]
  exact nodup_eraseDups _

/-- Every level of the selection of a resolved query is merged as the query says. -/
theorem ResolvesTo.mergedAt (h : q.ResolvesTo s r picks) (hs : s.Sound) {ids : FieldPath}
    (hn : r.selection.level? ids = some n) :
    ∃ path m, path.map Member.id = ids ∧ q.MergedAt s r.model path m n := by
  obtain ⟨path, rfl, level⟩ := h.levelAt hs hn
  obtain ⟨m, hm, hend, hid⟩ := level.model
  have typed := (h.wellTyped hs).1.level hn
  have has := has_of_named level.named
  obtain ⟨expandables, scalars⟩ := h.listed_of_level hs has hn
  have once := h.nodup_firstMentions hs has
  have unpicked : ¬ q.Picks s path → n.fields = [] := by
    intro hpicks
    have hd : n.isDefault = true := by simpa using mt level.picks.mp hpicks
    exact (Selection.isDefault_iff.mp hd).1
  have picked : q.Picks s path →
      n.fields = addNew ((q.firstMentions s .scalar path).map Member.id) m.key :=
    fun hpicks => scalars (level.picks.mpr hpicks) m hend
  refine ⟨path, m, rfl, level, hend, unpicked, picked, expandables, ⟨?_, ?_⟩, ?_, ?_⟩
  · by_cases hpicks : q.Picks s path
    · rw [picked hpicks]
      exact nodup_addNew (once .scalar) m.key
    · rw [unpicked hpicks]
      exact List.nodup_nil
  · rw [expandables]
    exact once .expandable
  · intro f hf
    have scalar := typed.hasScalar hs hm hid hf
    exact ⟨(hs.model_of_hasScalar hm scalar).trans hid.symm, scalar⟩
  · intro f k hk
    exact ⟨typed.model_of_branch hs hk, typed.hasExpandable hs hm hid hk⟩

/-- A resolved query has the selection that its selectors merge into. -/
structure Merges (q : Query) (s : Schema) (r : Resolved) : Prop where
  model : s.modelNamed? q.model = some r.model
  /-- The root and the chains of expandables that are named are the levels. -/
  chains : ∀ ids, ids ∈ r.selection.levels.map Prod.fst ↔
    ids = [] ∨ ∃ path, q.Names s .expandable path ∧ path.map Member.id = ids
  /-- No chain has two levels. -/
  nodup : (r.selection.levels.map Prod.fst).Nodup
  level : ∀ l ∈ r.selection.levels, ∃ path m, path.map Member.id = l.1 ∧
    q.MergedAt s r.model path m l.2
  /-- One pass over the selectors that stops at a field of another model gets to the end. Keys are
  added behind it and leave the fields that were named by then alone. -/
  built : ∃ a, Draft.mergeAll s ⟨Selection.empty r.model.id, []⟩ q.allSelectors = .ok a ∧
    a.selection.ensureKey s = .ok r.selection ∧
    r.named = appendNew a.named (r.filters.map (·.field) ++ r.sorts.map (·.field))
  /-- A key that is only implied is not named. -/
  named : ∀ f, f ∈ r.named ↔ ∃ x, q.Mentions s x ∧ x.id = f

theorem ResolvesTo.mem_levels_iff (h : q.ResolvesTo s r picks) (hs : s.Sound) (ids : FieldPath) :
    ids ∈ r.selection.levels.map Prod.fst ↔
      ids = [] ∨ ∃ path, q.Names s .expandable path ∧ path.map Member.id = ids := by
  rw [List.mem_map]
  constructor
  · rintro ⟨⟨ids, n⟩, hl, rfl⟩
    obtain ⟨path, rfl, level⟩ := h.levelAt hs ((h.wellTyped hs).1.mem_levels_iff.mp hl)
    exact level.named.imp (by rintro rfl; rfl) fun named => ⟨path, named, rfl⟩
  · rintro (rfl | ⟨path, named, rfl⟩)
    · exact ⟨_, r.selection.root_mem_levels, rfl⟩
    · obtain ⟨n, hn, _⟩ := h.exists_level hs named
      exact ⟨(path.map Member.id, n), (h.wellTyped hs).1.mem_levels_iff.mpr hn, rfl⟩

/-- The selectors of a query that resolves can be merged in one pass. -/
theorem ResolvesTo.exists_draft (h : q.ResolvesTo s r picks) (hs : s.Sound) :
    ∃ a, Draft.mergeAll s ⟨Selection.empty r.model.id, []⟩ q.allSelectors = .ok a ∧
      a.selection.ensureKey s = .ok r.selection ∧
      r.named = appendNew a.named (r.filters.map (·.field) ++ r.sorts.map (·.field)) := by
  refine ⟨Draft.addAll ⟨Selection.empty r.model.id, []⟩ picks, ?_, ?_, ?_⟩
  · rw [Draft.mergeAll_eq hs h.model_mem (fun x _ a ha hid => Draft.merge_eq hs x h.model_mem ha hid)
      (Selection.wellTyped_empty h.model_mem) rfl, h.selectors]
    rfl
  · rw [h.selection]
    exact ensureKey_of_picks hs h.model_mem h.selectors
  · rw [h.named, eraseDups_eq_appendNew, List.append_assoc, appendNew_append]
    rfl

theorem ResolvesTo.mem_named_iff_mentions (h : q.ResolvesTo s r picks) (hs : s.Sound)
    (f : FieldId) : f ∈ r.named ↔ ∃ x, q.Mentions s x ∧ x.id = f := by
  constructor
  · intro hf
    obtain ⟨x, hx, rfl⟩ := h.named_has hs f hf
    exact ⟨x, (h.mentions_iff hs).mpr ⟨hx, hf⟩, rfl⟩
  · rintro ⟨x, hx, rfl⟩
    exact ((h.mentions_iff hs).mp hx).2

end Query

namespace Db

/-- A query that resolves has the merged selection: a level for each chain of expandables that it
names, with what it names there and the keys behind. -/
theorem merges_of_resolve {b : Builder} {c : Connection} {db : Db} {q : Query} {r : Resolved}
    (hb : b.build c = .ok db) (hr : q.resolve db.schema = .ok r) : q.Merges db.schema r := by
  have hs := Builder.sound_of_build hb
  obtain ⟨picks, h⟩ := Query.resolvesTo_of_resolve hs hr
  exact {
    model := h.model
    chains := h.mem_levels_iff hs
    nodup := (h.wellTyped hs).1.nodup_chains
    level := fun l hl => h.mergedAt hs ((h.wellTyped hs).1.mem_levels_iff.mp hl)
    built := h.exists_draft hs
    named := h.mem_named_iff_mentions hs }

end Db

namespace Sample

/-- A site with its owner bare and by name, its lists with nothing within, and its title last. -/
def mixed : Query :=
  (Query.entity "Site").select
    [.field "Owner", .nested "Lists" [], .nested "Owner" [.field "Name"], .nested "Title" []]

end Sample

namespace Db

/-- The owner is one level. The lists pick nothing and gain no key, and no key is named. -/
theorem merges_of_resolve_sample : ∃ r, Sample.mixed.resolve Sample.db.schema = .ok r ∧
    Sample.mixed.Merges Sample.db.schema r ∧
    r.selection.levels.map (fun l => (l.1, l.2.fields, l.2.includeDefaults)) =
      [([], [⟨⟨0⟩, 1⟩, ⟨⟨0⟩, 0⟩], false), ([⟨⟨0⟩, 2⟩], [⟨⟨1⟩, 1⟩, ⟨⟨1⟩, 0⟩], true),
        ([⟨⟨0⟩, 3⟩], [], false)] ∧
    r.named = [⟨⟨0⟩, 2⟩, ⟨⟨0⟩, 3⟩, ⟨⟨1⟩, 1⟩, ⟨⟨0⟩, 1⟩] := by
  have h : (fun r : Resolved =>
      (r.selection.levels.map (fun l => (l.1, l.2.fields, l.2.includeDefaults)), r.named)) <$>
      Sample.mixed.resolve Sample.db.schema =
        .ok ([([], [⟨⟨0⟩, 1⟩, ⟨⟨0⟩, 0⟩], false), ([⟨⟨0⟩, 2⟩], [⟨⟨1⟩, 1⟩, ⟨⟨1⟩, 0⟩], true),
          ([⟨⟨0⟩, 3⟩], [], false)], [⟨⟨0⟩, 2⟩, ⟨⟨0⟩, 3⟩, ⟨⟨1⟩, 1⟩, ⟨⟨0⟩, 1⟩]) := by
    decide +kernel
  obtain ⟨r, hr, hr'⟩ := Except.map_eq_ok_iff.mp h
  obtain ⟨hlevels, hnamed⟩ := Prod.mk.inj hr'
  exact ⟨r, hr, merges_of_resolve Sample.build_eq hr, hlevels, hnamed⟩

end Db

end ODataPlan
