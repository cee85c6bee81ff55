import ODataPlan.Proofs.Selection.Keys

/-! What a resolved query consists of, in terms of the query. Main statement: the levels of its
selection are the chains of expandables that the query names, and each holds what is named there. -/
namespace ODataPlan

namespace Schema

theorem mem_of_modelNamed? {s : Schema} {name : String} {m : Model}
    (h : s.modelNamed? name = some m) : m ∈ s.models := List.mem_of_find?_eq_some h

/-- The model at the end of a chain of expandables that starts at a model. -/
def endOf? (s : Schema) (m : Model) (path : List Member) : Option Model :=
  match path.getLast? with
  | none => some m
  | some x => x.field.type.expand?.bind fun e => s.model? e.target

@[simp] theorem endOf?_nil (s : Schema) (m : Model) : s.endOf? m [] = some m := rfl

@[simp] theorem endOf?_concat (s : Schema) (m : Model) (path : List Member) (x : Member) :
    s.endOf? m (path ++ [x]) = x.field.type.expand?.bind fun e => s.model? e.target := by
  simp [endOf?]

theorem Sound.eq_of_map_id_eq {s : Schema} (hs : s.Sound) {xs ys : List Member}
    (hx : ∀ x ∈ xs, s.Has x) (hy : ∀ y ∈ ys, s.Has y) (h : xs.map Member.id = ys.map Member.id) :
    xs = ys := by
  induction xs generalizing ys with
  | nil => exact (List.map_eq_nil_iff.mp h.symm).symm
  | cons x xs ih =>
    cases ys with
    | nil => cases h
    | cons y ys =>
      obtain ⟨hid, h⟩ := List.cons.inj h
      obtain ⟨hx, hxs⟩ := List.forall_mem_cons.mp hx
      obtain ⟨hy, hys⟩ := List.forall_mem_cons.mp hy
      rw [hs.eq_of_id_eq hx hy hid, ih hxs hys h]

end Schema

namespace Model

theorem hasScalar_of_scalarId {m : Model} {name : String} {f : FieldId}
    (h : m.scalarId name = .ok f) : m.HasScalar f := by
  unfold scalarId at h
  split at h
  · cases h
  · rename_i g hg
    split at h
    · cases h
    · rename_i he
      cases h
      refine ⟨g, mem_of_field? hg, rfl, ?_⟩
      cases ht : g.type with
      | scalar => rfl
      | expandable e => simp [FieldDecl.isExpandable, ht] at he

theorem proper_scalarId (m : Model) (name : String) : (m.scalarId name).Proper := by
  unfold scalarId
  cases m.field? name with
  | none => exact Outcome.proper_raise fun _ h => by cases h
  | some f =>
    by_cases he : f.isExpandable = true
    · simp only [if_pos he]
      exact Outcome.proper_raise fun _ h => by cases h
    · simp only [if_neg he]
      exact Outcome.proper_ok _

end Model

theorem Filter.proper_resolve (m : Model) (f : Filter) : (f.resolve m).Proper :=
  (m.proper_scalarId f.field).bind fun _ _ => Outcome.proper_ok _

theorem Order.proper_resolve (m : Model) (o : Order) : (o.resolve m).Proper :=
  (m.proper_scalarId o.field).bind fun _ _ => Outcome.proper_ok _

namespace Query

/-- The query names a chain of fields: one of its selectors or directives does. -/
def Names (q : Query) (s : Schema) (k : Mention) (path : List Member) : Prop :=
  ∃ m, s.modelNamed? q.model = some m ∧ ∃ x ∈ q.allSelectors, x.Names s k m path

/-- The query names something within the end of a chain. -/
def Picks (q : Query) (s : Schema) (path : List Member) : Prop :=
  ∃ k x, q.Names s k (path ++ [x])

variable {q : Query} {s : Schema} {k : Mention} {path : List Member}

theorem Names.ne_nil (h : q.Names s k path) : path ≠ [] := by
  obtain ⟨m, _, x, _, h⟩ := h
  exact h.ne_nil

theorem Names.has (h : q.Names s k path) : ∀ y ∈ path, s.Has y := by
  obtain ⟨m, hm, x, _, h⟩ := h
  exact h.has (Schema.mem_of_modelNamed? hm)

theorem Names.take {before after : List Member} {y : Member}
    (h : q.Names s k (before ++ y :: after)) (ha : after ≠ []) :
    q.Names s .expandable (before ++ [y]) := by
  obtain ⟨m, hm, x, hx, h⟩ := h
  exact ⟨m, hm, x, hx, h.take rfl ha⟩

/-- Where a chain of expandables is named, the first one is selected at the root. -/
theorem Names.head {x : Member} {path : List Member} (h : q.Names s .expandable (x :: path)) :
    q.Names s .expandable [x] := by
  cases path with
  | nil => exact h
  | cons y path =>
    have hcons : q.Names s .expandable ([] ++ x :: y :: path) := h
    exact hcons.take (List.cons_ne_nil y path)

theorem Names.expandable_of_bare (h : q.Names s .bare path) : q.Names s .expandable path := by
  obtain ⟨m, hm, x, hx, h⟩ := h
  exact ⟨m, hm, x, hx, h.expandable_of_bare⟩

end Query

/-- The selection that picks on a model come to, without keys. -/
def Pick.merged (m : Model) (picks : List Pick) : Selection := (Selection.empty m.id).addAll picks

namespace Query

variable {q : Query} {s : Schema} {k : Mention} {path : List Member}

theorem has_of_named (h : path = [] ∨ q.Names s .expandable path) : ∀ y ∈ path, s.Has y := by
  rcases h with rfl | h
  · simp
  · exact h.has

/-- What a resolved query consists of. -/
structure ResolvesTo (q : Query) (s : Schema) (r : Resolved) (picks : List Pick) : Prop where
  model : s.modelNamed? q.model = some r.model
  selectors : q.allSelectors.mapM (·.resolve s r.model) = .ok picks
  filters : q.directives.filters.mapM (·.resolve r.model) = .ok r.filters
  sorts : q.directives.orders.mapM (·.resolve r.model) = .ok r.sorts
  selection : r.selection = (Pick.merged r.model picks).keyed s
  named : r.named =
    (Pick.namedAll picks ++ r.filters.map (·.field) ++ r.sorts.map (·.field)).eraseDups
  source : r.source = q.source
  top : r.top = q.directives.top
  skip : r.skip = q.directives.skip
  shaped : r.shaped = q.directives.shapesPrimary

theorem ResolvesTo.model_mem {r : Resolved} {picks : List Pick} (h : q.ResolvesTo s r picks) :
    r.model ∈ s.models := Schema.mem_of_modelNamed? h.model

theorem wellTyped_picks (hs : s.Sound) {m : Model} (hm : m ∈ s.models) {xs : List Selector}
    {picks : List Pick} (h : xs.mapM (·.resolve s m) = .ok picks) :
    ∀ p ∈ picks, p.WellTyped s m := by
  intro p hp
  obtain ⟨x, _, hx⟩ := Except.exists_of_mapM_eq_ok h p hp
  exact x.wellTyped_of_resolve hs hm hx

/-- Keys can be added to what the selectors of a model come to. -/
theorem ensureKey_of_picks (hs : s.Sound) {m : Model} (hm : m ∈ s.models) {xs : List Selector}
    {picks : List Pick} (h : xs.mapM (·.resolve s m) = .ok picks) :
    ((Selection.empty m.id).addAll picks).ensureKey s = .ok ((Pick.merged m picks).keyed s) :=
  ((Selection.wellTyped_empty hm).addAll hs hm rfl (wellTyped_picks hs hm h)).1.ensureKey hs

theorem resolvesTo_of_resolve (hs : s.Sound) {r : Resolved} (h : q.resolve s = .ok r) :
    ∃ picks, q.ResolvesTo s r picks := by
  unfold resolve at h
  split at h
  · cases h
  · rename_i m hm
    have hmem := Schema.mem_of_modelNamed? hm
    rw [Selector.resolveAll_eq_mapM (hs.model_of_mem hmem)] at h
    obtain ⟨picks, hp, h⟩ := Except.bind_eq_ok_iff.mp h
    obtain ⟨filters, hf, h⟩ := Except.bind_eq_ok_iff.mp h
    obtain ⟨sorts, ho, h⟩ := Except.bind_eq_ok_iff.mp h
    simp only [ensureKey_of_picks hs hmem hp, Outcome.liftM_eq_ofLookup, Outcome.ofLookup_ok,
      Except.ok_bind] at h
    cases h
    exact ⟨picks, hm, hp, hf, ho, rfl, rfl, rfl, rfl, rfl, rfl⟩

/-- Without keys, the merged selection records what the query names, beside its root level. -/
theorem ResolvesTo.records_iff {r : Resolved} {picks : List Pick} (h : q.ResolvesTo s r picks)
    (hs : s.Sound) (ids : FieldPath) :
    (Pick.merged r.model picks).Records k ids ↔
      (k = .expandable ∧ ids = []) ∨ ∃ path, q.Names s k path ∧ path.map Member.id = ids := by
  have hmem := h.model_mem
  rw [Pick.merged, Selection.records_addAll_iff, Selection.records_empty_iff]
  refine or_congr_right ⟨?_, ?_⟩
  · rintro ⟨p, hp, hn⟩
    obtain ⟨x, hx, hr⟩ := Except.exists_of_mapM_eq_ok h.selectors p hp
    obtain ⟨path, hpath, rfl⟩ := (x.names_of_resolve hs hmem hr ids).mp hn
    exact ⟨path, ⟨_, h.model, x, hx, hpath⟩, rfl⟩
  · rintro ⟨path, ⟨m, hm, x, hx, hn⟩, rfl⟩
    cases h.model.symm.trans hm
    obtain ⟨p, hp, hr⟩ := Except.forall_of_mapM_eq_ok h.selectors x hx
    exact ⟨p, hp, (x.names_of_resolve hs hmem hr _).mpr ⟨path, hn, rfl⟩⟩

end Query

namespace Selection

/-- A level picks something if it records a mention one step below. -/
theorem isDefault_eq_false_iff (a : Selection) : a.isDefault = false ↔
    ∃ f, a.Records .scalar [f] ∨ a.Records .expandable [f] := by
  obtain ⟨m, fs, bs, d⟩ := a
  cases fs with
  | cons g fs =>
    simp only [isDefault, fields_mk, List.isEmpty_cons, Bool.false_and, true_iff]
    exact ⟨g, .inl (.inl ⟨rfl, rfl, List.mem_cons_self⟩)⟩
  | nil =>
    cases bs with
    | nil => simp [isDefault, Records, Branches.isEmpty, Branches.get?]
    | cons g n rest =>
      simp only [isDefault, branches_mk, Branches.isEmpty, Bool.and_false, true_iff]
      exact ⟨g, .inr (.inr ⟨n, by simp [Branches.get?], .inl rfl⟩)⟩

/-- The model of a level below a level is the target of the expandable between them. -/
theorem WellTyped.model_of_level {s : Schema} {a n : Selection} (ha : a.WellTyped s)
    (hs : s.Sound) {path : FieldPath} {x : Member} (hx : s.Has x)
    (h : a.level? (path ++ [x.id]) = some n) :
    ∃ e, x.field.type = .expandable e ∧ e.target = n.model := by
  rw [level?_append, Option.bind_eq_some_iff] at h
  obtain ⟨k, hk, hn⟩ := h
  obtain ⟨_, hb, ⟨⟩⟩ := Option.bind_eq_some_iff.mp hn
  obtain ⟨y, e, hy, hid, he, ht⟩ :=
    (ha.level hk).member_of_branch (Branches.mem_toList_of_get? hb)
  cases hs.eq_of_id_eq hy hx hid
  exact ⟨e, he, ht⟩

end Selection

namespace Query

variable {q : Query} {s : Schema} {r : Resolved} {picks : List Pick} {path : List Member}

/-- The level of a merged selection at a chain of expandables. -/
structure LevelAt (q : Query) (s : Schema) (root : Model) (path : List Member) (n : Selection) :
    Prop where
  named : path = [] ∨ q.Names s .expandable path
  model : ∃ m ∈ s.models, s.endOf? root path = some m ∧ n.model = m.id
  defaults : n.includeDefaults = true ↔ q.Names s .bare path
  picks : n.isDefault = false ↔ q.Picks s path
  scalars : ∀ m, s.endOf? root path = some m → ∀ f, f ∈ n.fields ↔
    (∃ x, q.Names s .scalar (path ++ [x]) ∧ x.id = f) ∨ (q.Picks s path ∧ f = m.key)

theorem ResolvesTo.wellTyped_merged (h : q.ResolvesTo s r picks) (hs : s.Sound) :
    (Pick.merged r.model picks).WellTyped s ∧ (Pick.merged r.model picks).model = r.model.id :=
  (Selection.wellTyped_empty h.model_mem).addAll hs h.model_mem rfl
    (wellTyped_picks hs h.model_mem h.selectors)

theorem ResolvesTo.exists_chain (h : q.ResolvesTo s r picks) (hs : s.Sound) {ids : FieldPath}
    {n : Selection} (hn : (Pick.merged r.model picks).level? ids = some n) :
    ∃ path, path.map Member.id = ids ∧ (path = [] ∨ q.Names s .expandable path) := by
  have hrecords := (Selection.records_expandable_iff _ ids).mpr ⟨n, hn⟩
  rcases (h.records_iff hs ids).mp hrecords with ⟨_, rfl⟩ | ⟨path, hp, rfl⟩
  · exact ⟨[], rfl, .inl rfl⟩
  · exact ⟨path, rfl, .inr hp⟩

section Level

variable {n : Selection} (h : q.ResolvesTo s r picks) (hs : s.Sound)
  (hn : (Pick.merged r.model picks).level? (path.map Member.id) = some n)
  (has : ∀ y ∈ path, s.Has y)

include h hs hn has

/-- The query names a field below a chain exactly where the level records it. -/
theorem ResolvesTo.records_below_iff (k : Mention) (f : FieldId) :
    n.Records k [f] ↔ ∃ x, q.Names s k (path ++ [x]) ∧ x.id = f := by
  rw [← Selection.records_append_iff hn, h.records_iff hs]
  constructor
  · rintro (⟨_, hf⟩ | ⟨path', hp, hf⟩)
    · exact absurd hf (by simp)
    · obtain ⟨before, after, rfl, hb, ha⟩ := List.map_eq_append_iff.mp hf
      obtain ⟨x, rfl, hx⟩ := List.map_eq_singleton_iff.mp ha
      have hbefore : before = path :=
        hs.eq_of_map_id_eq (fun y hy => hp.has y (List.mem_append_left _ hy)) has hb
      exact ⟨x, hbefore ▸ hp, hx⟩
  · rintro ⟨x, hx, rfl⟩
    exact .inr ⟨path ++ [x], hx, by simp⟩

theorem ResolvesTo.picks_iff : n.isDefault = false ↔ q.Picks s path := by
  have below := h.records_below_iff hs hn has
  rw [Selection.isDefault_eq_false_iff]
  constructor
  · rintro ⟨f, hf | hf⟩ <;> obtain ⟨x, hx, _⟩ := (below _ f).mp hf
    · exact ⟨.scalar, x, hx⟩
    · exact ⟨.expandable, x, hx⟩
  · rintro ⟨k, x, hx⟩
    refine ⟨x.id, ?_⟩
    cases k with
    | scalar => exact .inl ((below _ _).mpr ⟨x, hx, rfl⟩)
    | expandable => exact .inr ((below _ _).mpr ⟨x, hx, rfl⟩)
    | bare => exact .inr ((below _ _).mpr ⟨x, hx.expandable_of_bare, rfl⟩)

theorem ResolvesTo.includeDefaults_iff : n.includeDefaults = true ↔ q.Names s .bare path := by
  have hrecords := (Selection.records_bare_iff (Pick.merged r.model picks) _).symm.trans
    (h.records_iff hs (path.map Member.id))
  constructor
  · intro hd
    rcases hrecords.mp ⟨n, hn, hd⟩ with ⟨hk, _⟩ | ⟨path', hp, he⟩
    · cases hk
    · exact hs.eq_of_map_id_eq hp.has has he ▸ hp
  · intro hb
    obtain ⟨n', hn', hd⟩ := hrecords.mpr (.inr ⟨path, hb, rfl⟩)
    cases hn.symm.trans hn'
    exact hd

theorem ResolvesTo.model_of_level :
    ∃ m ∈ s.models, s.endOf? r.model path = some m ∧ n.model = m.id := by
  obtain ⟨hw, hid⟩ := h.wellTyped_merged hs
  rcases List.eq_nil_or_concat path with rfl | ⟨path, x, rfl⟩
  · cases hn
    exact ⟨r.model, h.model_mem, rfl, hid⟩
  · obtain ⟨m, hm, hnm⟩ := (hw.level hn).model_mem
    rw [List.concat_eq_append] at *
    obtain ⟨e, he, ht⟩ := hw.model_of_level hs (has x (by simp)) (by simpa using hn)
    refine ⟨m, hm, ?_, hnm⟩
    rw [Schema.endOf?_concat, he, ← hs.model?_of_mem m hm, ← hnm, ← ht]
    rfl

end Level

/-- The levels of the selection are the chains of expandables that the query names. -/
theorem ResolvesTo.levelAt (h : q.ResolvesTo s r picks) (hs : s.Sound) {ids : FieldPath}
    {n : Selection} (hn : r.selection.level? ids = some n) :
    ∃ path, path.map Member.id = ids ∧ q.LevelAt s r.model path n := by
  rw [h.selection, Selection.level?_keyed, Option.map_eq_some_iff] at hn
  obtain ⟨n, hn, rfl⟩ := hn
  obtain ⟨path, rfl, named⟩ := h.exists_chain hs hn
  have has := has_of_named named
  have picks := h.picks_iff hs hn has
  obtain ⟨m, hm, hend, hid⟩ := h.model_of_level hs hn has
  refine ⟨path, rfl, named, ⟨m, hm, hend, by simpa using hid⟩, ?_, ?_, ?_⟩
  · rw [Selection.includeDefaults_keyed, h.includeDefaults_iff hs hn has]
  · rw [Selection.isDefault_keyed, picks]
  · intro m' hm' f
    cases hend.symm.trans hm'
    rw [Selection.mem_fields_keyed_iff (hid ▸ hs.model?_of_mem m hm), picks,
      ← h.records_below_iff hs hn has .scalar f]
    simp [Selection.Records]

theorem ResolvesTo.levelAt_of_has (h : q.ResolvesTo s r picks) (hs : s.Sound)
    (has : ∀ y ∈ path, s.Has y) {n : Selection}
    (hn : r.selection.level? (path.map Member.id) = some n) : q.LevelAt s r.model path n := by
  obtain ⟨path', he, hl⟩ := h.levelAt hs hn
  rwa [hs.eq_of_map_id_eq (has_of_named hl.named) has he] at hl

theorem ResolvesTo.levelAt_root (h : q.ResolvesTo s r picks) (hs : s.Sound) :
    q.LevelAt s r.model [] r.selection :=
  h.levelAt_of_has hs (by simp) (Selection.level?_nil r.selection)

/-- Every chain of expandables that the query names is a level of the selection. -/
theorem ResolvesTo.exists_level (h : q.ResolvesTo s r picks) (hs : s.Sound)
    (hp : q.Names s .expandable path) :
    ∃ n, r.selection.level? (path.map Member.id) = some n ∧ q.LevelAt s r.model path n := by
  obtain ⟨n, hn⟩ := (Selection.records_expandable_iff _ _).mp
    ((h.records_iff hs _).mpr (.inr ⟨path, hp, rfl⟩))
  have hk : r.selection.level? (path.map Member.id) = some (n.keyed s) := by
    rw [h.selection, Selection.level?_keyed, hn]
    rfl
  exact ⟨n.keyed s, hk, h.levelAt_of_has hs hp.has hk⟩

/-- The fields a query names are those at the ends of its chains and those of filters and sorts. -/
theorem ResolvesTo.mem_named_iff (h : q.ResolvesTo s r picks) (hs : s.Sound) (f : FieldId) :
    f ∈ r.named ↔ (∃ k path x, q.Names s k (path ++ [x]) ∧ x.id = f) ∨
      (∃ p ∈ r.filters, p.field = f) ∨ ∃ o ∈ r.sorts, o.field = f := by
  have hmem := h.model_mem
  rw [h.named, List.mem_eraseDups, List.mem_append, List.mem_append, List.mem_map, List.mem_map,
    or_assoc, Pick.namedAll_eq_flatMap, List.mem_flatMap]
  refine or_congr_left ⟨?_, ?_⟩
  · rintro ⟨p, hp, hf⟩
    obtain ⟨k, ids, hn⟩ := (p.mem_named_iff f).mp hf
    obtain ⟨x, hx, hr⟩ := Except.exists_of_mapM_eq_ok h.selectors p hp
    obtain ⟨path, hpath, he⟩ := (x.names_of_resolve hs hmem hr _).mp hn
    obtain ⟨before, after, rfl, _, ha⟩ := List.map_eq_append_iff.mp he
    obtain ⟨y, rfl, hy⟩ := List.map_eq_singleton_iff.mp ha
    exact ⟨k, before, y, ⟨_, h.model, x, hx, hpath⟩, hy⟩
  · rintro ⟨k, path, y, ⟨m, hm, x, hx, hn⟩, rfl⟩
    cases h.model.symm.trans hm
    obtain ⟨p, hp, hr⟩ := Except.forall_of_mapM_eq_ok h.selectors x hx
    refine ⟨p, hp, (p.mem_named_iff _).mpr ⟨k, path.map Member.id, ?_⟩⟩
    exact (x.names_of_resolve hs hmem hr _).mpr ⟨_, hn, by simp⟩

theorem ResolvesTo.filters_scalar (h : q.ResolvesTo s r picks) :
    ∀ p ∈ r.filters, r.model.HasScalar p.field := by
  intro p hp
  obtain ⟨f, _, hf⟩ := Except.exists_of_mapM_eq_ok h.filters p hp
  obtain ⟨id, hid, hf⟩ := Except.bind_eq_ok_iff.mp hf
  cases hf
  exact Model.hasScalar_of_scalarId hid

theorem ResolvesTo.sorts_scalar (h : q.ResolvesTo s r picks) :
    ∀ o ∈ r.sorts, r.model.HasScalar o.field := by
  intro o ho
  obtain ⟨f, _, hf⟩ := Except.exists_of_mapM_eq_ok h.sorts o ho
  obtain ⟨id, hid, hf⟩ := Except.bind_eq_ok_iff.mp hf
  cases hf
  exact Model.hasScalar_of_scalarId hid

/-- Every field that a query names is a member of the registry. -/
theorem ResolvesTo.named_has (h : q.ResolvesTo s r picks) (hs : s.Sound) :
    ∀ f ∈ r.named, ∃ x, s.Has x ∧ x.id = f := by
  have hmem := h.model_mem
  intro f hf
  rcases (h.mem_named_iff hs f).mp hf with ⟨k, path, x, hx, rfl⟩ | ⟨p, hp, rfl⟩ | ⟨o, ho, rfl⟩
  · exact ⟨x, hx.has x (by simp), rfl⟩
  · obtain ⟨x, hx, hid, _⟩ := h.filters_scalar p hp
    exact ⟨⟨_, x⟩, ⟨hmem, hx⟩, hid⟩
  · obtain ⟨x, hx, hid, _⟩ := h.sorts_scalar o ho
    exact ⟨⟨_, x⟩, ⟨hmem, hx⟩, hid⟩

/-- Resolution fails only for names that are unknown or stand where they cannot. -/
theorem proper_resolve (hs : s.Sound) (q : Query) : (q.resolve s).Proper := by
  unfold resolve
  split
  · exact Outcome.proper_raise fun _ => nofun
  · rename_i m hm
    have hmem := Schema.mem_of_modelNamed? hm
    rw [Selector.resolveAll_eq_mapM (hs.model_of_mem hmem)]
    refine Outcome.Proper.bind (Outcome.Proper.mapM fun x _ => x.proper_resolve hs hmem)
      fun picks hp => ?_
    refine Outcome.Proper.bind (.mapM fun f _ => f.proper_resolve m) fun filters _ => ?_
    refine Outcome.Proper.bind (.mapM fun o _ => o.proper_resolve m) fun sorts _ => ?_
    simp only [ensureKey_of_picks hs hmem hp, Outcome.liftM_eq_ofLookup, Outcome.ofLookup_ok,
      Except.ok_bind]
    exact Outcome.proper_ok _

end Query

end ODataPlan
