import ODataPlan.Plan.Planner
import ODataPlan.Proofs.Choice
import ODataPlan.Proofs.Plan.Expansion

/-! The plan of a query as a value computed from ids alone. Main statement: once a dialect is chosen
there is a plan exactly if every expandable selected at the root can be loaded, inline or by a
request of its own, and otherwise the plan is refused as not expressible. -/
namespace ODataPlan

theorem Directives.shapesPrimary_eq_false_iff (d : Directives) : d.shapesPrimary = false ↔
    d.filters = [] ∧ d.orders = [] ∧ d.top = none ∧ d.skip = none := by
  simp only [shapesPrimary, Bool.or_eq_false_iff, Option.isSome_eq_false_iff, Option.isNone_iff_eq_none,
    Bool.not_eq_false', List.isEmpty_iff]
  tauto

namespace Resolved

/-- The entries of the main request's key and other scalars. -/
def rootEntries (s : Schema) (d : Dialect) (r : Resolved) : List FieldPath :=
  s.entry d [] r.model.key ++ (r.model.fields.filter fun f =>
    f.id != r.model.key && r.selection.fields.contains f.id).flatMap fun f => s.entry d [] f.id

def loaded (s : Schema) (d : Dialect) (r : Resolved) : List (Projection × List FollowUp) :=
  r.expansions.map fun x => x.1.loaded s d x.2

/-- What the main request projects and the requests beside it. -/
def block (s : Schema) (d : Dialect) (r : Resolved) : Projection × List FollowUp :=
  if r.selection.isDefault then (s.defaultBlock d r.model, [])
  else (.selecting (r.rootEntries s d) ++ .concat ((r.loaded s d).map (·.1)) ++
    .selecting (r.model.requiredEntries d), (r.loaded s d).flatMap (·.2))

/-- The plan of a resolved query on a dialect and path. -/
def planned (s : Schema) (d : Dialect) (path : String) (r : Resolved) : Plan :=
  ⟨d, ⟨d, r.model.id, path, (r.block s d).1.clauses ++ r.shapingClauses⟩, (r.block s d).2⟩

def Loadable (s : Schema) (d : Dialect) (r : Resolved) : Prop :=
  ∀ x ∈ r.expansions, x.1.Loadable s d r.source r.shaped x.2

end Resolved

namespace Query.ResolvesTo

variable {q : Query} {s : Schema} {d preferred : Dialect} {r : Resolved} {picks : List Pick}

theorem wellTyped (h : q.ResolvesTo s r picks) (hs : s.Sound) :
    r.selection.WellTyped s ∧ r.selection.model = r.model.id := by
  obtain ⟨hw, hid⟩ := h.wellTyped_merged hs
  rw [h.selection, Selection.model_keyed]
  exact ⟨hw.keyed hs, hid⟩

/-- The expandables to load are the branches of the selection, each with its declared field. -/
theorem mem_expansions_iff (h : q.ResolvesTo s r picks) (hs : s.Sound) {x : Member}
    {a : Selection} : (x, a) ∈ r.expansions ↔ s.Has x ∧ r.selection.branches.get? x.id = some a := by
  unfold Resolved.expansions Model.members
  simp only [List.mem_filterMap, List.mem_map, Option.map_eq_some_iff, Prod.mk.injEq]
  constructor
  · rintro ⟨_, ⟨f, hf, rfl⟩, n, hn, rfl, rfl⟩
    exact ⟨⟨h.model_mem, hf⟩, hn⟩
  · rintro ⟨hx, hn⟩
    obtain ⟨hw, hid⟩ := h.wellTyped hs
    have hm : x.model.id = r.model.id := by
      rw [← hs.model_id_of_has hx, ← hid, ← hw.model_of_branch hs (Branches.mem_toList_of_get? hn)]
      rfl
    obtain ⟨m, f⟩ := x
    obtain rfl : m = r.model := hs.eq_of_model_id_eq hx.1 h.model_mem hm
    exact ⟨_, ⟨f, hx.2, rfl⟩, a, hn, rfl, rfl⟩

/-- A selected expandable has its target's selection within it. -/
theorem target_of_expansion (h : q.ResolvesTo s r picks) (hs : s.Sound) {x : Member}
    {a : Selection} (hx : (x, a) ∈ r.expansions) :
    a.WellTyped s ∧ ∃ e, x.field.type = .expandable e ∧ e.target = a.model := by
  obtain ⟨hx, ha⟩ := (h.mem_expansions_iff hs).mp hx
  have hw := (h.wellTyped hs).1
  obtain ⟨y, e, hy, hid, he, ht⟩ := hw.member_of_branch (Branches.mem_toList_of_get? ha)
  cases hs.eq_of_id_eq hy hx hid
  exact ⟨hw.of_branch (Branches.mem_toList_of_get? ha), e, he, ht⟩

/-- Where an expandable is selected, nothing is left to the default set of the model. -/
theorem isDefault_of_expansion (h : q.ResolvesTo s r picks) (hs : s.Sound) {x : Member}
    {a : Selection} (hx : (x, a) ∈ r.expansions) : r.selection.isDefault = false := by
  refine Bool.eq_false_iff.mpr fun hd => ?_
  simpa [Selection.get?_of_isDefault hd] using ((h.mem_expansions_iff hs).mp hx).2

theorem projection_decides (h : q.ResolvesTo s r picks) (hs : s.Sound) :
    (r.projection s d).Decides .notExpressible (r.Loadable s d) (r.block s d) := by
  unfold Resolved.projection Resolved.block
  split
  · rename_i hd
    rw [hs.defaultProjection_eq h.model_mem]
    refine .inl ⟨fun x hx => ?_, rfl⟩
    rw [h.isDefault_of_expansion hs hx] at hd
    cases hd
  · obtain ⟨k, hk, he⟩ := hs.keyField_entries (d := d) h.model_mem
    have hl : Outcome.Decides .notExpressible
        (r.expansions.mapM fun x => x.2.load s d r.source r.shaped x.1)
        (r.Loadable s d) (r.loaded s d) := Outcome.Decides.mapM fun x hx => by
      obtain ⟨ha, e, he, ht⟩ := h.target_of_expansion hs hx
      exact ha.load_decides hs he ht
    have hr : s.entry d [] r.model.key ++ (r.model.fields.filter fun f =>
        f.id != r.model.key && r.selection.fields.contains f.id).flatMap (·.entries d []) =
        r.rootEntries s d :=
      congrArg _ <| List.flatMap_congr fun f hf =>
        hs.entries_eq (x := ⟨r.model, f⟩) ⟨h.model_mem, List.mem_of_mem_filter hf⟩
    simp only [hk, he, hr, Outcome.liftM_eq_ofLookup, Outcome.ofLookup_ok, Except.ok_bind]
    exact hl.bind_pure _

theorem plan_decides (h : q.ResolvesTo s r picks) (hs : s.Sound)
    (hd : r.dialect s preferred = .ok d) {path : String}
    (hp : r.model.path? d r.source = some path) :
    (r.plan s preferred).Decides .notExpressible (r.Loadable s d) (r.planned s d path) := by
  unfold Resolved.plan
  rw [hd, Except.ok_bind, hp]
  exact (h.projection_decides hs).bind_pure _

/-- The levels below a level are the chains of expandables that the query names from it. -/
theorem exists_level_iff (h : q.ResolvesTo s r picks) (hs : s.Sound) {path : List Member}
    (hp : ∀ y ∈ path, s.Has y) : (∃ n, r.selection.level? (path.map Member.id) = some n) ↔
      path = [] ∨ q.Names s .expandable path := by
  constructor
  · rintro ⟨n, hn⟩
    exact (h.levelAt_of_has hs hp hn).named
  · rintro (rfl | named)
    · exact ⟨_, rfl⟩
    · obtain ⟨n, hn, _⟩ := h.exists_level hs named
      exact ⟨n, hn⟩

theorem exists_expansion_iff (h : q.ResolvesTo s r picks) (hs : s.Sound) {x : Member} :
    (∃ a, (x, a) ∈ r.expansions) ↔ q.Names s .expandable [x] := by
  simp only [h.mem_expansions_iff hs]
  constructor
  · rintro ⟨a, hx, ha⟩
    have hlevel : ∃ n, r.selection.level? ([x].map Member.id) = some n := ⟨a, by simpa using ha⟩
    exact ((h.exists_level_iff hs (by simpa using hx)).mp hlevel).resolve_left
      (List.cons_ne_nil x [])
  · intro hx
    obtain ⟨a, ha⟩ := (h.exists_level_iff hs hx.has).mpr (.inr hx)
    exact ⟨a, hx.has x (by simp), by simpa using ha⟩

theorem level?_of_expansion (h : q.ResolvesTo s r picks) (hs : s.Sound) {x : Member}
    {a : Selection} (hx : (x, a) ∈ r.expansions) (ids : FieldPath) :
    r.selection.level? (x.id :: ids) = a.level? ids := by
  rw [Selection.level?_cons, ((h.mem_expansions_iff hs).mp hx).2, Option.bind_some]

/-- The levels within an expandable are the chains of expandables that the query names from it. -/
theorem levelAt_of_expansion (h : q.ResolvesTo s r picks) (hs : s.Sound) {x : Member}
    {a n : Selection} {ids : FieldPath} (hx : (x, a) ∈ r.expansions) (hn : a.level? ids = some n) :
    ∃ path, path.map Member.id = ids ∧ q.Names s .expandable (x :: path) ∧
      q.LevelAt s r.model (x :: path) n := by
  obtain ⟨path, he, hl⟩ := h.levelAt hs ((h.level?_of_expansion hs hx ids).trans hn)
  obtain ⟨y, path, rfl, hid, rfl⟩ := List.map_eq_cons_iff.mp he
  have named := hl.named.resolve_left (List.cons_ne_nil y path)
  cases hs.eq_of_id_eq (named.has y List.mem_cons_self) ((h.mem_expansions_iff hs).mp hx).1 hid
  exact ⟨path, rfl, named, hl⟩

theorem exists_level_of_expansion (h : q.ResolvesTo s r picks) (hs : s.Sound) {x : Member}
    {a : Selection} {path : List Member} (hx : (x, a) ∈ r.expansions)
    (hp : q.Names s .expandable (x :: path)) :
    ∃ n, a.level? (path.map Member.id) = some n ∧ q.LevelAt s r.model (x :: path) n := by
  obtain ⟨n, hn, hl⟩ := h.exists_level hs hp
  exact ⟨n, (h.level?_of_expansion hs hx _).symm.trans hn, hl⟩

/-- Something is picked within a selected expandable where the query names a field below it. -/
theorem picks_iff_of_expansion (h : q.ResolvesTo s r picks) (hs : s.Sound) {x : Member}
    {a : Selection} (hx : (x, a) ∈ r.expansions) : a.isDefault = false ↔ q.Picks s [x] := by
  obtain ⟨n, hn, hl⟩ := h.exists_level_of_expansion hs hx ((h.exists_expansion_iff hs).mp ⟨a, hx⟩)
  obtain rfl : a = n := by simpa using hn
  exact hl.picks

theorem picks_iff_of_root (h : q.ResolvesTo s r picks) (hs : s.Sound) :
    r.selection.isDefault = false ↔ q.Picks s [] := (h.levelAt_root hs).picks

/-- What is selected within an expandable fits if every expandable that the query names below it
can be expanded inline at its depth. -/
theorem fits_iff (h : q.ResolvesTo s r picks) (hs : s.Sound) {x : Member} {a : Selection}
    (hx : (x, a) ∈ r.expansions) {depth : Nat} : a.Fits s d depth ↔ ∀ path y,
      q.Names s .expandable (x :: path ++ [y]) → y.InlineAt d (path.length + depth) := by
  constructor
  · intro hf path y hy
    obtain ⟨n, hn, _⟩ := h.exists_level_of_expansion hs hx hy
    simpa using hf (path.map Member.id) y n (hy.has y (by simp)) (by simpa using hn)
  · intro hf ids y n hy hn
    obtain ⟨path, he, named, _⟩ := h.levelAt_of_expansion hs hx hn
    obtain ⟨before, after, rfl, rfl, hlast⟩ := List.map_eq_append_iff.mp he
    obtain ⟨z, rfl, hid⟩ := List.map_eq_singleton_iff.mp hlast
    cases hs.eq_of_id_eq (named.has z (by simp)) hy hid
    simpa using hf before y named

end Query.ResolvesTo

namespace Query

/-- An expandable selected at the root is loaded by the main request, with everything below it. -/
def LoadsInline (q : Query) (s : Schema) (d : Dialect) (x : Member) : Prop :=
  x.InlineAt d 1 ∧ ∀ path y, q.Names s .expandable (x :: path ++ [y]) →
    y.InlineAt d (path.length + 2)

/-- An expandable selected at the root is loaded by a request of its own, with everything below. -/
def LoadsApart (q : Query) (s : Schema) (d : Dialect) (x : Member) : Prop :=
  ¬ x.InlineAt d 1 ∧ q.source = .entity ∧
    (q.directives.filters = [] ∧ q.directives.orders = [] ∧ q.directives.top = none ∧
      q.directives.skip = none) ∧ (x.requestPath? d).isSome = true ∧
    ∀ path y, q.Names s .expandable (x :: path ++ [y]) → y.InlineAt d (path.length + 1)

variable {q : Query} {s : Schema} {d : Dialect} {r : Resolved} {picks : List Pick}

/-- Whether a resolved query can be loaded depends on what the query names alone. -/
theorem ResolvesTo.loadable_iff (h : q.ResolvesTo s r picks) (hs : s.Sound) :
    r.Loadable s d ↔
      ∀ x, q.Names s .expandable [x] → q.LoadsInline s d x ∨ q.LoadsApart s d x := by
  have each : ∀ x a, (x, a) ∈ r.expansions → (x.Loadable s d r.source r.shaped a ↔
      q.LoadsInline s d x ∨ q.LoadsApart s d x) := by
    intro x a hx
    rw [Member.Loadable, Member.Requestable, h.fits_iff hs hx, h.fits_iff hs hx, h.source, h.shaped,
      Directives.shapesPrimary_eq_false_iff]
    rfl
  constructor
  · intro hl x hx
    obtain ⟨a, ha⟩ := (h.exists_expansion_iff hs).mpr hx
    exact (each x a ha).mp (hl _ ha)
  · rintro hl ⟨x, a⟩ ha
    exact (each x a ha).mpr (hl x ((h.exists_expansion_iff hs).mp ⟨a, ha⟩))

end Query

namespace Db

/-- Once the names of a query are looked up and a dialect is chosen, there is a plan exactly if every
expandable selected at the root can be loaded; otherwise the query is refused as not expressible. -/
theorem plan_eq_ok_iff_loads {b : Builder} {c : Connection} {db : Db} {q : Query} {r : Resolved}
    {d : Dialect} (hb : b.build c = .ok db) (hr : q.resolve db.schema = .ok r)
    (hd : r.dialect db.schema (q.preference.getD db.preferred) = .ok d) :
    ((∃ p, db.plan q = .ok p) ↔ ∀ x, q.Names db.schema .expandable [x] →
      q.LoadsInline db.schema d x ∨ q.LoadsApart db.schema d x) ∧
    ((¬ ∃ p, db.plan q = .ok p) →
      ∃ message, db.plan q = (FailureKind.notExpressible message).raise) := by
  have hs := Builder.sound_of_build hb
  obtain ⟨picks, h⟩ := Query.resolvesTo_of_resolve hs hr
  obtain ⟨⟨path, hp⟩, _⟩ := Resolved.serves_of_dialect hd
  have hplan : db.plan q = r.plan db.schema (q.preference.getD db.preferred) := by
    rw [plan, Query.plan, hr, Except.ok_bind]
  have hdec := h.plan_decides hs hd hp
  rw [hplan, ← h.loadable_iff hs, hdec.eq_ok_iff]
  refine ⟨Iff.rfl, fun hn => ?_⟩
  exact (hdec.resolve_left fun hl => hn hl.1).2

/-- The sample query has a plan; asked for one page of it, its lists cannot be loaded. -/
theorem plan_eq_ok_iff_loads_sample :
    (∀ x, Sample.query.Names Sample.db.schema .expandable [x] →
      Sample.query.LoadsInline Sample.db.schema .rest x ∨
        Sample.query.LoadsApart Sample.db.schema .rest x) ∧
    ∃ message,
      Sample.db.plan (Sample.query.top 1) = (FailureKind.notExpressible message).raise := by
  have hd : (Sample.query.resolve Sample.db.schema >>= fun r => r.dialect Sample.db.schema
      (Sample.query.preference.getD Sample.db.preferred)) = .ok .rest := by decide +kernel
  have hd' : ((Sample.query.top 1).resolve Sample.db.schema >>= fun r => r.dialect
      Sample.db.schema ((Sample.query.top 1).preference.getD Sample.db.preferred)) = .ok .rest := by
    decide +kernel
  obtain ⟨r, hr, hd⟩ := Except.bind_eq_ok_iff.mp hd
  obtain ⟨r', hr', hd'⟩ := Except.bind_eq_ok_iff.mp hd'
  constructor
  · refine (plan_eq_ok_iff_loads Sample.build_eq hr hd).1.mp (Except.exists_of_isOk ?_)
    decide +kernel
  · refine (plan_eq_ok_iff_loads Sample.build_eq hr' hd').2 ?_
    rintro ⟨p, hp⟩
    have : (Sample.db.plan (Sample.query.top 1)).isOk = false := by decide +kernel
    simp [hp, Except.isOk, Except.toBool] at this

end Db

end ODataPlan
