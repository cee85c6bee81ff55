import ODataPlan.Proofs.Plan.Loading
import ODataPlan.Proofs.Reordering

/-! The dialect that a plan is bound to. Main statement: it is settled by the dialects that can
address the main model and by those that serve each field which the query names, and by nothing
else; which of three refusals a query meets where none is left depends on the same two. -/
namespace ODataPlan

namespace DialectSet

variable {candidates : DialectSet} {xs : List Member}

theorem isEmpty_eq_false_iff {ds : DialectSet} :
    ds.isEmpty = false ↔ ∃ d, ds.contains d = true := by
  refine ⟨exists_contains, fun ⟨d, hd⟩ => ?_⟩
  by_contra h
  have := isEmpty_eq_true_iff.mp (by simpa using h) d
  simp [hd] at this

/-- Narrowing is refused exactly where no candidate serves every member. -/
theorem narrow_cases (xs : List Member) (hc : candidates.isEmpty = false) :
    (∃ left, candidates.narrow xs = .ok left) ∨
    ((∀ d, candidates.contains d = true → ∃ x ∈ xs, x.field.supports d = false) ∧
      ∃ message, candidates.narrow xs = (FailureKind.splitDialect message).raise) := by
  induction xs generalizing candidates with
  | nil => exact .inl ⟨candidates, rfl⟩
  | cons x xs ih =>
    unfold narrow
    simp only
    split
    · rename_i he
      refine .inr ⟨fun d hd => ⟨x, List.mem_cons_self, ?_⟩, _, rfl⟩
      simpa [hd] using isEmpty_eq_true_iff.mp he d
    · rename_i he
      rcases ih (by simpa using he) with hleft | ⟨hn, hraise⟩
      · exact .inl hleft
      · refine .inr ⟨fun d hd => ?_, hraise⟩
        by_cases hx : x.field.supports d = true
        · obtain ⟨y, hy, hyd⟩ := hn d (by simp [hd, hx])
          exact ⟨y, List.mem_cons_of_mem _ hy, hyd⟩
        · exact ⟨x, List.mem_cons_self, by simpa using hx⟩

end DialectSet

namespace Model

theorem scalarId_eq_ok_iff {m : Model} {name : String} {id : FieldId} : m.scalarId name = .ok id ↔
    ∃ f, m.field? name = some f ∧ f.isExpandable = false ∧ f.id = id := by
  unfold scalarId
  split
  · simp [FailureKind.raise, *]
  · split <;> simp [FailureKind.raise, *]

/-- Where names are looked up one for each entry, the fields found are those of the names. -/
theorem exists_field_iff {α β : Type} {m : Model} {f : α → Outcome β} {name : α → String}
    {field : β → FieldId} {xs : List α} {ys : List β} (h : xs.mapM f = .ok ys)
    (hf : ∀ x y, f x = .ok y → m.scalarId (name x) = .ok (field y)) {id : FieldId} :
    (∃ y ∈ ys, field y = id) ↔ ∃ n ∈ xs.map name, m.scalarId n = .ok id := by
  constructor
  · rintro ⟨y, hy, rfl⟩
    obtain ⟨x, hx, hxy⟩ := Except.exists_of_mapM_eq_ok h y hy
    exact ⟨name x, List.mem_map_of_mem hx, hf x y hxy⟩
  · rintro ⟨_, hn, hid⟩
    obtain ⟨x, hx, rfl⟩ := List.mem_map.mp hn
    obtain ⟨y, hy, hxy⟩ := Except.forall_of_mapM_eq_ok h x hx
    exact ⟨y, hy, Except.ok.inj ((hf x y hxy).symm.trans hid)⟩

end Model

theorem Filter.scalarId_of_resolve {m : Model} {f : Filter} {p : Predicate}
    (h : f.resolve m = .ok p) : m.scalarId f.field = .ok p.field := by
  obtain ⟨id, hid, h⟩ := Except.bind_eq_ok_iff.mp h
  cases h
  exact hid

theorem Order.scalarId_of_resolve {m : Model} {o : Order} {k : SortKey}
    (h : o.resolve m = .ok k) : m.scalarId o.field = .ok k.field := by
  obtain ⟨id, hid, h⟩ := Except.bind_eq_ok_iff.mp h
  cases h
  exact hid

namespace Query

def shapingNames (q : Query) : List String :=
  q.directives.filters.map (·.field) ++ q.directives.orders.map (·.field)

/-- The dialect has a path for the main model in the query's kind of request. -/
def Addressed (q : Query) (s : Schema) (d : Dialect) : Prop :=
  ∃ m path, s.modelNamed? q.model = some m ∧ m.path? d q.source = some path

/-- The query names a field explicitly: within its selectors and directives at any depth, or as that
of a filter or sort. -/
def Mentions (q : Query) (s : Schema) (x : Member) : Prop :=
  (∃ k path, q.Names s k (path ++ [x])) ∨
    ∃ name ∈ q.shapingNames, s.modelNamed? q.model = some x.model ∧
      x.model.field? name = some x.field

/-- The dialect can address the main model and serves every field that the query names. -/
def Suits (q : Query) (s : Schema) (d : Dialect) : Prop :=
  q.Addressed s d ∧ ∀ x, q.Mentions s x → x.field.supports d = true

variable {q : Query} {s : Schema} {r : Resolved} {picks : List Pick} {preferred d : Dialect}

theorem ResolvesTo.addressed_iff (h : q.ResolvesTo s r picks) :
    q.Addressed s d ↔ (r.model.dialects r.source).contains d = true := by
  simp [Addressed, h.model, h.source, Option.isSome_iff_exists]

theorem ResolvesTo.exists_scalarId (h : q.ResolvesTo s r picks) :
    ∀ name ∈ q.shapingNames, ∃ id, r.model.scalarId name = .ok id := by
  refine List.forall_mem_append.mpr ⟨List.forall_mem_map.mpr fun f hf => ?_,
    List.forall_mem_map.mpr fun o ho => ?_⟩
  · obtain ⟨p, _, hp⟩ := Except.forall_of_mapM_eq_ok h.filters f hf
    exact ⟨p.field, Filter.scalarId_of_resolve hp⟩
  · obtain ⟨k, _, hk⟩ := Except.forall_of_mapM_eq_ok h.sorts o ho
    exact ⟨k.field, Order.scalarId_of_resolve hk⟩

theorem ResolvesTo.exists_shaped_iff (h : q.ResolvesTo s r picks) {id : FieldId} :
    ((∃ p ∈ r.filters, p.field = id) ∨ ∃ o ∈ r.sorts, o.field = id) ↔
      ∃ name ∈ q.shapingNames, r.model.scalarId name = .ok id := by
  rw [Model.exists_field_iff h.filters fun _ _ => Filter.scalarId_of_resolve,
    Model.exists_field_iff h.sorts fun _ _ => Order.scalarId_of_resolve]
  simp only [shapingNames, List.mem_append, or_and_right, exists_or]

/-- The names collected in resolving a query are those that it mentions. -/
theorem ResolvesTo.mentions_iff (h : q.ResolvesTo s r picks) (hs : s.Sound) {x : Member} :
    q.Mentions s x ↔ s.Has x ∧ x.id ∈ r.named := by
  have has : ∀ {name f}, r.model.field? name = some f → s.Has ⟨r.model, f⟩ := fun hf =>
    ⟨h.model_mem, Model.mem_of_field? hf⟩
  rw [h.mem_named_iff hs, h.exists_shaped_iff]
  constructor
  · rintro (⟨k, path, named⟩ | ⟨name, hname, hm, hf⟩)
    · exact ⟨named.has x (by simp), .inl ⟨k, path, x, named, rfl⟩⟩
    · obtain ⟨m, f⟩ := x
      cases h.model.symm.trans hm
      obtain ⟨id, hid⟩ := h.exists_scalarId name hname
      obtain ⟨g, hg, _, rfl⟩ := Model.scalarId_eq_ok_iff.mp hid
      cases hf.symm.trans hg
      exact ⟨has hf, .inr ⟨name, hname, hid⟩⟩
  · rintro ⟨hx, ⟨k, path, y, named, hid⟩ | ⟨name, hname, hid⟩⟩
    · cases hs.eq_of_id_eq (named.has y (by simp)) hx hid
      exact .inl ⟨k, path, named⟩
    · obtain ⟨f, hf, _, hid⟩ := Model.scalarId_eq_ok_iff.mp hid
      cases hs.eq_of_id_eq (has hf) hx hid
      exact .inr ⟨name, hname, h.model, hf⟩

theorem ResolvesTo.exists_members (h : q.ResolvesTo s r picks) (hs : s.Sound) :
    ∃ xs, (r.named.mapM fun id => Outcome.ofLookup (s.member id)) = .ok xs ∧
      ∀ x, x ∈ xs ↔ q.Mentions s x := by
  obtain ⟨xs, hxs⟩ := hs.mapM_member (h.named_has hs)
  refine ⟨xs, hxs, fun x => ?_⟩
  rw [h.mentions_iff hs]
  constructor
  · intro hx
    obtain ⟨id, hid, hlook⟩ := Except.exists_of_mapM_eq_ok hxs x hx
    obtain ⟨y, hy, rfl⟩ := h.named_has hs id hid
    rw [Member.id, hs.member_of_has hy] at hlook
    cases hlook
    exact ⟨hy, hid⟩
  · rintro ⟨hx, hid⟩
    obtain ⟨y, hy, hlook⟩ := Except.forall_of_mapM_eq_ok hxs x.id hid
    rw [Member.id, hs.member_of_has hx] at hlook
    cases hlook
    exact hy

/-- What the choice of a dialect comes to. -/
inductive Chooses (q : Query) (s : Schema) (preferred : Dialect) : Outcome Dialect → Prop
  | unaddressed {message} (unaddressed : ∀ d, ¬ q.Addressed s d) :
    Chooses q s preferred (FailureKind.notExpressible message).raise
  | servedNowhere {x} (addressed : ∃ d, q.Addressed s d) (mentioned : q.Mentions s x)
    (nowhere : ∀ d, x.field.supports d = false) :
    Chooses q s preferred (FailureKind.servedNowhere x).raise
  | split {message} (addressed : ∃ d, q.Addressed s d)
    (served : ∀ x, q.Mentions s x → ∃ d, x.field.supports d = true)
    (unsuited : ∀ d, ¬ q.Suits s d) :
    Chooses q s preferred (FailureKind.splitDialect message).raise
  | preferred (suits : q.Suits s preferred) : Chooses q s preferred (.ok preferred)
  | other (unsuited : ¬ q.Suits s preferred) (suits : q.Suits s preferred.other) :
    Chooses q s preferred (.ok preferred.other)

/-- Which of the three refusals a choice meets where it meets one. -/
theorem Chooses.refusals {o : Outcome Dialect} (h : q.Chooses s preferred o) :
    ((∀ d, ¬ q.Addressed s d) → ∃ message, o = (FailureKind.notExpressible message).raise) ∧
    ((∃ d, q.Addressed s d) → (∃ x, q.Mentions s x ∧ ∀ d, x.field.supports d = false) →
      ∃ x, q.Mentions s x ∧ (∀ d, x.field.supports d = false) ∧
        o = (FailureKind.servedNowhere x).raise) ∧
    ((∃ d, q.Addressed s d) → (∀ x, q.Mentions s x → ∃ d, x.field.supports d = true) →
      (∀ d, ¬ q.Suits s d) → ∃ message, o = (FailureKind.splitDialect message).raise) := by
  have conflict : ∀ x : Member, (∃ d, x.field.supports d = true) →
      (∀ d, x.field.supports d = false) → False := fun x ⟨d, hd⟩ hn => by simp [hn d] at hd
  cases h with
  | unaddressed none =>
    exact ⟨fun _ => ⟨_, rfl⟩, fun ⟨d, hd⟩ => absurd hd (none d), fun ⟨d, hd⟩ => absurd hd (none d)⟩
  | servedNowhere addressed mentioned nowhere =>
    obtain ⟨d, hd⟩ := addressed
    exact ⟨fun none => absurd hd (none d), fun _ _ => ⟨_, mentioned, nowhere, rfl⟩,
      fun _ served => (conflict _ (served _ mentioned) nowhere).elim⟩
  | split addressed served unsuited =>
    obtain ⟨d, hd⟩ := addressed
    exact ⟨fun none => absurd hd (none d),
      fun _ ⟨x, hx, hn⟩ => (conflict x (served x hx) hn).elim, fun _ _ _ => ⟨_, rfl⟩⟩
  | preferred suits | other _ suits =>
    exact ⟨fun none => absurd suits.1 (none _),
      fun _ ⟨x, hx, hn⟩ => (conflict x ⟨_, suits.2 x hx⟩ hn).elim,
      fun _ _ unsuited => absurd suits (unsuited _)⟩

theorem Chooses.bindings {o : Outcome Dialect} (h : q.Chooses s preferred o) :
    (q.Suits s preferred → o = .ok preferred) ∧
      (¬ q.Suits s preferred → q.Suits s preferred.other → o = .ok preferred.other) := by
  cases h with
  | unaddressed none =>
    exact ⟨fun suits => absurd suits.1 (none _), fun _ suits => absurd suits.1 (none _)⟩
  | servedNowhere addressed mentioned nowhere =>
    have unsuited : ∀ d, ¬ q.Suits s d := fun d hd => by
      simpa [nowhere d] using hd.2 _ mentioned
    exact ⟨fun suits => absurd suits (unsuited _), fun _ suits => absurd suits (unsuited _)⟩
  | split addressed served unsuited =>
    exact ⟨fun suits => absurd suits (unsuited _), fun _ suits => absurd suits (unsuited _)⟩
  | preferred suits => exact ⟨fun _ => rfl, fun hn => absurd suits hn⟩
  | other unsuited suits => exact ⟨fun hp => absurd hp unsuited, fun _ _ => rfl⟩

theorem ResolvesTo.chooses (h : q.ResolvesTo s r picks) (hs : s.Sound) (preferred : Dialect) :
    q.Chooses s preferred (r.dialect s preferred) := by
  obtain ⟨xs, hxs, hmem⟩ := h.exists_members hs
  unfold Resolved.dialect
  simp only [hxs, Except.ok_bind]
  cases hc : (r.model.dialects r.source).isEmpty with
  | true =>
    refine .unaddressed fun d hd => ?_
    rw [h.addressed_iff, DialectSet.isEmpty_eq_true_iff.mp hc d] at hd
    cases hd
  | false =>
    have addressed : ∃ d, q.Addressed s d := by
      simpa only [h.addressed_iff] using DialectSet.isEmpty_eq_false_iff.mp hc
    simp only [Bool.false_eq_true, if_false]
    split
    · rename_i x hx
      refine .servedNowhere addressed ((hmem x).mp (List.mem_of_find?_eq_some hx)) fun d => ?_
      have hempty := List.find?_some hx
      simpa using DialectSet.isEmpty_eq_true_iff.mp hempty d
    · rename_i hx
      have served : ∀ x, q.Mentions s x → ∃ d, x.field.supports d = true := by
        intro x hm
        have hne := List.find?_eq_none.mp hx x ((hmem x).mpr hm)
        obtain ⟨d, hd⟩ := DialectSet.isEmpty_eq_false_iff.mp (eq_false_of_ne_true hne)
        exact ⟨d, by rwa [Field.contains_dialects] at hd⟩
      have suits : ∀ left, (r.model.dialects r.source).narrow xs = .ok left →
          ∀ d, left.contains d = true ↔ q.Suits s d := by
        intro left hl d
        rw [DialectSet.contains_of_narrow hl, ← h.addressed_iff]
        simp only [Suits, hmem]
      rcases DialectSet.narrow_cases xs hc with ⟨left, hl⟩ | ⟨hn, message, hraise⟩
      · rw [hl, Except.ok_bind]
        by_cases hp : q.Suits s preferred
        · rw [if_pos ((suits left hl preferred).mpr hp)]
          exact .preferred hp
        · rw [if_neg fun hd => hp ((suits left hl preferred).mp hd)]
          -- something is left and it is not the preferred dialect, so it is the other one
          obtain ⟨d, hd⟩ := DialectSet.isEmpty_eq_false_iff.mp
            (DialectSet.isEmpty_of_narrow hc hl)
          rw [suits left hl] at hd
          rcases preferred.eq_or_eq_other d with rfl | rfl
          · exact absurd hd hp
          · exact .other hp hd
      · rw [hraise]
        refine .split addressed served fun d hd => ?_
        obtain ⟨x, hx, hno⟩ := hn d (h.addressed_iff.mp hd.1)
        simp [hd.2 x ((hmem x).mp hx)] at hno

/-- Two queries, perhaps of two registries, give a choice the same to go by: the dialects that can
address the main model, and the sets of dialects that serve what is named. -/
structure SameDialects (q : Query) (s : Schema) (q' : Query) (s' : Schema) : Prop where
  addressed : ∀ d, q.Addressed s d ↔ q'.Addressed s' d
  left : ∀ x, q.Mentions s x → ∃ y, q'.Mentions s' y ∧ y.field.dialects = x.field.dialects
  right : ∀ y, q'.Mentions s' y → ∃ x, q.Mentions s x ∧ x.field.dialects = y.field.dialects

theorem supports_of_dialects_eq {f g : Field} (h : f.dialects = g.dialects) (d : Dialect) :
    f.supports d = g.supports d := by
  rw [← Field.contains_dialects, h, Field.contains_dialects]

namespace SameDialects

variable {q' : Query} {s' : Schema}

theorem symm (h : q.SameDialects s q' s') : q'.SameDialects s' q s :=
  ⟨fun d => (h.addressed d).symm, h.right, h.left⟩

theorem suits (h : q.SameDialects s q' s') (hd : q.Suits s d) : q'.Suits s' d := by
  refine ⟨(h.addressed d).mp hd.1, fun y hy => ?_⟩
  obtain ⟨x, hx, he⟩ := h.right y hy
  rw [← supports_of_dialects_eq he]
  exact hd.2 x hx

theorem suits_iff (h : q.SameDialects s q' s') : q.Suits s d ↔ q'.Suits s' d :=
  ⟨h.suits, h.symm.suits⟩

theorem exists_nowhere (h : q.SameDialects s q' s') {x : Member} (hx : q.Mentions s x)
    (hn : ∀ d, x.field.supports d = false) :
    ∃ y, q'.Mentions s' y ∧ ∀ d, y.field.supports d = false := by
  obtain ⟨y, hy, he⟩ := h.left x hx
  exact ⟨y, hy, fun d => (supports_of_dialects_eq he d).trans (hn d)⟩

theorem served (h : q.SameDialects s q' s')
    (hx : ∀ x, q.Mentions s x → ∃ d, x.field.supports d = true) :
    ∀ y, q'.Mentions s' y → ∃ d, y.field.supports d = true := by
  intro y hy
  obtain ⟨x, hmentions, he⟩ := h.right y hy
  obtain ⟨d, hd⟩ := hx x hmentions
  exact ⟨d, (supports_of_dialects_eq he d).symm.trans hd⟩

end SameDialects

theorem Chooses.alike {q' : Query} {s' : Schema} (hq : q.SameDialects s q' s')
    {o o' : Outcome Dialect} (h : q.Chooses s preferred o) (h' : q'.Chooses s' preferred o') :
    o.Alike Eq o' := by
  obtain ⟨unaddressed, servedNowhere, split⟩ := h'.refusals
  obtain ⟨preferred, other⟩ := h'.bindings
  cases h with
  | unaddressed none =>
    obtain ⟨_, rfl⟩ := unaddressed fun d hd => none d ((hq.addressed d).mpr hd)
    exact Outcome.alike_raise rfl
  | servedNowhere addressed mentioned nowhere =>
    obtain ⟨_, _, _, rfl⟩ :=
      servedNowhere ((exists_congr hq.addressed).mp addressed) (hq.exists_nowhere mentioned nowhere)
    exact Outcome.alike_raise rfl
  | split addressed served unsuited =>
    obtain ⟨_, rfl⟩ := split ((exists_congr hq.addressed).mp addressed) (hq.served served)
      fun d hd => unsuited d (hq.suits_iff.mpr hd)
    exact Outcome.alike_raise rfl
  | preferred suits =>
    rw [preferred (hq.suits suits)]
    exact .ok rfl
  | other unsuited suits =>
    rw [other (fun hp => unsuited (hq.suits_iff.mpr hp)) (hq.suits suits)]
    exact .ok rfl

/-- The choice yields a dialect that suits the query, the preferred one if it does. -/
theorem ResolvesTo.suits_of_dialect (h : q.ResolvesTo s r picks) (hs : s.Sound)
    (hd : r.dialect s preferred = .ok d) : q.Suits s d ∧ (q.Suits s preferred → d = preferred) ∧
      (¬ q.Suits s preferred → d = preferred.other) := by
  have choice := h.chooses hs preferred
  rw [hd] at choice
  cases choice with
  | preferred suits => exact ⟨suits, fun _ => rfl, fun hn => absurd suits hn⟩
  | other unsuited suits => exact ⟨suits, fun hp => absurd hp unsuited, fun _ => rfl⟩

theorem ResolvesTo.dialect_of_plan (h : q.ResolvesTo s r picks) (hs : s.Sound) {p : Plan}
    (hp : r.plan s preferred = .ok p) : r.dialect s preferred = .ok p.dialect := by
  obtain ⟨d, hd, _⟩ := Except.bind_eq_ok_iff.mp hp
  obtain ⟨⟨path, hpath⟩, _⟩ := Resolved.serves_of_dialect hd
  obtain ⟨_, rfl⟩ := (h.plan_decides hs hd hpath).of_eq_ok hp
  exact hd

/-- Where a single dialect suits the query, the preference makes no difference. -/
theorem ResolvesTo.dialect_eq_of_unique (h : q.ResolvesTo s r picks) (hs : s.Sound)
    (hd : ∃! d, q.Suits s d) (preferred preferred' : Dialect) :
    r.dialect s preferred = r.dialect s preferred' := by
  obtain ⟨d, hd, unique⟩ := hd
  have chosen : ∀ e, r.dialect s e = .ok d := by
    intro e
    obtain ⟨suited, other⟩ := (h.chooses hs e).bindings
    rcases e.eq_or_eq_other d with rfl | rfl
    · exact suited hd
    · exact other (fun he => e.other_ne (unique e he).symm) hd
  rw [chosen preferred, chosen preferred']

section Reordering

variable {q' : Query} {r' : Resolved} {picks' : List Pick}

theorem Reordered.mentions_iff (h : q.Reordered q') {x : Member} :
    q.Mentions s x ↔ q'.Mentions s x := by
  have names : ∀ name, name ∈ q.shapingNames ↔ name ∈ q'.shapingNames := fun name =>
    ((h.filters.map _).append (h.orders.map _)).mem_iff
  simp only [Mentions, h.names_iff, names, h.model]

theorem Reordered.sameDialects (h : q.Reordered q') : q.SameDialects s q' s where
  addressed d := by rw [Addressed, Addressed, h.model, h.source]
  left x hx := ⟨x, h.mentions_iff.mp hx, rfl⟩
  right x hx := ⟨x, h.mentions_iff.mpr hx, rfl⟩

theorem Reordered.loadable_iff (h : q.Reordered q') (hs : s.Sound) (hq : q.ResolvesTo s r picks)
    (hq' : q'.ResolvesTo s r' picks') : r.Loadable s d ↔ r'.Loadable s d := by
  have shaped := q.directives.shapesPrimary_eq_false_iff
  rw [← h.shapesPrimary_eq, Directives.shapesPrimary_eq_false_iff] at shaped
  rw [hq.loadable_iff hs, hq'.loadable_iff hs]
  simp only [LoadsInline, LoadsApart, h.names_iff, h.source, ← shaped]

/-- Two queries that resolve have plans alike if they give the choice the same to go by, both can be
loaded or neither, and what they are planned as corresponds. -/
theorem Reordered.plan_alike (h : q.Reordered q') (hs : s.Sound) (hq : q.ResolvesTo s r picks)
    (hq' : q'.ResolvesTo s r' picks') {R : Plan → Plan → Prop}
    (hR : ∀ p p', q.PlansTo s r p → q'.PlansTo s r' p' → p.dialect = p'.dialect → R p p') :
    (r.plan s preferred).Alike R (r'.plan s preferred) := by
  have choice := Chooses.alike h.sameDialects (hq.chooses hs preferred) (hq'.chooses hs preferred)
  rcases choice.cases with ⟨d, _, hd, hd', rfl⟩ | ⟨e, f, hd, hd', kind⟩
  · obtain ⟨⟨path, hpath⟩, _⟩ := Resolved.serves_of_dialect hd
    obtain ⟨⟨path', hpath'⟩, _⟩ := Resolved.serves_of_dialect hd'
    have loads := h.loadable_iff hs hq hq' (d := d)
    rcases hq.plan_decides hs hd hpath with ⟨hl, hp⟩ | ⟨hn, message, hp⟩ <;>
      rcases hq'.plan_decides hs hd' hpath' with ⟨hl', hp'⟩ | ⟨hn', message', hp'⟩
    · rw [hp, hp']
      exact .ok (hR _ _ (hq.plansTo hs hp) (hq'.plansTo hs hp') rfl)
    · exact absurd (loads.mp hl) hn'
    · exact absurd (loads.mpr hl') hn
    · rw [hp, hp']
      exact Outcome.alike_raise rfl
  · simp only [Resolved.plan, hd, hd', Except.error_bind]
    exact .failed kind

end Reordering

/-- How the dialect of a query that resolves is chosen. -/
structure Bound (q : Query) (s : Schema) (preferred : Dialect) (r : Resolved) : Prop where
  unaddressed : (∀ d, ¬ q.Addressed s d) →
    ∃ message, q.plan s preferred = (FailureKind.notExpressible message).raise
  servedNowhere : (∃ d, q.Addressed s d) →
    (∃ x, q.Mentions s x ∧ ∀ d, x.field.supports d = false) →
    ∃ x, q.Mentions s x ∧ (∀ d, x.field.supports d = false) ∧
      q.plan s preferred = (FailureKind.servedNowhere x).raise
  split : (∃ d, q.Addressed s d) → (∀ x, q.Mentions s x → ∃ d, x.field.supports d = true) →
    (∀ d, ¬ q.Suits s d) →
    ∃ message, q.plan s preferred = (FailureKind.splitDialect message).raise
  /-- Every operation is on the preferred dialect if that suits the query, else on the other one. -/
  bound : ∀ p, q.plan s preferred = .ok p → ∀ op ∈ p.operations, q.Suits s op.dialect ∧
    (q.Suits s (q.preference.getD preferred) → op.dialect = q.preference.getD preferred) ∧
    (¬ q.Suits s (q.preference.getD preferred) → op.dialect = (q.preference.getD preferred).other)
  /-- Nothing else has a part in the choice, neither of the query nor of the registry. -/
  determined : ∀ q' s' r', s'.Sound → q'.resolve s' = .ok r' → q.SameDialects s q' s' →
    ∀ preferred, (r.dialect s preferred).Alike Eq (r'.dialect s' preferred)
  order : ∀ q', q.Reordered q' →
    (q.plan s preferred).Alike (fun p p' => p.dialect = p'.dialect) (q'.plan s preferred)
  single : (∃! d, q.Suits s d) → ∀ preference preference' other,
    Query.plan { q with preference } s preferred =
      Query.plan { q with preference := preference' } s other

theorem plan_eq_of_resolve (hr : q.resolve s = .ok r) (preferred : Dialect) :
    q.plan s preferred = r.plan s (q.preference.getD preferred) := by
  rw [plan, hr, Except.ok_bind]

theorem ResolvesTo.bound (h : q.ResolvesTo s r picks) (hr : q.resolve s = .ok r) (hs : s.Sound)
    (preferred : Dialect) : q.Bound s preferred r := by
  have hplan := plan_eq_of_resolve hr preferred
  have refused : ∀ k : FailureKind, r.dialect s (q.preference.getD preferred) = k.raise →
      q.plan s preferred = k.raise := by
    intro k hd
    rw [hplan, Resolved.plan, hd]
    rfl
  obtain ⟨unaddressed, servedNowhere, split⟩ :=
    (h.chooses hs (q.preference.getD preferred)).refusals
  constructor
  · intro none
    obtain ⟨message, hd⟩ := unaddressed none
    exact ⟨message, refused _ hd⟩
  · intro addressed unserved
    obtain ⟨x, hx, hn, hd⟩ := servedNowhere addressed unserved
    exact ⟨x, hx, hn, refused _ hd⟩
  · intro addressed served unsuited
    obtain ⟨message, hd⟩ := split addressed served unsuited
    exact ⟨message, refused _ hd⟩
  · intro p hp op hop
    rw [hplan] at hp
    rw [(h.plansTo hs hp).dialect_of_mem_operations hs op hop]
    exact h.suits_of_dialect hs (h.dialect_of_plan hs hp)
  · intro q' s' r' hs' hr' hq preferred
    obtain ⟨picks', h'⟩ := resolvesTo_of_resolve hs' hr'
    exact Chooses.alike hq (h.chooses hs preferred) (h'.chooses hs' preferred)
  · intro q' hq
    obtain ⟨r', hr'⟩ := (hq.resolve_iff hs).mp ⟨r, hr⟩
    obtain ⟨picks', h'⟩ := resolvesTo_of_resolve hs hr'
    rw [hplan, plan_eq_of_resolve hr', hq.preference]
    exact hq.plan_alike hs h h' fun p p' _ _ hd => hd
  · intro hd preference preference' other
    have each : ∀ preference other, Query.plan { q with preference } s other =
        r.plan s (preference.getD other) := fun preference other =>
      plan_eq_of_resolve (q := { q with preference }) hr other
    rw [each, each, Resolved.plan, Resolved.plan,
      h.dialect_eq_of_unique hs hd _ (preference'.getD other)]

end Query

namespace Db

end Db

end ODataPlan
