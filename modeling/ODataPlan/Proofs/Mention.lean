import ODataPlan.Proofs.Registry

/-! What the selectors of a query name: chains of fields, each within the target of the one before.
Looking names up loses nothing of it. -/
namespace ODataPlan

def Member.id (x : Member) : FieldId := x.field.id

/-- What is said of the field at the end of a chain. -/
inductive Mention where
  /-- The field is a scalar. -/
  | scalar
  /-- The field is an expandable. -/
  | expandable
  /-- The field is an expandable and stands without anything selected within it. -/
  | bare
deriving DecidableEq

/-- A selector on a model names a chain of fields. -/
inductive Selector.Names (s : Schema) : Mention → Model → Selector → List Member → Prop
  | scalar {m x f} (found : m.field? x.name = some f) (type : f.type = .scalar) :
    Names s .scalar m x [⟨m, f⟩]
  | expandable {m x f e} (found : m.field? x.name = some f) (type : f.type = .expandable e) :
    Names s .expandable m x [⟨m, f⟩]
  | bare {m name f e} (found : m.field? name = some f) (type : f.type = .expandable e) :
    Names s .bare m (.field name) [⟨m, f⟩]
  | within {k m name f e t x xs path} (found : m.field? name = some f)
    (type : f.type = .expandable e) (target : s.model? e.target = some t) (mem : x ∈ xs)
    (names : Names s k t x path) : Names s k m (.nested name xs) (⟨m, f⟩ :: path)

/-- A pick names a chain of ids. -/
inductive Pick.Names : Mention → Pick → FieldPath → Prop
  | scalar {f} : Names .scalar (.scalar f) [f]
  | bareExpandable {f t} : Names .expandable (.bare f t) [f]
  | bare {f t} : Names .bare (.bare f t) [f]
  | expandable {f t ps} : Names .expandable (.within f t ps) [f]
  | within {k f t p ps path} (mem : p ∈ ps) (names : Names k p path) :
    Names k (.within f t ps) (f :: path)

namespace Model

theorem mem_of_field? {m : Model} {name : String} {f : Field} (h : m.field? name = some f) :
    f ∈ m.fields := List.mem_of_find?_eq_some h

end Model

/-- In a sound registry a field is found under one name only. -/
theorem Schema.Sound.name_unique {s : Schema} (hs : s.Sound) {m : Model} (hm : m ∈ s.models)
    {a b : String} {x y : Field} (hx : m.field? a = some x) (hy : m.field? b = some y)
    (hid : x.id = y.id) : a = b := by
  have same : (⟨m, x⟩ : Member) = ⟨m, y⟩ := hs.eq_of_id_eq
    ⟨hm, Model.mem_of_field? hx⟩ ⟨hm, Model.mem_of_field? hy⟩ hid
  have ha : x.name = a := by simpa using List.find?_some hx
  have hb : y.name = b := by simpa using List.find?_some hy
  cases same
  exact ha.symm.trans hb

namespace Selector

/-- Induction on selectors, for all selectors within a nested one at once. -/
theorem induction {motive : Selector → Prop} (field : ∀ name, motive (.field name))
    (nested : ∀ name xs, (∀ x ∈ xs, motive x) → motive (.nested name xs)) : ∀ x, motive x
  | .field name => field name
  | .nested name xs => nested name xs fun x _ => induction field nested x

theorem resolveAll_eq_mapM {s : Schema} {t : Model} (h : s.model t.id = .ok t)
    (xs : List Selector) : Selector.resolveAll s t.id xs = xs.mapM (·.resolve s t) := by
  induction xs with
  | nil => rfl
  | cons x xs ih => simp [Selector.resolveAll, h, ih, List.mapM_cons]

variable {s : Schema} {k : Mention} {m : Model} {x : Selector} {path : List Member}

theorem Names.ne_nil (h : x.Names s k m path) : path ≠ [] := by cases h <;> simp

theorem Names.has (hm : m ∈ s.models) (h : x.Names s k m path) : ∀ y ∈ path, s.Has y := by
  induction h with
  | scalar found _ | expandable found _ | bare found _ =>
    simpa using ⟨hm, Model.mem_of_field? found⟩
  | within found _ target _ _ ih =>
    refine List.forall_mem_cons.mpr ⟨⟨hm, Model.mem_of_field? found⟩, ?_⟩
    exact ih (Schema.mem_of_model? target)

theorem Names.expandable_of_bare (h : x.Names s .bare m path) :
    x.Names s .expandable m path := by
  generalize hk : Mention.bare = k at h
  induction h with
  | scalar => cases hk
  | expandable => cases hk
  | bare found type => exact .expandable found type
  | within found type target mem names ih => exact .within found type target mem (ih hk)

/-- Every field before the end of a chain is itself named, as an expandable. -/
theorem Names.take (h : x.Names s k m path) {before after : List Member} {y : Member}
    (hp : path = before ++ y :: after) (ha : after ≠ []) :
    x.Names s .expandable m (before ++ [y]) := by
  induction h generalizing before with
  | scalar _ _ | expandable _ _ | bare _ _ =>
    cases before <;> simp_all
  | within found type target mem names ih =>
    cases before with
    | nil =>
      cases hp
      exact .expandable found type
    | cons z before =>
      rw [List.cons_append, List.cons.injEq] at hp
      obtain ⟨rfl, hp⟩ := hp
      exact .within found type target mem (ih hp)

end Selector

namespace Pick

/-- Induction on picks, for all picks within an expandable at once. -/
theorem induction {motive : Pick → Prop} (scalar : ∀ f, motive (.scalar f))
    (bare : ∀ f t, motive (.bare f t))
    (within : ∀ f t ps, (∀ p ∈ ps, motive p) → motive (.within f t ps)) : ∀ p, motive p
  | .scalar f => scalar f
  | .bare f t => bare f t
  | .within f t ps => within f t ps fun p _ => induction scalar bare within p

theorem namedAll_eq_flatMap (ps : List Pick) : Pick.namedAll ps = ps.flatMap Pick.named := by
  induction ps with
  | nil => rfl
  | cons p ps ih => simp [Pick.namedAll, ih]

variable {k : Mention} {f : FieldId} {t : ModelId} {ps : List Pick} {path : FieldPath}

theorem names_scalar_iff : (Pick.scalar f).Names k path ↔ k = .scalar ∧ path = [f] := by
  constructor
  · rintro ⟨⟩
    exact ⟨rfl, rfl⟩
  · rintro ⟨rfl, rfl⟩
    exact .scalar

theorem names_bare_iff : (Pick.bare f t).Names k path ↔ k ≠ .scalar ∧ path = [f] := by
  constructor
  · rintro (_ | _) <;> simp
  · rintro ⟨hk, rfl⟩
    cases k with
    | scalar => exact absurd rfl hk
    | expandable => exact .bareExpandable
    | bare => exact .bare

theorem names_within_iff : (Pick.within f t ps).Names k path ↔
    (k = .expandable ∧ path = [f]) ∨ ∃ p ∈ ps, ∃ rest, path = f :: rest ∧ p.Names k rest := by
  constructor
  · intro h
    cases h with
    | expandable => exact .inl ⟨rfl, rfl⟩
    | within mem names => exact .inr ⟨_, mem, _, rfl, names⟩
  · rintro (⟨rfl, rfl⟩ | ⟨p, mem, rest, rfl, names⟩)
    · exact .expandable
    · exact .within mem names

/-- The fields a pick lists are those at the ends of the chains it names. -/
theorem mem_named_iff (p : Pick) (f : FieldId) :
    f ∈ p.named ↔ ∃ k path, p.Names k (path ++ [f]) := by
  induction p using Pick.induction with
  | scalar g => simp [Pick.named, names_scalar_iff, List.append_eq_singleton_iff]
  | bare g t =>
    simp only [Pick.named, List.mem_singleton, names_bare_iff, List.append_eq_singleton_iff]
    constructor
    · rintro rfl
      exact ⟨.bare, [], nofun, .inl ⟨rfl, rfl⟩⟩
    · rintro ⟨k, path, hk, h⟩
      simp_all
  | within g t ps ih =>
    rw [Pick.named, List.mem_cons, namedAll_eq_flatMap, List.mem_flatMap]
    constructor
    · rintro (rfl | ⟨p, hp, hf⟩)
      · exact ⟨.expandable, [], .expandable⟩
      · obtain ⟨k, path, h⟩ := (ih p hp).mp hf
        exact ⟨k, g :: path, .within hp h⟩
    · rintro ⟨k, path, h⟩
      rcases names_within_iff.mp h with ⟨_, h⟩ | ⟨p, hp, rest, h, hn⟩
      · have := List.append_eq_singleton_iff.mp h
        simp_all
      · cases path with
        | nil => exact .inl (List.cons.inj h).1
        | cons a path =>
          obtain ⟨_, rfl⟩ := List.cons.inj h
          exact .inr ⟨p, hp, (ih p hp).mpr ⟨k, path, hn⟩⟩

end Pick

namespace Selector

variable {s : Schema} {m : Model} {k : Mention} {f : Field} {path : List Member}

theorem names_iff_of_scalar {x : Selector} (hf : m.field? x.name = some f)
    (ht : f.type = .scalar) : x.Names s k m path ↔ k = .scalar ∧ path = [⟨m, f⟩] := by
  constructor
  · intro h
    cases h <;> simp_all
  · rintro ⟨rfl, rfl⟩
    exact .scalar hf ht

theorem names_field_iff {name : String} (hf : m.field? name = some f) {e : Expand ModelId}
    (ht : f.type = .expandable e) :
    (field name).Names s k m path ↔ k ≠ .scalar ∧ path = [⟨m, f⟩] := by
  constructor
  · intro h
    cases h <;> simp_all
  · rintro ⟨hk, rfl⟩
    cases k with
    | scalar => exact absurd rfl hk
    | expandable => exact .expandable hf ht
    | bare => exact .bare hf ht

theorem names_nested_iff {name : String} {xs : List Selector} (hf : m.field? name = some f)
    {e : Expand ModelId} (ht : f.type = .expandable e) {t : Model} (he : s.model? e.target = some t) :
    (nested name xs).Names s k m path ↔ (k = .expandable ∧ path = [⟨m, f⟩]) ∨
      ∃ x ∈ xs, ∃ rest, path = ⟨m, f⟩ :: rest ∧ x.Names s k t rest := by
  constructor
  · intro h
    cases h with
    | scalar found type => simp_all
    | expandable found type => simp_all
    | within found type target mem names =>
      simp_all
      exact .inr ⟨_, mem, names⟩
  · rintro (⟨rfl, rfl⟩ | ⟨x, hx, rest, rfl, h⟩)
    · exact .expandable hf ht
    · exact .within hf ht he hx h

theorem resolve_field_eq_ok {name : String} {p : Pick} (h : (field name).resolve s m = .ok p) :
    ∃ f, m.field? name = some f ∧ ((f.type = .scalar ∧ p = .scalar f.id) ∨
      ∃ e, f.type = .expandable e ∧ p = .bare f.id e.target) := by
  unfold resolve at h
  split at h
  · cases h
  · rename_i f hf
    refine ⟨f, hf, ?_⟩
    split at h
    · rename_i ht
      cases h
      exact .inl ⟨ht, rfl⟩
    · rename_i e ht
      cases h
      exact .inr ⟨e, ht, rfl⟩

theorem resolve_nested_eq_ok {name : String} {xs : List Selector} {p : Pick}
    (h : (nested name xs).resolve s m = .ok p) :
    ∃ f, m.field? name = some f ∧ ((f.type = .scalar ∧ p = .scalar f.id) ∨
      ∃ e ps, f.type = .expandable e ∧ resolveAll s e.target xs = .ok ps ∧
        p = .within f.id e.target ps) := by
  unfold resolve at h
  split at h
  · cases h
  · rename_i f hf
    refine ⟨f, hf, ?_⟩
    split at h
    · rename_i ht
      split at h
      · cases h
        exact .inl ⟨ht, rfl⟩
      · cases h
    · rename_i e ht
      obtain ⟨ps, hps, rfl⟩ := Except.map_eq_ok_iff.mp h
      exact .inr ⟨e, ps, ht, hps, rfl⟩

/-- A selector that can be looked up names at least its outermost field. -/
theorem exists_names_of_resolve {x : Selector} {p : Pick} (h : x.resolve s m = .ok p) :
    ∃ k y, x.Names s k m [y] := by
  cases x with
  | field name =>
    obtain ⟨f, hf, ⟨ht, _⟩ | ⟨e, ht, _⟩⟩ := resolve_field_eq_ok h
    · exact ⟨_, _, .scalar hf ht⟩
    · exact ⟨_, _, .expandable hf ht⟩
  | nested name xs =>
    obtain ⟨f, hf, ⟨ht, _⟩ | ⟨e, ps, ht, _, _⟩⟩ := resolve_nested_eq_ok h
    · exact ⟨_, _, .scalar hf ht⟩
    · exact ⟨_, _, .expandable hf ht⟩

/-- Looking up the names of a selector keeps what it names. -/
theorem names_of_resolve (hs : s.Sound) (x : Selector) (hm : m ∈ s.models) {p : Pick}
    (h : x.resolve s m = .ok p) (ids : FieldPath) :
    p.Names k ids ↔ ∃ path, x.Names s k m path ∧ path.map Member.id = ids := by
  induction x using Selector.induction generalizing m p ids with
  | field name =>
    obtain ⟨f, hf, ⟨ht, rfl⟩ | ⟨e, ht, rfl⟩⟩ := resolve_field_eq_ok h
    · simp [Pick.names_scalar_iff, names_iff_of_scalar (x := field name) hf ht, Member.id, and_assoc,
        eq_comm]
    · simp [Pick.names_bare_iff, names_field_iff hf ht, Member.id, and_assoc, eq_comm]
  | nested name xs ih =>
    obtain ⟨f, hf, ⟨ht, rfl⟩ | ⟨e, ps, ht, hps, rfl⟩⟩ := resolve_nested_eq_ok h
    · simp [Pick.names_scalar_iff, names_iff_of_scalar (x := nested name xs) hf ht, Member.id,
        and_assoc, eq_comm]
    · obtain ⟨t, he⟩ := hs.target_registered ⟨m, f⟩ ⟨hm, Model.mem_of_field? hf⟩ e ht
      have hmt := Schema.mem_of_model? he
      rw [← Schema.id_of_model? he, resolveAll_eq_mapM (hs.model_of_mem hmt)] at hps
      rw [Pick.names_within_iff]
      simp only [names_nested_iff hf ht he]
      constructor
      · rintro (⟨rfl, rfl⟩ | ⟨p, hp, rest, rfl, hn⟩)
        · exact ⟨[⟨m, f⟩], .inl ⟨rfl, rfl⟩, rfl⟩
        · obtain ⟨x, hx, hr⟩ := Except.exists_of_mapM_eq_ok hps p hp
          obtain ⟨path, hx', rfl⟩ := (ih x hx hmt hr rest).mp hn
          exact ⟨⟨m, f⟩ :: path, .inr ⟨x, hx, path, rfl, hx'⟩, rfl⟩
      · rintro ⟨_, ⟨rfl, rfl⟩ | ⟨x, hx, path, rfl, hn⟩, rfl⟩
        · exact .inl ⟨rfl, rfl⟩
        · obtain ⟨p, hp, hr⟩ := Except.forall_of_mapM_eq_ok hps x hx
          exact .inr ⟨p, hp, _, rfl, (ih x hx hmt hr _).mpr ⟨path, hn, rfl⟩⟩

/-- Looking up the names of a selector comes to a pick or fails as a schema mismatch. -/
theorem proper_resolve (hs : s.Sound) (x : Selector) (hm : m ∈ s.models) :
    (x.resolve s m).Proper := by
  induction x using Selector.induction generalizing m with
  | field name =>
    unfold resolve
    split
    · exact Outcome.proper_raise fun _ => nofun
    · split <;> exact Outcome.proper_ok _
  | nested name xs ih =>
    unfold resolve
    split
    · exact Outcome.proper_raise fun _ => nofun
    · rename_i f hf
      split
      · split
        · exact Outcome.proper_ok _
        · exact Outcome.proper_raise fun _ => nofun
      · rename_i e ht
        obtain ⟨t, he⟩ := hs.target_registered ⟨m, f⟩ ⟨hm, Model.mem_of_field? hf⟩ e ht
        have hmt := Schema.mem_of_model? he
        rw [← Schema.id_of_model? he, resolveAll_eq_mapM (hs.model_of_mem hmt)]
        exact (Outcome.Proper.mapM fun x hx => ih x hx hmt).map _

end Selector

end ODataPlan
