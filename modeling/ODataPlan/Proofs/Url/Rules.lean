import ODataPlan.Proofs.Url.Encoding

/-! The rules of rendering. Main statement: over every registry made of a list of models, an
operation is rendered if and only if it follows the rules, its url has its clauses in their order,
and an operation that breaks a rule is refused as an invalid plan. -/
namespace ODataPlan

/-- A path in the names that its fields have. -/
def FieldPath.written (name : FieldId → String) (p : FieldPath) : String :=
  "/".intercalate (p.map name)

namespace Clause

def fields : Clause → List FieldId
  | select paths | expand paths => paths.flatten
  | filter predicates => predicates.map Predicate.field
  | orderBy sorts => sorts.map SortKey.field
  | top _ | skip _ => []

/-- The query value of a clause in the names that its fields have. -/
def written (name : FieldId → String) (d : Dialect) : Clause → String
  | select paths | expand paths => ",".intercalate (paths.map (FieldPath.written name))
  | filter predicates => " and ".intercalate <|
    predicates.map fun p => name p.field ++ " " ++ p.op.keyword ++ " " ++ p.value.literal d
  | orderBy sorts => ",".intercalate <|
    sorts.map fun k => name k.field ++ " " ++ k.direction.keyword
  | top n | skip n => toString n

end Clause

def Operation.fields (op : Operation) : List FieldId := op.clauses.flatMap Clause.fields

namespace Schema

variable {s : Schema} {d : Dialect}

/-- The path has fields, and the dialect has a name for each. -/
def Writable (s : Schema) (d : Dialect) (p : FieldPath) : Prop :=
  p ≠ [] ∧ ∀ f ∈ p, s.serves d f = true

/-- The path is within the depth limit of the dialect, and each of its fields is an expandable, on
Graph one of a single entity. -/
def Expandable (s : Schema) (d : Dialect) (p : FieldPath) : Prop :=
  (∀ limit, d.capability.expandDepth = some limit → p.length ≤ limit) ∧
    ∀ f ∈ p, ∃ x e, s.member f = .ok x ∧ x.field.type.expand? = some e ∧
      (d = .graph → e.collection = false)

end Schema

/-- The clause follows the rules of rendering on a dialect. -/
def Clause.Renderable (s : Schema) (d : Dialect) : Clause → Prop
  | select paths => paths ≠ [] ∧ ∀ p ∈ paths, s.Writable d p
  | expand paths => paths ≠ [] ∧ ∀ p ∈ paths, s.Writable d p ∧ s.Expandable d p
  | filter predicates => predicates ≠ [] ∧ ∀ p ∈ predicates, s.serves d p.field = true
  | orderBy sorts => sorts ≠ [] ∧ ∀ k ∈ sorts, s.serves d k.field = true
  | top _ | skip _ => True

/-- The operation follows the rules of rendering on a dialect. -/
structure Operation.Renderable (s : Schema) (d : Dialect) (op : Operation) : Prop where
  dialect : op.dialect = d
  names : (op.clauses.map Clause.name).Nodup
  clauses : ∀ c ∈ op.clauses, c.Renderable s d

theorem Clause.Renderable.serves {s : Schema} {d : Dialect} {c : Clause} (h : c.Renderable s d) :
    ∀ f ∈ c.fields, s.serves d f = true := by
  intro f hf
  cases c with
  | select paths =>
    obtain ⟨p, hp, hf⟩ := List.mem_flatten.mp hf
    exact (h.2 p hp).2 f hf
  | expand paths =>
    obtain ⟨p, hp, hf⟩ := List.mem_flatten.mp hf
    exact (h.2 p hp).1.2 f hf
  | filter predicates =>
    obtain ⟨p, hp, rfl⟩ := List.mem_map.mp hf
    exact h.2 p hp
  | orderBy sorts =>
    obtain ⟨k, hk, rfl⟩ := List.mem_map.mp hf
    exact h.2 k hk
  | top _ => cases hf
  | skip _ => cases hf

theorem Operation.Renderable.serves {s : Schema} {d : Dialect} {op : Operation}
    (h : op.Renderable s d) : ∀ f ∈ op.fields, s.serves d f = true := by
  intro f hf
  obtain ⟨c, hc, hf⟩ := List.mem_flatMap.mp hf
  exact (h.clauses c hc).serves f hf

namespace Schema

variable {s : Schema} {d : Dialect}

def nameOn (s : Schema) (d : Dialect) (f : FieldId) : String :=
  match s.member f with
  | .ok x => (x.field.wireName.get d).getD ""
  | .error _ => ""

theorem exists_member_of_serves {f : FieldId} (h : s.serves d f = true) :
    ∃ x, s.member f = .ok x := by
  unfold serves at h
  split at h
  · exact ⟨_, ‹_›⟩
  · cases h

theorem wireName_nameOn {f : FieldId} {x : Member} (hx : s.member f = .ok x)
    (h : s.serves d f = true) : x.field.wireName.get d = some (s.nameOn d f) := by
  rw [serves, hx] at h
  obtain ⟨name, hname⟩ := Option.isSome_iff_exists.mp h
  rw [nameOn, hx]
  simp [hname]

/-- Every field of the list can be followed. -/
def Follows (s : Schema) (fs : List FieldId) : Prop := ∀ f ∈ fs, ∃ x, s.member f = .ok x

theorem wireName_decides {f : FieldId} (hf : ∃ x, s.member f = .ok x) :
    (s.wireName d f).Decides .invalidPlan (s.serves d f = true) (s.nameOn d f) := by
  obtain ⟨x, hx⟩ := hf
  simp only [wireName, serves, nameOn, hx, FieldDecl.supports, Outcome.liftM_eq_ofLookup,
    Outcome.ofLookup_ok, Except.ok_bind]
  cases x.field.wireName.get d with
  | none => exact (Outcome.decides_raise ⟨_, rfl⟩ _).congr (by simp)
  | some name => exact (Outcome.decides_ok name).congr (by simp)

theorem pathText_decides {p : FieldPath} (hp : s.Follows p) :
    (s.pathText d p).Decides .invalidPlan (s.Writable d p) (p.written (s.nameOn d)) := by
  unfold pathText
  rw [← ite_not]
  exact (Outcome.Decides.guard ⟨_, rfl⟩ fun _ =>
    (Outcome.Decides.mapM fun f hf => wireName_decides (hp f hf)).bind_pure _).congr
      (by simp [Writable])

theorem checkSteps_decides {p : FieldPath} (hp : s.Follows p) :
    (s.checkSteps d p).Decides .invalidPlan
      (∀ f ∈ p, ∃ x e, s.member f = .ok x ∧ x.field.type.expand? = some e ∧
        (d = .graph → e.collection = false)) () := by
  induction p with
  | nil => exact (Outcome.decides_ok ()).congr (by simp)
  | cons f p ih =>
    obtain ⟨⟨x, hx⟩, hp⟩ := List.forall_mem_cons.mp hp
    simp only [checkSteps, hx, Outcome.liftM_eq_ofLookup, Outcome.ofLookup_ok, Except.ok_bind,
      List.forall_mem_cons, Except.ok.injEq]
    cases ht : x.field.type with
    | scalar => exact (Outcome.decides_raise ⟨_, rfl⟩ ()).congr (by simp [ht])
    | expandable e =>
      simp only [FieldType.expand?_expandable]
      rw [← ite_not]
      refine (Outcome.Decides.guard ⟨_, rfl⟩ fun _ => ih hp).congr (and_congr ?_ Iff.rfl)
      cases d <;> simp [ht, Dialect.capability]

theorem checkExpand_decides {p : FieldPath} (hp : s.Follows p) :
    (s.checkExpand d p).Decides .invalidPlan (s.Expandable d p) () := by
  refine (Outcome.Decides.guard ⟨_, rfl⟩ fun _ => checkSteps_decides hp).congr
    (and_congr ?_ Iff.rfl)
  cases d <;> simp [Dialect.capability, Capability.canExpandAt]

/-- Written entries between separators, refused if there are none. -/
theorem entries_decides {α : Type} {f : α → Outcome String} {P : α → Prop} {g : α → String}
    {xs : List α} {k : FailureKind} (hk : ∃ message, k = .invalidPlan message) (separator : String)
    (h : ∀ x ∈ xs, (f x).Decides .invalidPlan (P x) (g x)) :
    (if xs.isEmpty then k.raise else (separator.intercalate ·) <$> xs.mapM f).Decides .invalidPlan
      (xs ≠ [] ∧ ∀ x ∈ xs, P x) (separator.intercalate (xs.map g)) := by
  rw [← ite_not]
  exact (Outcome.Decides.guard hk fun _ => (Outcome.Decides.mapM h).map _).congr (by simp)

theorem clauseText_decides {c : Clause} (hc : s.Follows c.fields) :
    (s.clauseText d c).Decides .invalidPlan (c.Renderable s d) (c.written (s.nameOn d) d) := by
  cases c with
  | select paths =>
    exact entries_decides ⟨_, rfl⟩ "," fun p hp =>
      pathText_decides fun f hf => hc f (List.mem_flatten.mpr ⟨p, hp, hf⟩)
  | expand paths =>
    have hp : ∀ p ∈ paths, s.Follows p := fun p hp f hf =>
      hc f (List.mem_flatten.mpr ⟨p, hp, hf⟩)
    rw [clauseText, ← ite_not]
    -- all checks come before the first text, so the two conditions are decided one after the other
    refine (Outcome.Decides.guard ⟨_, rfl⟩ fun _ =>
      (Outcome.Decides.forM fun p h => checkExpand_decides (hp p h)).bind fun _ =>
        (Outcome.Decides.mapM fun p h => pathText_decides (hp p h)).map _).congr ?_
    simp only [Clause.Renderable, List.isEmpty_iff, forall₂_and, and_comm, ne_eq]
  | filter predicates =>
    exact entries_decides ⟨_, rfl⟩ " and " fun p hp =>
      (wireName_decides (hc p.field (List.mem_map_of_mem hp))).bind_pure _
  | orderBy sorts =>
    exact entries_decides ⟨_, rfl⟩ "," fun k hk =>
      (wireName_decides (hc k.field (List.mem_map_of_mem hk))).bind_pure _
  | top n => exact Outcome.decides_ok _
  | skip n => exact Outcome.decides_ok _

theorem params_decides {seen : List String} {cs : List Clause}
    (hcs : ∀ c ∈ cs, s.Follows c.fields) :
    (s.params d seen cs).Decides .invalidPlan
      ((cs.map Clause.name).Nodup ∧ (∀ c ∈ cs, c.name ∉ seen) ∧ ∀ c ∈ cs, c.Renderable s d)
      (cs.map fun c => (c.name, c.written (s.nameOn d) d)) := by
  induction cs generalizing seen with
  | nil => exact (Outcome.decides_ok []).congr (by simp)
  | cons c cs ih =>
    obtain ⟨hc, hcs⟩ := List.forall_mem_cons.mp hcs
    unfold params
    rw [← ite_not]
    refine (Outcome.Decides.guard ⟨_, rfl⟩ fun _ => (clauseText_decides hc).bind fun _ =>
      (ih hcs).bind_pure _).congr ?_
    -- a name is new to those before it and behind it: one of the two is checked at each clause
    simp only [List.map_cons, List.nodup_cons, List.forall_mem_cons, List.mem_map, not_exists,
      not_and]
    simp only [List.mem_cons, not_or, forall₂_and]
    tauto

/-- An operation whose fields can be followed is rendered if it follows the rules of rendering, and
refused if not. -/
theorem render_decides {op : Operation} (hop : s.Follows op.fields) :
    (s.render d op).Decides .invalidPlan (op.Renderable s d)
      ⟨op.path, op.clauses.map fun c => (c.name, c.written (s.nameOn d) d)⟩ := by
  have hcs : ∀ c ∈ op.clauses, s.Follows c.fields := fun c hc f hf =>
    hop f (List.mem_flatMap.mpr ⟨c, hc, hf⟩)
  refine (Outcome.Decides.guard ⟨_, rfl⟩ fun _ => (params_decides hcs).bind_pure _).congr ?_
  constructor
  · rintro ⟨dialect, names, _, clauses⟩
    exact ⟨dialect, names, clauses⟩
  · rintro ⟨dialect, names, clauses⟩
    exact ⟨dialect, names, fun _ _ => List.not_mem_nil, clauses⟩

/-- Rendering succeeds on an operation that follows its rules. -/
theorem exists_render {op : Operation} (h : op.Renderable s d) :
    ∃ url, s.render d op = .ok url :=
  (render_decides fun f hf => exists_member_of_serves (h.serves f hf)).eq_ok_iff.mpr h

/-- Over a registry made of a list of models, an operation on known fields is rendered if and only
if it follows the rules of rendering. Its url is then the path and, clause by clause, the name with
the value written in the names of the fields. Otherwise both forms of the url are refused with one
error. -/
theorem render_iff_renderable {ms : List Model} (hs : ofModels ms = .ok s) (d : Dialect)
    {op : Operation} (hop : ∀ f ∈ op.fields, ∃ x, s.Has x ∧ x.field.id = f) :
    ((∃ url, s.render d op = .ok url) ↔ op.Renderable s d) ∧
    (∀ url, s.render d op = .ok url → ∃ name : FieldId → String,
      (∀ f ∈ op.fields, ∃ x, s.Has x ∧ x.field.id = f ∧ x.field.wireName.get d = some (name f)) ∧
      url.canonical = op.path ++ if op.clauses = [] then "" else
        "?" ++ "&".intercalate (op.clauses.map fun c => c.name ++ "=" ++ c.written name d)) ∧
    ((∀ url, s.render d op ≠ .ok url) → ∃ message,
      Url.canonical <$> s.render d op = (FailureKind.invalidPlan message).raise ∧
      Url.encoded <$> s.render d op = (FailureKind.invalidPlan message).raise) := by
  have follows : s.Follows op.fields := fun f hf =>
    (hop f hf).imp fun _ hx => (member_eq_ok_iff_of_ofModels hs).mpr hx
  have decided := render_decides (d := d) follows
  refine ⟨decided.eq_ok_iff, fun url hurl => ?_, fun hne => ?_⟩
  · obtain ⟨renderable, rfl⟩ := decided.of_eq_ok hurl
    refine ⟨s.nameOn d, fun f hf => ?_, ?_⟩
    · obtain ⟨x, hx⟩ := follows f hf
      obtain ⟨has, hid⟩ := (member_eq_ok_iff_of_ofModels hs).mp hx
      exact ⟨x, has, hid, wireName_nameOn hx (renderable.serves f hf)⟩
    · simp [Url.canonical_eq, Function.comp_def]
  · rcases decided with ⟨_, hurl⟩ | ⟨_, message, hurl⟩
    · exact absurd hurl (hne _)
    · exact ⟨message, by rw [hurl, Outcome.map_raise], by rw [hurl, Outcome.map_raise]⟩

end Schema

namespace Sample

/-- The titles of sites with the names of their owners. -/
def titles : Operation where
  dialect := .rest
  model := ⟨0⟩
  path := "/site"
  clauses := [.select [[⟨⟨0⟩, 1⟩], [⟨⟨0⟩, 2⟩, ⟨⟨1⟩, 1⟩]], .expand [[⟨⟨0⟩, 2⟩]], .top 5]

/-- The same operation with a path without fields among the expansions. -/
def pathless : Operation := { titles with clauses := [.top 5, .expand [[⟨⟨0⟩, 2⟩], []]] }

end Sample

namespace Schema

/-- The clauses of one operation are written one after the other, and the other one is refused. -/
theorem render_iff_renderable_sample :
    Sample.titles.Renderable Sample.db.schema .rest ∧
    Url.canonical <$> Sample.db.schema.render .rest Sample.titles =
      .ok "/site?$select=Title,Owner/Name&$expand=Owner&$top=5" ∧
    ∃ message, Url.encoded <$> Sample.db.schema.render .rest Sample.pathless =
      (FailureKind.invalidPlan message).raise := by
  have hs : ofModels Sample.db.schema.models = .ok Sample.db.schema := by decide +kernel
  have known : ∀ op ∈ [Sample.titles, Sample.pathless], ∀ f ∈ op.fields,
      ∃ x, Sample.db.schema.Has x ∧ x.field.id = f := by
    intro op hop f hf
    have found : ∀ op ∈ [Sample.titles, Sample.pathless], ∀ f ∈ op.fields,
        (Sample.db.schema.member f).isOk = true := by decide +kernel
    obtain ⟨x, hx⟩ := Except.exists_of_isOk (found op hop f hf)
    exact ⟨x, (member_eq_ok_iff_of_ofModels hs).mp hx⟩
  obtain ⟨titles, _, _⟩ := render_iff_renderable hs .rest (known Sample.titles (by simp))
  obtain ⟨_, _, pathless⟩ := render_iff_renderable hs .rest (known Sample.pathless (by simp))
  refine ⟨titles.mp (Except.exists_of_isOk (by decide +kernel)), by decide +kernel, ?_⟩
  have hne : ∀ url, Sample.db.schema.render .rest Sample.pathless ≠ .ok url := by
    intro url hurl
    have refused : (Sample.db.schema.render .rest Sample.pathless).isOk = false := by
      decide +kernel
    rw [hurl] at refused
    cases refused
  obtain ⟨message, _, h⟩ := pathless hne
  exact ⟨message, h⟩

end Schema

end ODataPlan
