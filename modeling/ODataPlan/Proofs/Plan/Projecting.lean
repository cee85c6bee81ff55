import ODataPlan.Proofs.Plan.Loading

/-! What the requests of a plan select. Main statement: with an explicit selection, the main request
and every follow-up whose field has picks select just what is due for the names of the query that
are theirs: nothing named is lost, and nothing else is added but keys, default sets asked for by
name, required fields and the names of expandables without picks. -/
namespace ODataPlan

namespace Query

/-- The chain does not start with a field that a request of its own loads. -/
def Covers (apart : List FieldId) (path : List Member) : Prop := ∀ x ∈ path.head?, x.id ∉ apart

/-- What the request for the end of a chain `base` selects, by paths from there. The picks below a
field in `apart` belong to another request. -/
inductive Projects (q : Query) (s : Schema) (d : Dialect) (root : Model) (base : List Member)
    (apart : List FieldId) : FieldPath → Prop
  /-- A scalar that is named. -/
  | scalar {path x} (named : q.Names s .scalar (base ++ path ++ [x])) (here : Covers apart path) :
    Projects q s d root base apart ((path ++ [x]).map Member.id)
  /-- The key of the request's model, or of an expanded level that has picks. -/
  | key {path m} (picks : path = [] ∨ q.Picks s (base ++ path)) (here : Covers apart path)
    (model : s.endOf? root (base ++ path) = some m) (served : s.serves d m.key = true) :
    Projects q s d root base apart (path.map Member.id ++ [m.key])
  /-- A field of the default set of a level that is named bare as well as with picks. -/
  | default {path m f} (bare : q.Names s .bare (base ++ path)) (picks : q.Picks s (base ++ path))
    (here : Covers apart path) (model : s.endOf? root (base ++ path) = some m)
    (default : f ∈ m.defaultIds d) (served : s.serves d f = true) :
    Projects q s d root base apart (path.map Member.id ++ [f])
  /-- A field that the endpoint of the request's model requires. -/
  | required {m ids} (model : s.endOf? root base = some m) (required : ids ∈ m.requiredEntries d) :
    Projects q s d root base apart ids
  /-- An expandable without picks below it. -/
  | expandable {path x} (named : q.Names s .expandable (base ++ path ++ [x]))
    (here : Covers apart path) (empty : ¬ q.Picks s (base ++ path ++ [x])) :
    Projects q s d root base apart ((path ++ [x]).map Member.id)

/-- What the level at the end of a chain adds to a selection, by paths from there. -/
inductive LevelProjects (q : Query) (s : Schema) (d : Dialect) (root : Model)
    (chain : List Member) : FieldPath → Prop
  | scalar {x} (named : q.Names s .scalar (chain ++ [x])) : LevelProjects q s d root chain [x.id]
  | key {m} (picks : q.Picks s chain) (model : s.endOf? root chain = some m)
    (served : s.serves d m.key = true) : LevelProjects q s d root chain [m.key]
  | default {m f} (bare : q.Names s .bare chain) (picks : q.Picks s chain)
    (model : s.endOf? root chain = some m) (default : f ∈ m.defaultIds d)
    (served : s.serves d f = true) : LevelProjects q s d root chain [f]
  | self (empty : ¬ q.Picks s chain) : LevelProjects q s d root chain []

variable {q : Query} {s : Schema} {d : Dialect} {root : Model} {chain : List Member}

/-- The entries of a level are due for what the query names there. -/
theorem LevelAt.mem_levelEntries_iff {n : Selection} (h : q.LevelAt s root chain n) (hs : s.Sound)
    (served : ∀ x, q.Names s .scalar (chain ++ [x]) → s.serves d x.id = true) {pre ids : FieldPath} :
    ids ∈ n.levelEntries s d pre ↔
      ∃ rest, q.LevelProjects s d root chain rest ∧ ids = pre ++ rest := by
  obtain ⟨m, hm, hend, hid⟩ := h.model
  have hdefaults : s.defaultIds d n.model = m.defaultIds d := by
    rw [Schema.defaultIds, hid, hs.model?_of_mem m hm]
  rw [Selection.mem_levelEntries, Selection.mem_ownEntries, hdefaults]
  constructor
  · rintro (⟨hd, rfl⟩ | ⟨hd, f, hf, rfl, hmem⟩)
    · refine ⟨[], .self fun hp => ?_, (List.append_nil ids).symm⟩
      simp [h.picks.mpr hp] at hd
    · refine ⟨[f], ?_, rfl⟩
      rcases hmem with hmem | ⟨hb, hmem⟩
      · rcases (h.scalars m hend f).mp hmem with ⟨x, hx, rfl⟩ | ⟨hp, rfl⟩
        · exact .scalar hx
        · exact .key hp hend hf
      · exact .default (h.defaults.mp hb) (h.picks.mp hd) hend hmem hf
  · rintro ⟨_, hl, rfl⟩
    cases hl with
    | scalar named =>
      refine .inr ⟨h.picks.mpr ⟨_, _, named⟩, _, served _ named, rfl, .inl ?_⟩
      exact (h.scalars m hend _).mpr (.inl ⟨_, named, rfl⟩)
    | key picks model hserved =>
      cases hend.symm.trans model
      exact .inr ⟨h.picks.mpr picks, _, hserved, rfl,
        .inl ((h.scalars m hend _).mpr (.inr ⟨picks, rfl⟩))⟩
    | default bare picks model default hserved =>
      cases hend.symm.trans model
      exact .inr ⟨h.picks.mpr picks, _, hserved, rfl, .inr ⟨h.defaults.mpr bare, default⟩⟩
    | self empty =>
      refine .inl ⟨?_, List.append_nil pre⟩
      cases hd : n.isDefault with
      | true => rfl
      | false => exact absurd (h.picks.mp hd) empty

theorem Picks.named {path : List Member} (h : q.Picks s path) :
    path = [] ∨ q.Names s .expandable path := by
  rcases List.eq_nil_or_concat path with rfl | ⟨path, y, rfl⟩
  · exact .inl rfl
  · obtain ⟨k, x, hx⟩ := h
    rw [List.concat_eq_append] at *
    exact .inr (Names.take (by simpa using hx) (List.cons_ne_nil x []))

/-- A request selects what the levels of its chains add, and the required fields. -/
theorem projects_iff_level {base : List Member} {apart : List FieldId} {ids : FieldPath}
    (hb : q.Picks s base) : q.Projects s d root base apart ids ↔
      (∃ m, s.endOf? root base = some m ∧ ids ∈ m.requiredEntries d) ∨
      ∃ path rest, (path = [] ∨ q.Names s .expandable (base ++ path)) ∧
        q.LevelProjects s d root (base ++ path) rest ∧
        (Covers apart path ∨ ∃ x, path = [x] ∧ rest = []) ∧ ids = path.map Member.id ++ rest := by
  have named : ∀ path, q.Picks s (base ++ path) → path = [] ∨ q.Names s .expandable (base ++ path) :=
    fun path h => h.named.imp_left fun hn => (List.append_eq_nil_iff.mp hn).2
  constructor
  · rintro (⟨scalar, here⟩ | ⟨picks, here, model, served⟩ |
      ⟨bare, picks, here, model, default, served⟩ | ⟨model, required⟩ | ⟨expandable, here, empty⟩)
    · exact .inr ⟨_, _, named _ ⟨_, _, scalar⟩, .scalar scalar, .inl here, List.map_append⟩
    · rename_i path m
      have picks : q.Picks s (base ++ path) := by
        rcases picks with rfl | picks
        · rwa [List.append_nil]
        · exact picks
      exact .inr ⟨path, _, named path picks, .key picks model served, .inl here, rfl⟩
    · exact .inr ⟨_, _, named _ picks, .default bare picks model default served, .inl here, rfl⟩
    · exact .inl ⟨_, model, required⟩
    · rename_i path x
      rw [List.append_assoc] at expandable empty
      refine .inr ⟨path ++ [x], [], .inr expandable, .self empty, ?_, (List.append_nil _).symm⟩
      cases path with
      | nil => exact .inr ⟨x, rfl, rfl⟩
      | cons y path => exact .inl here
  · rintro (⟨m, model, required⟩ | ⟨path, rest, hn, hl, here, rfl⟩)
    · exact .required model required
    · cases hl with
      | scalar scalar =>
        rw [← List.map_singleton, ← List.map_append]
        exact .scalar scalar (here.resolve_right (by simp))
      | key picks model served => exact .key (.inr picks) (here.resolve_right (by simp)) model served
      | default bare picks model default served =>
        exact .default bare picks (here.resolve_right (by simp)) model default served
      | self empty =>
        rcases List.eq_nil_or_concat path with rfl | ⟨path, y, rfl⟩
        · rw [List.append_nil] at empty
          exact absurd hb empty
        · rw [List.concat_eq_append] at *
          have expandable := hn.resolve_left (by simp)
          rw [← List.append_assoc] at expandable empty
          rw [List.append_nil]
          refine .expandable expandable ?_ empty
          rcases here with here | ⟨x, hx, _⟩
          · cases path with
            | nil => simp [Covers]
            | cons z path => exact here
          · obtain ⟨rfl, _⟩ := List.append_eq_singleton_iff.mp hx |>.resolve_right (by simp)
            simp [Covers]

namespace PlansTo

variable {r : Resolved} {p : Plan}

/-- The entries of all levels within an expandable are due for what the query names there. -/
theorem exists_levelEntries_iff (hs : s.Sound) (h : q.PlansTo s r p) {x : Member} {a : Selection}
    (hx : (x, a) ∈ r.expansions) {pre ids : FieldPath} :
    (∃ rest n, a.level? rest = some n ∧ ids ∈ n.levelEntries s p.dialect (pre ++ rest)) ↔
      ∃ path rest, q.Names s .expandable (x :: path) ∧
        q.LevelProjects s p.dialect r.model (x :: path) rest ∧
        ids = pre ++ path.map Member.id ++ rest := by
  obtain ⟨picks, hq⟩ := h.resolves
  constructor
  · rintro ⟨_, n, hn, hids⟩
    obtain ⟨path, rfl, named, hl⟩ := hq.levelAt_of_expansion hs hx hn
    obtain ⟨rest, hrest, rfl⟩ :=
      (hl.mem_levelEntries_iff hs fun y hy => h.serves_of_names hs hy).mp hids
    exact ⟨path, rest, named, hrest, rfl⟩
  · rintro ⟨path, rest, named, hrest, rfl⟩
    obtain ⟨n, hn, hl⟩ := hq.exists_level_of_expansion hs hx named
    exact ⟨_, n, hn, (hl.mem_levelEntries_iff hs fun y hy => h.serves_of_names hs hy).mpr
      ⟨rest, hrest, rfl⟩⟩

/-- A follow-up for a field with picks selects what is due for the names of the query below it. -/
theorem mem_selected_request_iff (hs : s.Sound) (h : q.PlansTo s r p) {x : Member} {a : Selection}
    (hx : (x, a) ∈ r.expansions) (hp : q.Picks s [x]) {ids : FieldPath} :
    ids ∈ (x.request s p.dialect a).operation.selected ↔
      q.Projects s p.dialect r.model [x] [] ids := by
  obtain ⟨picks, hq⟩ := h.resolves
  have ha := (hq.target_of_expansion hs hx).1
  obtain ⟨n, hn, hl⟩ := hq.exists_level_of_expansion hs hx ((hq.exists_expansion_iff hs).mp ⟨a, hx⟩)
  obtain rfl : a = n := by simpa using hn
  obtain ⟨m, hm, hend, hid⟩ := hl.model
  have hmodel : s.model? a.model = some m := hid ▸ hs.model?_of_mem m hm
  have hkey : m.key ∈ a.fields := (hl.scalars m hend _).mpr (.inr ⟨hp, rfl⟩)
  rw [Member.request, Operation.selected, Projection.selected_clauses, List.mem_eraseDups,
    ha.mem_select_requestBlock_iff (hl.picks.mpr hp) hmodel hkey, projects_iff_level hp]
  have hlevels : (∃ rest n, a.level? rest = some n ∧
      ids ∈ n.levelEntries s p.dialect ([] ++ rest)) ↔ _ := h.exists_levelEntries_iff hs hx
  simp only [List.nil_append] at hlevels
  rw [hlevels]
  refine or_congr (by simp [hend]) ⟨?_, ?_⟩
  · rintro ⟨path, rest, named, hrest, rfl⟩
    exact ⟨path, rest, .inr named, hrest, .inl (by simp [Covers]), rfl⟩
  · rintro ⟨path, rest, named, hrest, _, rfl⟩
    refine ⟨path, rest, ?_, hrest, rfl⟩
    rcases named with rfl | named
    · exact (hq.exists_expansion_iff hs).mp ⟨a, hx⟩
    · exact named

/-- The main request's own entries are those of the root level. -/
theorem mem_rootEntries_iff (hs : s.Sound) (h : q.PlansTo s r p) (hp : q.Picks s [])
    {ids : FieldPath} : ids ∈ r.rootEntries s p.dialect ↔
      q.LevelProjects s p.dialect r.model [] ids := by
  obtain ⟨picks, hq⟩ := h.resolves
  obtain ⟨hw, hid⟩ := hq.wellTyped hs
  have hl := hq.levelAt_root hs
  have hkey : r.model.key ∈ r.selection.fields :=
    (hl.scalars r.model rfl _).mpr (.inr ⟨hp, rfl⟩)
  have hplain : r.selection.includeDefaults = false := by
    cases hd : r.selection.includeDefaults with
    | false => rfl
    | true => exact absurd rfl (hl.defaults.mp hd).ne_nil
  have hlevel : ids ∈ r.selection.levelEntries s p.dialect [] ↔ _ :=
    hl.mem_levelEntries_iff hs fun y hy => h.serves_of_names hs hy
  simp only [List.nil_append, exists_eq_right'] at hlevel
  rw [← hlevel, Selection.mem_levelEntries, Selection.mem_ownEntries, hl.picks.mpr hp, hplain]
  simp only [Bool.false_eq_true, false_and, true_and, false_or, or_false,
    List.nil_append, Resolved.rootEntries, List.mem_append, List.mem_flatMap, List.mem_filter,
    Schema.mem_entry]
  constructor
  · rintro (⟨hserved, rfl⟩ | ⟨f, ⟨_, hf⟩, hserved, rfl⟩)
    · exact ⟨_, hserved, rfl, hkey⟩
    · exact ⟨_, hserved, rfl, by simp_all⟩
  · rintro ⟨f, hserved, rfl, hf⟩
    by_cases hk : f = r.model.key
    · exact .inl ⟨hk ▸ hserved, hk ▸ rfl⟩
    · obtain ⟨g, hg, rfl, _⟩ := hw.hasScalar hs hq.model_mem hid hf
      exact .inr ⟨g, ⟨hg, by simp [hk, hf]⟩, hserved, rfl⟩

/-- What loading an expandable adds to the main request: everything within it where it is inline, and
its name if nothing is picked within it. -/
theorem mem_select_loaded_iff (hs : s.Sound) (h : q.PlansTo s r p) {x : Member} {a : Selection}
    (hx : (x, a) ∈ r.expansions) {ids : FieldPath} :
    ids ∈ (x.loaded s p.dialect a).1.select ↔
      ∃ path rest, q.Names s .expandable (x :: path) ∧
        q.LevelProjects s p.dialect r.model (x :: path) rest ∧
        (x.id ∉ p.fields ∨ (path = [] ∧ rest = [])) ∧ ids = (x :: path).map Member.id ++ rest := by
  obtain ⟨picks, hq⟩ := h.resolves
  have hfields := h.mem_fields_of_expansion hs hx
  have named := (hq.exists_expansion_iff hs).mp ⟨a, hx⟩
  unfold Member.loaded
  split
  · rename_i hi
    have hx' : x.id ∉ p.fields := fun hf => hfields.mp hf hi
    have ha := (hq.target_of_expansion hs hx).1
    simp only [ha.mem_select_block_iff, h.exists_levelEntries_iff hs hx, hx', not_false_eq_true,
      true_or, true_and]
    rfl
  · rename_i hi
    obtain ⟨n, hn, hl⟩ := hq.exists_level_of_expansion hs hx named
    obtain rfl : a = n := by simpa using hn
    simp only [hfields.mpr hi, not_true, false_or, Projection.select_selecting]
    constructor
    · intro hids
      cases hd : a.isDefault with
      | false => simp [hd] at hids
      | true =>
        refine ⟨[], [], named, .self fun hp => ?_, ⟨rfl, rfl⟩, by simpa [hd] using hids⟩
        simp [hl.picks.mpr hp] at hd
    · rintro ⟨_, _, _, hrest, ⟨rfl, rfl⟩, rfl⟩
      cases hrest with
      | self empty =>
        have hd : a.isDefault = true := by
          cases hd : a.isDefault with
          | true => rfl
          | false => exact absurd (hl.picks.mp hd) empty
        simp [hd]

/-- The main request selects what is due for the names of the query that no follow-up answers. -/
theorem mem_selected_primary_iff_projects (hs : s.Sound) (h : q.PlansTo s r p) (hp : q.Picks s [])
    {ids : FieldPath} :
    ids ∈ p.primary.selected ↔ q.Projects s p.dialect r.model [] p.fields ids := by
  obtain ⟨picks, hq⟩ := h.resolves
  rw [h.mem_selected_primary_iff ((hq.picks_iff_of_root hs).mpr hp), h.mem_rootEntries_iff hs hp,
    projects_iff_level hp]
  simp only [List.nil_append, Schema.endOf?_nil, Option.some.injEq, exists_eq_left']
  constructor
  · rintro (hroot | ⟨x, a, hx, hids⟩ | hrequired)
    · exact .inr ⟨[], ids, .inl rfl, hroot, .inl (by simp [Covers]), rfl⟩
    · obtain ⟨path, rest, named, hrest, here, rfl⟩ := (h.mem_select_loaded_iff hs hx).mp hids
      refine .inr ⟨x :: path, rest, .inr named, hrest, ?_, rfl⟩
      rcases here with here | ⟨rfl, rfl⟩
      · exact .inl (by simpa [Covers] using here)
      · exact .inr ⟨x, rfl, rfl⟩
    · exact .inl hrequired
  · rintro (hrequired | ⟨path, rest, named, hrest, here, rfl⟩)
    · exact .inr (.inr hrequired)
    · cases path with
      | nil => exact .inl hrest
      | cons x path =>
        have named := named.resolve_left (List.cons_ne_nil x path)
        obtain ⟨a, hx⟩ := (hq.exists_expansion_iff hs).mpr named.head
        refine .inr (.inl ⟨x, a, hx, (h.mem_select_loaded_iff hs hx).mpr
          ⟨path, rest, named, hrest, ?_, rfl⟩⟩)
        rcases here with here | ⟨y, hpath, rfl⟩
        · exact .inl (here x rfl)
        · cases hpath
          exact .inr ⟨rfl, rfl⟩

end PlansTo

/-- A query with a selector names something. -/
theorem picks_nil_of_resolve {r : Resolved} {picks : List Pick}
    (h : q.ResolvesTo s r picks) (he : q.allSelectors ≠ []) : q.Picks s [] := by
  obtain ⟨x, xs, hx⟩ := List.exists_cons_of_ne_nil he
  have hmem : x ∈ q.allSelectors := hx ▸ List.mem_cons_self
  obtain ⟨pick, _, hr⟩ := Except.forall_of_mapM_eq_ok h.selectors x hmem
  obtain ⟨k, y, hy⟩ := Selector.exists_names_of_resolve hr
  exact ⟨k, y, _, h.model, x, hmem, hy⟩

end Query

namespace Db

end Db

end ODataPlan
