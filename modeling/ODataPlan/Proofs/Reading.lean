import ODataPlan.Proofs.Resolution

/-! The order in which a query names its fields. The chains that are named are listed as they are
read: a field before what is selected within it, one selector before the next. Looking names up
keeps this order. -/
namespace ODataPlan

section Following

variable {α : Type} [DecidableEq α] {path : List α} {chains : List (List α)}

/-- The ends of the chains that lead one step beyond a path. -/
def following (path : List α) (chains : List (List α)) : List α :=
  chains.filterMap fun chain => if chain.dropLast = path then chain.getLast? else none

theorem following_append (path : List α) (chains chains' : List (List α)) :
    following path (chains ++ chains') = following path chains ++ following path chains' :=
  List.filterMap_append

theorem mem_following {x : α} : x ∈ following path chains ↔ path ++ [x] ∈ chains := by
  have ends : ∀ chain : List α,
      ((if chain.dropLast = path then chain.getLast? else none) = some x) ↔ chain = path ++ [x] := by
    intro chain
    rcases List.eq_nil_or_concat chain with rfl | ⟨before, y, rfl⟩
    · simp
    · rw [List.concat_eq_append, List.dropLast_concat, List.getLast?_concat]
      simp [and_comm]
  simp [following, List.mem_filterMap, ends]

theorem following_singleton (path : List α) (x : α) :
    following path [[x]] = if path = [] then [x] else [] := by
  by_cases h : path = [] <;> simp [following, eq_comm (a := []), h]

/-- Behind a first step stand the ends of the chains that take it, one step shorter. -/
theorem following_cons_map (f g : α) (path : List α) (chains : List (List α)) :
    following (f :: path) (chains.map (g :: ·)) = if g = f then following path chains else [] := by
  have ends : ∀ chain : List α,
      (if (g :: chain).dropLast = f :: path then (g :: chain).getLast? else none) =
        if g = f then (if chain.dropLast = path then chain.getLast? else none) else none := by
    intro chain
    cases chain with
    | nil => simp
    | cons x chain => by_cases hg : g = f <;> simp [hg]
  rw [following, List.filterMap_map]
  simp only [Function.comp_def, ends]
  split <;> simp [following]

theorem following_nil_map (f : α) (h : ∀ chain ∈ chains, chain ≠ []) :
    following [] (chains.map (f :: ·)) = [] := by
  rw [following, List.filterMap_map, List.filterMap_eq_nil_iff]
  intro chain hchain
  obtain ⟨x, rest, rfl⟩ := List.exists_cons_of_ne_nil (h chain hchain)
  simp

theorem following_map {β : Type} [DecidableEq β] {f : α → β}
    (h : ∀ chain ∈ chains, chain.dropLast.map f = path.map f → chain.dropLast = path) :
    following (path.map f) (chains.map (List.map f)) = (following path chains).map f := by
  rw [following, following, List.filterMap_map, List.map_filterMap]
  refine List.filterMap_congr fun chain hchain => ?_
  have same : chain.dropLast.map f = path.map f ↔ chain.dropLast = path :=
    ⟨h chain hchain, congrArg _⟩
  simp only [Function.comp_apply, ← List.map_dropLast, same, List.getLast?_map]
  split <;> rfl

end Following

namespace Selector

mutual

/-- The chains of one kind that a selector on a model names, as they are read. -/
def reading (s : Schema) (k : Mention) (m : Model) : Selector → List (List Member)
  | field name =>
    match m.field? name with
    | none => []
    | some f => if k = .scalar ↔ f.type = .scalar then [[⟨m, f⟩]] else []
  | nested name xs =>
    match m.field? name with
    | none => []
    | some f =>
      match f.type with
      | .scalar => if k = .scalar then [[⟨m, f⟩]] else []
      | .expandable e =>
        (if k = .expandable then [[⟨m, f⟩]] else []) ++
          match s.model? e.target with
          | none => []
          | some t => (readingAll s k t xs).map (⟨m, f⟩ :: ·)

def readingAll (s : Schema) (k : Mention) (m : Model) : List Selector → List (List Member)
  | [] => []
  | x :: xs => x.reading s k m ++ readingAll s k m xs

end

variable {s : Schema} {k : Mention} {m : Model} {path : List Member}

theorem readingAll_eq_flatMap (xs : List Selector) :
    readingAll s k m xs = xs.flatMap (reading s k m) := by
  induction xs with
  | nil => rfl
  | cons x xs ih => rw [readingAll, ih, List.flatMap_cons]

/-- What is read from a selector is what it names. -/
theorem mem_reading_iff (x : Selector) : path ∈ x.reading s k m ↔ x.Names s k m path := by
  induction x using Selector.induction generalizing m path with
  | field name =>
    cases hf : m.field? name with
    | none =>
      refine ⟨fun h => by simp [reading, hf] at h, fun h => ?_⟩
      cases h <;> simp_all
    | some f =>
      cases ht : f.type with
      | scalar => rw [names_iff_of_scalar hf ht, reading, hf]; simp [ht]
      | expandable e => rw [names_field_iff hf ht, reading, hf]; simp [ht]
  | nested name xs ih =>
    cases hf : m.field? name with
    | none =>
      refine ⟨fun h => by simp [reading, hf] at h, fun h => ?_⟩
      cases h <;> simp_all
    | some f =>
      cases ht : f.type with
      | scalar => rw [names_iff_of_scalar hf ht, reading, hf]; simp [ht]
      | expandable e =>
        cases he : s.model? e.target with
        | none =>
          simp only [reading, hf, ht, he, List.append_nil]
          constructor
          · intro h
            split at h
            · rename_i hk
              cases List.mem_singleton.mp h
              exact hk ▸ .expandable hf ht
            · cases h
          · intro h
            cases h <;> simp_all
        | some t =>
          rw [names_nested_iff hf ht he, reading, hf]
          simp only [ht, he, readingAll_eq_flatMap, List.mem_append, List.mem_map, List.mem_flatMap]
          refine or_congr (by split <;> simp_all) ⟨?_, ?_⟩
          · rintro ⟨rest, ⟨x, hx, hrest⟩, rfl⟩
            exact ⟨x, hx, rest, rfl, (ih x hx).mp hrest⟩
          · rintro ⟨x, hx, rest, rfl, hrest⟩
            exact ⟨rest, ⟨x, hx, (ih x hx).mpr hrest⟩, rfl⟩

end Selector

namespace Pick

mutual

/-- The chains of one kind that a pick names, as they are read. -/
def reading (k : Mention) : Pick → List FieldPath
  | scalar f => if k = .scalar then [[f]] else []
  | bare f _ => if k = .scalar then [] else [[f]]
  | within f _ ps => (if k = .expandable then [[f]] else []) ++ (readingAll k ps).map (f :: ·)

def readingAll (k : Mention) : List Pick → List FieldPath
  | [] => []
  | p :: ps => p.reading k ++ readingAll k ps

end

theorem readingAll_eq_flatMap (k : Mention) (ps : List Pick) :
    readingAll k ps = ps.flatMap (reading k) := by
  induction ps with
  | nil => rfl
  | cons p ps ih => rw [readingAll, ih, List.flatMap_cons]

theorem ne_nil_of_mem_reading {k : Mention} {p : Pick} {path : FieldPath}
    (h : path ∈ p.reading k) : path ≠ [] := by
  cases p <;> rw [reading] at h
  · split at h <;> simp_all
  · split at h <;> simp_all
  · rcases List.mem_append.mp h with h | h
    · split at h <;> simp_all
    · obtain ⟨rest, _, rfl⟩ := List.mem_map.mp h
      exact List.cons_ne_nil _ _

end Pick

namespace Selector

variable {s : Schema} {k : Mention} {m : Model}

theorem readingAll_of_resolve {xs : List Selector} {ps : List Pick}
    (each : ∀ x ∈ xs, ∀ p, x.resolve s m = .ok p →
      p.reading k = (x.reading s k m).map (List.map Member.id))
    (h : List.Forall₂ (fun x p => x.resolve s m = .ok p) xs ps) :
    Pick.readingAll k ps = (readingAll s k m xs).map (List.map Member.id) := by
  induction h with
  | nil => rfl
  | cons hp _ ih =>
    obtain ⟨hx, hxs⟩ := List.forall_mem_cons.mp each
    rw [Pick.readingAll, readingAll, hx _ hp, ih hxs, List.map_append]

/-- Looking up the names of a selector keeps the order in which it names fields. -/
theorem reading_of_resolve (hs : s.Sound) (x : Selector) (hm : m ∈ s.models) {p : Pick}
    (h : x.resolve s m = .ok p) : p.reading k = (x.reading s k m).map (List.map Member.id) := by
  induction x using Selector.induction generalizing m p with
  | field name =>
    obtain ⟨f, hf, ⟨ht, rfl⟩ | ⟨e, ht, rfl⟩⟩ := resolve_field_eq_ok h
    · by_cases hk : k = .scalar <;> simp [Pick.reading, reading, hf, ht, hk, Member.id]
    · by_cases hk : k = .scalar <;> simp [Pick.reading, reading, hf, ht, hk, Member.id]
  | nested name xs ih =>
    obtain ⟨f, hf, ⟨ht, rfl⟩ | ⟨e, ps, ht, hps, rfl⟩⟩ := resolve_nested_eq_ok h
    · by_cases hk : k = .scalar <;> simp [Pick.reading, reading, hf, ht, hk, Member.id]
    · obtain ⟨t, he⟩ := hs.target_registered ⟨m, f⟩ ⟨hm, Model.mem_of_field? hf⟩ e ht
      have hmt := Schema.mem_of_model? he
      rw [← Schema.id_of_model? he, resolveAll_eq_mapM (hs.model_of_mem hmt)] at hps
      have within := readingAll_of_resolve (k := k) (fun x hx p hr => ih x hx hmt hr)
        (Except.mapM_eq_ok_iff.mp hps)
      rw [Pick.reading, within]
      by_cases hk : k = .expandable <;>
        simp [reading, hf, ht, he, hk, Member.id, Function.comp_def]

end Selector

namespace Query

/-- The chains of one kind that a query names, as they are read. -/
def reading (q : Query) (s : Schema) (k : Mention) : List (List Member) :=
  match s.modelNamed? q.model with
  | none => []
  | some m => Selector.readingAll s k m q.allSelectors

/-- The fields that a query names directly behind a chain, in the order of their first mention. -/
def firstMentions (q : Query) (s : Schema) (k : Mention) (path : List Member) : List Member :=
  (following path (q.reading s k)).eraseDups

variable {q : Query} {s : Schema} {k : Mention} {path : List Member}

theorem mem_reading_iff : path ∈ q.reading s k ↔ q.Names s k path := by
  unfold reading Names
  cases s.modelNamed? q.model with
  | none => simp
  | some m => simp [Selector.readingAll_eq_flatMap, Selector.mem_reading_iff]

instance : Decidable (q.Names s k path) := decidable_of_iff _ mem_reading_iff

theorem mem_firstMentions_iff {x : Member} :
    x ∈ q.firstMentions s k path ↔ q.Names s k (path ++ [x]) := by
  rw [firstMentions, List.mem_eraseDups, mem_following, mem_reading_iff]

theorem ResolvesTo.readingAll_eq {r : Resolved} {picks : List Pick} (h : q.ResolvesTo s r picks)
    (hs : s.Sound) :
    Pick.readingAll k picks = (q.reading s k).map (List.map Member.id) := by
  rw [reading, h.model]
  exact Selector.readingAll_of_resolve (fun x _ p hp => x.reading_of_resolve hs h.model_mem hp)
    (Except.mapM_eq_ok_iff.mp h.selectors)

/-- The first mentions behind a chain of members are the first mentions behind its ids. -/
theorem ResolvesTo.map_firstMentions {r : Resolved} {picks : List Pick}
    (h : q.ResolvesTo s r picks) (hs : s.Sound) (has : ∀ y ∈ path, s.Has y) :
    (q.firstMentions s k path).map Member.id =
      (following (path.map Member.id) (Pick.readingAll k picks)).eraseDups := by
  have chains : ∀ chain ∈ q.reading s k, ∀ y ∈ chain, s.Has y := fun chain hchain =>
    (mem_reading_iff.mp hchain).has
  rw [h.readingAll_eq hs, following_map fun chain hchain =>
    hs.eq_of_map_id_eq (fun y hy => chains chain hchain y (List.dropLast_subset chain hy)) has]
  refine (eraseDups_map_of_injOn fun x hx y hy hid => ?_).symm
  have member : ∀ x ∈ following path (q.reading s k), s.Has x := fun x hx =>
    chains _ (mem_following.mp hx) x (by simp)
  exact hs.eq_of_id_eq (member x hx) (member y hy) hid

end Query

end ODataPlan
