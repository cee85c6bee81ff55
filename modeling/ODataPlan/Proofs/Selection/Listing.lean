import ODataPlan.Proofs.Reading
import ODataPlan.Proofs.Selection.Merging

/-! The order of what a selection holds. Main statement: at each level of a resolved query the
scalars and the expandables stand in the order of their first mention, and a key that is not
mentioned stands behind the scalars. -/
namespace ODataPlan

namespace Selection

/-- The scalars or the expandables that are picked at the root of a selection. -/
def listed (k : Mention) (a : Selection) : List FieldId :=
  match k with
  | .scalar => a.fields
  | .expandable => a.branches.keys
  | .bare => []

/-- The scalars or the expandables that are picked at a level; none where there is no level. -/
def listedAt (k : Mention) (path : FieldPath) (a : Selection) : List FieldId :=
  ((a.level? path).map (listed k)).getD []

variable {k : Mention} {f g : FieldId} {t : ModelId} {path : FieldPath} {a : Selection}

@[simp] theorem listedAt_nil : a.listedAt k [] = a.listed k := rfl

theorem listedAt_cons : a.listedAt k (f :: path) =
    ((a.branches.get? f).map (listedAt k path)).getD [] := by
  rw [listedAt, level?_cons]
  cases a.branches.get? f <;> rfl

theorem listedAt_empty (m : ModelId) : (empty m).listedAt k path = [] := by
  cases path with
  | nil => cases k <;> rfl
  | cons f path => rfl

theorem listedAt_branch : (a.branch f t).listedAt k path = a.listedAt k (f :: path) := by
  rw [listedAt_cons, branch]
  cases a.branches.get? f with
  | none => exact listedAt_empty t
  | some n => rfl

/-- Below a level only the branch that is changed changes. -/
theorem listedAt_cons_alterBranch {h : Selection → Selection} :
    (a.alterBranch f t h).listedAt k (g :: path) =
      if f = g then (h (a.branch f t)).listedAt k path else a.listedAt k (g :: path) := by
  rw [listedAt_cons, listedAt_cons, alterBranch, setBranch, branches_mk]
  by_cases hg : f = g
  · subst hg
    simp [Branches.get?_set_self]
  · rw [Branches.get?_set_ne (Ne.symm hg), if_neg hg]

theorem listed_alterBranch {h : Selection → Selection} : (a.alterBranch f t h).listed k =
    if k = .expandable then addNew (a.listed k) f else a.listed k := by
  cases k with
  | expandable => exact Branches.keys_set f _ a.branches
  | scalar => rfl
  | bare => rfl

theorem listedAt_insertField : (a.insertField f).listedAt k path =
    if k = .scalar ∧ path = [] then addNew (a.listedAt k path) f else a.listedAt k path := by
  obtain ⟨m, fs, bs, d⟩ := a
  cases path with
  | nil => cases k <;> rfl
  | cons g path => simp [listedAt_cons, insertField]

theorem listedAt_withDefaults (d : Bool) :
    (a.withDefaults d).listedAt k path = a.listedAt k path := by
  obtain ⟨m, fs, bs, d'⟩ := a
  cases path with
  | nil => cases k <;> rfl
  | cons g path => simp [listedAt_cons, withDefaults]

theorem listedAt_foldl_add {ps : List Pick}
    (h : ∀ p ∈ ps, ∀ (a : Selection) path, (a.add p).listedAt k path =
      appendNew (a.listedAt k path) (following path (p.reading k))) (a : Selection)
    (path : FieldPath) : (ps.foldl add a).listedAt k path =
      appendNew (a.listedAt k path) (following path (Pick.readingAll k ps)) := by
  induction ps generalizing a with
  | nil => rfl
  | cons p ps ih =>
    obtain ⟨hp, hps⟩ := List.forall_mem_cons.mp h
    rw [List.foldl_cons, ih hps, hp, Pick.readingAll, following_append, appendNew_append]

/-- A change within one branch that appends what chains name appends what they name behind the
branch's field, and the field itself as an expandable. -/
theorem listedAt_alterBranch {h : Selection → Selection} {chains : List FieldPath}
    (hh : ∀ path, (h (a.branch f t)).listedAt k path =
      appendNew ((a.branch f t).listedAt k path) (following path chains))
    (hne : ∀ chain ∈ chains, chain ≠ []) (path : FieldPath) :
    (a.alterBranch f t h).listedAt k path = appendNew (a.listedAt k path)
      (following path ((if k = .expandable then [[f]] else []) ++ chains.map (f :: ·))) := by
  rw [following_append]
  cases path with
  | nil =>
    rw [listedAt_nil, listed_alterBranch, following_nil_map f hne, List.append_nil]
    split <;> rfl
  | cons g path =>
    have none : following (g :: path) (if k = .expandable then [[f]] else []) = [] := by
      split
      · rw [following_singleton, if_neg (List.cons_ne_nil g path)]
      · rfl
    rw [listedAt_cons_alterBranch, none, List.nil_append, following_cons_map]
    split
    · rename_i hf
      subst hf
      rw [hh, listedAt_branch]
    · rfl

/-- Adding a pick puts what it names at a level behind what is there, in the order in which it is
read. -/
theorem listedAt_add (hk : k ≠ .bare) (p : Pick) (a : Selection) (path : FieldPath) :
    (a.add p).listedAt k path =
      appendNew (a.listedAt k path) (following path (p.reading k)) := by
  induction p using Pick.induction generalizing a path with
  | scalar f =>
    rw [add, listedAt_insertField, Pick.reading]
    cases k with
    | scalar =>
      simp only [true_and, if_true, following_singleton]
      split <;> rfl
    | _ => rfl
  | bare f t =>
    have reading : (Pick.bare f t).reading k =
        (if k = .expandable then [[f]] else []) ++ ([] : List FieldPath).map (f :: ·) := by
      cases k with
      | bare => exact absurd rfl hk
      | _ => rfl
    rw [add, reading]
    exact listedAt_alterBranch (fun path => listedAt_withDefaults true) (by simp) path
  | within f t ps ih =>
    rw [add, Pick.reading]
    refine listedAt_alterBranch (fun path => ?_) (fun chain hchain => ?_) path
    · rw [addAll_eq_foldl]
      exact listedAt_foldl_add ih (a.branch f t) path
    · rw [Pick.readingAll_eq_flatMap] at hchain
      obtain ⟨p, _, hchain⟩ := List.mem_flatMap.mp hchain
      exact Pick.ne_nil_of_mem_reading hchain

/-- What picks come to lists, at each level, what they name there in the order of first mention. -/
theorem listedAt_merged (hk : k ≠ .bare) (m : Model) (picks : List Pick) (path : FieldPath) :
    (Pick.merged m picks).listedAt k path =
      (following path (Pick.readingAll k picks)).eraseDups := by
  rw [Pick.merged, addAll_eq_foldl, listedAt_foldl_add fun p _ a path => listedAt_add hk p a path,
    listedAt_empty, eraseDups_eq_appendNew]

end Selection

namespace Query

variable {q : Query} {s : Schema} {r : Resolved} {picks : List Pick} {path : List Member}

/-- A level of a resolved query has the expandables that are named there in the order of their first
mention. If it picks something, it has the scalars in this order as well, and the key behind them
unless it is one of them. -/
theorem ResolvesTo.listed_of_level (h : q.ResolvesTo s r picks) (hs : s.Sound)
    (has : ∀ y ∈ path, s.Has y) {n : Selection}
    (hn : r.selection.level? (path.map Member.id) = some n) :
    n.branches.keys = (q.firstMentions s .expandable path).map Member.id ∧
    (n.isDefault = false → ∀ m, s.endOf? r.model path = some m →
      n.fields = addNew ((q.firstMentions s .scalar path).map Member.id) m.key) := by
  rw [h.selection, Selection.level?_keyed, Option.map_eq_some_iff] at hn
  obtain ⟨n, hn, rfl⟩ := hn
  have listed : ∀ k ≠ .bare, n.listed k = (q.firstMentions s k path).map Member.id := by
    intro k hk
    rw [h.map_firstMentions hs has, ← Selection.listedAt_merged hk r.model, Selection.listedAt, hn]
    rfl
  constructor
  · rw [Selection.branches_keyed, Branches.keys_keyed]
    exact listed .expandable nofun
  · intro hd m hm
    obtain ⟨m', hm', hend, hid⟩ := h.model_of_level hs hn has
    cases hend.symm.trans hm
    rw [Selection.isDefault_keyed] at hd
    have fields : n.fields = _ := listed .scalar nofun
    rw [Selection.fields_keyed, hd, Schema.withKey, hid, hs.model?_of_mem m hm', ← fields]
    rfl

end Query

end ODataPlan
