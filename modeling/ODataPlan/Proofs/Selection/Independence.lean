import ODataPlan.Proofs.Resolution
import ODataPlan.Proofs.Selection.Similar

/-! What is selected within one expandable. Main statement: it comes from the selectors of that
expandable alone, in their order, whatever stands between them. -/
namespace ODataPlan

def Pick.field : Pick → FieldId
  | .scalar f | .bare f _ | .within f _ _ => f

namespace Selection

/-- A pick of another field leaves a branch as it is. -/
theorem get?_add_of_ne (a : Selection) {p : Pick} {f : FieldId} (h : p.field ≠ f) :
    (a.add p).branches.get? f = a.branches.get? f := by
  cases p with
  | scalar g => rw [Selection.add, branches_insertField]
  | bare g t | within g t =>
    have hg : f ≠ g := Ne.symm h
    rw [Selection.add, get?_alterBranch, if_neg hg]

/-- What a pick makes of the branch of its field does not depend on the rest of the selection. -/
theorem get?_add_congr {a b : Selection} {p : Pick} {f : FieldId} (hp : p.field = f)
    (h : a.branches.get? f = b.branches.get? f) :
    (a.add p).branches.get? f = (b.add p).branches.get? f := by
  subst hp
  cases p with
  | scalar g => rw [Selection.add, Selection.add, branches_insertField, branches_insertField, h]
  | bare g t | within g t =>
    change a.branches.get? g = b.branches.get? g at h
    simp only [Selection.add, get?_alterBranch, branch, Pick.field, h]

/-- Of several picks only those of a field matter to its branch. -/
theorem get?_addAll_filter {a b : Selection} {f : FieldId}
    (h : a.branches.get? f = b.branches.get? f) (ps : List Pick) :
    (a.addAll ps).branches.get? f = (b.addAll (ps.filter (·.field == f))).branches.get? f := by
  -- the two selections stay equal at the field, though they go apart elsewhere
  induction ps generalizing a b with
  | nil => exact h
  | cons p ps ih =>
    by_cases hp : p.field = f
    · rw [List.filter_cons_of_pos (by simpa using hp)]
      exact ih (get?_add_congr hp h)
    · rw [List.filter_cons_of_neg (by simpa using hp)]
      exact ih ((get?_add_of_ne a hp).trans h)

end Selection

/-- The outermost field of what a selector is looked up as is the one its name stands for. -/
theorem Selector.exists_field_of_resolve {s : Schema} {m : Model} {x : Selector} {p : Pick}
    (h : x.resolve s m = .ok p) : ∃ f, m.field? x.name = some f ∧ p.field = f.id := by
  cases x with
  | field name =>
    rw [resolve] at h
    split at h
    · cases h
    · rename_i f hf
      split at h <;> cases h <;> exact ⟨f, hf, rfl⟩
  | nested name xs =>
    rw [resolve] at h
    split at h
    · cases h
    · rename_i f hf
      split at h
      · split at h
        · cases h
          exact ⟨f, hf, rfl⟩
        · cases h
      · obtain ⟨ps, _, rfl⟩ := Except.map_eq_ok_iff.mp h
        exact ⟨f, hf, rfl⟩

namespace Query

variable {s : Schema}

/-- The picks of a member are what the selectors of its name are looked up as. -/
theorem mapM_resolve_filter (hs : s.Sound) {m : Model} (hm : m ∈ s.models) {name : String}
    {f : Field} (hf : m.field? name = some f) {xs : List Selector} {picks : List Pick}
    (h : xs.mapM (·.resolve s m) = .ok picks) :
    (xs.filter (·.name == name)).mapM (·.resolve s m) =
      .ok (picks.filter (·.field == f.id)) := by
  rw [Except.mapM_eq_ok_iff] at h ⊢
  refine List.rel_filter (fun x p hx => ?_) h
  obtain ⟨g, hg, hp⟩ := x.exists_field_of_resolve hx
  simp only [beq_iff_eq, hp]
  constructor
  · rintro rfl
    rw [Option.some.inj (hg.symm.trans hf)]
  · exact hs.name_unique hm hg hf

/-- Two queries of one model that have the same selectors of a field's name, in the same order,
select the same within that field. -/
theorem ResolvesTo.get?_congr {q q' : Query} {r r' : Resolved} {picks picks' : List Pick}
    (h : q.ResolvesTo s r picks) (h' : q'.ResolvesTo s r' picks') (hs : s.Sound)
    (hmodel : r.model = r'.model) {name : String} {f : Field}
    (hf : r.model.field? name = some f) (hsame : q.allSelectors.filter (·.name == name) =
      q'.allSelectors.filter (·.name == name)) :
    r.selection.branches.get? f.id = r'.selection.branches.get? f.id := by
  have hpicks := mapM_resolve_filter hs h.model_mem hf h.selectors
  have hpicks' := mapM_resolve_filter hs h'.model_mem (hmodel ▸ hf) h'.selectors
  rw [← hmodel, ← hsame, hpicks] at hpicks'
  have hpicks := Except.ok.inj hpicks'
  rw [h.selection, h'.selection, Selection.branches_keyed, Selection.branches_keyed,
    Branches.get?_keyed, Branches.get?_keyed, Pick.merged, Pick.merged,
    Selection.get?_addAll_filter rfl picks, Selection.get?_addAll_filter rfl picks', hpicks, hmodel]

end Query

end ODataPlan
