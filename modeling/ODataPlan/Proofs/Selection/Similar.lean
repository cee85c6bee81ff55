import ODataPlan.Proofs.Selection.Keys

/-! Selections that differ only in the order of their own scalars and expandables. Main statement:
picks that ask for nothing within an expandable lead to such selections in whatever order they are
added. -/
namespace ODataPlan

/-- The pick asks for nothing within an expandable. -/
def Pick.Flat : Pick → Prop
  | .within .. => False
  | _ => True

namespace Selection

/-- Selections that differ only in the order of their own scalars and expandables. -/
structure Similar (a b : Selection) : Prop where
  model : a.model = b.model
  fields : ∀ f, f ∈ a.fields ↔ f ∈ b.fields
  branches : ∀ f, a.branches.get? f = b.branches.get? f
  includeDefaults : a.includeDefaults = b.includeDefaults

variable {a b c : Selection} {s : Schema} {m : Model}

theorem Similar.refl (a : Selection) : a.Similar a := ⟨rfl, fun _ => Iff.rfl, fun _ => rfl, rfl⟩

theorem Similar.symm (h : a.Similar b) : b.Similar a :=
  ⟨h.model.symm, fun f => (h.fields f).symm, fun f => (h.branches f).symm, h.includeDefaults.symm⟩

theorem Similar.trans (h : a.Similar b) (h' : b.Similar c) : a.Similar c :=
  ⟨h.model.trans h'.model, fun f => (h.fields f).trans (h'.fields f),
    fun f => (h.branches f).trans (h'.branches f), h.includeDefaults.trans h'.includeDefaults⟩

theorem branches_setBranch (a : Selection) (f g : FieldId) (n : Selection) :
    (a.setBranch f n).branches.get? g = if g = f then some n else a.branches.get? g := by
  split
  · rename_i h
    rw [h]
    exact Branches.get?_set_self f n a.branches
  · rename_i h
    exact Branches.get?_set_ne h n a.branches

@[simp] theorem mem_fields_insertField (a : Selection) (f g : FieldId) :
    g ∈ (a.insertField f).fields ↔ g ∈ a.fields ∨ g = f := by
  cases a
  exact mem_addNew

@[simp] theorem branches_insertField (a : Selection) (f : FieldId) :
    (a.insertField f).branches = a.branches := by
  cases a
  rfl

@[simp] theorem model_insertField (a : Selection) (f : FieldId) :
    (a.insertField f).model = a.model := by
  cases a
  rfl

@[simp] theorem includeDefaults_insertField (a : Selection) (f : FieldId) :
    (a.insertField f).includeDefaults = a.includeDefaults := by
  cases a
  rfl

theorem get?_alterBranch (a : Selection) (f g : FieldId) (t : ModelId)
    (w : Selection → Selection) : (a.alterBranch f t w).branches.get? g =
      if g = f then some (w (a.branch f t)) else a.branches.get? g :=
  branches_setBranch a f g _

theorem Similar.insertField (h : a.Similar b) (f : FieldId) :
    (a.insertField f).Similar (b.insertField f) where
  model := by simpa using h.model
  fields g := by simpa using or_congr_left (h.fields g)
  branches g := by simpa using h.branches g
  includeDefaults := by simpa using h.includeDefaults

theorem Similar.alterBranch (h : a.Similar b) (f : FieldId) (t : ModelId)
    (w : Selection → Selection) : (a.alterBranch f t w).Similar (b.alterBranch f t w) := by
  refine ⟨h.model, h.fields, fun g => ?_, h.includeDefaults⟩
  simp only [get?_alterBranch, branch, h.branches]

theorem Similar.add (h : a.Similar b) (p : Pick) : (a.add p).Similar (b.add p) := by
  cases p with
  | scalar f => simpa only [Selection.add] using h.insertField f
  | bare f t => simpa only [Selection.add] using h.alterBranch f t _
  | within f t ps => simpa only [Selection.add] using h.alterBranch f t _

theorem Similar.addAll (h : a.Similar b) (ps : List Pick) :
    (a.addAll ps).Similar (b.addAll ps) := by
  induction ps generalizing a b with
  | nil => exact h
  | cons p ps ih => exact ih (h.add p)

theorem similar_insertField_add (a : Selection) (f : FieldId) (p : Pick) :
    ((a.insertField f).add p).Similar ((a.add p).insertField f) := by
  cases p with
  | scalar g =>
    simp only [Selection.add]
    refine ⟨by simp, fun k => ?_, fun k => by simp, by simp⟩
    simp only [mem_fields_insertField]
    tauto
  | bare g t | within g t ps =>
    simp only [Selection.add]
    refine ⟨?_, fun k => ?_, fun k => ?_, ?_⟩
    · simp [Selection.alterBranch, setBranch]
    · simp [Selection.alterBranch, setBranch]
    · simp [get?_alterBranch, branch]
    · simp [Selection.alterBranch, setBranch]

/-- Expandables can be picked in either order if one that is picked twice has one target. -/
theorem similar_alterBranch_comm (a : Selection) {f g : FieldId} {t u : ModelId}
    (w : Selection → Selection) (h : f = g → t = u) :
    ((a.alterBranch f t w).alterBranch g u w).Similar
      ((a.alterBranch g u w).alterBranch f t w) := by
  refine ⟨rfl, fun _ => Iff.rfl, fun k => ?_, rfl⟩
  simp only [get?_alterBranch, branch]
  by_cases hfg : f = g
  · subst hfg
    rw [h rfl]
  · by_cases hk : k = f
    · subst hk
      simp [hfg]
    · simp [hk, Ne.symm hfg]

/-- Picks that ask for nothing within an expandable can be added in either order. -/
theorem similar_add_comm (hs : s.Sound) (hm : m ∈ s.models) (a : Selection) {p q : Pick}
    (hp : p.Flat) (hq : q.Flat) (hpw : p.WellTyped s m) (hqw : q.WellTyped s m) :
    ((a.add p).add q).Similar ((a.add q).add p) := by
  cases hpw with
  | scalar has => simpa only [Selection.add] using similar_insertField_add a _ q
  | within has model nested => cases hp
  | bare has model =>
    cases hqw with
    | scalar has' =>
      simpa only [Selection.add] using (similar_insertField_add a _ (.bare _ _)).symm
    | within has' model' nested => cases hq
    | bare has' model' =>
      simp only [Selection.add]
      -- the same expandable twice: its declared target is the one target of both picks
      refine similar_alterBranch_comm a _ fun hfg => ?_
      subst hfg
      exact hs.target_unique hm has has'

/-- Picks that ask for nothing within an expandable can be added in any order. -/
theorem Similar.addAll_perm (hs : s.Sound) (hm : m ∈ s.models) {ps qs : List Pick}
    (h : a.Similar b) (order : ps.Perm qs) (flat : ∀ p ∈ ps, p.Flat)
    (typed : ∀ p ∈ ps, p.WellTyped s m) : (a.addAll ps).Similar (b.addAll qs) := by
  induction order generalizing a b with
  | nil => exact h
  | cons p order ih =>
    exact ih (h.add p) (fun q hq => flat q (List.mem_cons_of_mem p hq))
      fun q hq => typed q (List.mem_cons_of_mem p hq)
  | swap p q ps =>
    have hp := List.mem_cons_of_mem q (List.mem_cons_self (a := p) (l := ps))
    have hq := List.mem_cons_self (a := q) (l := p :: ps)
    have both := similar_add_comm hs hm a (flat q hq) (flat p hp) (typed q hq) (typed p hp)
    exact (both.trans ((h.add p).add q)).addAll ps
  | trans order order' ih ih' =>
    exact (ih h flat typed).trans (ih' (.refl b) (fun p hp => flat p (order.mem_iff.mpr hp))
      fun p hp => typed p (order.mem_iff.mpr hp))

theorem isDefault_iff_get? (a : Selection) :
    a.isDefault = true ↔ (∀ f, f ∉ a.fields) ∧ ∀ f, a.branches.get? f = none := by
  rw [isDefault, Bool.and_eq_true, List.isEmpty_iff, List.eq_nil_iff_forall_not_mem]
  refine and_congr_right fun _ => ?_
  cases a.branches with
  | nil => simp [Branches.isEmpty, Branches.get?]
  | cons g n rest =>
    simp only [Branches.isEmpty, Bool.false_eq_true, false_iff, not_forall]
    exact ⟨g, by simp [Branches.get?]⟩

theorem Similar.isDefault_eq (h : a.Similar b) : a.isDefault = b.isDefault := by
  rw [Bool.eq_iff_iff, isDefault_iff_get?, isDefault_iff_get?]
  simp only [h.fields, h.branches]

theorem Similar.keyed (h : a.Similar b) {m : Model} (hm : s.model? a.model = some m) :
    (a.keyed s).Similar (b.keyed s) where
  model := by simpa using h.model
  fields f := by
    rw [mem_fields_keyed_iff hm, mem_fields_keyed_iff (h.model ▸ hm), h.fields, h.isDefault_eq]
  branches f := by simp only [branches_keyed, Branches.get?_keyed, h.branches]
  includeDefaults := by simpa using h.includeDefaults

end Selection

end ODataPlan
