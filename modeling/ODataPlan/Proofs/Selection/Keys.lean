import ODataPlan.Proofs.Selection.Typing

/-! What adding keys does to a well-typed selection: it always succeeds, each level that picks
something gains its model's key behind what it has, and nothing else changes. -/
namespace ODataPlan

/-- The fields with the key of a model behind them, unless it is there already. -/
def Schema.withKey (s : Schema) (m : ModelId) (fields : List FieldId) : List FieldId :=
  match s.model? m with
  | some owner => addNew fields owner.key
  | none => fields

mutual

/-- The selection with the key at every level that picks something. -/
def Selection.keyed (s : Schema) : Selection → Selection
  | .mk m fs bs d =>
    .mk m (if fs.isEmpty && bs.isEmpty then fs else s.withKey m fs) (bs.keyed s) d

def Branches.keyed (s : Schema) : Branches → Branches
  | .nil => .nil
  | .cons f n rest => .cons f (n.keyed s) (rest.keyed s)

end

namespace Branches

variable (s : Schema)

theorem toList_keyed (bs : Branches) :
    (bs.keyed s).toList = bs.toList.map fun b => (b.1, b.2.keyed s) := by
  induction bs using Branches.induction with
  | nil => rfl
  | cons f n rest ih => simp [keyed, ih]

theorem exists_of_mem_toList_keyed {s : Schema} {bs : Branches} {f : FieldId} {n : Selection}
    (h : (f, n) ∈ (bs.keyed s).toList) : ∃ k, (f, k) ∈ bs.toList ∧ k.keyed s = n := by
  rw [toList_keyed] at h
  obtain ⟨⟨g, k⟩, hk, he⟩ := List.mem_map.mp h
  cases he
  exact ⟨k, hk, rfl⟩

@[simp] theorem keys_keyed (bs : Branches) : (bs.keyed s).keys = bs.keys := by
  simp [keys, toList_keyed, Function.comp_def]

@[simp] theorem isEmpty_keyed (bs : Branches) : (bs.keyed s).isEmpty = bs.isEmpty := by
  cases bs <;> rfl

theorem get?_keyed (bs : Branches) (f : FieldId) :
    (bs.keyed s).get? f = (bs.get? f).map (Selection.keyed s) := by
  induction bs using Branches.induction with
  | nil => rfl
  | cons g n rest ih =>
    rw [keyed, get?, get?]
    split
    · rfl
    · exact ih

theorem ensureKeys_eq_ok {s : Schema} {bs : Branches}
    (h : ∀ f n, (f, n) ∈ bs.toList → n.ensureKey s = .ok (n.keyed s)) :
    bs.ensureKeys s = .ok (bs.keyed s) := by
  induction bs using Branches.induction with
  | nil => rfl
  | cons f n rest ih =>
    rw [ensureKeys, h f n (by simp), ih fun g k hk => h g k (List.mem_cons_of_mem _ hk)]
    rfl

end Branches

namespace Selection

variable {s : Schema} {a : Selection}

theorem isDefault_iff : a.isDefault = true ↔ a.fields = [] ∧ a.branches.toList = [] := by
  rw [isDefault, Branches.isEmpty_eq_isEmpty_toList]
  simp

theorem get?_of_isDefault (h : a.isDefault = true) (f : FieldId) : a.branches.get? f = none := by
  cases hf : a.branches.get? f with
  | none => rfl
  | some k =>
    have := Branches.mem_toList_of_get? hf
    simp [(isDefault_iff.mp h).2] at this

@[simp] theorem model_keyed (a : Selection) : (a.keyed s).model = a.model := by
  cases a
  rfl

@[simp] theorem includeDefaults_keyed (a : Selection) :
    (a.keyed s).includeDefaults = a.includeDefaults := by
  cases a
  rfl

@[simp] theorem branches_keyed (a : Selection) : (a.keyed s).branches = a.branches.keyed s := by
  cases a
  rfl

theorem fields_keyed (a : Selection) :
    (a.keyed s).fields = if a.isDefault then a.fields else s.withKey a.model a.fields := by
  cases a
  rfl

theorem mem_fields_keyed_iff {m : Model} (hm : s.model? a.model = some m) {f : FieldId} :
    f ∈ (a.keyed s).fields ↔ f ∈ a.fields ∨ (a.isDefault = false ∧ f = m.key) := by
  rw [fields_keyed, Schema.withKey, hm]
  split <;> simp_all

theorem isEmpty_withKey (m : ModelId) (fs : List FieldId) :
    (s.withKey m fs).isEmpty = true → fs.isEmpty = true := by
  unfold Schema.withKey addNew
  split
  · split <;> simp
  · exact id

/-- Whether a level picks something is left as it is. -/
@[simp] theorem isDefault_keyed (a : Selection) : (a.keyed s).isDefault = a.isDefault := by
  rw [isDefault, fields_keyed, branches_keyed, Branches.isEmpty_keyed]
  split
  · rfl
  · rename_i h
    have := isEmpty_withKey (s := s) a.model a.fields
    unfold isDefault at h ⊢
    grind

theorem level?_keyed (a : Selection) (path : FieldPath) :
    (a.keyed s).level? path = (a.level? path).map (keyed s) := by
  induction path generalizing a with
  | nil => rfl
  | cons f path ih =>
    rw [level?_cons, branches_keyed, Branches.get?_keyed, level?_cons]
    cases a.branches.get? f with
    | none => rfl
    | some n => exact ih n

/-- Keys can be added to a level of a registered model if they can be added within its branches. -/
theorem ensureKey_mk_eq_ok {m : ModelId} {fs : List FieldId} {bs : Branches} {d : Bool}
    {owner : Model} (hm : s.model? m = some owner)
    (within : ∀ f n, (f, n) ∈ bs.toList → n.ensureKey s = .ok (n.keyed s)) :
    (mk m fs bs d).ensureKey s = .ok ((mk m fs bs d).keyed s) := by
  rw [ensureKey, keyed]
  split
  · rename_i hd
    cases bs with
    | nil => rfl
    | cons f n rest => simp [Branches.isEmpty] at hd
  · rw [Schema.model_eq_ok_iff.mpr hm, Branches.ensureKeys_eq_ok within]
    simp [Schema.withKey, hm]

/-- Adding keys to a well-typed selection never fails. -/
theorem WellTyped.ensureKey (h : a.WellTyped s) (hs : s.Sound) :
    a.ensureKey s = .ok (a.keyed s) := by
  induction h with
  | mk model scalars nodup expandables nested ih =>
    exact ensureKey_mk_eq_ok (hs.model?_of_mem _ model) ih

/-- Adding keys keeps a selection well typed. -/
theorem WellTyped.keyed (h : a.WellTyped s) (hs : s.Sound) : (a.keyed s).WellTyped s := by
  induction h with
  | @mk m fields branches d model scalars nodup expandables nested ih =>
    obtain ⟨k, hk, _, hid, ht⟩ := hs.key_scalar m model
    refine .mk model (fun f hf => ?_) (by simpa using nodup) (fun f n hn => ?_) (fun f n hn => ?_)
    · rcases (mem_fields_keyed_iff (a := .mk m.id fields branches d) (hs.model?_of_mem m model)).mp
        hf with hf | ⟨_, rfl⟩
      · exact scalars f hf
      · exact ⟨k, hk, hid, ht⟩
    · obtain ⟨k, hk, rfl⟩ := Branches.exists_of_mem_toList_keyed hn
      rw [model_keyed]
      exact expandables f k hk
    · obtain ⟨k, hk, rfl⟩ := Branches.exists_of_mem_toList_keyed hn
      exact ih f k hk

end Selection

end ODataPlan
