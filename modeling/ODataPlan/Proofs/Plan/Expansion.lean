import ODataPlan.Plan.Expansion
import ODataPlan.Proofs.Plan.Blocks

/-! When expandables can be loaded, and what is projected then. Each routine of expansion comes to
a value computed from ids alone if everything below fits its depth, and to a refusal otherwise. -/
namespace ODataPlan

/-- The expandable can be expanded inline at a depth: on REST unless it takes a query of its own, on
Graph if it is single-valued and directly on the request's root. -/
def Expand.InlineAt {τ : Type} (e : Expand τ) : Dialect → Nat → Prop
  | .rest, _ => e.separateQuery = false
  | .graph, depth => e.collection = false ∧ depth ≤ 1

theorem Expand.canInline_iff {τ : Type} (e : Expand τ) (d : Dialect) (depth : Nat) :
    e.canInline d depth = true ↔ e.InlineAt d depth := by
  cases d <;> simp [Expand.InlineAt]

instance {τ : Type} (e : Expand τ) (d : Dialect) (depth : Nat) : Decidable (e.InlineAt d depth) :=
  decidable_of_iff _ (e.canInline_iff d depth)

namespace Member

/-- The member is an expandable that can be expanded inline at a depth. -/
def InlineAt (x : Member) (d : Dialect) (depth : Nat) : Prop :=
  ∃ e, x.field.type.expand? = some e ∧ e.InlineAt d depth

instance (x : Member) (d : Dialect) (depth : Nat) : Decidable (x.InlineAt d depth) :=
  decidable_of_iff (x.field.type.expand?.any fun e => decide (e.InlineAt d depth)) <| by
    simp [InlineAt, Option.any_eq_true]

/-- The path of a request that loads the member on its own. -/
def requestPath? (x : Member) (d : Dialect) : Option String :=
  x.field.type.expand?.bind fun e => e.requestPath.get d

theorem inlineAt_iff {x : Member} {e : Expand ModelId} (he : x.field.type = .expandable e)
    (d : Dialect) (depth : Nat) : x.InlineAt d depth ↔ e.InlineAt d depth := by
  simp [InlineAt, he]

theorem expansion_eq {x : Member} {e : Expand ModelId} (he : x.field.type = .expandable e) :
    x.expansion = .ok e := by
  simp [expansion, he]

/-- What is inline at a depth is inline directly on the root. -/
theorem InlineAt.one {x : Member} {d : Dialect} {depth : Nat} (h : x.InlineAt d depth) :
    x.InlineAt d 1 := by
  obtain ⟨e, he, h⟩ := h
  refine ⟨e, he, ?_⟩
  cases d with
  | rest => exact h
  | graph => exact ⟨h.1, Nat.le_refl 1⟩

end Member

namespace Schema

/-- The expandables of a chain can all be expanded inline, the first one at a depth. -/
def InlineFrom (s : Schema) (d : Dialect) : Nat → FieldPath → Prop
  | _, [] => True
  | depth, f :: ids =>
    (∃ x, s.Has x ∧ x.id = f ∧ x.InlineAt d depth) ∧ s.InlineFrom d (depth + 1) ids

variable {s : Schema} {d : Dialect} {depth : Nat} {ids : FieldPath}

theorem InlineFrom.forall_one (h : s.InlineFrom d depth ids) :
    ∀ f ∈ ids, ∃ x, s.Has x ∧ x.id = f ∧ x.InlineAt d 1 := by
  induction ids generalizing depth with
  | nil => simp
  | cons f ids ih =>
    obtain ⟨⟨x, hx, hid, hi⟩, hids⟩ := h
    exact List.forall_mem_cons.mpr ⟨⟨x, hx, hid, hi.one⟩, ih hids⟩

/-- Graph expands one level. -/
theorem InlineFrom.length_le (h : s.InlineFrom .graph 1 ids) : ids.length ≤ 1 := by
  match ids, h with
  | [], _ => exact Nat.zero_le 1
  | [_], _ => exact Nat.le_refl 1
  | _ :: _ :: _, h =>
    obtain ⟨_, ⟨x, _, _, e, _, _, hd⟩, _⟩ := h
    omega

end Schema

variable {s : Schema} {d : Dialect}

namespace Selection

/-- Every expandable below the level can be expanded inline, those directly below it at a depth. -/
def Fits (s : Schema) (d : Dialect) (depth : Nat) (a : Selection) : Prop :=
  ∀ ids x n, s.Has x → a.level? (ids ++ [x.id]) = some n → x.InlineAt d (ids.length + depth)

theorem WellTyped.fits_iff {a : Selection} (ha : a.WellTyped s) {depth : Nat} :
    a.Fits s d depth ↔ ∀ f n, (f, n) ∈ a.branches.toList → ∀ x, s.Has x → x.id = f →
      x.InlineAt d depth ∧ n.Fits s d (depth + 1) := by
  constructor
  · rintro h f n hn x hx rfl
    have hget := (Branches.get?_eq_some_iff ha.nodup_keys).mpr hn
    constructor
    · simpa using h [] x n hx (by simp [level?_cons, hget])
    · intro ids y k hy hk
      have := h (x.id :: ids) y k hy (by simpa [level?_cons, hget] using hk)
      rwa [List.length_cons, Nat.add_assoc, Nat.add_comm 1] at this
  · intro h ids x n hx hn
    cases ids with
    | nil =>
      obtain ⟨k, hk, _⟩ := Option.bind_eq_some_iff.mp hn
      simpa using (h x.id k (Branches.mem_toList_of_get? hk) x hx rfl).1
    | cons f ids =>
      obtain ⟨k, hk, hn⟩ := Option.bind_eq_some_iff.mp hn
      have hk := Branches.mem_toList_of_get? hk
      obtain ⟨y, _, hy, hid, _⟩ := ha.member_of_branch hk
      have := (h f k hk y hy hid).2 ids x n hx hn
      rwa [List.length_cons, Nat.add_assoc, Nat.add_comm 1]

/-- Where everything below a level fits, every chain to a level below is inline throughout. -/
theorem WellTyped.inlineFrom_of_level {a n : Selection} (ha : a.WellTyped s) {depth : Nat}
    (hf : a.Fits s d depth) {ids : FieldPath} (hn : a.level? ids = some n) :
    s.InlineFrom d depth ids := by
  induction ids generalizing a depth with
  | nil => trivial
  | cons f ids ih =>
    obtain ⟨k, hk, hn⟩ := Option.bind_eq_some_iff.mp hn
    have hk := Branches.mem_toList_of_get? hk
    obtain ⟨x, _, hx, hid, _⟩ := ha.member_of_branch hk
    obtain ⟨hi, hf⟩ := ha.fits_iff.mp hf f k hk x hx hid
    exact ⟨⟨x, hx, hid, hi⟩, ih (ha.of_branch hk) hf hn⟩

theorem fits_of_isDefault {a : Selection} (h : a.isDefault = true) (depth : Nat) :
    a.Fits s d depth := by
  intro ids x n _ hn
  cases ids <;> simp [level?_cons, get?_of_isDefault h] at hn

end Selection

namespace Branches

/-- Branches are expanded inline if each one can be and what is below it fits one level deeper. -/
theorem inlineEntries_decides (hs : s.Sound) {bs : Branches} {refuse : Member → FailureKind}
    (hr : ∀ x, ∃ message, refuse x = .notExpressible message)
    (member : ∀ f n, (f, n) ∈ bs.toList →
      ∃ x e, s.Has x ∧ x.id = f ∧ x.field.type = .expandable e ∧ e.target = n.model)
    (nested : ∀ f n, (f, n) ∈ bs.toList → ∀ x path depth,
      (n.inlineEntries s d x path depth).Decides .notExpressible
        (n.Fits s d (depth + 1)) (n.block s d path))
    (path : FieldPath) (depth : Nat) :
    (bs.inlineEntries s d refuse path depth).Decides .notExpressible
      (∀ f n, (f, n) ∈ bs.toList → ∀ x, s.Has x → x.id = f →
        x.InlineAt d depth ∧ n.Fits s d (depth + 1)) (bs.blocks s d path) := by
  induction bs using Branches.induction with
  | nil => exact (Outcome.decides_ok _).congr (by simp)
  | cons f n rest ih =>
    obtain ⟨x, e, hx, rfl, he, _⟩ := member f n List.mem_cons_self
    have hrest := ih (fun g k hk => member g k (List.mem_cons_of_mem _ hk))
      fun g k hk => nested g k (List.mem_cons_of_mem _ hk)
    rw [inlineEntries, blocks, Member.id, hs.member_of_has hx]
    simp only [Outcome.liftM_eq_ofLookup, Outcome.ofLookup_ok, Except.ok_bind,
      Member.expansion_eq he]
    refine (Outcome.Decides.guard (hr x) fun _ =>
      (nested x.id n List.mem_cons_self x (path ++ [x.id]) depth).bind fun _ =>
        hrest.bind_pure _).congr ?_
    -- the member under an id is unique, so the head condition is about `x` alone
    rw [Expand.canInline_iff, ← Member.inlineAt_iff he]
    simp only [toList_cons, List.mem_cons, Prod.mk.injEq]
    constructor
    · rintro ⟨hi, hn, hk⟩ g k (⟨rfl, rfl⟩ | h) y hy hid
      · cases hs.eq_of_id_eq hy hx hid
        exact ⟨hi, hn⟩
      · exact hk g k h y hy hid
    · intro h
      obtain ⟨hi, hn⟩ := h x.id n (.inl ⟨rfl, rfl⟩) x hx rfl
      exact ⟨hi, hn, fun g k hk => h g k (.inr hk)⟩

end Branches

namespace Selection

/-- An inline expansion is its block if everything below it fits. -/
theorem WellTyped.inlineEntries_decides {a : Selection} (ha : a.WellTyped s) (hs : s.Sound)
    (x : Member) (path : FieldPath) (depth : Nat) :
    (a.inlineEntries s d x path depth).Decides .notExpressible
      (a.Fits s d (depth + 1)) (a.block s d path) := by
  induction ha generalizing x path depth with
  | @mk m fields branches defaults model scalars nodup expandables nested ih =>
    have hw := WellTyped.mk (d := defaults) model scalars nodup expandables nested
    unfold Selection.inlineEntries
    split
    · rename_i hd
      have hb : branches = .nil := by
        cases branches with
        | nil => rfl
        | cons f n rest => simp [Branches.isEmpty] at hd
      subst hb
      have hd : (Selection.mk m.id fields .nil defaults).isDefault = true := hd
      refine .inl ⟨fits_of_isDefault hd _, ?_⟩
      rw [Selection.block, levelEntries, if_pos hd]
      rfl
    · rename_i hd
      have hd : ¬ (Selection.mk m.id fields branches defaults).isDefault = true := hd
      have hb : (branches.inlineEntries s d (FailureKind.requestInExpansion d x) path
          (depth + 1)).Decides .notExpressible _ _ :=
        Branches.inlineEntries_decides hs (fun _ => ⟨_, rfl⟩)
          (fun f n h => hw.member_of_branch h) ih path (depth + 1)
      have hds := hw.defaultEntries_eq hs d path
      have hss := hw.scalarEntries_eq hs d path
      rw [model_mk] at hds
      rw [fields_mk] at hss
      rw [Selection.block, levelEntries, if_neg hd, ownEntries]
      refine Outcome.Decides.congr ?_ hw.fits_iff.symm
      cases defaults
      all_goals
        simp only [hds, hss, Outcome.liftM_eq_ofLookup, Outcome.ofLookup_ok, Except.ok_bind,
          pure_bind, if_true, if_false, Bool.false_eq_true]
        exact hb.bind_pure _

theorem WellTyped.branches_decides {a : Selection} (ha : a.WellTyped s) (hs : s.Sound)
    {refuse : Member → FailureKind} (hr : ∀ x, ∃ message, refuse x = .notExpressible message)
    (path : FieldPath) (depth : Nat) :
    (a.branches.inlineEntries s d refuse path depth).Decides .notExpressible (a.Fits s d depth)
      (a.branches.blocks s d path) :=
  (Branches.inlineEntries_decides hs hr (fun _ _ h => ha.member_of_branch h)
    (fun _ _ h x => (ha.of_branch h).inlineEntries_decides hs x) path depth).congr ha.fits_iff.symm

/-- The request for an expandable projects its block if everything below the request fits. -/
theorem WellTyped.requestProjection_decides {a : Selection} (ha : a.WellTyped s) (hs : s.Sound)
    (x : Member) {m : Model} (hm : m ∈ s.models) (hid : a.model = m.id) :
    (a.requestProjection s d x m).Decides .notExpressible
      (a.Fits s d 1) (a.requestBlock s d) := by
  unfold requestProjection requestBlock
  rw [hid, hs.model?_of_mem m hm]
  split
  · rename_i hd
    rw [hs.defaultProjection_eq hm]
    exact .inl ⟨fits_of_isDefault hd 1, rfl⟩
  · obtain ⟨k, hk, he⟩ := hs.keyField_entries (d := d) hm
    have hb : (a.branches.inlineEntries s d (FailureKind.requestInRequest d x) [] 1).Decides
        .notExpressible _ _ :=
      ha.branches_decides hs (fun _ => ⟨_, rfl⟩) [] 1
    have hds := ha.defaultEntries_eq hs d []
    have hss := ha.scalarEntries_eq hs d []
    rw [hid] at hds
    rw [ownEntries]
    cases a.includeDefaults
    all_goals
      simp only [hk, he, hds, hss, hid, Outcome.liftM_eq_ofLookup, Outcome.ofLookup_ok, Except.ok_bind,
        pure_bind, if_true, if_false, Bool.false_eq_true]
      convert hb.bind_pure _ using 3
      simp

end Selection

namespace Member

/-- The request that loads a member on its own. -/
def request (s : Schema) (d : Dialect) (x : Member) (a : Selection) : FollowUp :=
  ⟨x.id, ⟨d, a.model, (x.requestPath? d).getD "", (a.requestBlock s d).clauses⟩⟩

/-- A member can be loaded by a request of its own. -/
def Requestable (s : Schema) (d : Dialect) (source : Source) (shaped : Bool) (x : Member)
    (a : Selection) : Prop :=
  source = .entity ∧ shaped = false ∧ (x.requestPath? d).isSome = true ∧ a.Fits s d 1

/-- A selected expandable can be loaded: inline together with everything below it, or, where it is
not inline itself, by a request of its own. -/
def Loadable (s : Schema) (d : Dialect) (source : Source) (shaped : Bool) (x : Member)
    (a : Selection) : Prop :=
  (x.InlineAt d 1 ∧ a.Fits s d 2) ∨ (¬ x.InlineAt d 1 ∧ x.Requestable s d source shaped a)

/-- What loading a selected expandable comes to. -/
def loaded (s : Schema) (d : Dialect) (x : Member) (a : Selection) : Projection × List FollowUp :=
  if x.InlineAt d 1 then (a.block s d [x.id], [])
  else (.selecting (if a.isDefault then [[x.id]] else []), [x.request s d a])

end Member

namespace Selection

variable {source : Source} {shaped : Bool} {a : Selection} {x : Member} {e : Expand ModelId}

theorem WellTyped.followUp_decides (ha : a.WellTyped s) (hs : s.Sound)
    (he : x.field.type = .expandable e) (ht : e.target = a.model) :
    (a.followUp s d source shaped x e).Decides .notExpressible (x.Requestable s d source shaped a)
      (x.request s d a) := by
  obtain ⟨m, hm, hid⟩ := ha.model_mem
  have hp : x.requestPath? d = e.requestPath.get d := by simp [Member.requestPath?, he]
  unfold Selection.followUp
  rw [← ite_not, ← ite_not (p := shaped = true)]
  refine (Outcome.Decides.guard ⟨_, rfl⟩ fun _ => Outcome.Decides.guard ⟨_, rfl⟩ fun _ => ?_).congr
    (P := ¬ source = .collection ∧ ¬ shaped = true ∧
      (x.requestPath? d).isSome = true ∧ a.Fits s d 1)
    (by cases source <;> simp [Member.Requestable])
  unfold Member.request
  rw [hp]
  cases e.requestPath.get d with
  | none => exact .inr ⟨by simp, _, rfl⟩
  | some path =>
    simp only [ht, hid, hs.model_of_mem hm, Outcome.liftM_eq_ofLookup, Outcome.ofLookup_ok,
      Except.ok_bind, Option.isSome_some, true_and, Option.getD_some]
    exact (ha.requestProjection_decides hs x hm hid).bind_pure _

/-- An expandable is loaded if it can be, and a plan for it is refused otherwise. -/
theorem WellTyped.load_decides (ha : a.WellTyped s) (hs : s.Sound)
    (he : x.field.type = .expandable e) (ht : e.target = a.model) :
    (a.load s d source shaped x).Decides .notExpressible
      (x.Loadable s d source shaped a) (x.loaded s d a) := by
  unfold Selection.load Member.Loadable Member.loaded
  simp only [Member.expansion_eq he, Except.ok_bind, Expand.canInline_iff, ← Member.inlineAt_iff he]
  by_cases hi : x.InlineAt d 1
  · simp only [hi, if_true, true_and, not_true, false_and, or_false]
    exact (ha.inlineEntries_decides hs x [x.id] 1).bind_pure _
  · simp only [hi, if_false, false_and, not_false_eq_true, true_and, false_or]
    exact (ha.followUp_decides hs he ht).bind_pure _

end Selection

end ODataPlan
