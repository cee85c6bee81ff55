import Mathlib.Data.List.Basic
import ODataPlan.Outcome

/-! How operations that can fail are taken apart and put together. Three judgements carry the later
proofs: `Decides` says that an outcome is one value under one condition and a refusal otherwise,
`FailsOnly` that it fails for reasons of some kinds alone, and `Alike` that two outcomes are
corresponding values or failures of one kind. -/
namespace ODataPlan

/-- Partners for all entries of a list make a list that corresponds to it place by place. -/
theorem exists_forall₂ {α β : Type} {R : α → β → Prop} {xs : List α}
    (h : ∀ x ∈ xs, ∃ y, R x y) : ∃ ys, List.Forall₂ R xs ys := by
  induction xs with
  | nil => exact ⟨[], .nil⟩
  | cons x xs ih =>
    obtain ⟨⟨y, hy⟩, hxs⟩ := List.forall_mem_cons.mp h
    obtain ⟨ys, hys⟩ := ih hxs
    exact ⟨y :: ys, .cons hy hys⟩

/-- In lists that correspond place by place, every entry has a partner. -/
theorem exists_of_forall₂ {α β : Type} {R : α → β → Prop} {xs : List α} {ys : List β}
    (h : List.Forall₂ R xs ys) : (∀ x ∈ xs, ∃ y ∈ ys, R x y) ∧ ∀ y ∈ ys, ∃ x ∈ xs, R x y := by
  induction h with
  | nil => simp
  | cons hxy _ ih =>
    obtain ⟨left, right⟩ := ih
    constructor
    · refine List.forall_mem_cons.mpr ⟨⟨_, List.mem_cons_self, hxy⟩, fun x hx => ?_⟩
      obtain ⟨y, hy, h⟩ := left x hx
      exact ⟨y, List.mem_cons_of_mem _ hy, h⟩
    · refine List.forall_mem_cons.mpr ⟨⟨_, List.mem_cons_self, hxy⟩, fun y hy => ?_⟩
      obtain ⟨x, hx, h⟩ := right y hy
      exact ⟨x, List.mem_cons_of_mem _ hx, h⟩

theorem Except.bind_eq_ok_iff {ε α β : Type} {o : Except ε α} {f : α → Except ε β} {b : β} :
    o >>= f = .ok b ↔ ∃ a, o = .ok a ∧ f a = .ok b := by
  cases o <;> simp [bind, Except.bind]

theorem Except.map_eq_ok_iff {ε α β : Type} {o : Except ε α} {f : α → β} {b : β} :
    f <$> o = .ok b ↔ ∃ a, o = .ok a ∧ f a = b := by
  cases o <;> simp [Functor.map, Except.map]

@[simp] theorem Except.ok_bind {ε α β : Type} (a : α) (f : α → Except ε β) :
    (Except.ok a >>= f) = f a := rfl

@[simp] theorem Except.error_bind {ε α β : Type} (e : ε) (f : α → Except ε β) :
    (Except.error e >>= f) = .error e := rfl

/-- Two operations that agree after a function can be followed by what depends on that alone. -/
theorem Except.bind_congr_of_map {ε α β γ : Type} {o o' : Except ε α} {f : α → γ}
    {g g' : α → Except ε β} (h : f <$> o = f <$> o') (hg : ∀ a b, f a = f b → g a = g' b) :
    o >>= g = o' >>= g' := by
  cases o with
  | error e =>
    cases o' with
    | error e' =>
      cases h
      rfl
    | ok b => cases h
  | ok a =>
    cases o' with
    | error e' => cases h
    | ok b => exact hg a b (Except.ok.inj h)

theorem Except.exists_of_isOk {ε α : Type} {o : Except ε α} (h : o.isOk = true) :
    ∃ a, o = .ok a := by
  cases o with
  | ok a => exact ⟨a, rfl⟩
  | error e => cases h

/-- What a successful pass over a list gives, place by place. -/
theorem Except.mapM_eq_ok_iff {ε α β : Type} {f : α → Except ε β} {xs : List α} {ys : List β} :
    xs.mapM f = .ok ys ↔ List.Forall₂ (fun x y => f x = .ok y) xs ys := by
  induction xs generalizing ys with
  | nil =>
    constructor
    · intro h
      cases h
      exact .nil
    · rintro ⟨⟩
      rfl
  | cons x xs ih =>
    rw [List.mapM_cons, Except.bind_eq_ok_iff]
    constructor
    · rintro ⟨y, hy, h⟩
      obtain ⟨zs, hzs, h⟩ := Except.bind_eq_ok_iff.mp h
      cases h
      exact .cons hy (ih.mp hzs)
    · rintro (_ | ⟨hy, hzs⟩)
      exact ⟨_, hy, Except.bind_eq_ok_iff.mpr ⟨_, ih.mpr hzs, rfl⟩⟩

theorem Except.exists_mapM_eq_ok {ε α β : Type} {f : α → Except ε β} {xs : List α}
    (h : ∀ x ∈ xs, ∃ y, f x = .ok y) : ∃ ys, xs.mapM f = .ok ys := by
  obtain ⟨ys, hys⟩ := exists_forall₂ h
  exact ⟨ys, mapM_eq_ok_iff.mpr hys⟩

theorem Except.forall_of_mapM_eq_ok {ε α β : Type} {f : α → Except ε β} {xs : List α}
    {ys : List β} (h : xs.mapM f = .ok ys) : ∀ x ∈ xs, ∃ y ∈ ys, f x = .ok y :=
  (exists_of_forall₂ (mapM_eq_ok_iff.mp h)).1

theorem Except.exists_mapM_eq_ok_iff {ε α β : Type} {f : α → Except ε β} {xs : List α} :
    (∃ ys, xs.mapM f = .ok ys) ↔ ∀ x ∈ xs, ∃ y, f x = .ok y := by
  refine ⟨fun ⟨ys, h⟩ x hx => ?_, exists_mapM_eq_ok⟩
  obtain ⟨y, _, hy⟩ := forall_of_mapM_eq_ok h x hx
  exact ⟨y, hy⟩

theorem Except.exists_of_mapM_eq_ok {ε α β : Type} {f : α → Except ε β} {xs : List α}
    {ys : List β} (h : xs.mapM f = .ok ys) : ∀ y ∈ ys, ∃ x ∈ xs, f x = .ok y :=
  (exists_of_forall₂ (mapM_eq_ok_iff.mp h)).2

namespace Outcome

variable {α β : Type}

@[simp] theorem ofLookup_ok (a : α) : ofLookup (.ok a) = .ok a := rfl

@[simp] theorem liftM_eq_ofLookup (o : Except Dangling α) :
    (liftM o : Outcome α) = ofLookup o := rfl

@[simp] theorem ofLookup_map (f : α → β) (o : Except Dangling α) :
    ofLookup (f <$> o) = f <$> ofLookup o := by cases o <;> rfl

@[simp] theorem map_raise (f : α → β) (k : FailureKind) :
    f <$> (k.raise : Outcome α) = k.raise := rfl

/-- The outcome is the value if the condition holds, and a refusal of one kind if not. -/
def Decides (refusal : String → FailureKind) (o : Outcome α) (P : Prop) (v : α) : Prop :=
  (P ∧ o = .ok v) ∨ (¬ P ∧ ∃ message, o = (refusal message).raise)

section Decides

variable {refusal : String → FailureKind} {o : Outcome α} {P Q : Prop} {v a : α}

theorem decides_ok (v : α) : Decides refusal (.ok v) True v := .inl ⟨trivial, rfl⟩

theorem decides_raise {k : FailureKind} (hk : ∃ message, k = refusal message) (v : α) :
    Decides refusal k.raise False v := by
  obtain ⟨message, rfl⟩ := hk
  exact .inr ⟨id, message, rfl⟩

theorem Decides.eq_ok_iff (h : o.Decides refusal P v) : (∃ a, o = .ok a) ↔ P := by
  rcases h with ⟨hP, rfl⟩ | ⟨hP, message, rfl⟩
  · exact ⟨fun _ => hP, fun _ => ⟨v, rfl⟩⟩
  · exact ⟨fun ⟨_, h⟩ => (nomatch h), fun h => absurd h hP⟩

theorem Decides.of_eq_ok (h : o.Decides refusal P v) (ho : o = .ok a) : P ∧ a = v := by
  rcases h with ⟨hP, rfl⟩ | ⟨hP, message, rfl⟩
  · exact ⟨hP, (Except.ok.inj ho).symm⟩
  · exact nomatch ho

theorem Decides.congr (h : o.Decides refusal P v) (hPQ : P ↔ Q) : o.Decides refusal Q v := by
  rcases h with ⟨hP, ho⟩ | ⟨hP, ho⟩
  · exact .inl ⟨hPQ.mp hP, ho⟩
  · exact .inr ⟨mt hPQ.mpr hP, ho⟩

/-- Two steps: what the second decides only matters where the first succeeds. -/
theorem Decides.bind {f : α → Outcome β} {w : β} (h : o.Decides refusal P v)
    (hf : P → (f v).Decides refusal Q w) : Decides refusal (o >>= f) (P ∧ Q) w := by
  rcases h with ⟨hP, rfl⟩ | ⟨hP, message, rfl⟩
  · rcases hf hP with ⟨hQ, hw⟩ | ⟨hQ, hw⟩
    · exact .inl ⟨⟨hP, hQ⟩, hw⟩
    · exact .inr ⟨fun h => hQ h.2, hw⟩
  · exact .inr ⟨fun h => hP h.1, message, rfl⟩

theorem Decides.map (h : o.Decides refusal P v) (f : α → β) :
    Decides refusal (f <$> o) P (f v) := by
  rcases h with ⟨hP, rfl⟩ | ⟨hP, message, rfl⟩
  · exact .inl ⟨hP, rfl⟩
  · exact .inr ⟨hP, message, rfl⟩

theorem Decides.bind_pure (h : o.Decides refusal P v) (f : α → β) :
    Decides refusal (o >>= fun a => pure (f a)) P (f v) := h.map f

theorem Decides.mapM {f : α → Outcome β} {P : α → Prop} {g : α → β} {xs : List α}
    (h : ∀ x ∈ xs, (f x).Decides refusal (P x) (g x)) :
    Decides refusal (xs.mapM f) (∀ x ∈ xs, P x) (xs.map g) := by
  induction xs with
  | nil => exact .inl ⟨by simp, rfl⟩
  | cons x xs ih =>
    obtain ⟨hx, hxs⟩ := List.forall_mem_cons.mp h
    rw [List.mapM_cons, List.map_cons]
    refine Decides.congr (P := P x ∧ (∀ y ∈ xs, P y) ∧ True) ?_ (by simp)
    exact hx.bind fun _ => (ih hxs).bind fun _ => decides_ok (g x :: xs.map g)

theorem Decides.forM {f : α → Outcome Unit} {P : α → Prop} {xs : List α}
    (h : ∀ x ∈ xs, (f x).Decides refusal (P x) ()) :
    Decides refusal (xs.forM f) (∀ x ∈ xs, P x) () := by
  induction xs with
  | nil => exact .inl ⟨by simp, rfl⟩
  | cons x xs ih =>
    obtain ⟨hx, hxs⟩ := List.forall_mem_cons.mp h
    exact (hx.bind fun _ => ih hxs).congr List.forall_mem_cons.symm

/-- A step that is refused unless a condition holds. -/
theorem Decides.guard {c : Prop} [Decidable c] {k : FailureKind}
    (hk : ∃ message, k = refusal message) (h : c → o.Decides refusal P v) :
    Decides refusal (if c then o else k.raise) (c ∧ P) v := by
  by_cases hc : c
  · rw [if_pos hc]
    exact (h hc).congr (by simp [hc])
  · rw [if_neg hc]
    exact (decides_raise hk v).congr (by simp [hc])

end Decides

/-- Where the outcome is a failure, it is one of these kinds without further causes. -/
def FailsOnly (K : FailureKind → Prop) (o : Outcome α) : Prop :=
  ∀ e, o = .error e → ∃ k : FailureKind, e = .failed (.ofKind k) ∧ K k

section FailsOnly

variable {K : FailureKind → Prop} {o : Outcome α}

theorem failsOnly_ok (a : α) : FailsOnly K (.ok a : Outcome α) := fun _ h => nomatch h

theorem failsOnly_raise {k : FailureKind} (h : K k) : FailsOnly K (k.raise : Outcome α) := by
  intro e he
  cases he
  exact ⟨k, rfl, h⟩

theorem FailsOnly.bind {f : α → Outcome β} (h : o.FailsOnly K)
    (hf : ∀ a, o = .ok a → (f a).FailsOnly K) : FailsOnly K (o >>= f) := by
  cases o with
  | ok a => exact hf a rfl
  | error e =>
    intro e' he
    cases he
    exact h e rfl

theorem FailsOnly.map (h : o.FailsOnly K) (f : α → β) : FailsOnly K (f <$> o) :=
  h.bind fun a _ => failsOnly_ok (f a)

theorem FailsOnly.mapM {f : α → Outcome β} {xs : List α} (h : ∀ x ∈ xs, (f x).FailsOnly K) :
    FailsOnly K (xs.mapM f) := by
  induction xs with
  | nil => exact failsOnly_ok []
  | cons x xs ih =>
    obtain ⟨hx, hxs⟩ := List.forall_mem_cons.mp h
    rw [List.mapM_cons]
    exact hx.bind fun y _ => (ih hxs).bind fun ys _ => failsOnly_ok (y :: ys)

end FailsOnly

/-- The outcome is no look-up that leads nowhere and no plan that breaks the rules of rendering. -/
def Proper (o : Outcome α) : Prop :=
  ∀ e, o = .error e → ∃ k : FailureKind, e = .failed (.ofKind k) ∧ ∀ m, k ≠ .invalidPlan m

theorem proper_iff {o : Outcome α} : o.Proper ↔ o.FailsOnly fun k => ∀ m, k ≠ .invalidPlan m :=
  Iff.rfl

theorem proper_ok (a : α) : Proper (.ok a : Outcome α) := failsOnly_ok a

theorem proper_raise {k : FailureKind} (h : ∀ m, k ≠ .invalidPlan m) :
    Proper (k.raise : Outcome α) := failsOnly_raise h

theorem Decides.proper {o : Outcome α} {P : Prop} {v : α}
    (h : o.Decides .notExpressible P v) : o.Proper := by
  rcases h with ⟨_, rfl⟩ | ⟨_, message, rfl⟩
  · exact proper_ok v
  · exact proper_raise fun _ => nofun

theorem Proper.bind {o : Outcome α} {f : α → Outcome β} (h : o.Proper)
    (hf : ∀ a, o = .ok a → (f a).Proper) : Proper (o >>= f) :=
  proper_iff.mpr ((proper_iff.mp h).bind hf)

theorem Proper.map {o : Outcome α} (h : o.Proper) (f : α → β) : Proper (f <$> o) :=
  proper_iff.mpr ((proper_iff.mp h).map f)

theorem Proper.mapM {f : α → Outcome β} {xs : List α} (h : ∀ x ∈ xs, (f x).Proper) :
    Proper (xs.mapM f) := proper_iff.mpr (.mapM h)

/-- Both outcomes are values that correspond, or both are failures of one kind. -/
inductive Alike (R : α → β → Prop) : Outcome α → Outcome β → Prop
  | ok {a b} (related : R a b) : Alike R (.ok a) (.ok b)
  | failed {e f : Failure} (kind : e.kind.label = f.kind.label) :
    Alike R (.error (.failed e)) (.error (.failed f))

theorem alike_raise {R : α → β → Prop} {k l : FailureKind} (h : k.label = l.label) :
    Alike R (k.raise : Outcome α) (l.raise : Outcome β) := .failed h

theorem Alike.cases {R : α → β → Prop} {o : Outcome α} {o' : Outcome β} (h : o.Alike R o') :
    (∃ a b, o = .ok a ∧ o' = .ok b ∧ R a b) ∨
      ∃ e f : Failure, o = .error (.failed e) ∧ o' = .error (.failed f) ∧
        e.kind.label = f.kind.label := by
  cases h with
  | ok related => exact .inl ⟨_, _, rfl, rfl, related⟩
  | failed kind => exact .inr ⟨_, _, rfl, rfl, kind⟩

theorem Proper.alike {o : Outcome α} (h : o.Proper) : o.Alike Eq o := by
  cases o with
  | ok a => exact .ok rfl
  | error e =>
    obtain ⟨k, rfl, _⟩ := h e rfl
    exact .failed rfl

theorem Alike.bind {γ δ : Type} {R : α → β → Prop} {S : γ → δ → Prop} {o : Outcome α}
    {o' : Outcome β} {f : α → Outcome γ} {g : β → Outcome δ} (h : o.Alike R o')
    (hf : ∀ a b, o = .ok a → o' = .ok b → R a b → (f a).Alike S (g b)) :
    Alike S (o >>= f) (o' >>= g) := by
  cases h with
  | ok related => exact hf _ _ rfl rfl related
  | failed kind => exact .failed kind

/-- The outcome fails only for a name that a model does not have. -/
def Mismatches (o : Outcome α) : Prop :=
  ∀ e, o = .error e → ∃ model property, e = .failed (.ofKind (.schemaMismatch model property))

theorem mismatches_iff {o : Outcome α} :
    o.Mismatches ↔ o.FailsOnly fun k => ∃ model property, k = .schemaMismatch model property := by
  refine forall₂_congr fun e _ => ?_
  constructor
  · rintro ⟨model, property, rfl⟩
    exact ⟨_, rfl, model, property, rfl⟩
  · rintro ⟨_, rfl, model, property, rfl⟩
    exact ⟨model, property, rfl⟩

theorem mismatches_ok (a : α) : Mismatches (.ok a : Outcome α) :=
  mismatches_iff.mpr (failsOnly_ok a)

theorem mismatches_raise (model property : String) :
    Mismatches ((FailureKind.schemaMismatch model property).raise : Outcome α) :=
  mismatches_iff.mpr (failsOnly_raise ⟨model, property, rfl⟩)

theorem Mismatches.map {o : Outcome α} (h : o.Mismatches) (f : α → β) : Mismatches (f <$> o) :=
  mismatches_iff.mpr ((mismatches_iff.mp h).map f)

theorem Mismatches.mapM {f : α → Outcome β} {xs : List α} (h : ∀ x ∈ xs, (f x).Mismatches) :
    Mismatches (xs.mapM f) :=
  mismatches_iff.mpr (.mapM fun x hx => mismatches_iff.mp (h x hx))

/-- Two passes that fail for unknown names only are alike if they succeed together. -/
theorem Mismatches.alike {o : Outcome α} {o' : Outcome β} (h : o.Mismatches) (h' : o'.Mismatches)
    (hok : (∃ a, o = .ok a) ↔ ∃ b, o' = .ok b) : o.Alike (fun _ _ => True) o' := by
  cases o with
  | ok a =>
    obtain ⟨b, rfl⟩ := hok.mp ⟨a, rfl⟩
    exact .ok trivial
  | error e =>
    cases o' with
    | ok b => exact nomatch (hok.mpr ⟨b, rfl⟩).choose_spec
    | error e' =>
      obtain ⟨_, _, rfl⟩ := h e rfl
      obtain ⟨_, _, rfl⟩ := h' e' rfl
      exact .failed rfl

end Outcome

end ODataPlan
