import Mathlib.Data.List.Induction
import ODataPlan.Proofs.Selection.Records

/-! What picks do to a selection and to the fields named so far, whatever these are. Main statements:
picks that are given a second time do nothing, and picks within one expandable can be given together
or apart. -/
namespace ODataPlan

section Distinct

variable {α : Type} [DecidableEq α]

theorem addNew_of_mem {xs : List α} {x : α} (h : x ∈ xs) : addNew xs x = xs := if_pos h

theorem appendNew_append (xs ys zs : List α) :
    appendNew xs (ys ++ zs) = appendNew (appendNew xs ys) zs := List.foldl_append

theorem appendNew_of_subset {xs ys : List α} (h : ys ⊆ xs) : appendNew xs ys = xs := by
  induction ys with
  | nil => rfl
  | cons y ys ih =>
    obtain ⟨hy, hys⟩ := List.cons_subset.mp h
    rw [appendNew_cons, addNew_of_mem hy, ih hys]

/-- The distinct entries of a list are what it appends to the empty one. -/
theorem eraseDups_eq_appendNew (xs : List α) : xs.eraseDups = appendNew [] xs := by
  induction xs using List.reverseRecOn with
  | nil => rfl
  | append_singleton xs x ih =>
    rw [List.eraseDups_append, appendNew_append, ← ih, appendNew_cons, appendNew_nil, addNew]
    by_cases hx : x ∈ xs <;> simp [List.removeAll, List.eraseDups_cons, hx]

end Distinct

namespace Branches

variable {f : FieldId} {n : Selection} {bs : Branches}

theorem set_set (f : FieldId) (n k : Selection) (bs : Branches) :
    (bs.set f n).set f k = bs.set f k := by
  induction bs using Branches.induction with
  | nil => simp [set]
  | cons g m rest ih =>
    by_cases hg : g = f <;> simp [set, hg, ih]

theorem set_of_get? (h : bs.get? f = some n) : bs.set f n = bs := by
  induction bs using Branches.induction with
  | nil => cases h
  | cons g m rest ih =>
    by_cases hg : g = f
    · simp_all [set, get?]
    · simp_all [set, get?]

end Branches

namespace Selection

variable {a n : Selection} {f : FieldId} {t : ModelId}

/-- Changing one branch twice changes it once by both. -/
theorem alterBranch_alterBranch (a : Selection) (f : FieldId) (t : ModelId)
    (g h : Selection → Selection) :
    (a.alterBranch f t g).alterBranch f t h = a.alterBranch f t (h ∘ g) := by
  simp only [alterBranch, branch, setBranch, model_mk, fields_mk, branches_mk, includeDefaults_mk,
    Branches.get?_set_self, Branches.set_set, Option.getD_some, Function.comp_apply]

theorem alterBranch_eq_self {g : Selection → Selection} (hn : a.branches.get? f = some n)
    (hg : g n = n) : a.alterBranch f t g = a := by
  obtain ⟨m, fs, bs, d⟩ := a
  simp only [branches_mk] at hn
  simp [alterBranch, branch, setBranch, hn, hg, Branches.set_of_get? hn]

theorem addAll_append (a : Selection) (ps qs : List Pick) :
    a.addAll (ps ++ qs) = (a.addAll ps).addAll qs := by
  simp only [addAll_eq_foldl, List.foldl_append]

theorem addAll_eq_self {ps : List Pick} (h : ∀ p ∈ ps, a.add p = a) : a.addAll ps = a := by
  induction ps with
  | nil => rfl
  | cons p ps ih =>
    obtain ⟨hp, hps⟩ := List.forall_mem_cons.mp h
    rw [addAll, hp, ih hps]

/-- A pick that is recorded already changes nothing, not even the order of what is there. -/
theorem add_eq_self (p : Pick) (h : ∀ k path, p.Names k path → a.Records k path) :
    a.add p = a := by
  induction p using Pick.induction generalizing a with
  | scalar f =>
    have hf : f ∈ a.fields := by simpa [Records] using h .scalar [f] .scalar
    obtain ⟨m, fs, bs, d⟩ := a
    exact congrArg (mk m · bs d) (addNew_of_mem hf)
  | bare f t =>
    obtain ⟨n, hn, hd⟩ : ∃ n, a.branches.get? f = some n ∧ n.includeDefaults = true := by
      simpa [Records] using h .bare [f] .bare
    refine alterBranch_eq_self hn ?_
    obtain ⟨m, fs, bs, d⟩ := n
    exact congrArg (mk m fs bs) hd.symm
  | within f t ps ih =>
    obtain ⟨n, hn⟩ : ∃ n, a.branches.get? f = some n := by
      simpa [Records] using h .expandable [f] .expandable
    have within : n.addAll ps = n := by
      refine addAll_eq_self fun p hp => ih p hp fun k path hpath => ?_
      rcases h k (f :: path) (.within hp hpath) with ⟨_, rfl, _⟩ | ⟨n', hn', hr⟩
      · cases hpath
      · cases hn.symm.trans hn'
        exact hr
    exact alterBranch_eq_self (g := fun n => n.addAll ps) hn within

/-- Picks that were added before change nothing, also behind others. -/
theorem addAll_of_subset {ps qs : List Pick} (h : ∀ q ∈ qs, q ∈ ps) (a : Selection) :
    (a.addAll ps).addAll qs = a.addAll ps :=
  addAll_eq_self fun q hq => add_eq_self q fun k path hpath =>
    (records_addAll_iff ps a k path).mpr (.inr ⟨q, h q hq, hpath⟩)

end Selection

theorem Pick.namedAll_append (ps qs : List Pick) :
    Pick.namedAll (ps ++ qs) = Pick.namedAll ps ++ Pick.namedAll qs := by
  simp only [namedAll_eq_flatMap, List.flatMap_append]

/-- How a selection is changed, and how the fields named so far are extended. -/
@[ext]
structure Effect where
  select : Selection → Selection
  name : List FieldId → List FieldId

namespace Effect

def andThen (e e' : Effect) : Effect := ⟨e'.select ∘ e.select, e'.name ∘ e.name⟩

def ofPicks (ps : List Pick) : Effect :=
  ⟨fun a => a.addAll ps, fun named => appendNew named (Pick.namedAll ps)⟩

variable {ps qs : List Pick}

theorem ofPicks_append (ps qs : List Pick) :
    ofPicks (ps ++ qs) = (ofPicks ps).andThen (ofPicks qs) := by
  ext a
  · simp [ofPicks, andThen, Selection.addAll_append]
  · simp [ofPicks, andThen, Pick.namedAll_append, appendNew_append]

/-- Picks that were given before do nothing. -/
theorem ofPicks_append_of_subset (h : ∀ q ∈ qs, q ∈ ps) : ofPicks (ps ++ qs) = ofPicks ps := by
  rw [ofPicks_append]
  refine Effect.ext (funext fun a => Selection.addAll_of_subset h a) (funext fun named => ?_)
  refine appendNew_of_subset fun f hf => mem_appendNew.mpr (.inr ?_)
  rw [Pick.namedAll_eq_flatMap, List.mem_flatMap] at hf ⊢
  obtain ⟨q, hq, hf⟩ := hf
  exact ⟨q, h q hq, hf⟩

/-- What picks do within an expandable depends on their effect alone. -/
theorem ofPicks_within_congr (f : FieldId) (t : ModelId) (h : ofPicks ps = ofPicks qs) :
    ofPicks [.within f t ps] = ofPicks [.within f t qs] := by
  obtain ⟨hselect, hname⟩ := Effect.mk.inj h
  refine Effect.ext (funext fun a => ?_) (funext fun named => ?_)
  · have hselect : (fun n : Selection => n.addAll ps) = fun n => n.addAll qs := hselect
    simp only [ofPicks, Selection.addAll, Selection.add, hselect]
  · simpa [ofPicks, Pick.namedAll, Pick.named] using congrFun hname (addNew named f)

/-- Picks within an expandable can be given together or apart. -/
theorem ofPicks_within_append (f : FieldId) (t : ModelId) (ps qs : List Pick) :
    (ofPicks [.within f t ps]).andThen (ofPicks [.within f t qs]) =
      ofPicks [.within f t (ps ++ qs)] := by
  refine Effect.ext (funext fun a => ?_) (funext fun named => ?_)
  · simp only [ofPicks, andThen, Selection.addAll, Selection.add,
      Selection.alterBranch_alterBranch, Function.comp_def, Selection.addAll_append]
  · have hf : f ∈ appendNew (addNew named f) (Pick.namedAll ps) := by simp
    simp [ofPicks, andThen, Pick.namedAll, Pick.named, Pick.namedAll_append, appendNew_append,
      addNew_of_mem hf]

end Effect

end ODataPlan
