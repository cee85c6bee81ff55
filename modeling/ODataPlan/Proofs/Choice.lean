import ODataPlan.Plan.Choice
import ODataPlan.Proofs.Resolution

/-! The chosen dialect has a path for the request and serves every field that the query names. -/
namespace ODataPlan

namespace DialectSet

variable {candidates left : DialectSet} {xs : List Member}

/-- What is left after narrowing are the candidates that serve every member. -/
theorem contains_of_narrow (h : candidates.narrow xs = .ok left) (d : Dialect) :
    left.contains d = true ↔
      candidates.contains d = true ∧ ∀ x ∈ xs, x.field.supports d = true := by
  induction xs generalizing candidates with
  | nil =>
    cases h
    simp
  | cons x xs ih =>
    unfold narrow at h
    simp only at h
    split at h
    · cases h
    · rw [ih h, contains_inter, Bool.and_eq_true, Field.contains_dialects, List.forall_mem_cons,
        and_assoc]

theorem isEmpty_of_narrow (hc : candidates.isEmpty = false)
    (h : candidates.narrow xs = .ok left) : left.isEmpty = false := by
  induction xs generalizing candidates with
  | nil =>
    cases h
    exact hc
  | cons x xs ih =>
    unfold narrow at h
    simp only at h
    split at h
    · cases h
    · rename_i hn
      exact ih (by simpa using hn) h

theorem proper_narrow (candidates : DialectSet) (xs : List Member) :
    (candidates.narrow xs).Proper := by
  induction xs generalizing candidates with
  | nil => exact Outcome.proper_ok _
  | cons x xs ih =>
    unfold narrow
    simp only
    split
    · exact Outcome.proper_raise fun _ => nofun
    · exact ih _

theorem exists_contains {ds : DialectSet} (h : ds.isEmpty = false) : ∃ d, ds.contains d = true := by
  by_contra hd
  have : ds.isEmpty = true := isEmpty_eq_true_iff.mpr fun d => by
    simpa using fun hc => hd ⟨d, hc⟩
  simp [h] at this

end DialectSet

/-- Members can be looked up by their ids in turn. -/
theorem Schema.Sound.mapM_member {s : Schema} (hs : s.Sound) {fs : List FieldId}
    (h : ∀ f ∈ fs, ∃ x, s.Has x ∧ x.id = f) :
    ∃ xs, (fs.mapM fun f => Outcome.ofLookup (s.member f)) = .ok xs :=
  Except.exists_mapM_eq_ok fun f hf => by
    obtain ⟨x, hx, rfl⟩ := h f hf
    exact ⟨x, by rw [Member.id, hs.member_of_has hx]; rfl⟩

namespace Resolved

variable {r : Resolved} {s : Schema} {preferred d : Dialect}

/-- The chosen dialect can issue the request and serves every named field. -/
theorem serves_of_dialect (h : r.dialect s preferred = .ok d) :
    (∃ path, r.model.path? d r.source = some path) ∧ ∀ f ∈ r.named, s.serves d f = true := by
  unfold dialect at h
  simp only at h
  split at h
  · cases h
  · rename_i hc
    obtain ⟨xs, hxs, h⟩ := Except.bind_eq_ok_iff.mp h
    split at h
    · cases h
    · obtain ⟨left, hl, h⟩ := Except.bind_eq_ok_iff.mp h
      have hd : left.contains d = true := by
        obtain ⟨e, he⟩ := DialectSet.exists_contains
          (DialectSet.isEmpty_of_narrow (by simpa using hc) hl)
        cases h
        split
        · assumption
        · rename_i hp
          rcases Dialect.eq_or_eq_other preferred e with rfl | rfl
          · exact absurd he hp
          · exact he
      obtain ⟨hr, hx⟩ := (DialectSet.contains_of_narrow hl d).mp hd
      refine ⟨Option.isSome_iff_exists.mp (by simpa using hr), fun f hf => ?_⟩
      obtain ⟨x, hmem, hx'⟩ := Except.forall_of_mapM_eq_ok hxs f hf
      have := hx x hmem
      unfold Schema.serves
      cases hm : s.member f with
      | ok y =>
        rw [hm] at hx'
        cases hx'
        exact this
      | error e =>
        rw [hm] at hx'
        cases hx'

/-- The choice fails only where no dialect fits. -/
theorem proper_dialect (hs : s.Sound) (h : ∀ f ∈ r.named, ∃ x, s.Has x ∧ x.id = f) :
    (r.dialect s preferred).Proper := by
  obtain ⟨xs, hxs⟩ := hs.mapM_member h
  unfold dialect
  simp only [hxs, Except.ok_bind]
  split
  · exact Outcome.proper_raise fun _ => nofun
  · split
    · exact Outcome.proper_raise fun _ => nofun
    · exact (DialectSet.proper_narrow _ xs).bind fun _ _ => Outcome.proper_ok _

end Resolved

end ODataPlan
