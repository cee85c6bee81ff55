import ODataPlan.Proofs.Registry
import ODataPlan.Proofs.Url.Literals

/-! The text of a filter. Main statement: over fields whose written names have no space, two filters
are written alike only if they agree predicate by predicate, so no literal can close itself, add a
predicate or pass for a literal of another kind. -/
namespace ODataPlan

/-- A predicate with its field under the name that is written. -/
structure Term where
  name : String
  op : Comparison
  value : Value

namespace Term

variable {d : Dialect}

def text (d : Dialect) (t : Term) : String :=
  t.name ++ " " ++ t.op.keyword ++ " " ++ t.value.literal d

theorem toList_text (t : Term) : (t.text d).toList =
    t.name.toList ++ ' ' :: (t.op.keyword.toList ++ ' ' :: (t.value.literal d).toList) := by
  simp [text]

theorem keyword_injective : Function.Injective Comparison.keyword := by
  intro a b h
  cases a <;> cases b <;> first | rfl | exact absurd h (by decide)

theorem not_mem_keyword (c : Comparison) : ' ' ∉ c.keyword.toList := by cases c <;> decide

/-- A written predicate shows where it ends and what it says. -/
theorem text_append_inj {t u : Term} (ht : ' ' ∉ t.name.toList) (hu : ' ' ∉ u.name.toList)
    {rest rest' : List Char} (hr : Text.Ends rest) (hr' : Text.Ends rest')
    (h : (t.text d).toList ++ rest = (u.text d).toList ++ rest') : t = u ∧ rest = rest' := by
  obtain ⟨name, op, value⟩ := t
  obtain ⟨name', op', value'⟩ := u
  simp only [toList_text, List.append_assoc, List.cons_append] at h
  obtain ⟨hname, h⟩ := (Text.ends_space _).append_inj (Text.ends_space _) ht hu h
  obtain ⟨hop, h⟩ := (Text.ends_space _).append_inj (Text.ends_space _) (not_mem_keyword op)
    (not_mem_keyword op') (List.cons.inj h).2
  obtain ⟨hvalue, hrest⟩ := Value.literal_append_inj hr hr' (List.cons.inj h).2
  cases String.toList_injective hname
  cases keyword_injective (String.toList_injective hop)
  cases hvalue
  exact ⟨rfl, hrest⟩

/-- The predicates behind the first one, each with its separator in front. -/
def behind (d : Dialect) (ts : List Term) : List Char :=
  ts.flatMap fun t => " and ".toList ++ (t.text d).toList

theorem behind_cons (t : Term) (ts : List Term) :
    behind d (t :: ts) = " and ".toList ++ ((t.text d).toList ++ behind d ts) := by
  simp [behind]

theorem ends_behind (ts : List Term) : Text.Ends (behind d ts) := by
  cases ts with
  | nil => exact Text.ends_nil
  | cons t ts => exact Text.ends_space _

theorem toList_joined (t : Term) (ts : List Term) :
    (" and ".intercalate ((t :: ts).map (text d))).toList = (t.text d).toList ++ behind d ts := by
  rw [String.toList_intercalate]
  induction ts generalizing t with
  | nil => simp [behind]
  | cons u ts ih =>
    have hjoin := ih u
    simp only [List.map_cons, List.intercalate_cons_cons] at hjoin ⊢
    rw [hjoin, behind_cons, List.append_assoc]

theorem behind_inj {ts us : List Term} (ht : ∀ t ∈ ts, ' ' ∉ t.name.toList)
    (hu : ∀ u ∈ us, ' ' ∉ u.name.toList) (h : behind d ts = behind d us) : ts = us := by
  induction ts generalizing us with
  | nil =>
    cases us with
    | nil => rfl
    | cons u us => cases h
  | cons t ts ih =>
    cases us with
    | nil => cases h
    | cons u us =>
      obtain ⟨ht, hts⟩ := List.forall_mem_cons.mp ht
      obtain ⟨hu, hus⟩ := List.forall_mem_cons.mp hu
      rw [behind_cons, behind_cons] at h
      obtain ⟨rfl, hrest⟩ := text_append_inj ht hu (ends_behind ts) (ends_behind us)
        (List.append_cancel_left h)
      rw [ih hts hus hrest]

/-- Predicates joined to one text can be told apart again. -/
theorem joined_inj {ts us : List Term} (hne : ts ≠ []) (hne' : us ≠ [])
    (ht : ∀ t ∈ ts, ' ' ∉ t.name.toList) (hu : ∀ u ∈ us, ' ' ∉ u.name.toList)
    (h : " and ".intercalate (ts.map (text d)) = " and ".intercalate (us.map (text d))) :
    ts = us := by
  obtain ⟨t, ts, rfl⟩ := List.exists_cons_of_ne_nil hne
  obtain ⟨u, us, rfl⟩ := List.exists_cons_of_ne_nil hne'
  obtain ⟨ht, hts⟩ := List.forall_mem_cons.mp ht
  obtain ⟨hu, hus⟩ := List.forall_mem_cons.mp hu
  have htext := congrArg String.toList h
  rw [toList_joined, toList_joined] at htext
  obtain ⟨rfl, hrest⟩ := text_append_inj ht hu (ends_behind ts) (ends_behind us) htext
  rw [behind_inj hts hus hrest]

end Term

namespace Schema

variable {s : Schema} {d : Dialect}

/-- What is written for a predicate. -/
def Writes (s : Schema) (d : Dialect) (p : Predicate) (t : Term) : Prop :=
  s.wireName d p.field = .ok t.name ∧ p.op = t.op ∧ p.value = t.value

theorem predicateText_eq_ok_iff {p : Predicate} {text : String} :
    s.predicateText d p = .ok text ↔ ∃ t, s.Writes d p t ∧ t.text d = text := by
  unfold predicateText
  rw [Except.bind_eq_ok_iff]
  constructor
  · rintro ⟨name, hname, h⟩
    exact ⟨⟨name, p.op, p.value⟩, ⟨hname, rfl, rfl⟩, Except.ok.inj h⟩
  · rintro ⟨⟨name, op, value⟩, ⟨hname, rfl, rfl⟩, rfl⟩
    exact ⟨name, hname, rfl⟩

/-- The text of a filter joins what is written for its predicates, of which there are some. -/
theorem filterText_eq_ok_iff {ps : List Predicate} {text : String} :
    s.clauseText d (.filter ps) = .ok text ↔ ∃ ts, ts ≠ [] ∧ List.Forall₂ (s.Writes d) ps ts ∧
      " and ".intercalate (ts.map (Term.text d)) = text := by
  have written : ∀ texts : List String,
      List.Forall₂ (fun p text => ∃ t, s.Writes d p t ∧ t.text d = text) ps texts ↔
        ∃ ts, List.Forall₂ (s.Writes d) ps ts ∧ ts.map (Term.text d) = texts := by
    intro texts
    constructor
    · intro h
      induction h with
      | nil => exact ⟨[], .nil, rfl⟩
      | cons hp _ ih =>
        obtain ⟨t, ht, rfl⟩ := hp
        obtain ⟨ts, hts, rfl⟩ := ih
        exact ⟨t :: ts, .cons ht hts, rfl⟩
    · rintro ⟨ts, hts, rfl⟩
      exact List.forall₂_map_right_iff.mpr (hts.imp fun _ t ht => ⟨t, ht, rfl⟩)
  cases ps with
  | nil => simp [clauseText, FailureKind.raise]
  | cons p ps =>
    simp only [clauseText, List.isEmpty_cons, Bool.false_eq_true, if_false, Except.map_eq_ok_iff,
      Except.mapM_eq_ok_iff, predicateText_eq_ok_iff, written]
    constructor
    · rintro ⟨_, ⟨ts, hts, rfl⟩, rfl⟩
      exact ⟨ts, List.ne_nil_of_length_pos (by simp [← hts.length_eq]), hts, rfl⟩
    · rintro ⟨ts, _, hts, rfl⟩
      exact ⟨_, ⟨ts, hts, rfl⟩, rfl⟩

/-- The predicates are written alike: the same name, comparison and literal. -/
def Agree (s : Schema) (d : Dialect) (p q : Predicate) : Prop :=
  s.wireName d p.field = s.wireName d q.field ∧ p.op = q.op ∧ p.value = q.value

theorem forall₂_agree_iff {ps qs : List Predicate} {ts us : List Term}
    (hp : List.Forall₂ (s.Writes d) ps ts) (hq : List.Forall₂ (s.Writes d) qs us) :
    List.Forall₂ (s.Agree d) ps qs ↔ ts = us := by
  induction hp generalizing qs us with
  | nil => cases hq <;> simp
  | @cons p t ps ts ht _ ih =>
    cases hq with
    | nil => simp
    | @cons q u _ _ hu hus =>
      obtain ⟨hname, hop, hvalue⟩ := ht
      obtain ⟨hname', hop', hvalue'⟩ := hu
      obtain ⟨name, op, value⟩ := t
      obtain ⟨name', op', value'⟩ := u
      rw [List.forall₂_cons, ih hus, Agree, hname, hname', hop, hop', hvalue, hvalue']
      simp

/-- Two filters have the same text exactly if they agree predicate by predicate on written name,
comparison and value, provided that no written name has a space. -/
theorem filterText_eq_iff_agree {ps qs : List Predicate} {text text' : String}
    (hp : s.clauseText d (.filter ps) = .ok text) (hq : s.clauseText d (.filter qs) = .ok text')
    (names : ∀ p ∈ ps ++ qs, ∀ name, s.wireName d p.field = .ok name → ' ' ∉ name.toList) :
    text = text' ↔ List.Forall₂ (s.Agree d) ps qs := by
  obtain ⟨ts, htn, hts, rfl⟩ := filterText_eq_ok_iff.mp hp
  obtain ⟨us, hun, hus, rfl⟩ := filterText_eq_ok_iff.mp hq
  have plain : ∀ {rs : List Predicate} {vs : List Term}, List.Forall₂ (s.Writes d) rs vs →
      (∀ r ∈ rs, r ∈ ps ++ qs) → ∀ v ∈ vs, ' ' ∉ v.name.toList := by
    intro rs vs h hrs
    induction h with
    | nil => simp
    | cons hv _ ih =>
      obtain ⟨hr, hrs⟩ := List.forall_mem_cons.mp hrs
      exact List.forall_mem_cons.mpr ⟨names _ hr _ hv.1, ih hrs⟩
  rw [forall₂_agree_iff hts hus]
  constructor
  · apply Term.joined_inj htn hun
    · exact plain hts fun _ => List.mem_append_left _
    · exact plain hus fun _ => List.mem_append_right _
  · rintro rfl
    rfl

/-- A quoted text that imitates two predicates is not taken for them. -/
theorem filterText_eq_iff_agree_sample : ∃ text text',
    Sample.db.schema.clauseText .rest
      (.filter [⟨⟨⟨0⟩, 1⟩, .eq, .string "a' and Id eq 'b"⟩]) = .ok text ∧
    Sample.db.schema.clauseText .rest
      (.filter [⟨⟨⟨0⟩, 1⟩, .eq, .string "a"⟩, ⟨⟨⟨0⟩, 0⟩, .eq, .string "b"⟩]) = .ok text' ∧
    text ≠ text' := by
  have hid : Sample.db.schema.wireName .rest ⟨⟨0⟩, 0⟩ = .ok "Id" := by decide +kernel
  have htitle : Sample.db.schema.wireName .rest ⟨⟨0⟩, 1⟩ = .ok "Title" := by decide +kernel
  have hp : Sample.db.schema.clauseText .rest
      (.filter [⟨⟨⟨0⟩, 1⟩, .eq, .string "a' and Id eq 'b"⟩]) =
        .ok "Title eq 'a'' and Id eq ''b'" := by decide +kernel
  have hq : Sample.db.schema.clauseText .rest
      (.filter [⟨⟨⟨0⟩, 1⟩, .eq, .string "a"⟩, ⟨⟨⟨0⟩, 0⟩, .eq, .string "b"⟩]) =
        .ok "Title eq 'a' and Id eq 'b'" := by decide +kernel
  refine ⟨_, _, hp, hq, mt (filterText_eq_iff_agree hp hq ?_).mp (by simp)⟩
  simp only [List.cons_append, List.nil_append, List.forall_mem_cons, hid, htitle, Except.ok.injEq,
    forall_eq', List.not_mem_nil, false_imp_iff, implies_true, and_true]
  decide

end Schema

end ODataPlan
