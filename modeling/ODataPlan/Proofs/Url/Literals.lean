import Mathlib
import ODataPlan.Url.Render

/-! Literals show where they end. Main statement: if two literals are each followed by nothing or by
a space and the texts agree, then the values agree and so does what follows them. -/
namespace ODataPlan

namespace Text

/-- What may follow a literal: nothing, or a space. -/
def Ends (rest : List Char) : Prop := ∀ c ∈ rest.head?, c = ' '

theorem ends_nil : Ends [] := by simp [Ends]

theorem ends_space (rest : List Char) : Ends (' ' :: rest) := by simp [Ends]

theorem Ends.head?_append {rest : List Char} (h : Ends rest) {c : Char} (hc : c ≠ ' ')
    {xs : List Char} : (xs ++ rest).head? = some c → xs.head? = some c := by
  cases xs with
  | nil => exact fun hrest => absurd (h c hrest) hc
  | cons x xs => exact id

/-- Texts without a space end at the first one behind them. -/
theorem Ends.append_inj {xs ys rest rest' : List Char} (hr : Ends rest) (hr' : Ends rest')
    (hx : ' ' ∉ xs) (hy : ' ' ∉ ys) (h : xs ++ rest = ys ++ rest') : xs = ys ∧ rest = rest' := by
  have surplus : ∀ {as zs ws : List Char}, ' ' ∉ as → Ends ws → ws = as ++ zs → as = [] := by
    rintro (_ | ⟨a, as⟩) zs ws ha hw rfl
    · rfl
    · exact absurd (hw a rfl ▸ List.mem_cons_self) ha
  rcases List.append_eq_append_iff.mp h with ⟨as, rfl, hrest⟩ | ⟨as, rfl, hrest⟩
  · obtain rfl := surplus (fun ha => hy (List.mem_append_right _ ha)) hr hrest
    simpa using hrest
  · obtain rfl := surplus (fun ha => hx (List.mem_append_right _ ha)) hr' hrest
    simpa using hrest.symm

/-- A text with every quote in it written twice. -/
def doubled (cs : List Char) : List Char := cs.flatMap fun c => if c = '\'' then [c, c] else [c]

theorem doubled_cons_quote (cs : List Char) : doubled ('\'' :: cs) = '\'' :: '\'' :: doubled cs :=
  rfl

theorem doubled_cons {c : Char} (h : c ≠ '\'') (cs : List Char) :
    doubled (c :: cs) = c :: doubled cs := by
  simp [doubled, h]

/-- A doubled text that is closed by a quote is empty only if that quote stands alone. -/
theorem eq_nil_of_quote_eq_doubled {ys rest rest' : List Char} (hr : rest.head? ≠ some '\'')
    (h : '\'' :: rest = doubled ys ++ '\'' :: rest') : ys = [] ∧ rest = rest' := by
  cases ys with
  | nil => exact ⟨rfl, (List.cons.inj h).2⟩
  | cons y ys =>
    by_cases hy : y = '\''
    · subst hy
      rw [doubled_cons_quote] at h
      exact absurd ((List.cons.inj h).2 ▸ rfl) hr
    · rw [doubled_cons hy] at h
      exact absurd (List.cons.inj h).1.symm hy

/-- Behind a doubled text, the first quote that stands alone closes it. -/
theorem doubled_append_inj {xs ys rest rest' : List Char} (hr : rest.head? ≠ some '\'')
    (hr' : rest'.head? ≠ some '\'')
    (h : doubled xs ++ '\'' :: rest = doubled ys ++ '\'' :: rest') : xs = ys ∧ rest = rest' := by
  induction xs generalizing ys with
  | nil =>
    obtain ⟨rfl, hrest⟩ := eq_nil_of_quote_eq_doubled hr h
    exact ⟨rfl, hrest⟩
  | cons x xs ih =>
    cases ys with
    | nil =>
      obtain ⟨hxs, _⟩ := eq_nil_of_quote_eq_doubled hr' h.symm
      cases hxs
    | cons y ys =>
      by_cases hx : x = '\'' <;> by_cases hy : y = '\''
      · subst hx hy
        simp only [doubled_cons_quote, List.cons_append, List.cons.injEq, true_and] at h
        obtain ⟨rfl, hrest⟩ := ih h
        exact ⟨rfl, hrest⟩
      · subst hx
        rw [doubled_cons_quote, doubled_cons hy] at h
        exact absurd (List.cons.inj h).1.symm hy
      · subst hy
        rw [doubled_cons_quote, doubled_cons hx] at h
        exact absurd (List.cons.inj h).1 hx
      · simp only [doubled_cons hx, doubled_cons hy, List.cons_append, List.cons.injEq] at h
        obtain ⟨rfl, hrest⟩ := ih h.2
        exact ⟨by rw [h.1], hrest⟩

theorem mem_intercalate_singleton {c sep : Char} {xss : List (List Char)} :
    c ∈ [sep].intercalate xss → c = sep ∨ c ∈ xss.flatten := by
  induction xss with
  | nil => simp
  | cons xs xss ih =>
    cases xss with
    | nil => simpa using Or.inr
    | cons ys xss =>
      rw [List.intercalate_cons_cons, List.flatten_cons]
      simp only [List.append_assoc, List.mem_append, List.mem_singleton]
      rintro (h | h | h)
      · exact .inr (.inl h)
      · exact .inl h
      · exact (ih h).imp_right .inr

theorem isDigit_of_mem_repr {k : Nat} {c : Char} (h : c ∈ k.repr.toList) : c.isDigit = true := by
  rw [Nat.repr_eq_ofList_toDigits, String.toList_ofList] at h
  exact Nat.isDigit_of_mem_toDigits (by decide) (by decide) h

/-- The characters of an integer: digits behind a digit or a minus sign. -/
theorem toList_repr (n : Int) : ∃ c cs, n.repr.toList = c :: cs ∧
    (c = '-' ∨ c.isDigit = true) ∧ ∀ x ∈ cs, x.isDigit = true := by
  rw [Int.repr_eq_if]
  split
  · cases hk : n.toNat.repr.toList with
    | nil => exact absurd (String.toList_eq_nil_iff.mp hk) Nat.repr_ne_empty
    | cons c cs =>
      have hdigit : ∀ x ∈ c :: cs, x.isDigit = true := fun x hx => isDigit_of_mem_repr (hk ▸ hx)
      obtain ⟨hc, hcs⟩ := List.forall_mem_cons.mp hdigit
      exact ⟨c, cs, rfl, .inr hc, hcs⟩
  · exact ⟨'-', _, String.toList_append, .inl rfl, fun _ => isDigit_of_mem_repr⟩

theorem lowerHex_ne : ∀ d, lowerHex d ≠ '-' ∧ lowerHex d ≠ ' ' ∧ lowerHex d ≠ '\'' := by decide

theorem lowerHex_injective : Function.Injective lowerHex := by
  intro d e h
  simpa using congrArg hexValue? h

end Text

namespace Uuid

open Text

theorem flatten_cut {α : Type} (ns : List Nat) (xs : List α) (h : xs.length ≤ ns.sum) :
    (cut ns xs).flatten = xs := by
  induction ns generalizing xs with
  | nil => exact (List.length_eq_zero_iff.mp (Nat.le_zero.mp h)).symm
  | cons n ns ih =>
    have hdrop : (xs.drop n).length ≤ ns.sum := by
      rw [List.sum_cons] at h
      rw [List.length_drop]
      omega
    rw [cut, List.flatten_cons, ih _ hdrop, List.take_append_drop]

/-- The groups of digits between the hyphens of the written form. -/
def groups (u : Uuid) : List (List Char) := cut groupLengths (u.digits.map lowerHex)

theorem flatten_groups (u : Uuid) : u.groups.flatten = u.digits.map lowerHex :=
  flatten_cut _ _ (by simp [u.length_digits, groupLengths])

theorem toList_toString (u : Uuid) : (toString u).toList = ['-'].intercalate u.groups := by
  simp [toString, groups]

theorem exists_digit_of_mem_groups {u : Uuid} {g : List Char} (hg : g ∈ u.groups) {c : Char}
    (hc : c ∈ g) : ∃ d, lowerHex d = c := by
  have : c ∈ u.groups.flatten := List.mem_flatten.mpr ⟨g, hg, hc⟩
  rw [flatten_groups] at this
  obtain ⟨d, _, hd⟩ := List.mem_map.mp this
  exact ⟨d, hd⟩

/-- The written form determines the uuid. -/
theorem toString_injective : Function.Injective toString := by
  have split : ∀ u : Uuid, (toString u).toList.splitOn '-' = u.groups := by
    intro u
    rw [toList_toString]
    refine List.splitOn_intercalate _ (fun g hg hc => ?_) (by simp [groups, cut, groupLengths])
    obtain ⟨d, hd⟩ := exists_digit_of_mem_groups hg hc
    exact (lowerHex_ne d).1 hd
  intro u v h
  have hgroups : u.groups = v.groups := by rw [← split u, ← split v, h]
  have hdigits : u.digits = v.digits := by
    apply List.map_injective_iff.mpr lowerHex_injective
    rw [← flatten_groups u, ← flatten_groups v, hgroups]
  obtain ⟨_, _⟩ := u
  cases hdigits
  rfl

theorem mem_toString {u : Uuid} {c : Char} (h : c ∈ (toString u).toList) :
    c = '-' ∨ ∃ d, lowerHex d = c := by
  rw [toList_toString] at h
  refine (mem_intercalate_singleton h).imp_right fun h => ?_
  obtain ⟨g, hg, hc⟩ := List.mem_flatten.mp h
  exact exists_digit_of_mem_groups hg hc

/-- The first hyphen stands behind eight digits. -/
theorem hyphen_toString (u : Uuid) : (toString u).toList[8]? = some '-' := by
  have hlen : ((u.digits.map lowerHex).take 8).length = 8 := by simp [u.length_digits]
  rw [toList_toString, groups]
  simp only [cut, groupLengths, List.intercalate_cons_cons, List.append_assoc]
  rw [List.getElem?_append_right (by omega), hlen]
  rfl

end Uuid

namespace Value

inductive Kind where
  | null
  | bool
  | int
  | string
  | uuid
deriving DecidableEq

def kind : Value → Kind
  | null => .null
  | bool _ => .bool
  | int _ => .int
  | string _ => .string
  | uuid _ => .uuid

/-- The kind that the text of a literal shows. -/
def kindOfText (cs : List Char) : Kind :=
  if cs.head? = some '\'' then .string
  else if cs.head? = some 'g' ∨ cs[8]? = some '-' then .uuid
  else if cs.head? = some 'n' then .null
  else if cs.head? = some 't' ∨ cs.head? = some 'f' then .bool
  else .int

theorem kindOfText_literal (d : Dialect) (v : Value) :
    kindOfText (v.literal d).toList = v.kind := by
  cases v with
  | null => cases d <;> decide
  | bool b => cases b <;> cases d <;> decide
  | int n =>
    obtain ⟨c, cs, hn, hc, hcs⟩ := Text.toList_repr n
    have hhead : c ≠ '\'' ∧ c ≠ 'g' ∧ c ≠ 'n' ∧ c ≠ 't' ∧ c ≠ 'f' := by
      rcases hc with rfl | hc
      · decide
      · refine ⟨?_, ?_, ?_, ?_, ?_⟩ <;> (rintro rfl; exact absurd hc (by decide))
    have hhyphen : cs[7]? ≠ some '-' := fun h =>
      absurd (hcs _ (List.mem_of_getElem? h)) (by decide)
    have hlit : ((int n).literal d).toList = c :: cs := hn
    rw [kindOfText, hlit]
    simp [hhead, hhyphen, kind]
  | string s =>
    have hlit : ((string s).literal d).toList.head? = some '\'' := by simp [literal]
    rw [kindOfText, if_pos hlit, kind]
  | uuid u =>
    cases d with
    | rest =>
      have hlit : ((uuid u).literal .rest).toList.head? = some 'g' := by simp [literal]
      simp [kindOfText, hlit, kind]
    | graph =>
      have hlit : ((uuid u).literal .graph).toList = (Uuid.toString u).toList := rfl
      have hhead : (Uuid.toString u).toList.head? ≠ some '\'' := by
        intro h
        rcases Uuid.mem_toString (List.mem_of_head? h) with hc | ⟨d, hd⟩
        · exact absurd hc (by decide)
        · exact (Text.lowerHex_ne d).2.2 hd
      simp [kindOfText, hlit, hhead, Uuid.hyphen_toString, kind]

/-- The text of a literal that is not in quotes has no space, and no quote in front. -/
theorem not_mem_literal {d : Dialect} {v : Value} (hv : v.kind ≠ .string) :
    ' ' ∉ (v.literal d).toList ∧ (v.literal d).toList.head? ≠ some '\'' := by
  have hspace : ∀ u : Uuid, ' ' ∉ (Uuid.toString u).toList := by
    intro u h
    rcases Uuid.mem_toString h with hc | ⟨e, he⟩
    · exact absurd hc (by decide)
    · exact (Text.lowerHex_ne e).2.1 he
  constructor
  · cases v with
    | null => cases d <;> decide
    | bool b => cases b <;> cases d <;> decide
    | int n =>
      obtain ⟨c, cs, hn, hc, hcs⟩ := Text.toList_repr n
      have hlit : ((int n).literal d).toList = c :: cs := hn
      rw [hlit, List.mem_cons]
      rintro (rfl | h)
      · exact absurd hc (by decide)
      · exact absurd (hcs _ h) (by decide)
    | string s => exact absurd rfl hv
    | uuid u =>
      cases d with
      | rest =>
        have hlit : ((uuid u).literal .rest).toList =
            "guid'".toList ++ (Uuid.toString u).toList ++ ['\''] := by
          simp [literal, toString]
        simp [hlit, hspace u]
      | graph => exact hspace u
  · intro h
    have hkind := kindOfText_literal d v
    rw [kindOfText, if_pos h] at hkind
    exact hv hkind.symm

/-- The text of a literal that is not in quotes determines the value. -/
theorem eq_of_literal_eq {d : Dialect} {v w : Value} (hv : v.kind ≠ .string)
    (h : v.literal d = w.literal d) : v = w := by
  have hkind : v.kind = w.kind := by
    rw [← kindOfText_literal d v, ← kindOfText_literal d w, h]
  cases v <;> cases w <;> first | contradiction | skip
  case null.null => rfl
  case bool.bool b c => cases b <;> cases c <;> first | rfl | exact absurd h (by cases d <;> decide)
  case int.int n k => exact congrArg int (Int.repr_injective h)
  case uuid.uuid u w =>
    have htext : Uuid.toString u = Uuid.toString w := by
      cases d with
      | graph => exact h
      | rest => simpa [literal, toString] using h
    rw [Uuid.toString_injective htext]

/-- The text of a string: its characters, with quotes doubled, between quotes. -/
theorem toList_literal_string (d : Dialect) (s : String) :
    ((string s).literal d).toList = '\'' :: (Text.doubled s.toList ++ ['\'']) := by
  simp [literal, Text.doubled]

/-- A literal shows where it ends and which value it is. -/
theorem literal_append_inj {d : Dialect} {v w : Value} {rest rest' : List Char}
    (hr : Text.Ends rest) (hr' : Text.Ends rest')
    (h : (v.literal d).toList ++ rest = (w.literal d).toList ++ rest') : v = w ∧ rest = rest' := by
  have bare : ∀ {rest}, Text.Ends rest → rest.head? ≠ some '\'' := fun hr hq =>
    absurd (hr _ hq) (by decide)
  -- a quote in front tells strings from all other values
  have quote : ∀ {v w : Value} {rest rest' : List Char}, Text.Ends rest' → w.kind ≠ .string →
      (v.literal d).toList ++ rest = (w.literal d).toList ++ rest' → v.kind ≠ .string := by
    intro v w rest rest' hr' hw h hv
    cases v with
    | string s =>
      have hhead : ((w.literal d).toList ++ rest').head? = some '\'' := by
        rw [← h, toList_literal_string]
        rfl
      exact (not_mem_literal hw).2 (hr'.head?_append (by decide) hhead)
    | _ => cases hv
  by_cases hv : v.kind = .string
  · have hw : w.kind = .string := Decidable.not_not.mp fun hw => quote hr' hw h hv
    cases v <;> cases w <;> first | contradiction | skip
    case string.string s t =>
      simp only [toList_literal_string, List.cons_append, List.cons.injEq, true_and,
        List.append_assoc, List.nil_append] at h
      obtain ⟨hst, hrest⟩ := Text.doubled_append_inj (bare hr) (bare hr') h
      exact ⟨congrArg string (String.toList_injective hst), hrest⟩
  · have hw : w.kind ≠ .string := quote hr hv h.symm
    obtain ⟨htext, hrest⟩ := hr.append_inj hr' (not_mem_literal hv).1 (not_mem_literal hw).1 h
    exact ⟨eq_of_literal_eq hv (String.toList_injective htext), hrest⟩

end Value

end ODataPlan
