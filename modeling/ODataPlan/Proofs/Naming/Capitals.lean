import ODataPlan.Proofs.Naming.Words

/-! Words in lower case and their capitalized forms. Main statement: a capitalized word can be taken
back to the word it shows. -/
namespace ODataPlan.Text

/-- A character of a word in lower case. -/
def Small (c : Char) : Prop :=
  isAlphanumeric c = true ∧ isUppercase c = false ∧ toLowercase c = [c]

/-- A character that capitals are made of and taken back to. Digits are their own capitals. -/
def HasCapital (c : Char) : Prop :=
  ∃ u ∈ toUppercase c, toUppercase c = [u] ∧ toLowercase u = [c] ∧ isAlphanumeric u = true ∧
    isLowercase u = false ∧ u ≠ 'Σ'

/-- A word in lower case that begins with a character that has a capital. -/
def SmallWord (w : List Char) : Prop := (∀ c ∈ w, Small c) ∧ ∃ c ∈ w.head?, HasCapital c

instance (c : Char) : Decidable (Small c) := by unfold Small; infer_instance

-- These two look at the characters of a list; the instances that search finds for them may go
-- through all characters.
instance (c : Char) : Decidable (HasCapital c) := List.decidableBEx _ _

instance (w : List Char) : Decidable (SmallWord w) :=
  decidable_of_iff (w.all (fun c => decide (Small c)) ∧ w.head?.any fun c => decide (HasCapital c))
    (by cases w <;> simp [SmallWord])

variable {w : List Char} {c : Char}

theorem smallWord_cons_iff {t : List Char} :
    SmallWord (c :: t) ↔ HasCapital c ∧ Small c ∧ ∀ x ∈ t, Small x := by
  simp [SmallWord, and_comm]

theorem SmallWord.exists_cons (h : SmallWord w) : ∃ c t, w = c :: t := by
  obtain ⟨_, c, hc, _⟩ := h
  exact List.exists_cons_of_ne_nil (by rintro rfl; cases hc)

theorem Small.ne_sigma (h : Small c) : c ≠ 'Σ' := by
  rintro rfl
  exact absurd h.2.1 (by decide)

/-- Where there is no sigma, a word is put into lower case character by character. -/
theorem lowerWord_eq_flatMap (h : 'Σ' ∉ w) : lowerWord w = w.flatMap toLowercase := by
  induction w with
  | nil => rfl
  | cons c w ih =>
    obtain ⟨hc, hw⟩ := not_or.mp (List.mem_cons.not.mp h)
    cases w with
    | nil => simp [lowerWord, Ne.symm hc]
    | cons d w =>
      have step : lowerWord (c :: d :: w) = toLowercase c ++ lowerWord (d :: w) := by
        rw [lowerWord]
        simp
      rw [step, ih hw, ← List.flatMap_cons]

/-- What holds of the first 128 characters holds of every ASCII character. -/
theorem of_ascii {p : Char → Bool}
    (table : ((List.range 128).all fun n => p (Char.ofNat n)) = true) (hc : c.toNat < 128) :
    p c = true := by
  have hp := List.all_eq_true.mp table c.toNat (List.mem_range.mpr hc)
  rwa [Char.ofNat_toNat] at hp

/-- What an ASCII letter or digit is in lower case. -/
theorem toLowercase_of_ascii (hc : c.toNat < 128) (h : isAlphanumeric c = true) :
    toLowercase c ≠ [] ∧ ∀ d ∈ toLowercase c, Small d ∧ HasCapital d := by
  have hp := of_ascii (p := fun c => !isAlphanumeric c ||
    !(toLowercase c).isEmpty && (toLowercase c).all fun d => decide (Small d ∧ HasCapital d))
    (by decide +kernel) hc
  simpa [h] using hp

/-- The letters from `a` to `z` are in lower case, and their capitals in upper case. -/
theorem cases_of_isLower (h : c.isLower = true) :
    isLowercase c = true ∧ ∀ u ∈ toUppercase c, isUppercase u = true := by
  have ascii : c.toNat < 128 := by
    have hz : c.val ≤ 'z'.val := of_decide_eq_true (Bool.and_eq_true_iff.mp h).2
    exact Nat.lt_of_le_of_lt (UInt32.le_iff_toNat_le.mp hz) (by decide)
  have hp := of_ascii (p := fun c => !c.isLower ||
    isLowercase c && (toUppercase c).all isUppercase) (by decide +kernel) ascii
  simpa [h] using hp

/-- In lower case, a word of ASCII letters and digits is such a word. -/
theorem smallWord_of_ascii (hne : w ≠ []) (ascii : ∀ c ∈ w, c.toNat < 128)
    (h : ∀ c ∈ w, isAlphanumeric c = true) : SmallWord (lowerWord w) := by
  have lower := fun c hc => toLowercase_of_ascii (ascii c hc) (h c hc)
  have nosigma : 'Σ' ∉ w := fun hs => absurd (ascii _ hs) (by decide)
  have small : ∀ d ∈ w.flatMap toLowercase, Small d ∧ HasCapital d := by
    intro d hd
    obtain ⟨c, hc, hd⟩ := List.mem_flatMap.mp hd
    exact (lower c hc).2 d hd
  rw [lowerWord_eq_flatMap nosigma]
  obtain ⟨d, t, hform⟩ : ∃ d t, w.flatMap toLowercase = d :: t := by
    apply List.exists_cons_of_ne_nil
    obtain ⟨c, w, rfl⟩ := List.exists_cons_of_ne_nil hne
    simp [(lower c List.mem_cons_self).1]
  rw [hform] at small ⊢
  obtain ⟨hd, ht⟩ := List.forall_mem_cons.mp small
  exact smallWord_cons_iff.mpr ⟨hd.2, hd.1, fun x hx => (ht x hx).1⟩

theorem lowerWord_of_small (h : ∀ c ∈ w, Small c) : lowerWord w = w := by
  rw [lowerWord_eq_flatMap fun hs => (h _ hs).ne_sigma rfl]
  induction w with
  | nil => rfl
  | cons c w ih =>
    obtain ⟨hc, hw⟩ := List.forall_mem_cons.mp h
    simp [hc.2.2, ih hw]

/-- A character of a capitalized word: it goes back to one of a word in lower case. -/
def Shown (c : Char) : Prop :=
  isAlphanumeric c = true ∧ c ≠ 'Σ' ∧ ∃ d, toLowercase c = [d] ∧ isAlphanumeric d = true

/-- Capitalizing a word in lower case takes its first character to its capital. -/
theorem capitalWord_of_small {u : Char} {t : List Char} (hu : toUppercase c = [u])
    (ht : ∀ x ∈ t, Small x) : capitalWord (c :: t) = u :: t := by
  rw [capitalWord, hu, lowerWord_of_small ht, List.singleton_append]

/-- The capitalized form of a word in lower case shows it, and can be taken back to it. -/
theorem SmallWord.capitalWord (h : SmallWord w) : Capitalized (capitalWord w) ∧
    (∀ c ∈ Text.capitalWord w, Shown c) ∧ lowerWord (Text.capitalWord w) = w := by
  obtain ⟨c, t, rfl⟩ := h.exists_cons
  obtain ⟨⟨u, _, hcu, huc, halnum, hlow, hsig⟩, hc, ht⟩ := smallWord_cons_iff.mp h
  have hform : Text.capitalWord (c :: t) = u :: t := capitalWord_of_small hcu ht
  have tail : 'Σ' ∉ t := fun hs => (ht _ hs).ne_sigma rfl
  rw [hform]
  refine ⟨⟨u, t, rfl, hlow, fun x hx => (ht x hx).2.1⟩, ?_, ?_⟩
  · rintro x (_ | ⟨_, hx⟩)
    · exact ⟨halnum, hsig, c, huc, hc.1⟩
    · exact ⟨(ht x hx).1, (ht x hx).ne_sigma, x, (ht x hx).2.2, (ht x hx).1⟩
  · rw [lowerWord_eq_flatMap (by simp [Ne.symm hsig, tail]), List.flatMap_cons, huc,
      ← lowerWord_eq_flatMap tail, lowerWord_of_small ht, List.singleton_append]

/-- Behind any word, the case turns for a word in lower case that is shown with an upper-case letter
and a lower-case one at its front, if the word before is of this kind, too. -/
theorem turns_capitalWord {c' d d' : Char} {t t' : List Char} (h : SmallWord (c :: d :: t))
    (h' : SmallWord (c' :: d' :: t')) (hd : isLowercase d = true)
    (hc' : ∀ u ∈ toUppercase c', isUppercase u = true) :
    Turns (capitalWord (c :: d :: t)) (capitalWord (c' :: d' :: t')) := by
  obtain ⟨⟨u, _, hu, _⟩, _, hrest⟩ := smallWord_cons_iff.mp h
  obtain ⟨⟨u', hmem, hu', _⟩, _, hrest'⟩ := smallWord_cons_iff.mp h'
  rw [capitalWord_of_small hu hrest, capitalWord_of_small hu' hrest']
  refine ⟨by simpa using hc' u' hmem, .inl (endCase_eq_lower hd fun x hx => ?_)⟩
  exact (hrest x (List.mem_cons_of_mem _ hx)).2.1

/-- Nothing is split off a word in lower case. -/
theorem wordsOfRun_of_small (h : SmallWord w) : wordsOfRun .fresh [] w = [w] := by
  obtain ⟨c, t, rfl⟩ := h.exists_cons
  obtain ⟨_, _, ht⟩ := smallWord_cons_iff.mp h
  exact wordsOfRun_small (by simp) fun x hx => (ht x hx).2.1

/-- A shown word is as long in lower case, where it holds letters and numbers only. -/
theorem lowerWord_of_shown (h : ∀ c ∈ w, Shown c) :
    (lowerWord w).length = w.length ∧ ∀ c ∈ lowerWord w, isAlphanumeric c = true := by
  rw [lowerWord_eq_flatMap fun hs => (h _ hs).2.1 rfl]
  induction w with
  | nil => simp
  | cons c w ih =>
    obtain ⟨⟨_, _, d, hd, halnum⟩, hw⟩ := List.forall_mem_cons.mp h
    obtain ⟨hlen, hall⟩ := ih hw
    rw [List.flatMap_cons, hd]
    exact ⟨by simpa using hlen, List.forall_mem_cons.mpr ⟨halnum, hall⟩⟩

end ODataPlan.Text
