import Mathlib.Data.List.Chain
import ODataPlan.Text.Words

/-! The words of an identifier, and how capitalized words that stand behind each other with nothing
between them are split again. Main statement: the split gives back the words exactly if the case
turns between neighbours. -/
namespace ODataPlan.Text

/-- A word as it is shown: its first character is not in lower case, and no other one is in upper
case. -/
def Capitalized (w : List Char) : Prop :=
  ∃ u t, w = u :: t ∧ isLowercase u = false ∧ ∀ c ∈ t, isUppercase c = false

def endCase (w : List Char) : WordCase := w.foldl WordCase.after .fresh

/-- The case turns between a word and what follows it: that begins in upper case, and behind a word
without a lower-case character it goes on in lower case. -/
def Turns (w cs : List Char) : Prop :=
  cs.head?.any isUppercase = true ∧
    (endCase w = .lower ∨ endCase w = .upper ∧ cs.tail.head?.any isLowercase = true)

instance (w cs : List Char) : Decidable (Turns w cs) := by unfold Turns; infer_instance

variable {mode : WordCase} {word w v cs t : List Char} {c u : Char}

/-- The words of a run are cuts of it. -/
theorem flatten_wordsOfRun :
    (wordsOfRun mode word (c :: cs)).flatten = word.reverse ++ c :: cs := by
  induction cs generalizing mode word c with
  | nil => simp [wordsOfRun]
  | cons n cs ih =>
    rw [wordsOfRun]
    split
    · simp [ih]
    · split <;> simp [ih]

/-- A word that has begun is not empty. -/
theorem ne_nil_of_mem_wordsOfRun (h : mode = .fresh ∨ word ≠ [])
    (hw : w ∈ wordsOfRun mode word cs) : w ≠ [] := by
  induction cs generalizing mode word with
  | nil => cases hw
  | cons c cs ih =>
    cases cs with
    | nil =>
      rw [wordsOfRun, List.mem_singleton] at hw
      simp [hw]
    | cons n cs =>
      rw [wordsOfRun] at hw
      split at hw
      · rcases List.mem_cons.mp hw with rfl | hw
        · simp
        · exact ih (.inl rfl) hw
      · split at hw
        · rename_i hturn
          rcases List.mem_cons.mp hw with rfl | hw
          · -- only behind an upper-case character does a word end before the one that is read
            have begun : word ≠ [] := h.resolve_left (by simp [hturn.1])
            simpa using begun
          · exact ih (.inr (by simp)) hw
        · exact ih (.inr (by simp)) hw

theorem flatten_splitOnP {α : Type} (p : α → Bool) (xs : List α) :
    (xs.splitOnP p).flatten = xs.filter fun x => !p x := by
  induction xs with
  | nil => simp
  | cons x xs ih =>
    rw [List.splitOnP_cons_eq_if_modifyHead]
    by_cases hx : p x = true
    · simp [hx, ih]
    · obtain ⟨y, ys, hys⟩ := List.exists_cons_of_ne_nil (List.splitOnP_ne_nil p xs)
      rw [hys] at ih ⊢
      simpa [hx] using ih

/-- The words of an identifier are cuts of its letters and numbers. -/
theorem flatten_words (s : String) : (words s).flatten = s.toList.filter isAlphanumeric := by
  have each : List.flatten ∘ wordsOfRun .fresh [] = id := by
    funext run
    cases run with
    | nil => rfl
    | cons c cs => exact flatten_wordsOfRun
  rw [words, List.flatMap_def, List.flatten_flatten, List.map_map, each, List.map_id,
    flatten_splitOnP]
  simp

theorem ne_nil_of_mem_words {s : String} (h : w ∈ words s) : w ≠ [] := by
  obtain ⟨run, _, hw⟩ := List.mem_flatMap.mp h
  exact ne_nil_of_mem_wordsOfRun (.inl rfl) hw

/-- The words of an identifier hold letters and numbers of it. -/
theorem of_mem_words {s : String} (hw : w ∈ words s) (hc : c ∈ w) :
    c ∈ s.toList ∧ isAlphanumeric c = true := by
  apply List.mem_filter.mp
  rw [← flatten_words]
  exact List.mem_flatten_of_mem hw hc

theorem words_ne_nil {s : String} (h : ∃ c ∈ s.toList, isAlphanumeric c = true) : words s ≠ [] := by
  obtain ⟨c, hc, halnum⟩ := h
  have hmem : c ∈ (words s).flatten := flatten_words s ▸ List.mem_filter.mpr ⟨hc, halnum⟩
  intro hnil
  simp [hnil] at hmem

/-- A word ends in lower case if a lower-case character is its second one and none in upper case
follows. -/
theorem endCase_eq_lower (hc : isLowercase c = true) (ht : ∀ x ∈ t, isUppercase x = false) :
    endCase (u :: c :: t) = .lower := by
  have kept : ∀ x ∈ t, WordCase.after .lower x = .lower := by
    intro x hx
    simp [WordCase.after, ht x hx]
  have turned : endCase (u :: c :: t) = t.foldl WordCase.after .lower := by
    simp [endCase, WordCase.after, hc]
  rw [turned]
  clear turned
  induction t with
  | nil => rfl
  | cons x t ih =>
    rw [List.foldl_cons, kept x List.mem_cons_self]
    exact ih (fun y hy => ht y (List.mem_cons_of_mem _ hy))
      (fun y hy => kept y (List.mem_cons_of_mem _ hy))

/-- Nothing splits a run in which only the first character may be in upper case. -/
theorem wordsOfRun_small (hc : mode = .upper → isUppercase c = false)
    (ht : ∀ x ∈ t, isUppercase x = false) :
    wordsOfRun mode word (c :: t) = [word.reverse ++ c :: t] := by
  induction t generalizing mode word c with
  | nil => simp [wordsOfRun]
  | cons x t ih =>
    obtain ⟨hx, ht⟩ := List.forall_mem_cons.mp ht
    have stays : ¬ (mode = .upper ∧ isUppercase c = true ∧ isLowercase x = true) := by
      rintro ⟨hm, hu, _⟩
      simp [hc hm] at hu
    simp only [wordsOfRun, hx, stays, Bool.false_eq_true, and_false, if_false]
    rw [ih (fun _ => hx) ht]
    simp

/-- Behind such a run the word ends at an upper-case character if the run ends in lower case, or
else goes on. -/
theorem wordsOfRun_small_append (hc : mode = .upper → isUppercase c = false)
    (ht : ∀ x ∈ t, isUppercase x = false) :
    wordsOfRun mode word (c :: t ++ u :: cs) =
      if (c :: t).foldl WordCase.after mode = .lower ∧ isUppercase u = true then
        (word.reverse ++ c :: t) :: wordsOfRun .fresh [] (u :: cs)
      else wordsOfRun ((c :: t).foldl WordCase.after mode) ((c :: t).reverse ++ word) (u :: cs) := by
  have stays : ∀ x, ¬ (mode = .upper ∧ isUppercase c = true ∧ isLowercase x = true) := by
    rintro x ⟨hm, hu, _⟩
    simp [hc hm] at hu
  induction t generalizing mode word c with
  | nil => simp [wordsOfRun, stays]
  | cons x t ih =>
    obtain ⟨hx, ht⟩ := List.forall_mem_cons.mp ht
    have step : wordsOfRun mode word (c :: x :: t ++ u :: cs) =
        wordsOfRun (mode.after c) (c :: word) (x :: t ++ u :: cs) := by
      simp [wordsOfRun, hx, stays]
    rw [step, ih (fun _ => hx) ht (by simp [hx])]
    simp

/-- The first word extends the one that was begun, unless the next character begins another one. -/
theorem exists_wordsOfRun_eq_cons (mode : WordCase) (word cs : List Char) (c : Char) :
    ∃ x ws, wordsOfRun mode word (c :: cs) = (word.reverse ++ x) :: ws ∧
      (x = [] → mode = .upper ∧ isUppercase c = true ∧ cs.head?.any isLowercase = true) := by
  induction cs generalizing mode word c with
  | nil => exact ⟨[c], [], by simp [wordsOfRun], by simp⟩
  | cons n cs ih =>
    by_cases h₁ : mode.after c = .lower ∧ isUppercase n = true
    · exact ⟨[c], wordsOfRun .fresh [] (n :: cs), by simp [wordsOfRun, h₁], by simp⟩
    · by_cases h₂ : mode = .upper ∧ isUppercase c = true ∧ isLowercase n = true
      · exact ⟨[], wordsOfRun .fresh [c] (n :: cs), by rw [wordsOfRun, if_neg h₁, if_pos h₂]; simp,
          by simpa using h₂⟩
      · obtain ⟨x, ws, h, -⟩ := ih (mode.after c) (c :: word) n
        exact ⟨c :: x, ws, by rw [wordsOfRun, if_neg h₁, if_neg h₂, h]; simp, by simp⟩

/-- A character in lower case settles the case, whichever it was before. -/
theorem wordsOfRun_mode (hc : isLowercase c = true) (hcu : isUppercase c = false) :
    wordsOfRun mode word (c :: cs) = wordsOfRun .fresh word (c :: cs) := by
  cases cs <;> simp [wordsOfRun, WordCase.after, hc, hcu]

/-- So a word may as well have begun at a second character that is in lower case. -/
theorem wordsOfRun_pair (hc : isLowercase c = true) (hcu : isUppercase c = false) :
    wordsOfRun .fresh [] (u :: c :: cs) = wordsOfRun .fresh [u] (c :: cs) := by
  rw [wordsOfRun, if_neg (by simp [hcu]), if_neg (by simp), wordsOfRun_mode hc hcu]

section Neighbours

variable (hw : Capitalized w)

include hw

theorem wordsOfRun_capitalized : wordsOfRun .fresh [] w = [w] := by
  obtain ⟨u, t, rfl, _, ht⟩ := hw
  exact wordsOfRun_small (by simp) ht

/-- Where the case turns behind a word, it is cut off. -/
theorem wordsOfRun_append_of_turns (hv : Capitalized v) (h : Turns w (v ++ cs))
    (hnext : cs.head?.any isLowercase = false) :
    wordsOfRun .fresh [] (w ++ (v ++ cs)) = w :: wordsOfRun .fresh [] (v ++ cs) := by
  obtain ⟨c, t, rfl, _, ht⟩ := hw
  obtain ⟨u, s, rfl, hu, hs⟩ := hv
  obtain ⟨hupper, hend⟩ := h
  have hupper : isUppercase u = true := by simpa using hupper
  rw [List.cons_append (a := u), wordsOfRun_small_append (by simp) ht]
  rcases hend with hlower | ⟨hend, hnextLower⟩
  · rw [if_pos ⟨hlower, hupper⟩]
    rfl
  · -- the character that turns the case is the second one of the word that follows
    obtain ⟨n, s, rfl⟩ : ∃ n s', s = n :: s' := by
      cases s with
      | nil => simp [hnext] at hnextLower
      | cons n s => exact ⟨n, s, rfl⟩
    have hn : isLowercase n = true := by simpa using hnextLower
    have hnu := hs n List.mem_cons_self
    have keeps : WordCase.after .upper u = .upper := by simp [WordCase.after, hu]
    unfold endCase at hend
    rw [hend, if_neg (by simp)]
    simp only [List.cons_append, wordsOfRun_pair hn hnu]
    rw [wordsOfRun, if_neg (by simp [keeps]), if_pos ⟨rfl, hupper, hn⟩]
    simp

/-- Where it does not, what follows goes into the same word. -/
theorem wordsOfRun_append_ne_of_not_turns (h : ¬ Turns w (u :: cs)) (ws : List (List Char)) :
    wordsOfRun .fresh [] (w ++ u :: cs) ≠ w :: ws := by
  obtain ⟨c, t, rfl, _, ht⟩ := hw
  intro heq
  have hno : ¬ (endCase (c :: t) = .lower ∧ isUppercase u = true) :=
    fun hyes => h ⟨by simpa using hyes.2, .inl hyes.1⟩
  unfold endCase at hno
  rw [wordsOfRun_small_append (by simp) ht, if_neg hno] at heq
  obtain ⟨x, vs, hx, hempty⟩ := exists_wordsOfRun_eq_cons (endCase (c :: t))
    ((c :: t).reverse ++ []) cs u
  have hnil : x = [] := by
    have := (List.cons.inj (hx.symm.trans heq)).1
    simpa using this
  obtain ⟨hend, hupper, hlower⟩ := hempty hnil
  exact h ⟨by simpa using hupper, .inr ⟨hend, hlower⟩⟩

end Neighbours

/-- No word begins in lower case, so the case turns for the first of several words as it does for
that word alone. -/
theorem head?_flatten_of_capitalized {ws : List (List Char)} (h : ∀ w ∈ ws, Capitalized w) :
    ws.flatten.head?.any isLowercase = false := by
  cases ws with
  | nil => rfl
  | cons w ws =>
    obtain ⟨u, t, rfl, hu, _⟩ := h _ List.mem_cons_self
    simpa using hu

theorem turns_append_iff (hv : Capitalized v) (hnext : cs.head?.any isLowercase = false) :
    Turns w (v ++ cs) ↔ Turns w v := by
  obtain ⟨u, s, rfl, _, _⟩ := hv
  cases s <;> simp [Turns, hnext]

/-- Capitalized words are split where they meet exactly if the case turns there. -/
theorem wordsOfRun_flatten_eq_iff {ws : List (List Char)} (h : ∀ w ∈ ws, Capitalized w) :
    wordsOfRun .fresh [] ws.flatten = ws ↔ ws.IsChain Turns := by
  induction ws with
  | nil => simp [wordsOfRun]
  | cons w ws ih =>
    obtain ⟨hw, hws⟩ := List.forall_mem_cons.mp h
    cases ws with
    | nil => simp [wordsOfRun_capitalized hw]
    | cons v ws =>
      obtain ⟨hv, hrest⟩ := List.forall_mem_cons.mp hws
      have hnext := head?_flatten_of_capitalized hrest
      rw [List.isChain_cons_cons, ← ih hws, ← turns_append_iff hv hnext]
      simp only [List.flatten_cons]
      by_cases hturns : Turns w (v ++ ws.flatten)
      · rw [wordsOfRun_append_of_turns hw hv hturns hnext]
        simp [hturns]
      · refine iff_of_false ?_ (fun hyes => hturns hyes.1)
        obtain ⟨u, s, rfl, _, _⟩ := hv
        exact wordsOfRun_append_ne_of_not_turns hw hturns _

end ODataPlan.Text
