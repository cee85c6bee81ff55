import ODataPlan.Proofs.Naming.Capitals
import ODataPlan.Proofs.Registration

/-! Looking a model up under the name it is shown by. Main statement: the look-up finds the model
exactly if the case turns between all words of the name as they are shown. For a name read from an
ASCII text nothing else has to be known. -/
namespace ODataPlan

/-- Pieces that hold no separator, joined by one, are split apart again. -/
theorem splitOnP_intercalate {α : Type} {p : α → Bool} {sep : α} (hsep : p sep = true)
    {ls : List (List α)} (hne : ls ≠ []) (h : ∀ l ∈ ls, ∀ x ∈ l, p x = false) :
    ([sep].intercalate ls).splitOnP p = ls := by
  induction ls with
  | nil => exact absurd rfl hne
  | cons l ls ih =>
    obtain ⟨hl, hls⟩ := List.forall_mem_cons.mp h
    cases ls with
    | nil => simp [List.splitOnP_eq_singleton hl]
    | cons k ls =>
      rw [List.intercalate_cons_cons, List.append_assoc, List.singleton_append,
        List.splitOnP_append_cons _ _ hsep, List.splitOnP_eq_singleton hl, ih (by simp) hls]
      rfl

namespace Name

open Text

/-- Every word of the name is one in lower case. -/
structure Plain (n : Name) : Prop where
  nonempty : n.parts ≠ []
  small : ∀ w ∈ n.parts, SmallWord w.toList

instance (n : Name) : Decidable n.Plain :=
  decidable_of_iff (n.parts ≠ [] ∧ ∀ w ∈ n.parts, SmallWord w.toList)
    ⟨fun h => ⟨h.1, h.2⟩, fun h => ⟨h.nonempty, h.small⟩⟩

def shownWords (n : Name) : List (List Char) := n.parts.map (capitalWord ·.toList)

/-- Where two words meet in the shown name, the case turns. -/
def Legible (n : Name) : Prop := n.shownWords.IsChain Turns

instance (n : Name) : Decidable n.Legible := by unfold Legible; infer_instance

theorem eq_iff_parts_eq {m n : Name} : m = n ↔ m.parts = n.parts := by
  cases m
  cases n
  simp

/-- Reading a text gives its words in lower case. -/
theorem parts_ofString {text : String} (hne : words text ≠ [])
    (apart : ∀ w ∈ words text, '_' ∉ lowerWord w) :
    (ofString text).parts.map String.toList = (words text).map lowerWord := by
  rw [ofString, snakeCase, String.toList_ofList,
    List.splitOn_intercalate '_' (by simpa using apart) (by simpa using hne)]
  simp [Function.comp_def]

/-- A name read from an ASCII text that holds a letter or a digit is plain. -/
theorem plain_ofString {text : String} (ascii : ∀ c ∈ text.toList, c.toNat < 128)
    (h : ∃ c ∈ text.toList, isAlphanumeric c = true) : (ofString text).Plain := by
  have hne := words_ne_nil h
  have small : ∀ w ∈ words text, SmallWord (lowerWord w) := fun w hw =>
    smallWord_of_ascii (ne_nil_of_mem_words hw) (fun c hc => ascii c (of_mem_words hw hc).1)
      (fun c hc => (of_mem_words hw hc).2)
  have apart : ∀ w ∈ words text, '_' ∉ lowerWord w := fun w hw hc =>
    absurd ((small w hw).1 _ hc).1 (by decide)
  have parts := parts_ofString hne apart
  constructor
  case nonempty =>
    intro hnil
    rw [hnil] at parts
    exact hne (List.map_eq_nil_iff.mp parts.symm)
  case small =>
    intro p hp
    have hp : p.toList ∈ (words text).map lowerWord := parts ▸ List.mem_map_of_mem hp
    obtain ⟨w, hw, hform⟩ := List.mem_map.mp hp
    exact hform ▸ small w hw

variable {n : Name} (h : n.Plain)

include h

theorem Plain.words_snake : words n.snake = n.parts.map String.toList := by
  have apart : ∀ w ∈ n.parts.map String.toList, ∀ c ∈ w, (!isAlphanumeric c) = false := by
    intro w hw c hc
    obtain ⟨p, hp, rfl⟩ := List.mem_map.mp hw
    simp [((h.small p hp).1 c hc).1]
  have single : ∀ w ∈ n.parts.map String.toList, wordsOfRun .fresh [] w = [w] := by
    intro w hw
    obtain ⟨p, hp, rfl⟩ := List.mem_map.mp hw
    exact wordsOfRun_of_small (h.small p hp)
  have sep : "_".toList = ['_'] := rfl
  rw [words, snake, String.toList_intercalate, sep,
    splitOnP_intercalate (by decide) (by simpa using h.nonempty) apart,
    List.flatMap_congr single]
  simp

theorem Plain.upperCamel_eq : n.upperCamel = String.ofList n.shownWords.flatten := by
  rw [upperCamel, upperCamelCase, h.words_snake, shownWords, List.flatMap_map, List.flatMap_def]

theorem Plain.shown {w : List Char} (hw : w ∈ n.shownWords) :
    Capitalized w ∧ (∀ c ∈ w, Shown c) := by
  obtain ⟨p, hp, rfl⟩ := List.mem_map.mp hw
  exact ⟨(h.small p hp).capitalWord.1, (h.small p hp).capitalWord.2.1⟩

theorem Plain.lower_shownWords : n.shownWords.map lowerWord = n.parts.map String.toList := by
  rw [shownWords, List.map_map]
  exact List.map_congr_left fun p hp => (h.small p hp).capitalWord.2.2

theorem Plain.shown_flatten : ∀ c ∈ n.shownWords.flatten, Shown c := by
  intro c hc
  obtain ⟨w, hw, hc⟩ := List.mem_flatten.mp hc
  exact (h.shown hw).2 c hc

/-- The words of the shown name are cuts of it. -/
theorem Plain.words_upperCamel : words n.upperCamel = wordsOfRun .fresh [] n.shownWords.flatten ∧
    (words n.upperCamel).flatten = n.shownWords.flatten ∧ words n.upperCamel ≠ [] := by
  have hwords : words n.upperCamel = wordsOfRun .fresh [] n.shownWords.flatten := by
    rw [words, h.upperCamel_eq, String.toList_ofList, List.splitOnP_eq_singleton]
    · simp
    · exact fun c hc => by simp [(h.shown_flatten c hc).1]
  obtain ⟨w, ws, hw⟩ : ∃ w ws, n.shownWords = w :: ws :=
    List.exists_cons_of_ne_nil (by simpa [shownWords] using h.nonempty)
  obtain ⟨⟨u, t, rfl, _⟩, _⟩ := h.shown (hw ▸ List.mem_cons_self)
  have hflat : (words n.upperCamel).flatten = n.shownWords.flatten := by
    rw [hwords, hw, List.flatten_cons, List.cons_append, flatten_wordsOfRun]
    rfl
  refine ⟨hwords, hflat, fun hnil => ?_⟩
  rw [hnil, hw] at hflat
  simp at hflat

/-- Reading the shown name gives the words into which it is split, in lower case. -/
theorem Plain.ofString_upperCamel :
    (ofString n.upperCamel).parts.map String.toList = (words n.upperCamel).map lowerWord := by
  obtain ⟨_, hflat, hne⟩ := h.words_upperCamel
  refine parts_ofString hne fun w hw hc => ?_
  have shown : ∀ c ∈ w, Shown c := fun c hc =>
    h.shown_flatten c (hflat ▸ List.mem_flatten_of_mem hw hc)
  exact absurd ((lowerWord_of_shown shown).2 _ hc) (by decide)

/-- A name can be read back from how it is shown exactly if it is legible. -/
theorem Plain.ofString_upperCamel_iff : ofString n.upperCamel = n ↔ n.Legible := by
  obtain ⟨hwords, hflat, _⟩ := h.words_upperCamel
  have lengths : ∀ ws : List (List Char), ws.flatten = n.shownWords.flatten →
      ws.map List.length = (ws.map lowerWord).map List.length := by
    intro ws hws
    rw [List.map_map]
    refine List.map_congr_left fun w hw => (lowerWord_of_shown fun c hc => ?_).1.symm
    exact h.shown_flatten c (hws ▸ List.mem_flatten_of_mem hw hc)
  have same : ofString n.upperCamel = n ↔
      (words n.upperCamel).map lowerWord = n.shownWords.map lowerWord := by
    rw [← h.ofString_upperCamel, h.lower_shownWords, eq_iff_parts_eq,
      (List.map_injective_iff.mpr fun _ _ => String.toList_injective).eq_iff]
  rw [same, Legible, ← wordsOfRun_flatten_eq_iff fun w hw => (h.shown hw).1, ← hwords]
  constructor
  · intro heq
    -- the words are cuts of one text, so their lengths tell them apart
    exact List.eq_iff_flatten_eq.mpr ⟨hflat, by rw [lengths _ hflat, lengths _ rfl, heq]⟩
  · exact congrArg _

/-- A name is legible if each of its words begins with two letters from `a` to `z`. -/
theorem Plain.legible (hw : ∀ w ∈ n.parts, ∃ c d t, w.toList = c :: d :: t ∧
    c.isLower = true ∧ d.isLower = true) : n.Legible := by
  apply List.Pairwise.isChain
  apply List.pairwise_of_forall_mem_list
  intro v hv w hv'
  obtain ⟨p, hp, rfl⟩ := List.mem_map.mp hv
  obtain ⟨q, hq, rfl⟩ := List.mem_map.mp hv'
  obtain ⟨c, d, t, hform, _, hd⟩ := hw p hp
  obtain ⟨c', d', t', hform', hc', _⟩ := hw q hq
  have small := h.small p hp
  have small' := h.small q hq
  rw [hform] at small ⊢
  rw [hform'] at small' ⊢
  exact turns_capitalWord small small' (cases_of_isLower hd).1 (cases_of_isLower hc').2

end Name

namespace Builder

variable {b : Builder} {c : Connection} {db : Db} (h : b.build c = .ok db) {m : Model}
  (hm : m ∈ db.schema.models)

include h hm

/-- A look-up finds a registered model exactly if the text spells its name. -/
theorem modelNamed?_eq_some_iff {text : String} :
    db.schema.modelNamed? text = some m ↔ Name.ofString text = m.name := by
  constructor
  · intro hfound
    exact (by simpa using List.find?_some hfound : m.name = _).symm
  · intro heq
    rw [Schema.modelNamed?, heq]
    exact Schema.find?_of_nodup_map (registers_of_build h).1.nodup_names hm

/-- A registered model of a plain name is found under the name that is shown for it exactly if that
name is legible. -/
theorem modelNamed?_upperCamel_iff (hn : m.name.Plain) :
    db.schema.modelNamed? m.name.upperCamel = some m ↔ m.name.Legible := by
  rw [modelNamed?_eq_some_iff h hm, hn.ofString_upperCamel_iff]

/-- A name that is read from an ASCII text with a letter or a digit in it is plain. So the model is
found as it is shown exactly if the name is legible, and it is if each word begins with two
letters. -/
theorem modelNamed?_upperCamel_of_ascii {text : String} (hname : m.name = Name.ofString text)
    (ascii : ∀ c ∈ text.toList, c.toNat < 128)
    (halnum : ∃ c ∈ text.toList, Text.isAlphanumeric c = true) :
    (db.schema.modelNamed? m.name.upperCamel = some m ↔ m.name.Legible) ∧
      ((∀ w ∈ m.name.parts, ∃ c d t, w.toList = c :: d :: t ∧
        c.isLower = true ∧ d.isLower = true) →
        db.schema.modelNamed? m.name.upperCamel = some m) := by
  have plain : m.name.Plain := hname ▸ Name.plain_ofString ascii halnum
  have found : db.schema.modelNamed? m.name.upperCamel = some m ↔ m.name.Legible := by
    rw [modelNamed?_eq_some_iff h hm, plain.ofString_upperCamel_iff]
  exact ⟨found, fun hw => found.mpr (plain.legible hw)⟩

end Builder

namespace Sample

/-- The words of the first name are a letter each, so as they are shown they read as the second one
does. -/
def runTogether : Builder where
  definitions := [
    (Definition.named "a_b").withKey (.scalar "Id"),
    (Definition.named "ab").withKey (.scalar "Id"),
    (Definition.named "term_store").withKey (.scalar "Id")]

def runTogetherDb : Db where
  schema := (runTogether.schema.toOption).getD ⟨[]⟩
  preferred := runTogether.preferred
  connection := db.connection

theorem build_runTogether : runTogether.build db.connection = .ok runTogetherDb :=
  Builder.build_of_isOk (by decide +kernel) db.connection

theorem modelNamed?_upperCamel_iff_sample : runTogether.build db.connection = .ok runTogetherDb ∧
    (∃ m ∈ runTogetherDb.schema.models, m.name.Plain ∧
      ¬ runTogetherDb.schema.modelNamed? m.name.upperCamel = some m) ∧
    ∃ m ∈ runTogetherDb.schema.models, m.name.Plain ∧
      runTogetherDb.schema.modelNamed? m.name.upperCamel = some m := by
  obtain ⟨m, hm, hname⟩ : ∃ m ∈ runTogetherDb.schema.models, m.name = .ofString "a_b" := by
    decide +kernel
  obtain ⟨n, hn, hname'⟩ : ∃ n ∈ runTogetherDb.schema.models, n.name = .ofString "term_store" := by
    decide +kernel
  have plain : m.name.Plain :=
    hname ▸ Name.plain_ofString (by simp) ⟨'a', by decide, by decide +kernel⟩
  have plain' : n.name.Plain :=
    hname' ▸ Name.plain_ofString (by simp) ⟨'t', by decide, by decide +kernel⟩
  have illegible : ¬ m.name.Legible := by
    rw [hname]
    decide +kernel
  have legible : n.name.Legible := by
    rw [hname']
    decide +kernel
  refine ⟨build_runTogether, ⟨m, hm, plain, fun hfound => illegible ?_⟩, n, hn, plain', ?_⟩
  · exact (Builder.modelNamed?_upperCamel_iff build_runTogether hm plain).mp hfound
  · exact (Builder.modelNamed?_upperCamel_iff build_runTogether hn plain').mpr legible

/-- Not every registered model is found under the name that is shown for it. -/
theorem exists_model_not_found_as_shown : ∃ b c db, Builder.build b c = .ok db ∧
    ∃ m ∈ db.schema.models, db.schema.modelNamed? m.name.upperCamel ≠ some m :=
  ⟨runTogether, db.connection, runTogetherDb, build_runTogether, by decide +kernel⟩

end Sample

end ODataPlan
