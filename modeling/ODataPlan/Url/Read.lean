import ODataPlan.Url.Basic

/-! Reading an encoded url: it is cut at the first `?`, the rest at every `&` and each piece at its
first `=`. Main statement: reading gives back the url if its path and names hold no separator. -/
namespace ODataPlan

namespace Text

/-- What stands before and behind the first `c`, if there is one. -/
def cutAt? (c : Char) (cs : List Char) : Option (List Char × List Char) :=
  match cs.dropWhile (· != c) with
  | [] => none
  | _ :: rest => some (cs.takeWhile (· != c), rest)

theorem cutAt?_append {c : Char} {xs : List Char} (h : c ∉ xs) (ys : List Char) :
    cutAt? c (xs ++ c :: ys) = some (xs, ys) := by
  have hx : ∀ x ∈ xs, (x != c) = true := fun x hx => bne_iff_ne.mpr fun e => h (e ▸ hx)
  simp [cutAt?, List.dropWhile_append_of_pos hx, List.takeWhile_append_of_pos hx]

theorem cutAt?_eq_none {c : Char} {xs : List Char} (h : c ∉ xs) : cutAt? c xs = none := by
  have hx : ∀ x ∈ xs, (x != c) = true := fun x hx => bne_iff_ne.mpr fun e => h (e ▸ hx)
  have : (xs ++ []).dropWhile (· != c) = [] := List.dropWhile_append_of_pos hx
  rw [List.append_nil] at this
  simp [cutAt?, this]

end Text

namespace Url

/-- Reads a name and an encoded value with `=` between them. -/
def readParam? (cs : List Char) : Option (String × String) := do
  let (name, value) ← Text.cutAt? '=' cs
  let value ← Text.Percent.decode? (String.ofList value)
  return (String.ofList name, value)

def ofEncoded? (s : String) : Option Url :=
  match Text.cutAt? '?' s.toList with
  | none => some ⟨s, []⟩
  | some (path, query) => do
    let params ← (query.splitOn '&').mapM readParam?
    return ⟨String.ofList path, params⟩

def paramChars (p : String × String) : List Char := p.1.toList ++ '=' :: p.2.toList

theorem toList_query (separator : String) (p : String × String) (ps : List (String × String)) :
    (query separator (p :: ps)).toList =
      separator.toList ++ ['&'].intercalate ((p :: ps).map paramChars) := by
  induction ps generalizing separator p with
  | nil => simp [query, paramChars]
  | cons q ps ih =>
    have := ih "&" q
    simp only [query] at this ⊢
    simp [this, paramChars, List.intercalate_cons_cons]

/-- Reads a written parameter. -/
theorem readParam?_paramChars {name : String} (h : '=' ∉ name.toList) (value : String) :
    readParam? (paramChars (name, Text.Percent.encode value)) = some (name, value) := by
  simp [readParam?, paramChars, Text.cutAt?_append h, Text.Percent.decode?_encode]

/-- Reads written parameters in turn. -/
theorem mapM_readParam? {params : List (String × String)}
    (names : ∀ p ∈ params, '=' ∉ p.1.toList) :
    (params.map fun p => paramChars (p.1, Text.Percent.encode p.2)).mapM readParam? =
      some params := by
  induction params with
  | nil => rfl
  | cons p ps ih =>
    obtain ⟨hp, hps⟩ := List.forall_mem_cons.mp names
    rw [List.map_cons, List.mapM_cons, readParam?_paramChars hp, ih hps]
    rfl

/-- Reading gives back the url if the path holds no `?` and the names neither `=` nor `&`. -/
theorem ofEncoded?_encoded {u : Url} (path : '?' ∉ u.path.toList)
    (names : ∀ p ∈ u.params, '=' ∉ p.1.toList ∧ '&' ∉ p.1.toList) :
    ofEncoded? u.encoded = some u := by
  obtain ⟨s, params⟩ := u
  cases params with
  | nil => simp [ofEncoded?, encoded, query, Text.cutAt?_eq_none path]
  | cons p ps =>
    have plain : ∀ l ∈ (p :: ps).map fun p => paramChars (p.1, Text.Percent.encode p.2),
        '&' ∉ l := by
      intro l hl hc
      obtain ⟨q, hq, rfl⟩ := List.mem_map.mp hl
      rcases List.mem_append.mp hc with hc | hc
      · exact (names q hq).2 hc
      · rcases List.mem_cons.mp hc with hc | hc
        · exact absurd hc (by decide)
        · rcases Text.Percent.of_mem_encode hc with hc | hc <;> exact absurd hc (by decide)
    have written : (encoded ⟨s, p :: ps⟩).toList = s.toList ++ '?' :: ['&'].intercalate
        ((p :: ps).map fun p => paramChars (p.1, Text.Percent.encode p.2)) := by
      rw [encoded, List.map_cons, String.toList_append, toList_query]
      simp [Function.comp_def]
    rw [ofEncoded?, written, Text.cutAt?_append path]
    simp only [List.splitOn_intercalate _ plain (by simp),
      mapM_readParam? fun q hq => (names q hq).1, Option.bind_eq_bind, Option.bind_some,
      String.ofList_toList, Option.pure_def]

example : ofEncoded? "p?$top=1&$filter=a%20eq%20%26"
    = some ⟨"p", [("$top", "1"), ("$filter", "a eq &")]⟩ := by decide +kernel

end Url

end ODataPlan
