import ODataPlan.Text.Hex

/-! Percent-encoding of query values: letters, digits and `- _ . ~` stand for themselves, every
other byte of the UTF-8 form is written `%XX`. Reading gives back what was written. -/
namespace ODataPlan.Text.Percent

/-- The characters that need no encoding. -/
def isUnreserved (c : Char) : Bool :=
  c.isAlphanum || c == '-' || c == '_' || c == '.' || c == '~'

def encodeByte (b : UInt8) : List Char :=
  let c := Char.ofNat b.toNat
  if isUnreserved c then [c]
  else ['%', upperHex (lastPlace (b.toNat / 16)), upperHex (lastPlace b.toNat)]

def encode (s : String) : String :=
  String.ofList (s.toByteArray.data.toList.flatMap encodeByte)

/-- The bytes of an encoded text. `%` must stand before two hexadecimal digits, any other character
is read as its own UTF-8 form. -/
def decodeBytes? : List Char → Option (List UInt8)
  | [] => some []
  | '%' :: h :: l :: rest => do
    let high ← hexValue? h
    let low ← hexValue? l
    let bytes ← decodeBytes? rest
    return UInt8.ofNat (16 * high + low) :: bytes
  | c :: rest =>
    if c = '%' then none else (decodeBytes? rest).map (String.utf8EncodeChar c ++ ·)

/-- The text an encoded form stands for, if its bytes are well-formed UTF-8. -/
def decode? (s : String) : Option String :=
  (decodeBytes? s.toList).bind fun bytes => String.fromUTF8? ⟨bytes.toArray⟩

/-- A property of all bytes, checked on the 256 of them. -/
theorem forall_byte {p : UInt8 → Prop} (h : ∀ i : Fin 256, p (UInt8.ofFin i)) (b : UInt8) :
    p b := by
  simpa using h b.toFin

/-- An unreserved byte is one character that is not `%` and encodes to that byte. -/
theorem utf8_of_unreserved (b : UInt8) : isUnreserved (Char.ofNat b.toNat) = true →
    Char.ofNat b.toNat ≠ '%' ∧ String.utf8EncodeChar (Char.ofNat b.toNat) = [b] :=
  forall_byte (p := fun b => isUnreserved (Char.ofNat b.toNat) = true →
    Char.ofNat b.toNat ≠ '%' ∧ String.utf8EncodeChar (Char.ofNat b.toNat) = [b])
    (by decide +kernel) b

/-- A byte is the sum of its two hexadecimal places. -/
theorem byte_of_places (b : UInt8) :
    UInt8.ofNat (16 * (lastPlace (b.toNat / 16)).val + (lastPlace b.toNat).val) = b :=
  forall_byte (p := fun b =>
    UInt8.ofNat (16 * (lastPlace (b.toNat / 16)).val + (lastPlace b.toNat).val) = b)
    (by decide +kernel) b

/-- Reading takes one written byte off the front. -/
theorem decodeBytes?_encodeByte (b : UInt8) (rest : List Char) :
    decodeBytes? (encodeByte b ++ rest) = (decodeBytes? rest).map (b :: ·) := by
  unfold encodeByte
  by_cases h : isUnreserved (Char.ofNat b.toNat) = true
  · obtain ⟨hp, hb⟩ := utf8_of_unreserved b h
    simp only [h, if_true, List.cons_append, List.nil_append]
    rw [decodeBytes?.eq_3 _ _ (fun _ _ _ e => absurd e hp)]
    simp [hp, hb]
  · simp only [h]
    change decodeBytes? ('%' :: upperHex _ :: upperHex _ :: rest) = _
    simp only [decodeBytes?, hexValue?_upperHex, Option.bind_eq_bind, Option.bind_some,
      byte_of_places]
    cases decodeBytes? rest <;> rfl

theorem decodeBytes?_flatMap (bytes : List UInt8) :
    decodeBytes? (bytes.flatMap encodeByte) = some bytes := by
  induction bytes with
  | nil => rfl
  | cons b bytes ih => simp [decodeBytes?_encodeByte, ih]

/-- Reading gives back what was written. -/
theorem decode?_encode (s : String) : decode? (encode s) = some s := by
  simp [decode?, encode, decodeBytes?_flatMap, String.fromUTF8?, s.isValidUTF8, String.fromUTF8]

/-- An encoded byte is unreserved or an escape. -/
theorem of_mem_encodeByte {b : UInt8} {c : Char} (h : c ∈ encodeByte b) :
    isUnreserved c = true ∨ c = '%' := by
  have upper : ∀ d : Fin 16, isUnreserved (upperHex d) = true := by decide
  unfold encodeByte at h
  by_cases hb : isUnreserved (Char.ofNat b.toNat) = true
  · rw [if_pos hb] at h
    exact .inl (List.mem_singleton.mp h ▸ hb)
  · rw [if_neg hb] at h
    simp only [List.mem_cons, List.not_mem_nil, or_false] at h
    rcases h with rfl | rfl | rfl
    · exact .inr rfl
    · exact .inl (upper _)
    · exact .inl (upper _)

/-- An encoded text has only unreserved characters and `%`. -/
theorem of_mem_encode {s : String} {c : Char} (h : c ∈ (encode s).toList) :
    isUnreserved c = true ∨ c = '%' := by
  rw [encode, String.toList_ofList] at h
  obtain ⟨b, _, hb⟩ := List.mem_flatMap.mp h
  exact of_mem_encodeByte hb

example : encode "a,b/c ~é" = "a%2Cb%2Fc%20~%C3%A9" := by decide
example : decode? "100%25%" = none := by decide

end ODataPlan.Text.Percent
