import TemplateExpr.Double.Numeral
import TemplateExpr.Proofs.CodedText
import TemplateExpr.Text.Percent

/-!
# Decoding percent-encodings

Both encodings keep a set of characters and write the UTF-8 bytes of all others as triples; they differ
in the set alone.  So one decoder reads both, and gives the UTF-8 form of the text back.
-/

namespace TemplateExpr

namespace Percent

/-- The characters that stand for themselves in a URI inside an attribute. -/
def IsUnreserved (c : Char) : Prop := c.isAlpha = true ∨ c.isDigit = true ∨ c ∈ ['-', '_', '.']

/-- The marks that a URI component may hold and an attribute may not. -/
def attributeMarks : List Char := ['!', '\'', '(', ')', '*', '~']

instance decidableIsUnreserved (c : Char) : Decidable (IsUnreserved c) :=
  inferInstanceAs (Decidable (_ ∨ _))

/-- A percent sign and two digits of a byte. -/
inductive IsTriple : List Char → Prop where
  | digits {high low} : isUpperHexDigit high = true → isUpperHexDigit low = true →
    IsTriple ['%', high, low]

/-- The byte of the two digits at the front of a text behind a percent sign, and their number. -/
def frontByte? (cs : List Char) : Option (UInt8 × Nat) :=
  match cs with
  | high :: low :: _ => do
    let high ← digitValue? 16 high
    let low ← digitValue? 16 low
    pure (UInt8.ofNat (16 * high + low), 2)
  | _ => none

/-- Triples are bytes, and everything else has its UTF-8 form. -/
def decoder : Decoder UInt8 := ⟨'%', frontByte?, String.utf8EncodeChar⟩

/-- A character that is kept, or the triples of its UTF-8 form. -/
def encodeUnless (kept : Char → Prop) [DecidablePred kept] (c : Char) : List Char :=
  if kept c then [c] else (String.utf8EncodeChar c).flatMap triple

/-! ### Triples -/

theorem hexDigit_spec {n : Nat} (h : n < 16) :
    isUpperHexDigit (hexDigit n) = true ∧ digitValue? 16 (hexDigit n) = some n := by
  have hall : ∀ n < 16, isUpperHexDigit (hexDigit n) = true ∧ digitValue? 16 (hexDigit n) = some n := by
    decide
  exact hall n h

theorem isTriple_triple (byte : UInt8) : IsTriple (triple byte) := by
  have hbyte : byte.toNat < 256 := byte.toNat_lt
  exact .digits (hexDigit_spec (by omega)).1 (hexDigit_spec (by omega)).1

theorem decode_triple (byte : UInt8) (rest : List Char) :
    decoder.decode (triple byte ++ rest) = byte :: decoder.decode rest := by
  have hbyte : byte.toNat < 256 := byte.toNat_lt
  have hhigh := (hexDigit_spec (n := byte.toNat / 16) (by omega)).2
  have hlow := (hexDigit_spec (n := byte.toNat % 16) (by omega)).2
  have hfront : decoder.front? ([hexDigit (byte.toNat / 16), hexDigit (byte.toNat % 16)] ++ rest) =
      some (byte, 2) := by
    show frontByte? (hexDigit (byte.toNat / 16) :: hexDigit (byte.toNat % 16) :: rest) = _
    simp only [frontByte?, hhigh, hlow, Option.bind_eq_bind, Option.bind_some, Nat.div_add_mod,
      UInt8.ofNat_toNat]
    rfl
  exact Decoder.decode_code hfront

theorem decode_triples (bytes : List UInt8) (rest : List Char) :
    decoder.decode (bytes.flatMap triple ++ rest) = bytes ++ decoder.decode rest := by
  induction bytes with
  | nil => rfl
  | cons byte bytes ih => rw [List.flatMap_cons, List.append_assoc, decode_triple, ih, List.cons_append]

theorem isTriple_signed {kept : Char → Prop} (h : ¬kept '%') : SignedBy '%' kept IsTriple where
  not_plain := h
  begins cs hcs := by
    cases hcs with
    | @digits high low hhigh hlow =>
      have hhigh := isUpperHexDigit_ne hhigh (d := '%') (by decide)
      have hlow := isUpperHexDigit_ne hlow (d := '%') (by decide)
      exact ⟨[high, low], rfl, by simp [hhigh, hlow]⟩

/-! ### Texts with some characters kept -/

section

variable {kept : Char → Prop} [DecidablePred kept]

theorem encodeUnless_coded (cs : List Char) : Coded kept IsTriple (cs.flatMap (encodeUnless kept)) := by
  refine .flatMap fun c _ => ?_
  unfold encodeUnless
  split
  · rename_i hc
    exact .ofPlain hc
  · exact .flatMap fun byte _ => .ofCode (isTriple_triple byte)

theorem decode_encodeUnless (hkept : ¬kept '%') (cs : List Char) :
    decoder.decode (cs.flatMap (encodeUnless kept)) = cs.flatMap String.utf8EncodeChar := by
  refine Decoder.decode_flatMap (fun c rest => ?_) cs
  unfold encodeUnless
  split
  · rename_i hc
    have hne : c ≠ '%' := by
      rintro rfl
      exact hkept hc
    exact Decoder.decode_plain hne rest
  · exact decode_triples _ rest

end

/-! ### The two encodings -/

/-- The characters that stand for themselves in a URI component. -/
def IsComponent (c : Char) : Prop := IsUnreserved c ∨ c ∈ attributeMarks

instance decidableIsComponent (c : Char) : Decidable (IsComponent c) :=
  inferInstanceAs (Decidable (_ ∨ _))

theorem encodeChar_eq (c : Char) : encodeChar c = encodeUnless IsComponent c := by
  have hkept : (c.isAlphanum || isMark c) = true ↔ IsComponent c := by
    simp only [IsComponent, IsUnreserved, attributeMarks, isMark, Char.isAlphanum, Bool.or_eq_true, beq_iff_eq,
      List.mem_cons, List.not_mem_nil]
    grind
  unfold encodeChar encodeUnless
  simp only [hkept]

theorem escapeMark_unlisted {c : Char} (h : c ∉ '"' :: attributeMarks) : escapeMark c = [c] := by
  unfold escapeMark
  split
  case h_8 => rfl
  all_goals exact absurd (by decide) h

/-- The second pass leaves a class of characters alone if it holds none of the characters escaped there. -/
theorem escapeMark_of_class {p : Char → Bool} {c : Char} (hc : p c = true)
    (hp : ('"' :: attributeMarks).any p = false) : escapeMark c = [c] :=
  escapeMark_unlisted fun hmem => absurd hc (List.any_eq_false.1 hp c hmem)

theorem escapeMark_digit {c : Char} (h : isUpperHexDigit c = true) : escapeMark c = [c] :=
  escapeMark_of_class h (by decide)

theorem escapeMark_triple (byte : UInt8) : (triple byte).flatMap escapeMark = triple byte := by
  have hbyte : byte.toNat < 256 := byte.toNat_lt
  have hsign : escapeMark '%' = ['%'] := rfl
  have hhigh := escapeMark_digit (hexDigit_spec (n := byte.toNat / 16) (by omega)).1
  have hlow := escapeMark_digit (hexDigit_spec (n := byte.toNat % 16) (by omega)).1
  rw [triple, List.flatMap_cons, List.flatMap_cons, List.flatMap_singleton, hsign, hhigh, hlow]
  rfl

theorem escapeMark_mark {c : Char} (h : c ∈ attributeMarks) :
    escapeMark c = (String.utf8EncodeChar c).flatMap triple := by
  have hall : (attributeMarks.all fun c => escapeMark c = (String.utf8EncodeChar c).flatMap triple) = true := by
    decide
  exact of_decide_eq_true (List.all_eq_true.1 hall c h)

/-- The second pass gives the marks the triples that the first one would have given them. -/
theorem escapeMark_encodeChar (c : Char) :
    (encodeChar c).flatMap escapeMark = encodeUnless IsUnreserved c := by
  rw [encodeChar_eq]
  unfold encodeUnless
  by_cases hunreserved : IsUnreserved c
  · have hkept : escapeMark c = [c] :=
      escapeMark_of_class (p := fun c => IsUnreserved c) (decide_eq_true hunreserved) (by decide)
    rw [if_pos hunreserved, if_pos (.inl hunreserved), List.flatMap_singleton, hkept]
  -- A mark is kept by the first pass and encoded by the second; all else is done after the first.
  · rw [if_neg hunreserved]
    by_cases hmark : c ∈ attributeMarks
    · rw [if_pos (.inr hmark), List.flatMap_singleton, escapeMark_mark hmark]
    · rw [if_neg fun h => h.elim hunreserved hmark, List.flatMap_assoc]
      simp only [escapeMark_triple]

theorem encodeComponent_eq (cs : List Char) : encodeComponent cs = cs.flatMap (encodeUnless IsComponent) := by
  rw [encodeComponent, funext encodeChar_eq]

theorem escape_eq (cs : List Char) : escape cs = cs.flatMap (encodeUnless IsUnreserved) := by
  rw [escape, encodeComponent, List.flatMap_assoc, funext escapeMark_encodeChar]

/-- The second pass keeps every triple of the first, and works on what is between them. -/
theorem escape_at_triple {cs front back : List Char} (h : encodeComponent cs = front ++ '%' :: back) :
    ∃ high low rest, back = high :: low :: rest ∧ IsTriple ['%', high, low] ∧
      escape cs = front.flatMap escapeMark ++ '%' :: high :: low :: rest.flatMap escapeMark := by
  have hcoded : Coded IsComponent IsTriple (encodeComponent cs) := by
    rw [encodeComponent_eq]
    exact encodeUnless_coded cs
  obtain ⟨ds, rest, hback, htriple⟩ := hcoded.code_at (isTriple_signed (by decide)) h
  have hds := htriple
  cases hds with
  | @digits high low hhigh hlow =>
    have hsign : escapeMark '%' = ['%'] := rfl
    refine ⟨high, low, rest, ?_, htriple, ?_⟩
    · simp only [List.cons_append, List.nil_append, List.cons.injEq, true_and] at hback
      exact hback
    · rw [escape, h, hback]
      simp only [List.flatMap_append, List.flatMap_cons, hsign, escapeMark_digit hhigh, escapeMark_digit hlow,
        List.cons_append, List.nil_append]

/-! ### Strings -/

theorem flatMap_utf8EncodeChar (s : String) :
    s.toList.flatMap String.utf8EncodeChar = s.toUTF8.data.toList := by
  have hutf8 : s.toUTF8 = (s.toList.flatMap String.utf8EncodeChar).toByteArray := String.utf8Encode_toList.symm
  rw [hutf8, List.toList_data_toByteArray]

theorem decode_encodeUriComponent (s : String) :
    decoder.decode (encodeUriComponent s).toList = s.toUTF8.data.toList := by
  rw [encodeUriComponent, String.toList_ofList, encodeComponent_eq, decode_encodeUnless (by decide),
    flatMap_utf8EncodeChar]

theorem decode_escapeUri (s : String) : decoder.decode (escapeUri s).toList = s.toUTF8.data.toList := by
  rw [escapeUri, String.toList_ofList, escape_eq, decode_encodeUnless (by decide), flatMap_utf8EncodeChar]

/-- An encoding from which the UTF-8 form can be read tells all texts apart. -/
theorem injective_of_decode {encode : String → String}
    (h : ∀ s, decoder.decode (encode s).toList = s.toUTF8.data.toList) : Function.Injective encode := by
  intro s t hst
  have hbytes : s.toUTF8.data.toList = t.toUTF8.data.toList := by rw [← h s, ← h t, hst]
  exact String.toByteArray_inj.1 (ByteArray.ext (Array.toList_inj.1 hbytes))

theorem not_mem_escape {cs : List Char} {c : Char} (hc : c ∈ '"' :: attributeMarks) : c ∉ escape cs := by
  intro hmem
  have hcoded : Coded IsUnreserved IsTriple (escape cs) := by
    rw [escape_eq]
    exact encodeUnless_coded cs
  have hclass : (decide (IsUnreserved c) || isUpperHexDigit c || c == '%') = true := by
    rcases hcoded.plain_or_mem_code hmem with hunreserved | ⟨ds, htriple, hds⟩
    · simp [hunreserved]
    · cases htriple with
      | @digits high low hhigh hlow =>
        simp only [List.mem_cons, List.not_mem_nil, or_false] at hds
        rcases hds with rfl | rfl | rfl
        · rfl
        · simp [hhigh]
        · simp [hlow]
  have hnone : (('"' :: attributeMarks).any fun c =>
    decide (IsUnreserved c) || isUpperHexDigit c || c == '%') = false := by decide
  exact absurd hclass (List.any_eq_false.1 hnone c hc)

end Percent

/-- Both encodings are made of their own characters and of complete triples, decode to the UTF-8 form of
the text, and tell all texts apart; the second pass keeps every triple of the first. -/
theorem percent_encodings_exact (s : String) :
    (Coded Percent.IsUnreserved Percent.IsTriple (escapeUri s).toList ∧
      ∀ c ∈ '"' :: Percent.attributeMarks, c ∉ (escapeUri s).toList) ∧
    Coded Percent.IsComponent Percent.IsTriple (encodeUriComponent s).toList ∧
    Percent.decoder.decode (escapeUri s).toList = s.toUTF8.data.toList ∧
    Percent.decoder.decode (encodeUriComponent s).toList = s.toUTF8.data.toList ∧
    Function.Injective escapeUri ∧ Function.Injective encodeUriComponent ∧
    (∀ front back, (encodeUriComponent s).toList = front ++ '%' :: back →
      ∃ high low rest, back = high :: low :: rest ∧ Percent.IsTriple ['%', high, low] ∧
        (escapeUri s).toList = front.flatMap Percent.escapeMark ++
          '%' :: high :: low :: rest.flatMap Percent.escapeMark) := by
  have hescape : (escapeUri s).toList = Percent.escape s.toList := String.toList_ofList
  have hcomponent : (encodeUriComponent s).toList = Percent.encodeComponent s.toList := String.toList_ofList
  refine ⟨⟨?_, ?_⟩, ?_, Percent.decode_escapeUri s, Percent.decode_encodeUriComponent s,
    Percent.injective_of_decode Percent.decode_escapeUri,
    Percent.injective_of_decode Percent.decode_encodeUriComponent, ?_⟩
  · rw [hescape, Percent.escape_eq]
    exact Percent.encodeUnless_coded s.toList
  · intro c hc
    rw [hescape]
    exact Percent.not_mem_escape hc
  · rw [hcomponent, Percent.encodeComponent_eq]
    exact Percent.encodeUnless_coded s.toList
  · intro front back h
    rw [hcomponent] at h
    rw [hescape]
    exact Percent.escape_at_triple h

theorem percent_encodings_exact_umlaut :
    encodeUriComponent "'ü" = "'%C3%BC" ∧ escapeUri "'ü" = "%27%C3%BC" ∧
      '\'' ∉ (escapeUri "'ü").toList ∧
      Percent.decoder.decode "%27%C3%BC".toList = [0x27, 0xc3, 0xbc] ∧
      ∃ high low rest, "C3%BC".toList = high :: low :: rest ∧ Percent.IsTriple ['%', high, low] ∧
        (escapeUri "'ü").toList = ['\''].flatMap Percent.escapeMark ++
          '%' :: high :: low :: rest.flatMap Percent.escapeMark := by
  have hcomponent : encodeUriComponent "'ü" = "'%C3%BC" := by decide
  have hescape : escapeUri "'ü" = "%27%C3%BC" := by decide
  have hsplit : (encodeUriComponent "'ü").toList = ['\''] ++ '%' :: "C3%BC".toList := by
    rw [hcomponent]
    decide
  obtain ⟨⟨_, hfree⟩, _, hdecode, _, _, _, htriple⟩ := percent_encodings_exact "'ü"
  rw [hescape] at hdecode
  exact ⟨hcomponent, hescape, hfree '\'' (by decide), hdecode, htriple _ _ hsplit⟩

end TemplateExpr
