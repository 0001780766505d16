import TemplateExpr.Proofs.CodedText
import TemplateExpr.Proofs.NumberText
import TemplateExpr.Text.Html
import TemplateExpr.Token.StringLiteral

/-!
# Decoding entities

Escaped text is made of safe characters and complete entities, and decoding its entities gives the
original back, up to the control characters that became spaces.  The decoder knows numbers of any length,
not just those that the escaper writes.
-/

namespace TemplateExpr

namespace Html

/-! ### Characters -/

/-- The characters that need no escape. -/
def IsSafe (c : Char) : Prop :=
  c ∈ ['\t', '\n', '\r', ' ', ',', '.', '_', '-'] ∨ c.isDigit = true ∨ c.isAlpha = true ∨ 0xa0 ≤ c.toNat

/-- What a character reads back as once it is escaped: the controls are spaces from then on. -/
def spaced (c : Char) : Char :=
  if c.toNat ≤ 0x08 ∨ c.toNat = 0x0b ∨ c.toNat = 0x0c ∨ 0x0e ≤ c.toNat ∧ c.toNat ≤ 0x1f ∨
      0x7f ≤ c.toNat ∧ c.toNat ≤ 0x9f then ' '
  else c

theorem isAlpha_toNat {c : Char} : c.isAlpha = true ↔
    (0x41 ≤ c.toNat ∧ c.toNat ≤ 0x5a) ∨ (0x61 ≤ c.toNat ∧ c.toNat ≤ 0x7a) := by
  show (decide ('A'.val ≤ c.val ∧ c.val ≤ 'Z'.val) || (decide ('a'.val ≤ c.val) && decide (c.val ≤ 'z'.val))) =
    true ↔ _
  simp only [UInt32.le_iff_toNat_le, Bool.or_eq_true, Bool.and_eq_true, decide_eq_true_eq, Char.toNat_val,
    Char.reduceVal, UInt32.reduceToNat]

theorem isDigit_toNat {c : Char} : c.isDigit = true ↔ 0x30 ≤ c.toNat ∧ c.toNat ≤ 0x39 := by
  simp only [Char.isDigit, ge_iff_le, UInt32.le_iff_toNat_le, Bool.and_eq_true, decide_eq_true_eq, Char.toNat_val,
    Char.reduceVal, UInt32.reduceToNat]

theorem isListed_toNat {c : Char} : isListed c = true ↔
    c.toNat ∈ [0x09, 0x0a, 0x0b, 0x0c, 0x0d, 0x20, 0x2c, 0x2d, 0x2e, 0x5f] ∨
      (0x30 ≤ c.toNat ∧ c.toNat ≤ 0x39) ∨ (0x41 ≤ c.toNat ∧ c.toNat ≤ 0x5a) ∨
      (0x61 ≤ c.toNat ∧ c.toNat ≤ 0x7a) ∨ 0xa0 ≤ c.toNat := by
  simp only [isListed, Char.isAlphanum, isAlpha_toNat, isDigit_toNat, ← Char.toNat_inj, Bool.or_eq_true,
    beq_iff_eq, decide_eq_true_eq, List.mem_cons, List.not_mem_nil, or_false, Char.reduceToNat]
  omega

theorem isControl_toNat {c : Char} : isControl c = true ↔
    c.toNat ≤ 0x08 ∨ c.toNat = 0x0b ∨ c.toNat = 0x0c ∨ 0x0e ≤ c.toNat ∧ c.toNat ≤ 0x1f ∨
      0x7f ≤ c.toNat ∧ c.toNat ≤ 0x9f := by
  simp only [isControl, Bool.or_eq_true, Bool.and_eq_true, beq_iff_eq, decide_eq_true_eq, or_assoc]

theorem isSafe_toNat {c : Char} : IsSafe c ↔
    c.toNat ∈ [0x09, 0x0a, 0x0d, 0x20, 0x2c, 0x2d, 0x2e, 0x5f] ∨ (0x30 ≤ c.toNat ∧ c.toNat ≤ 0x39) ∨
      (0x41 ≤ c.toNat ∧ c.toNat ≤ 0x5a) ∨ (0x61 ≤ c.toNat ∧ c.toNat ≤ 0x7a) ∨ 0xa0 ≤ c.toNat := by
  simp only [IsSafe, isAlpha_toNat, isDigit_toNat, ← Char.toNat_inj, List.mem_cons, List.not_mem_nil, or_false,
    Char.reduceToNat]
  omega

/-- What is safe is what neither pass changes. -/
theorem isSafe_iff {c : Char} : IsSafe c ↔ isListed c = true ∧ isControl c = false := by
  rw [isSafe_toNat, isListed_toNat, ← Bool.not_eq_true, isControl_toNat]
  simp only [List.mem_cons, List.not_mem_nil, or_false]
  omega

instance decidableIsSafe (c : Char) : Decidable (IsSafe c) := decidable_of_iff _ isSafe_iff.symm

/-- A character is a control, safe, or one of the printable ASCII characters that need an entity. -/
theorem escapeChar_cases (c : Char) :
    (¬IsSafe c ∧ spaced c = ' ' ∧ escapeChar c = [' ']) ∨
    (IsSafe c ∧ spaced c = c ∧ escapeChar c = [c]) ∨
    (0x20 < c.toNat ∧ c.toNat < 0x7f ∧ ¬IsSafe c ∧ spaced c = c ∧ escapeChar c = entity c) := by
  by_cases control : isControl c = true
  · refine .inl ⟨fun safe => ?_, if_pos (isControl_toNat.1 control), if_pos control⟩
    rw [(isSafe_iff.1 safe).2] at control
    cases control
  have hspaced : spaced c = c := if_neg (mt isControl_toNat.2 control)
  by_cases listed : isListed c = true
  · refine .inr (.inl ⟨isSafe_iff.2 ⟨listed, Bool.eq_false_iff.2 control⟩, hspaced, ?_⟩)
    rw [escapeChar, if_neg control, if_pos listed]
  · refine .inr (.inr ⟨?_, ?_, fun safe => listed (isSafe_iff.1 safe).1, hspaced, ?_⟩)
    · rw [isControl_toNat] at control
      rw [isListed_toNat] at listed
      simp only [List.mem_cons, List.not_mem_nil, or_false] at listed
      omega
    · rw [isControl_toNat] at control
      rw [isListed_toNat] at listed
      omega
    · rw [escapeChar, if_neg control, if_neg listed]

/-! ### Entities -/

/-- The entities of escaped text: four names, and numbers of two digits. -/
inductive IsEntity : List Char → Prop where
  | quot : IsEntity "&quot;".toList
  | amp : IsEntity "&amp;".toList
  | lt : IsEntity "&lt;".toList
  | gt : IsEntity "&gt;".toList
  | decimal {a b} : a.isDigit = true → b.isDigit = true → IsEntity ['&', '#', a, b, ';']
  | hexadecimal {a b} : isUpperHexDigit a = true → isUpperHexDigit b = true →
    IsEntity ['&', '#', 'x', a, b, ';']

/-- The code point that digits denote, in hexadecimal behind an `x`. -/
def entityNumber? (digits : List Char) : Option Nat :=
  match digits with
  | 'x' :: digits => if digits.isEmpty then none else hexNumber? digits
  | digits => if digits.isEmpty || !digits.all Char.isDigit then none else some (natOfDigits digits)

/-- The character of an entity, from what stands between `&` and `;`. -/
def entityChar? (body : List Char) : Option Char :=
  match body with
  | '#' :: digits => (entityNumber? digits).map Char.ofNat
  | name => [("quot".toList, '"'), ("amp".toList, '&'), ("lt".toList, '<'), ("gt".toList, '>')].lookup name

/-- The entity at the front of a text behind its `&`: its character and its length. -/
def frontEntity? (cs : List Char) : Option (Char × Nat) :=
  let body := cs.takeWhile (· != ';')
  if body.length = cs.length then none else (entityChar? body).map fun c => (c, body.length + 1)

def decoder : Decoder Char := ⟨'&', frontEntity?, fun c => [c]⟩

theorem frontEntity?_append {body rest : List Char} (h : ';' ∉ body) :
    frontEntity? (body ++ ';' :: rest) = (entityChar? body).map fun c => (c, body.length + 1) := by
  have hbody : (body ++ ';' :: rest).takeWhile (· != ';') = body := by
    refine takeWhile_run (fun c hc => bne_iff_ne.2 fun heq => h (heq ▸ hc)) fun c hc => ?_
    cases hc
    rfl
  rw [frontEntity?, hbody, if_neg (by simp)]

theorem decode_entity {body : List Char} {c : Char} (hbody : ';' ∉ body) (hc : entityChar? body = some c)
    (rest : List Char) : decoder.decode ('&' :: body ++ [';'] ++ rest) = c :: decoder.decode rest := by
  have hfront : decoder.front? ((body ++ [';']) ++ rest) = some (c, (body ++ [';']).length) := by
    rw [List.append_assoc, List.length_append]
    show frontEntity? (body ++ ';' :: rest) = _
    rw [frontEntity?_append hbody, hc]
    rfl
  exact Decoder.decode_code hfront

/-! ### Digits -/

theorem toDigits_two {base n : Nat} (hbase : 1 < base) (hlow : base ≤ n) (hhigh : n < base * base) :
    Nat.toDigits base n = [Nat.digitChar (n / base), Nat.digitChar (n % base)] := by
  rw [Nat.toDigits_eq_if hbase, if_neg (by omega), Nat.toDigits_of_lt_base (Nat.div_lt_of_lt_mul hhigh)]
  rfl

theorem isDigit_digitChar {n : Nat} (h : n < 10) : (Nat.digitChar n).isDigit = true := by
  have hall : ∀ n < 10, (Nat.digitChar n).isDigit = true := by decide
  exact hall n h

theorem upperDigit_spec {n : Nat} (h : n < 16) : isUpperHexDigit (Nat.digitChar n).toUpper = true ∧
    digitValue? 16 (Nat.digitChar n).toUpper = some n := by
  have hall : ∀ n < 16, isUpperHexDigit (Nat.digitChar n).toUpper = true ∧
    digitValue? 16 (Nat.digitChar n).toUpper = some n := by decide
  exact hall n h

theorem entityNumber?_decimal {digits : List Char} (h : IsDigits digits) :
    entityNumber? digits = some (natOfDigits digits) := by
  unfold entityNumber?
  split
  · exact absurd (h.all 'x' List.mem_cons_self) (by decide)
  · rw [List.isEmpty_eq_false_iff.2 h.ne_nil, List.all_eq_true.2 h.all]
    rfl

theorem entityNumber?_hexadecimal {c d : Char} {a b : Nat} (hc : digitValue? 16 c = some a)
    (hd : digitValue? 16 d = some b) : entityNumber? ['x', c, d] = some (16 * a + b) := by
  simp [entityNumber?, hexNumber?, hc, hd]

theorem entity_isEntity {c : Char} (hlow : 0x20 < c.toNat) (hhigh : c.toNat < 0x7f) : IsEntity (entity c) := by
  unfold entity
  split
  · exact .quot
  · exact .amp
  · exact .lt
  · exact .gt
  · split
    · rename_i hlimit
      rw [decimalLimit] at hlimit
      rw [toDigits_two (by decide) (by omega) (by omega)]
      exact .decimal (isDigit_digitChar (by omega)) (isDigit_digitChar (by omega))
    · rw [toDigits_two (by decide) (by omega) (by omega)]
      exact .hexadecimal (upperDigit_spec (by omega)).1 (upperDigit_spec (by omega)).1

/-- The entity of a character is read as that character. -/
theorem entity_decodes {c : Char} (hlow : 0x20 < c.toNat) (hhigh : c.toNat < 0x7f) :
    ∃ body, entity c = '&' :: body ++ [';'] ∧ ';' ∉ body ∧ entityChar? body = some c := by
  unfold entity
  split
  · exact ⟨"quot".toList, rfl, by decide, rfl⟩
  · exact ⟨"amp".toList, rfl, by decide, rfl⟩
  · exact ⟨"lt".toList, rfl, by decide, rfl⟩
  · exact ⟨"gt".toList, rfl, by decide, rfl⟩
  · split
    -- A number of any length would do here; two digits matter for the form of the entity only.
    · have hdigits : IsDigits (Nat.toDigits 10 c.toNat) := .toDigits _
      refine ⟨'#' :: Nat.toDigits 10 c.toNat, rfl, ?_, ?_⟩
      · intro h
        rcases List.mem_cons.1 h with h | h
        · cases h
        · exact absurd (hdigits.all ';' h) (by decide)
      · rw [entityChar?, entityNumber?_decimal hdigits, natOfDigits_toDigits, Option.map_some,
          Char.ofNat_toNat]
    · obtain ⟨hhighDigit, hhighValue⟩ := upperDigit_spec (n := c.toNat / 16) (by omega)
      obtain ⟨hlowDigit, hlowValue⟩ := upperDigit_spec (n := c.toNat % 16) (by omega)
      rw [toDigits_two (by decide) (by omega) (by omega)]
      refine ⟨['#', 'x', (Nat.digitChar (c.toNat / 16)).toUpper, (Nat.digitChar (c.toNat % 16)).toUpper],
        rfl, ?_, ?_⟩
      · have hhighNe := isUpperHexDigit_ne hhighDigit (d := ';') (by decide)
        have hlowNe := isUpperHexDigit_ne hlowDigit (d := ';') (by decide)
        simp [hhighNe, hlowNe]
      · rw [entityChar?, entityNumber?_hexadecimal hhighValue hlowValue, Nat.div_add_mod, Option.map_some,
          Char.ofNat_toNat]

theorem isEntity_signed : SignedBy '&' IsSafe IsEntity where
  not_plain := by decide
  begins cs h := by
    cases h with
    | quot => exact ⟨"quot;".toList, rfl, by decide⟩
    | amp => exact ⟨"amp;".toList, rfl, by decide⟩
    | lt => exact ⟨"lt;".toList, rfl, by decide⟩
    | gt => exact ⟨"gt;".toList, rfl, by decide⟩
    | @decimal a b ha hb =>
      have ha := isUpperHexDigit_ne (isUpperHexDigit_of_isDigit ha) (d := '&') (by decide)
      have hb := isUpperHexDigit_ne (isUpperHexDigit_of_isDigit hb) (d := '&') (by decide)
      exact ⟨['#', a, b, ';'], rfl, by simp [ha, hb]⟩
    | @hexadecimal a b ha hb =>
      have ha := isUpperHexDigit_ne ha (d := '&') (by decide)
      have hb := isUpperHexDigit_ne hb (d := '&') (by decide)
      exact ⟨['#', 'x', a, b, ';'], rfl, by simp [ha, hb]⟩

/-! ### Whole texts -/

theorem escape_coded (cs : List Char) : Coded IsSafe IsEntity (escape cs) := by
  rw [escape_eq_flatMap]
  refine .flatMap fun c _ => ?_
  rcases escapeChar_cases c with ⟨_, _, h⟩ | ⟨safe, _, h⟩ | ⟨hlow, hhigh, _, _, h⟩
  · rw [h]
    exact .ofPlain (by decide)
  · rw [h]
    exact .ofPlain safe
  · rw [h]
    exact .ofCode (entity_isEntity hlow hhigh)

theorem decode_escapeChar (c : Char) (rest : List Char) :
    decoder.decode (escapeChar c ++ rest) = [spaced c] ++ decoder.decode rest := by
  rcases escapeChar_cases c with ⟨_, hspaced, h⟩ | ⟨safe, hspaced, h⟩ | ⟨hlow, hhigh, _, hspaced, h⟩
  · rw [h, hspaced]
    exact Decoder.decode_plain (by decide) rest
  · rw [h, hspaced]
    refine Decoder.decode_plain ?_ rest
    rintro rfl
    exact isEntity_signed.not_plain safe
  · obtain ⟨body, hentity, hbody, hc⟩ := entity_decodes hlow hhigh
    rw [h, hspaced, hentity]
    exact decode_entity hbody hc rest

theorem decode_escape (cs : List Char) : decoder.decode (escape cs) = cs.map spaced := by
  rw [escape_eq_flatMap, List.map_eq_flatMap]
  exact Decoder.decode_flatMap decode_escapeChar cs

theorem two_le_length_entity {c : Char} (hlow : 0x20 < c.toNat) (hhigh : c.toNat < 0x7f) :
    2 ≤ (entity c).length := by
  obtain ⟨body, hentity, _⟩ := entity_decodes hlow hhigh
  rw [hentity]
  simp

theorem length_escapeChar_pos (c : Char) : 1 ≤ (escapeChar c).length := by
  rcases escapeChar_cases c with ⟨_, _, h⟩ | ⟨_, _, h⟩ | ⟨hlow, hhigh, _, _, h⟩
  · rw [h]
    exact Nat.le_refl 1
  · rw [h]
    exact Nat.le_refl 1
  · rw [h]
    have hentity := two_le_length_entity hlow hhigh
    omega

theorem escape_cons (c : Char) (cs : List Char) : escape (c :: cs) = escapeChar c ++ escape cs := by
  simp only [escape_eq_flatMap, List.flatMap_cons]

theorem length_le_escape (cs : List Char) : cs.length ≤ (escape cs).length := by
  induction cs with
  | nil => exact Nat.le_refl 0
  | cons c cs ih =>
    have hc := length_escapeChar_pos c
    rw [escape_cons, List.length_append, List.length_cons]
    omega

theorem escape_eq_self_iff (cs : List Char) : escape cs = cs ↔ ∀ c ∈ cs, IsSafe c := by
  induction cs with
  | nil => simp [escape_eq_flatMap]
  | cons c cs ih =>
    have hlength := length_le_escape cs
    rw [List.forall_mem_cons, ← ih, escape_cons]
    rcases escapeChar_cases c with ⟨marked, _, h⟩ | ⟨safe, _, h⟩ | ⟨hlow, hhigh, marked, _, h⟩
    · have hc : ' ' ≠ c := by
        rintro rfl
        exact marked (by decide)
      simp [h, marked, hc]
    · simp [h, safe]
    · -- An entity is longer than its character, and nothing behind it gets shorter.
      have hentity := two_le_length_entity hlow hhigh
      have hne : entity c ++ escape cs ≠ c :: cs := by
        intro heq
        have hlengths := congrArg List.length heq
        simp only [List.length_append, List.length_cons] at hlengths
        omega
      simp [h, marked, hne]

end Html

/-- Escaped text is made of safe characters and complete entities, one of which begins at every `&`; its
entities decode to the original with spaces for the controls, it is no shorter, and it is the original
exactly when all of that is safe. -/
theorem escapeHtml_reversible (s : String) :
    Coded Html.IsSafe Html.IsEntity (escapeHtml s).toList ∧
      (∀ front back, (escapeHtml s).toList = front ++ '&' :: back →
        ∃ entity rest, '&' :: back = entity ++ rest ∧ Html.IsEntity entity) ∧
      Html.decoder.decode (escapeHtml s).toList = s.toList.map Html.spaced ∧
      s.length ≤ (escapeHtml s).length ∧
      (escapeHtml s = s ↔ ∀ c ∈ s.toList, Html.IsSafe c) := by
  have htext : (escapeHtml s).toList = Html.escape s.toList := String.toList_ofList
  have hcoded := Html.escape_coded s.toList
  rw [htext]
  refine ⟨hcoded, fun front back h => hcoded.code_at Html.isEntity_signed h, Html.decode_escape _, ?_, ?_⟩
  · rw [← String.length_toList, ← String.length_toList, htext]
    exact Html.length_le_escape s.toList
  · rw [← Html.escape_eq_self_iff, ← htext, String.toList_inj]

theorem escapeHtml_reversible_looksEscaped :
    escapeHtml "&lt;\x01" = "&amp;lt&#59; " ∧
      (∃ entity rest, "&#59; ".toList = entity ++ rest ∧ Html.IsEntity entity) ∧
      Html.decoder.decode (escapeHtml "&lt;\x01").toList = "&lt; ".toList ∧
      escapeHtml "A-1" = "A-1" := by
  have hvalue : escapeHtml "&lt;\x01" = "&amp;lt&#59; " := by decide
  have hsplit : (escapeHtml "&lt;\x01").toList = "&amp;lt".toList ++ '&' :: "#59; ".toList := by
    rw [hvalue]
    decide
  obtain ⟨_, hentity, hdecode, _⟩ := escapeHtml_reversible "&lt;\x01"
  have hlisted : "A-1".toList.all (fun c => Html.isListed c && !Html.isControl c) = true := by decide
  have hsafe : ∀ c ∈ "A-1".toList, Html.IsSafe c := by
    intro c hc
    simpa [Html.isSafe_iff] using List.all_eq_true.1 hlisted c hc
  exact ⟨hvalue, hentity _ _ hsplit, hdecode, (escapeHtml_reversible "A-1").2.2.2.2.2 hsafe⟩

end TemplateExpr
