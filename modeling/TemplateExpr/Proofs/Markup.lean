import TemplateExpr.Filter

/-!
# Escaped texts hold no markup

Neither escaper writes an angle bracket or a quote, whatever it is given.
-/

namespace TemplateExpr

/-- The characters that begin or end a tag or the value of an attribute. -/
def isMarkup (c : Char) : Bool := c == '<' || c == '>' || c == '"' || c == '\''

/-- No character is markup. -/
def Unmarked (cs : List Char) : Prop := ∀ c ∈ cs, isMarkup c = false

instance (cs : List Char) : Decidable (Unmarked cs) := List.decidableBAll _ cs

theorem eq_of_isMarkup {c : Char} (h : isMarkup c = true) : c = '<' ∨ c = '>' ∨ c = '"' ∨ c = '\'' := by
  unfold isMarkup at h
  simp only [Bool.or_eq_true, beq_iff_eq, or_assoc] at h
  exact h

/-- A class of characters without the four is free of markup. -/
theorem isMarkup_eq_false {p : Char → Bool} {c : Char} (hc : p c = true)
    (hp : ['<', '>', '"', '\''].any p = false) : isMarkup c = false := by
  rw [Bool.eq_false_iff]
  intro h
  have hmem : c ∈ ['<', '>', '"', '\''] := by
    simpa only [List.mem_cons, List.not_mem_nil, or_false] using eq_of_isMarkup h
  exact absurd hc (List.any_eq_false.1 hp c hmem)

namespace Unmarked

theorem append {cs ds : List Char} (hc : Unmarked cs) (hd : Unmarked ds) : Unmarked (cs ++ ds) := by
  intro c h
  rcases List.mem_append.1 h with h | h
  · exact hc c h
  · exact hd c h

theorem flatMap {cs : List α} {f : α → List Char} (h : ∀ c ∈ cs, Unmarked (f c)) :
    Unmarked (cs.flatMap f) := by
  intro d hd
  obtain ⟨c, hc, hd⟩ := List.mem_flatMap.1 hd
  exact h c hc d hd

theorem singleton {c : Char} (h : isMarkup c = false) : Unmarked [c] := by
  intro d hd
  rw [List.mem_singleton.1 hd]
  exact h

theorem filter_eq_nil {cs : List Char} (h : Unmarked cs) : cs.filter isMarkup = [] := by
  rw [List.filter_eq_nil_iff]
  intro c hc
  rw [h c hc]
  exact Bool.false_ne_true

end Unmarked

/-! ### HTML -/

theorem mem_toDigits {base n : Nat} {c : Char} (hbase : 1 < base) (h : c ∈ Nat.toDigits base n) :
    ∃ d, d < base ∧ c = Nat.digitChar d := by
  induction n using Nat.strongRecOn with
  | ind n ih =>
    rw [Nat.toDigits_eq_if hbase] at h
    split at h
    · rename_i hn
      exact ⟨n, hn, List.mem_singleton.1 h⟩
    · rename_i hn
      rcases List.mem_append.1 h with h | h
      · exact ih (n / base) (Nat.div_lt_self (by omega) hbase) h
      · exact ⟨n % base, Nat.mod_lt n (by omega), List.mem_singleton.1 h⟩

namespace Html

theorem decimal_unmarked (n : Nat) : Unmarked (Nat.toDigits 10 n) := by
  intro c hc
  obtain ⟨d, hd, rfl⟩ := mem_toDigits (by decide) hc
  have hdigits : ∀ d < 10, isMarkup (Nat.digitChar d) = false := by decide
  exact hdigits d hd

theorem hexadecimal_unmarked (n : Nat) : Unmarked ((Nat.toDigits 16 n).map Char.toUpper) := by
  intro c hc
  obtain ⟨c', hc', rfl⟩ := List.mem_map.1 hc
  obtain ⟨d, hd, rfl⟩ := mem_toDigits (by decide) hc'
  have hdigits : ∀ d < 16, isMarkup (Nat.digitChar d).toUpper = false := by decide
  exact hdigits d hd

theorem entity_unmarked (c : Char) : Unmarked (entity c) := by
  unfold entity
  split
  · decide
  · decide
  · decide
  · decide
  · split
    · have hbegin : Unmarked "&#".toList := by decide
      exact (hbegin.append (decimal_unmarked _)).append (by decide)
    · have hbegin : Unmarked "&#x".toList := by decide
      exact (hbegin.append (hexadecimal_unmarked _)).append (by decide)

theorem escapeChar_unmarked (c : Char) : Unmarked (escapeChar c) := by
  unfold escapeChar
  split
  · decide
  · split
    · rename_i hlisted
      exact .singleton (isMarkup_eq_false hlisted (by decide))
    · exact entity_unmarked c

end Html

theorem escapeHtml_unmarked (s : String) : Unmarked (escapeHtml s).toList := by
  rw [escapeHtml, String.toList_ofList, Html.escape_eq_flatMap]
  exact .flatMap fun c _ => Html.escapeChar_unmarked c

/-! ### URI components -/

namespace Percent

theorem triple_unmarked (byte : UInt8) : Unmarked (triple byte) := by
  have hdigits : ∀ n < 16, isMarkup (hexDigit n) = false := by decide
  have hbyte : byte.toNat < 256 := byte.toNat_lt
  have hhigh := hdigits (byte.toNat / 16) (by omega)
  have hlow := hdigits (byte.toNat % 16) (by omega)
  have hsign : Unmarked ['%'] := by decide
  exact hsign.append (Unmarked.append (.singleton hhigh) (.singleton hlow))

-- The component encoding leaves the apostrophe alone, and only the apostrophe of the four.
theorem encodeChar_ne {c d : Char} (h : d ∈ encodeChar c) : d ≠ '<' ∧ d ≠ '>' := by
  unfold encodeChar at h
  split at h
  · rename_i hc
    rw [List.mem_singleton.1 h]
    constructor
    · rintro rfl
      revert hc
      decide
    · rintro rfl
      revert hc
      decide
  · have hunmarked : Unmarked ((String.utf8EncodeChar c).flatMap triple) :=
      .flatMap fun byte _ => triple_unmarked byte
    have hd := hunmarked d h
    constructor
    · rintro rfl
      cases hd
    · rintro rfl
      cases hd

theorem escapeMark_unmarked {c : Char} (h : c ≠ '<' ∧ c ≠ '>') : Unmarked (escapeMark c) := by
  unfold escapeMark
  split
  · decide
  · decide
  · decide
  · decide
  · decide
  · decide
  · decide
  · rename_i hquote hapostrophe _ _ _ _
    refine .singleton (Bool.eq_false_iff.2 fun hc => ?_)
    rcases eq_of_isMarkup hc with hc | hc | hc | hc
    · exact h.1 hc
    · exact h.2 hc
    · exact hquote hc
    · exact hapostrophe hc

end Percent

theorem escapeUri_unmarked (s : String) : Unmarked (escapeUri s).toList := by
  rw [escapeUri, String.toList_ofList]
  refine .flatMap fun d hd => ?_
  obtain ⟨c, _, hc⟩ := List.mem_flatMap.1 hd
  exact Percent.escapeMark_unmarked (Percent.encodeChar_ne hc)

end TemplateExpr
