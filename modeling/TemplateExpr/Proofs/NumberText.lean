import TemplateExpr.Double.Layout
import TemplateExpr.Double.Numeral

/-!
# The parts of a number text

The text of a number in any layout is a numeral: digits, perhaps a point and a fraction, perhaps an `e`
and a power of ten.  A reader of numerals that is known on numerals is thereby known on number texts.
-/

namespace TemplateExpr

/-! ### Runs of characters -/

theorem takeWhile_run {p : Char → Bool} {cs tail : List Char} (h : ∀ c ∈ cs, p c)
    (ht : ∀ c ∈ tail.head?, p c = false) : (cs ++ tail).takeWhile p = cs := by
  rw [List.takeWhile_append_of_pos h]
  cases tail with
  | nil => exact List.append_nil cs
  | cons c rest => rw [List.takeWhile_cons_of_neg (by simp [ht c rfl]), List.append_nil]

theorem dropWhile_run {p : Char → Bool} {cs tail : List Char} (h : ∀ c ∈ cs, p c)
    (ht : ∀ c ∈ tail.head?, p c = false) : (cs ++ tail).dropWhile p = tail := by
  rw [List.dropWhile_append_of_pos h]
  cases tail with
  | nil => rfl
  | cons c rest => exact List.dropWhile_cons_of_neg (by simp [ht c rfl])

/-- A text is a run of characters of a class, and what does not begin with one. -/
theorem exists_run (p : Char → Bool) (text : List Char) : ∃ run tail, text = run ++ tail ∧
    (∀ c ∈ run, p c) ∧ ∀ c ∈ tail.head?, p c = false := by
  refine ⟨text.takeWhile p, text.dropWhile p, List.takeWhile_append_dropWhile.symm,
    List.all_eq_true.1 List.all_takeWhile, fun c hc => ?_⟩
  have first := List.head?_dropWhile_not p text
  rw [Option.mem_def.1 hc] at first
  exact first

/-! ### Digits -/

/-- At least one decimal digit, and nothing else. -/
structure IsDigits (cs : List Char) : Prop where
  ne_nil : cs ≠ []
  all : ∀ c ∈ cs, c.isDigit

namespace IsDigits

variable {cs ds : List Char}

theorem toDigits (n : Nat) : IsDigits (Nat.toDigits 10 n) where
  ne_nil := Nat.toDigits_ne_nil
  all _ hc := Nat.isDigit_of_mem_toDigits (by decide) (by decide) hc

theorem zero : IsDigits ['0'] := ⟨by decide, List.forall_mem_singleton.2 rfl⟩

theorem zeros_append (h : IsDigits cs) (n : Nat) : IsDigits (List.replicate n '0' ++ cs) where
  ne_nil := List.append_ne_nil_of_right_ne_nil _ h.ne_nil
  all c hc := by
    obtain hc | hc := List.mem_append.1 hc
    · rw [List.eq_of_mem_replicate hc]
      rfl
    · exact h.all c hc

theorem append_zeros (h : IsDigits cs) (n : Nat) : IsDigits (cs ++ List.replicate n '0') where
  ne_nil := List.append_ne_nil_of_left_ne_nil h.ne_nil _
  all c hc := by
    obtain hc | hc := List.mem_append.1 hc
    · exact h.all c hc
    · rw [List.eq_of_mem_replicate hc]
      rfl

theorem take (h : IsDigits cs) (n : Nat) : IsDigits (cs.take (n + 1)) where
  ne_nil := by
    rw [Ne, List.take_eq_nil_iff]
    exact fun h0 => h0.elim (Nat.succ_ne_zero n) h.ne_nil
  all c hc := h.all c (List.mem_of_mem_take hc)

theorem drop (h : IsDigits cs) {n : Nat} (hn : n < cs.length) : IsDigits (cs.drop n) where
  ne_nil := by
    rw [Ne, List.drop_eq_nil_iff]
    exact Nat.not_le.2 hn
  all c hc := h.all c (List.mem_of_mem_drop hc)

theorem head (h : IsDigits (c :: cs)) : c.isDigit := h.all c List.mem_cons_self

end IsDigits

theorem digitValue?_digitChar {radix n : Nat} (hr : radix ≤ 16) (h : n < radix) :
    digitValue? radix (Nat.digitChar n) = some n := by
  have all : ∀ radix ≤ 16, ∀ n < radix, digitValue? radix (Nat.digitChar n) = some n := by decide
  exact all radix hr n h

/-- The digits of a number, taken from the left, give it back. -/
theorem foldlM_toDigits {radix : Nat} (one_lt : 1 < radix) (hr : radix ≤ 16) (n : Nat) :
    (Nat.toDigits radix n).foldlM (fun n c => (digitValue? radix c).map (radix * n + ·)) 0 = some n := by
  induction n using Nat.base_induction radix one_lt with
  | single m small =>
    rw [Nat.toDigits_of_lt_base small]
    simp [digitValue?_digitChar hr small]
  | digit m k small positive ih =>
    rw [← Nat.toDigits_append_toDigits one_lt positive small, List.foldlM_append, ih,
      Nat.toDigits_of_lt_base small]
    simp [digitValue?_digitChar hr small]

/-! ### Numerals -/

/-- A text whose beginning does not go on with a numeral in front of it. -/
def EndsNumeral (tail : List Char) : Prop :=
  ∀ c ∈ tail.head?, c.isDigit = false ∧ c ≠ '.' ∧ c ≠ 'e' ∧ c ≠ 'E'

/-- A numeral without a sign, by its parts. -/
structure Numeral where
  whole : List Char
  fraction : Option (List Char)
  exponent : Option Int
  whole_digits : IsDigits whole
  fraction_digits : ∀ digits ∈ fraction, IsDigits digits

namespace Numeral

def fractionText (n : Numeral) : List Char :=
  match n.fraction with
  | some digits => '.' :: digits
  | none => []

/-- A sign and digits; a plus only if it is asked for. -/
def powerText (plus : Bool) (power : Int) : List Char :=
  (if power < 0 then ['-'] else if plus then ['+'] else []) ++ Nat.toDigits 10 power.natAbs

def exponentText (plus : Bool) (n : Numeral) : List Char :=
  match n.exponent with
  | some power => 'e' :: powerText plus power
  | none => []

def text (plus : Bool) (n : Numeral) : List Char := n.whole ++ (n.fractionText ++ n.exponentText plus)

/-! ### What a reader finds -/

theorem fractionText_head (n : Numeral) (plus : Bool) {tail : List Char} (ht : EndsNumeral tail) :
    ∀ c ∈ (n.fractionText ++ (n.exponentText plus ++ tail)).head?, c.isDigit = false := by
  intro c hc
  unfold fractionText exponentText at hc
  split at hc
  · cases hc
    rfl
  · split at hc
    · cases hc
      rfl
    · exact (ht c hc).1

theorem exponentText_head (n : Numeral) (plus : Bool) {tail : List Char} (ht : EndsNumeral tail) :
    ∀ c ∈ (n.exponentText plus ++ tail).head?, c.isDigit = false ∧ c ≠ '.' := by
  intro c hc
  unfold exponentText at hc
  split at hc
  · cases hc
    decide
  · exact ⟨(ht c hc).1, (ht c hc).2.1⟩

theorem splitSign_digit {c : Char} (h : c.isDigit) (rest : List Char) :
    Double.splitSign (c :: rest) = (false, c :: rest) := by
  unfold Double.splitSign
  split
  · rename_i sign
    cases sign
    cases h
  · rename_i sign
    cases sign
    cases h
  · rfl

theorem splitSign_powerText (plus : Bool) (power : Int) (tail : List Char) :
    Double.splitSign (powerText plus power ++ tail) =
      (decide (power < 0), Nat.toDigits 10 power.natAbs ++ tail) := by
  unfold powerText
  by_cases h : power < 0
  · simp [h, Double.splitSign]
  · cases plus with
    | true => simp [h, Double.splitSign]
    | false =>
      obtain ⟨d, rest, hd⟩ := List.exists_cons_of_ne_nil (Nat.toDigits_ne_nil (b := 10) (n := power.natAbs))
      have digit : d.isDigit := (IsDigits.toDigits power.natAbs).all d (hd ▸ List.mem_cons_self)
      simp only [h, if_false, hd, List.cons_append, decide_false]
      exact splitSign_digit digit _

/-- The number behind a sign that was split off. -/
theorem signed_natOfDigits (power : Int) :
    (if decide (power < 0) then -(natOfDigits (Nat.toDigits 10 power.natAbs) : Int)
      else natOfDigits (Nat.toDigits 10 power.natAbs)) = power := by
  rw [natOfDigits_toDigits]
  by_cases h : power < 0
  · simp only [h, decide_true, if_true]
    omega
  · simp only [h, decide_false]
    show (power.natAbs : Int) = power
    omega

/-! ### Layouts -/

/-- Digits with a point among, before or behind them. -/
def positional (digits : List Char) (h : IsDigits digits) (point : Int) (wholeFraction : Bool) : Numeral :=
  match point with
  | .ofNat (n + 1) =>
    if hn : digits.length ≤ n + 1 then
      ⟨digits ++ List.replicate (n + 1 - digits.length) '0', if wholeFraction then some ['0'] else none,
        none, h.append_zeros _, by
          intro fraction hf
          cases wholeFraction with
          | true => exact Option.some.inj hf ▸ .zero
          | false => cases hf⟩
    else
      ⟨digits.take (n + 1), some (digits.drop (n + 1)), none, h.take n,
        fun _ hf => Option.some.inj hf ▸ h.drop (Nat.lt_of_not_le hn)⟩
  | .ofNat 0 => ⟨['0'], some digits, none, .zero, fun _ hf => Option.some.inj hf ▸ h⟩
  | .negSucc n =>
    ⟨['0'], some (List.replicate (n + 1) '0' ++ digits), none, .zero,
      fun _ hf => Option.some.inj hf ▸ h.zeros_append _⟩

theorem text_positional {digits : List Char} (h : IsDigits digits) (point : Int)
    (wholeFraction plus : Bool) :
    (positional digits h point wholeFraction).text plus =
      Decimal.positional digits point wholeFraction := by
  match point with
  | .ofNat (n + 1) =>
    by_cases hn : digits.length ≤ n + 1
    · cases wholeFraction <;>
        simp [positional, Decimal.positional, hn, text, fractionText, exponentText]
    · simp [positional, Decimal.positional, hn, text, fractionText, exponentText]
  | .ofNat 0 => simp [positional, Decimal.positional, text, fractionText, exponentText]
  | .negSucc n => simp [positional, Decimal.positional, text, fractionText, exponentText]

/-- One digit, the others as its fraction, and a power of ten. -/
def scientific : (digits : List Char) → IsDigits digits → Int → Numeral
  | [], h, _ => absurd rfl h.ne_nil
  | [d], h, point => ⟨[d], none, some (point - 1), h, fun _ hf => nomatch hf⟩
  | d :: e :: rest, h, point =>
    ⟨[d], some (e :: rest), some (point - 1), h.take 0,
      fun _ hf => Option.some.inj hf ▸ h.drop (Nat.lt_add_of_pos_left (Nat.succ_pos _))⟩

theorem text_scientific {digits : List Char} (h : IsDigits digits) (point : Int) (plus : Bool) :
    (scientific digits h point).text plus = Decimal.scientific digits point plus := by
  match digits, h with
  | [], h => exact absurd rfl h.ne_nil
  | [d], h => rfl
  | d :: e :: rest, h => rfl

end Numeral

namespace Decimal

theorem text_digits (d : Decimal) : IsDigits d.text := .toDigits d.digits

/-- A decimal in a layout, by its parts. -/
def numeral (style : Layout) (d : Decimal) : Numeral :=
  if style.least < d.point ∧ d.point ≤ style.most then
    .positional d.text d.text_digits d.point style.wholeFraction
  else .scientific d.text d.text_digits d.point

theorem text_numeral (style : Layout) (d : Decimal) :
    (d.numeral style).text style.plus = d.layOut style := by
  unfold numeral layOut
  split
  · exact Numeral.text_positional d.text_digits d.point style.wholeFraction style.plus
  · exact Numeral.text_scientific d.text_digits d.point style.plus

/-- Where whole numbers end in a point and a zero, no number looks like an integer. -/
theorem numeral_not_integer {style : Layout} (h : style.wholeFraction) (d : Decimal) :
    (d.numeral style).fraction.isSome ∨ (d.numeral style).exponent.isSome := by
  unfold numeral
  split
  · left
    unfold Numeral.positional
    rw [h]
    split
    · split <;> rfl
    · rfl
    · rfl
  · right
    match d.text, d.text_digits with
    | [], hd => exact absurd rfl hd.ne_nil
    | [_], _ => rfl
    | _ :: _ :: _, _ => rfl

end Decimal

end TemplateExpr
