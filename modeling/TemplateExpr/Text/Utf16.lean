/-!
# UTF-16 units

Texts are sequences of characters, but lengths, indexes, order and escapes count UTF-16 units: a
character above U+FFFF is two surrogates.  A surrogate without its partner stands for no character and
is read as U+FFFD.
-/

namespace TemplateExpr

namespace Utf16

/-- What an unpaired surrogate is read as. -/
def replacement : Char := Char.ofNat 0xfffd

def isHigh (unit : Nat) : Bool := 0xd800 ≤ unit && unit < 0xdc00

def isLow (unit : Nat) : Bool := 0xdc00 ≤ unit && unit < 0xe000

def join (high low : Nat) : Nat := 0x10000 + (high - 0xd800) * 0x400 + (low - 0xdc00)

/-- The character of a code point, if it is one. -/
def charOf (point : Nat) : Char := if point.isValidChar then Char.ofNat point else replacement

theorem charOf_toNat (c : Char) : charOf c.toNat = c := by
  have hv : c.toNat.isValidChar := c.valid
  rw [charOf, if_pos hv, Char.ofNat_toNat]

/-- The units of a character. -/
def unitsOfChar (c : Char) : List Nat :=
  if c.toNat < 0x10000 then [c.toNat]
  else [0xd800 + (c.toNat - 0x10000) / 0x400, 0xdc00 + (c.toNat - 0x10000) % 0x400]

def units (cs : List Char) : List Nat := cs.flatMap unitsOfChar

theorem units_cons (c : Char) (cs : List Char) : units (c :: cs) = unitsOfChar c ++ units cs :=
  List.flatMap_cons

def length (cs : List Char) : Nat := (units cs).length

/-- Units read as characters. -/
def decode : List Nat → List Char
  | [] => []
  | [unit] => [charOf unit]
  | high :: low :: rest =>
    if isHigh high && isLow low then charOf (join high low) :: decode rest
    else charOf high :: decode (low :: rest)

theorem decode_units (cs : List Char) : decode (units cs) = cs := by
  induction cs with
  | nil => rfl
  | cons c rest ih =>
    have hv : c.toNat.isValidChar := c.valid
    unfold Nat.isValidChar at hv
    rw [units_cons]
    by_cases h : c.toNat < 0x10000
    · have hu : unitsOfChar c = [c.toNat] := by rw [unitsOfChar, if_pos h]
      have hh : isHigh c.toNat = false := by
        simp only [isHigh, Bool.and_eq_false_iff, decide_eq_false_iff_not]
        omega
      rw [hu, List.singleton_append]
      cases hr : units rest with
      | nil =>
        rw [hr] at ih
        rw [decode, charOf_toNat, ← ih, decode]
      | cons unit tail =>
        rw [hr] at ih
        rw [decode, hh, Bool.false_and, charOf_toNat, ih]
        rfl
    · have hu : unitsOfChar c =
          [0xd800 + (c.toNat - 0x10000) / 0x400, 0xdc00 + (c.toNat - 0x10000) % 0x400] := by
        rw [unitsOfChar, if_neg h]
      have hh : isHigh (0xd800 + (c.toNat - 0x10000) / 0x400) = true := by
        simp only [isHigh, Bool.and_eq_true, decide_eq_true_eq]
        omega
      have hl : isLow (0xdc00 + (c.toNat - 0x10000) % 0x400) = true := by
        simp only [isLow, Bool.and_eq_true, decide_eq_true_eq]
        omega
      have hj : join (0xd800 + (c.toNat - 0x10000) / 0x400) (0xdc00 + (c.toNat - 0x10000) % 0x400)
          = c.toNat := by
        unfold join
        omega
      rw [hu, List.cons_append, List.cons_append, List.nil_append, decode, hh, hl, hj, charOf_toNat, ih]
      rfl

/-- The order of two texts by units: that of the first two units that differ, a text that ends
sooner coming first. -/
def compareUnits : List Nat → List Nat → Ordering
  | [], [] => .eq
  | [], _ :: _ => .lt
  | _ :: _, [] => .gt
  | a :: s, b :: t => if a < b then .lt else if b < a then .gt else compareUnits s t

def compareStrings (s t : String) : Ordering := compareUnits (units s.toList) (units t.toList)

end Utf16

end TemplateExpr
