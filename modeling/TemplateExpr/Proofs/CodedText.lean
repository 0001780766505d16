/-!
# Coded texts

An escaped text is made of characters that stand for themselves and of complete codes.  When a code begins
with a sign that occurs nowhere else, every sign of the text begins a code, so the codes can be found
again wherever one looks.
-/

namespace TemplateExpr

/-- A text of plain characters and complete codes. -/
inductive Coded (plain : Char → Prop) (code : List Char → Prop) : List Char → Prop where
  | nil : Coded plain code []
  | plain {c rest} : plain c → Coded plain code rest → Coded plain code (c :: rest)
  | code {cs rest} : code cs → Coded plain code rest → Coded plain code (cs ++ rest)

/-- Codes begin with a sign and do not hold it a second time; no plain character is the sign. -/
structure SignedBy (sign : Char) (plain : Char → Prop) (code : List Char → Prop) : Prop where
  not_plain : ¬plain sign
  begins : ∀ cs, code cs → ∃ body, cs = sign :: body ∧ sign ∉ body

namespace Coded

variable {plain : Char → Prop} {code : List Char → Prop}

theorem ofPlain {c : Char} (h : plain c) : Coded plain code [c] := .plain h .nil

theorem ofCode {cs : List Char} (h : code cs) : Coded plain code cs := by
  have hcs : Coded plain code (cs ++ []) := .code h .nil
  rw [List.append_nil] at hcs
  exact hcs

theorem append {cs ds : List Char} (hcs : Coded plain code cs) (hds : Coded plain code ds) :
    Coded plain code (cs ++ ds) := by
  induction hcs with
  | nil => exact hds
  | plain hc _ ih => exact .plain hc ih
  | code hc _ ih =>
    rw [List.append_assoc]
    exact .code hc ih

theorem flatMap {as : List α} {f : α → List Char} (h : ∀ a ∈ as, Coded plain code (f a)) :
    Coded plain code (as.flatMap f) := by
  induction as with
  | nil => exact .nil
  | cons a as ih =>
    rw [List.flatMap_cons]
    exact (h a List.mem_cons_self).append (ih fun a' ha => h a' (List.mem_cons_of_mem _ ha))

theorem plain_or_mem_code {cs : List Char} (h : Coded plain code cs) {c : Char} (hc : c ∈ cs) :
    plain c ∨ ∃ ds, code ds ∧ c ∈ ds := by
  induction h with
  | nil => cases hc
  | plain hplain _ ih =>
    rcases List.mem_cons.1 hc with rfl | hc
    · exact .inl hplain
    · exact ih hc
  | code hcode _ ih =>
    rcases List.mem_append.1 hc with hc | hc
    · exact .inr ⟨_, hcode, hc⟩
    · exact ih hc

/-- Wherever the sign occurs, a complete code begins. -/
theorem code_at {sign : Char} (hsign : SignedBy sign plain code) {cs front back : List Char}
    (h : Coded plain code cs) (hcs : cs = front ++ sign :: back) :
    ∃ ds rest, sign :: back = ds ++ rest ∧ code ds := by
  induction h generalizing front with
  | nil => simp at hcs
  | plain hplain _ ih =>
    cases front with
    | nil =>
      simp only [List.nil_append, List.cons.injEq] at hcs
      exact absurd (hcs.1 ▸ hplain) hsign.not_plain
    | cons d front =>
      simp only [List.cons_append, List.cons.injEq] at hcs
      exact ih hcs.2
  | @code ds rest hcode _ ih =>
    rcases List.append_eq_append_iff.1 hcs with ⟨middle, hfront, hrest⟩ | ⟨middle, hds, hback⟩
    · exact ih hrest
    · cases front with
      | nil =>
        refine ⟨ds, rest, ?_, hcode⟩
        rw [hback]
        simp only [List.nil_append] at hds
        rw [hds]
      | cons d front =>
        -- A sign inside the code would be its second one.
        obtain ⟨body, hbody, hfresh⟩ := hsign.begins ds hcode
        cases middle with
        | nil =>
          have hrest : rest = [] ++ sign :: back := hback.symm
          exact ih hrest
        | cons e middle =>
          rw [hbody] at hds
          simp only [List.cons_append, List.cons.injEq] at hds hback
          exact absurd (by simp [hds.2, hback.1]) hfresh

end Coded

/-! ### Decoders -/

/-- How codes are read: the sign they begin with, what is behind a sign and how long it is, and the
meaning of every other character. -/
structure Decoder (β : Type) where
  sign : Char
  front? : List Char → Option (β × Nat)
  plain : Char → List β

namespace Decoder

variable {β : Type}

/-- Decoding, with some characters still to skip because they belong to a code that has been decoded; a
sign that begins no code is a character like any other. -/
def decodeAfter (d : Decoder β) : Nat → List Char → List β
  | _, [] => []
  | skipped + 1, _ :: rest => d.decodeAfter skipped rest
  | 0, c :: rest =>
    if c = d.sign then
      match d.front? rest with
      | some (b, length) => b :: d.decodeAfter length rest
      | none => d.plain c ++ d.decodeAfter 0 rest
    else d.plain c ++ d.decodeAfter 0 rest

def decode (d : Decoder β) (cs : List Char) : List β := d.decodeAfter 0 cs

variable {d : Decoder β}

theorem decodeAfter_append (cs rest : List Char) : d.decodeAfter cs.length (cs ++ rest) = d.decode rest := by
  induction cs with
  | nil => rfl
  | cons c cs ih => exact ih

theorem decode_plain {c : Char} (h : c ≠ d.sign) (rest : List Char) :
    d.decode (c :: rest) = d.plain c ++ d.decode rest := by
  rw [decode, decodeAfter, if_neg h]
  rfl

theorem decode_code {cs rest : List Char} {b : β} (h : d.front? (cs ++ rest) = some (b, cs.length)) :
    d.decode (d.sign :: cs ++ rest) = b :: d.decode rest := by
  rw [decode, List.cons_append, decodeAfter, if_pos rfl, h]
  exact congrArg (b :: ·) (decodeAfter_append cs rest)

/-- A decoder that undoes the code of one character in front of any text undoes a whole text. -/
theorem decode_flatMap {encode : α → List Char} {meaning : α → List β}
    (h : ∀ a rest, d.decode (encode a ++ rest) = meaning a ++ d.decode rest) (as : List α) :
    d.decode (as.flatMap encode) = as.flatMap meaning := by
  induction as with
  | nil => rfl
  | cons a as ih => rw [List.flatMap_cons, List.flatMap_cons, h, ih]

end Decoder

/-! ### Digits -/

/-- The digits that codes are written with. -/
def isUpperHexDigit (c : Char) : Bool := c.isDigit || ('A' ≤ c && c ≤ 'F')

theorem isUpperHexDigit_of_isDigit {c : Char} (h : c.isDigit = true) : isUpperHexDigit c = true := by
  rw [isUpperHexDigit, h, Bool.true_or]

theorem isUpperHexDigit_ne {c d : Char} (h : isUpperHexDigit c = true) (hd : isUpperHexDigit d = false) :
    d ≠ c := by
  rintro rfl
  rw [h] at hd
  cases hd

end TemplateExpr
