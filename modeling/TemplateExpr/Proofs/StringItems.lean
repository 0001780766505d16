import TemplateExpr.Expr.Parse
import TemplateExpr.Proofs.QuotedText

/-!
# The value of a string literal

A literal of plain characters, of escapes of UTF-16 units and of escapes in braces stands for the characters
and, in place of the units, for what they decode to.  Units next to each other are decoded together: a
surrogate pairs with the one behind it, but with none behind a character or an escape in braces.  The digits in
braces are counted in 32 bits, so an escape of 2^32 of them counts as one of none.
-/

namespace TemplateExpr

/-- An item of a literal in certain quotes. -/
inductive StringItem (quote : Char) where
  /-- A character as it is. -/
  | raw (c : Char) (plain : c ≠ quote ∧ c ≠ '\\' ∧ c ≠ '\n' ∧ c ≠ '\r')
  /-- An escape of a UTF-16 unit, which has four digits. -/
  | unit (digits : List Char) (n : Nat) (length : digits.length = 4) (number : hexNumber? digits = some n)
  /-- An escape of a character in braces, with any number of digits. -/
  | point (digits : List Char) (c : Char) (some_digit : digits ≠ []) (number : hexNumber? digits = some c.toNat)

namespace StringItem

variable {quote : Char}

/-- The text of an escape in braces. -/
def braces (digits : List Char) : List Char := '\\' :: 'u' :: '\x7b' :: (digits ++ ['\x7d'])

def text : StringItem quote → List Char
  | raw c _ => [c]
  | unit digits _ _ _ => '\\' :: 'u' :: digits
  | point digits _ _ _ => braces digits

/-- The digits are so few that their count never leaves its range. -/
def HasFewDigits : StringItem quote → Prop
  | point digits _ _ _ => digits.length < 0x80000000
  | _ => True

/-- The digits are counted as none. -/
def IsMiscounted : StringItem quote → Prop
  | point digits _ _ _ => digitCount digits = 0
  | _ => False

theorem HasFewDigits.counted {item : StringItem quote} (h : item.HasFewDigits) : ¬item.IsMiscounted := by
  cases item with
  | point digits c some_digit number => exact digitCount_ne_zero some_digit h
  | _ => exact id

/-- What a list of items stands for behind a run of units. -/
def valueFrom (run : List Nat) : List (StringItem quote) → List Char
  | [] => Utf16.decode run
  | raw c _ :: items => Utf16.decode run ++ c :: valueFrom [] items
  | unit _ n _ _ :: items => valueFrom (run ++ [n]) items
  | point _ c _ _ :: items => Utf16.decode run ++ c :: valueFrom [] items

/-- What a list of items stands for: its characters, and the runs of its units decoded. -/
def value (items : List (StringItem quote)) : List Char := valueFrom [] items

/-! ### Pieces -/

/-- The piece that an item is read as. -/
def piece : StringItem quote → StringPiece
  | raw c _ => .char c
  | unit _ n _ _ => .unit n
  | point _ c _ _ => .point c.toNat

theorem join_apart {first second : StringPiece} (h : first.high? = none ∨ second.low? = none)
    (rest : List StringPiece) :
    StringPiece.join (first :: second :: rest) = first.text ++ StringPiece.join (second :: rest) := by
  rw [StringPiece.join]
  obtain h | h := h
  · rw [h]
  · rw [h]
    cases first.high? <;> rfl

theorem join_units (run : List Nat) : StringPiece.join (run.map .unit) = Utf16.decode run := by
  fun_induction Utf16.decode run with
  | case1 => rfl
  | case2 unit => rfl
  | case3 high low rest pair ih =>
    obtain ⟨hhigh, hlow⟩ := Bool.and_eq_true_iff.1 pair
    simp only [List.map_cons, StringPiece.join, StringPiece.high?, StringPiece.low?, hhigh, hlow, if_true, ih]
  | case4 high low rest apart ih =>
    have no_pair : (StringPiece.unit high).high? = none ∨ (StringPiece.unit low).low? = none := by
      obtain h | h := Bool.and_eq_false_iff.1 (Bool.eq_false_iff.2 apart)
      · exact .inl (by simp only [StringPiece.high?, h, Bool.false_eq_true, if_false])
      · exact .inr (by simp only [StringPiece.low?, h, Bool.false_eq_true, if_false])
    rw [← ih]
    exact join_apart no_pair _

/-- A piece that is no half of a pair keeps what is before it apart from what is behind it. -/
theorem join_around {p : StringPiece} (hhigh : p.high? = none) (hlow : p.low? = none)
    (before after : List StringPiece) :
    StringPiece.join (before ++ p :: after) = StringPiece.join before ++ (p.text ++ StringPiece.join after) := by
  have alone : StringPiece.join (p :: after) = p.text ++ StringPiece.join after := by
    cases after with
    | nil => exact (List.append_nil _).symm
    | cons q after => exact join_apart (.inl hhigh) after
  -- Two pieces are taken at once where they are a pair, so the induction is that of `join`.
  fun_induction StringPiece.join before with
  | case1 => exact alone
  | case2 q => exact (join_apart (.inr hlow) after).trans (congrArg (q.text ++ ·) alone)
  | case3 first second rest high low hhigh' hlow' ih =>
    rw [List.cons_append, List.cons_append, StringPiece.join, hhigh', hlow', List.cons_append, ← ih]
  | case4 first second rest apart ih =>
    have no_pair : first.high? = none ∨ second.low? = none := by
      cases high : first.high? with
      | none => exact .inl rfl
      | some h =>
        cases low : second.low? with
        | none => exact .inr rfl
        | some l => exact absurd low (apart h l high)
    rw [List.append_assoc, ← ih]
    exact join_apart no_pair _

theorem join_pieces (run : List Nat) (items : List (StringItem quote)) :
    StringPiece.join (run.map .unit ++ items.map piece) = valueFrom run items := by
  induction items generalizing run with
  | nil => rw [List.map_nil, List.append_nil, join_units]; rfl
  | cons item items ih =>
    cases item with
    | raw c plain =>
      rw [List.map_cons, join_around rfl rfl, join_units, valueFrom, ← ih]
      rfl
    | unit digits n length number =>
      rw [valueFrom, ← ih, List.map_append, List.append_assoc]
      rfl
    | point digits c some_digit number =>
      obtain ⟨no_high, text⟩ := isPlain_point c
      rw [List.map_cons, piece, join_around no_high rfl, text, join_units, valueFrom, ← ih]
      rfl

/-! ### Reading -/

theorem readEscape_unit {digits : List Char} {n : Nat} (length : digits.length = 4)
    (number : hexNumber? digits = some n) (rest : List Char) :
    readEscape ('u' :: (digits ++ rest)) = .ok (.unit n, digits.length + 1) := by
  have no_brace : (digits ++ rest).head? ≠ some '\x7b' := by
    obtain ⟨c, cs, rfl⟩ := List.exists_cons_of_length_eq_add_one length
    rintro ⟨⟩
    exact absurd (isSome_digitValue?_of_hexNumber? number _ List.mem_cons_self) (by decide)
  have read : readHex? 4 (digits ++ rest) = some n := by
    rw [readHex?, List.take_left' length]
    simp only [length, if_true, number]
  show (readUnicodeEscape (digits ++ rest)).map _ = _
  rw [readUnicodeEscape_plain no_brace, read, length]
  rfl

section

variable (hquote : '\\' ≠ quote) (rest : List Char) (count : Nat) (done : List StringPiece)

include hquote

theorem readStringBody_item {item : StringItem quote} (counted : ¬item.IsMiscounted) :
    readStringBody quote count done (item.text ++ rest) =
      readStringBody quote (count + item.text.length) (item.piece :: done) rest := by
  cases item with
  | raw c plain =>
    obtain ⟨no_quote, backslash, feed, return_⟩ := plain
    exact readStringBody_plain no_quote backslash feed return_ count done rest
  | unit digits n length number =>
    exact readStringBody_escape hquote ('u' :: digits) (readEscape_unit length number rest) count done
  | point digits c some_digit number =>
    have some_count : digitCount digits ≠ 0 := counted
    have read := readEscape_braces number rest
    rw [if_neg (not_or.2 ⟨some_count, not_beyond c⟩)] at read
    exact readStringBody_escape hquote ('u' :: '\x7b' :: (digits ++ ['\x7d'])) (by simpa [piece] using read) count done

theorem readStringBody_braces {digits : List Char} {n : Nat} (number : hexNumber? digits = some n)
    (bad : digitCount digits = 0 ∨ 0x10ffff < n) :
    readStringBody quote count done (braces digits ++ rest) = .error (.badUnicodeEscape, count) := by
  have read := readEscape_braces number rest
  rw [if_pos bad] at read
  have shape : braces digits ++ rest = '\\' :: 'u' :: '\x7b' :: (digits ++ '\x7d' :: rest) := by simp [braces]
  rw [shape, readStringBody, if_neg hquote, if_pos rfl, read]

theorem readStringBody_items {items : List (StringItem quote)} (counted : ∀ item ∈ items, ¬item.IsMiscounted) :
    readStringBody quote count done (items.flatMap text ++ rest) =
      readStringBody quote (count + (items.flatMap text).length) ((items.map piece).reverse ++ done) rest := by
  induction items generalizing count done with
  | nil => rfl
  | cons item items ih =>
    rw [List.forall_mem_cons] at counted
    rw [List.flatMap_cons, List.append_assoc, readStringBody_item hquote _ _ _ counted.1, ih _ _ counted.2,
      List.length_append, Nat.add_assoc, List.map_cons, List.reverse_cons, List.append_assoc]
    rfl

/-- Behind any items a text that is refused for an escape is refused for one, at the latest where it stands. -/
theorem readStringBody_refused (items : List (StringItem quote))
    (bad : ∀ count done, readStringBody quote count done rest = .error (.badUnicodeEscape, count)) :
    ∃ place, readStringBody quote count done (items.flatMap text ++ rest) = .error (.badUnicodeEscape, place) := by
  induction items generalizing count done with
  | nil => exact ⟨count, bad count done⟩
  | cons item items ih =>
    rw [List.flatMap_cons, List.append_assoc]
    by_cases miscounted : item.IsMiscounted
    · cases item with
      | point digits c some_digit number =>
        exact ⟨count, readStringBody_braces hquote _ count done number (.inl miscounted)⟩
      | raw c plain => exact miscounted.elim
      | unit digits n length number => exact miscounted.elim
    · rw [readStringBody_item hquote _ _ _ miscounted]
      exact ih _ _

end

section

variable (hquote : quote = '\'' ∨ quote = '"')

include hquote

theorem not_backslash : '\\' ≠ quote := by
  rintro rfl
  exact absurd hquote (by decide)

theorem not_layout : isLayout quote = false := by
  obtain rfl | rfl := hquote <;> decide

theorem readToken_items {items : List (StringItem quote)} (counted : ∀ item ∈ items, ¬item.IsMiscounted) :
    readToken quote (items.flatMap text ++ [quote]) =
      .ok (.string (String.ofList (value items)), (items.flatMap text ++ [quote]).length + 1) := by
  have joined : StringPiece.join (items.map piece) = value items := join_pieces [] items
  rw [readToken, if_pos hquote, readStringBody_items (not_backslash hquote) _ _ _ counted, readStringBody,
    if_pos rfl, List.append_nil, List.reverse_reverse, ok_bind]
  dsimp only
  rw [joined, List.length_append, List.length_singleton, Nat.add_comm 1]
  rfl

theorem tokenize_refused {body : List Char} {place : Nat}
    (refused : readStringBody quote 1 [] body = .error (.badUnicodeEscape, place)) :
    tokenize (String.ofList (quote :: body)) =
      .error ⟨.badUnicodeEscape, utf8Length ((quote :: body).take place)⟩ := by
  have no_layout := not_layout hquote
  have failed : readToken quote body = .error (.badUnicodeEscape, place) := by
    rw [readToken, if_pos hquote, refused]
    rfl
  rw [tokenize, String.toList_ofList, scan, if_neg (by simp [no_layout]), failed]
  dsimp only
  rw [Nat.zero_add]

theorem parseWithin_refused {body : List Char} {place : Nat}
    (refused : readStringBody quote 1 [] body = .error (.badUnicodeEscape, place)) (limit : Nat) :
    Expr.parseWithin limit (String.ofList (quote :: body)) =
      .error ⟨.badUnicodeEscape, utf8Length ((quote :: body).take place)⟩ := by
  rw [Expr.parseWithin, tokenize_refused hquote refused]
  rfl

end

end StringItem

open StringItem in
/-- In either quotes a list of items is one string token of its value, if no escape in braces has 2^31 digits or
more; and a source that begins with an escape in braces behind such a list is not an expression if the number is
beyond the last character. -/
theorem string_items_decode {quote : Char} (hquote : quote = '\'' ∨ quote = '"')
    (items : List (StringItem quote)) :
    ((∀ item ∈ items, item.HasFewDigits) →
      tokenize (String.ofList (quote :: (items.flatMap text ++ [quote]))) =
        .ok [⟨.string (String.ofList (value items)), 0⟩]) ∧
    ∀ digits n rest limit, hexNumber? digits = some n → 0x10ffff < n →
      (∃ place, Expr.parseWithin limit (String.ofList (quote :: (items.flatMap text ++ braces digits ++ rest))) =
        .error ⟨.badUnicodeEscape, place⟩) ∧
      ((∀ item ∈ items, item.HasFewDigits) →
        Expr.parseWithin limit (String.ofList (quote :: (items.flatMap text ++ braces digits ++ rest))) =
          .error ⟨.badUnicodeEscape, utf8Length (quote :: items.flatMap text)⟩) := by
  have no_escape := not_backslash hquote
  refine ⟨fun few => ?_, fun digits n rest limit number large => ?_⟩
  · have counted : ∀ item ∈ items, ¬item.IsMiscounted := fun item h => (few item h).counted
    exact tokenize_of_token String.toList_ofList (not_layout hquote) (readToken_items hquote counted)
  · have bad : ∀ count done, readStringBody quote count done (braces digits ++ rest) =
        .error (.badUnicodeEscape, count) := fun count done =>
      readStringBody_braces no_escape rest count done number (.inr large)
    rw [List.append_assoc]
    constructor
    · obtain ⟨place, refused⟩ := readStringBody_refused no_escape _ 1 [] items bad
      exact ⟨_, parseWithin_refused hquote refused limit⟩
    · intro few
      have counted : ∀ item ∈ items, ¬item.IsMiscounted := fun item h => (few item h).counted
      have refused := readStringBody_items no_escape (braces digits ++ rest) 1 [] counted
      rw [bad, Nat.add_comm 1] at refused
      rw [parseWithin_refused hquote refused limit, List.take_succ_cons, List.take_left]

theorem string_items_decode_halves :
    tokenize "'\\ud83d\\uDE00é\\ud83d\\u\x7b0000de\x7d\\ude00'" = .ok [⟨.string "😀é\ufffdÞ\ufffd", 0⟩] ∧
    Expr.parseWithin 64 "'\\ud83d\\uDE00é\\ud83d\\u\x7b0000de\x7d\\ude00\\u\x7b100000000000\x7d" =
      .error ⟨.badUnicodeEscape, 37⟩ := by
  let items : List (StringItem '\'') := [
    .unit ['d', '8', '3', 'd'] 0xd83d rfl (by decide), .unit ['D', 'E', '0', '0'] 0xde00 rfl (by decide),
    .raw 'é' (by decide), .unit ['d', '8', '3', 'd'] 0xd83d rfl (by decide),
    .point ['0', '0', '0', '0', 'd', 'e'] 'Þ' (by decide) (by decide),
    .unit ['d', 'e', '0', '0'] 0xde00 rfl (by decide)]
  have few : ∀ item ∈ items, item.HasFewDigits := by simp [items, StringItem.HasFewDigits]
  obtain ⟨decoded, beyond⟩ := string_items_decode (.inl rfl) items
  exact ⟨decoded few, (beyond "100000000000".toList 0x100000000000 [] 64 (by decide) (by decide)).2 few⟩

theorem hexNumber?_zeros (n : Nat) : hexNumber? (List.replicate n '0') = some 0 := by
  induction n with
  | zero => rfl
  | succ n ih => exact ih

open StringItem in
/-- The NUL character written with 2^32 zeros in braces: what the literal stands for is a text, but the zeros are
counted as none. -/
theorem zeros_counted_as_none :
    ∃ items : List (StringItem '\''), value items = ['\x00'] ∧
      items.flatMap text = braces (List.replicate 0x100000000 '0') ∧
      tokenize (String.ofList ('\'' :: (items.flatMap text ++ ['\'']))) = .error ⟨.badUnicodeEscape, 1⟩ := by
  generalize hzeros : List.replicate 0x100000000 '0' = zeros
  have length : zeros.length = 0x100000000 := by rw [← hzeros, List.length_replicate]
  have number : hexNumber? zeros = some 0 := hzeros ▸ hexNumber?_zeros _
  have some_digit : zeros ≠ [] := List.ne_nil_of_length_pos (by omega)
  have miscounted : digitCount zeros = 0 := (digitCount_eq_zero_iff zeros).2 ⟨1, length⟩
  let item : StringItem '\'' := .point zeros '\x00' some_digit number
  have shape : [item].flatMap text = braces zeros := List.append_nil _
  refine ⟨[item], rfl, shape, ?_⟩
  rw [shape]
  have refused := readStringBody_braces (by decide : '\\' ≠ '\'') ['\''] 1 [] number (.inl miscounted)
  exact tokenize_refused (.inl rfl) refused

end TemplateExpr
