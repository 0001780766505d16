import TemplateExpr.Json.Read
import TemplateExpr.Json.Write
import TemplateExpr.Proofs.NumberText

/-!
# What is written as JSON reads back

A document that was written reads back as itself, at any depth, if each of its numbers does when it is
written alone.  Texts are read in two passes; here both are followed at once, one token at a time.
-/

namespace TemplateExpr

namespace Json

/-! ### Strings -/

theorem readString?_plain {c : Char} (hq : c ≠ '"') (hb : c ≠ '\\') (hs : ¬ c.toNat < 0x20)
    (done rest : List Char) : readString? none done (c :: rest) = readString? none (c :: done) rest := by
  rw [readString?]
  · simp only [Option.isSome_none, hq, hs, hb, or_self, if_false, Bool.false_eq_true]
  · exact fun _ _ _ _ _ h => absurd h hb
  · exact fun _ _ h => absurd h hb

/-- The escape of a control stands for the control. -/
theorem readString?_control {n : Nat} (h : n < 0x20) (done rest : List Char) :
    readString? none done ('\\' :: 'u' :: '0' :: '0' :: (hexPair n ++ rest)) =
      readString? none (Char.ofNat n :: done) rest := by
  have hex : ∀ n < 0x20, hexFour? '0' '0' (Nat.digitChar (n / 16)) (Nat.digitChar (n % 16)) = some n := by
    decide
  have single : ∀ n < 0x20, Utf16.isHigh n = false ∧ Utf16.isLow n = false ∧
      Utf16.charOf n = Char.ofNat n := by
    decide
  obtain ⟨high, low, char⟩ := single n h
  show readString? none done ('\\' :: 'u' :: '0' :: '0' :: Nat.digitChar (n / 16) ::
    Nat.digitChar (n % 16) :: rest) = _
  rw [readString?.eq_3 _ _ _ _ _ _ n (hex n h), high, low, char]
  rfl

/-- What stands for a character in a string reads as that character. -/
theorem readString?_escapeChar (c : Char) (done rest : List Char) :
    readString? none done (escapeChar c ++ rest) = readString? none (c :: done) rest := by
  unfold escapeChar
  split
  case h_8 hq hb _ _ hn hr ht =>
    split
    case isTrue h => exact (readString?_control h done rest).trans (by rw [Char.ofNat_toNat])
    case isFalse h => exact readString?_plain hq hb h done rest
  all_goals rfl

theorem readString?_flatMap (cs done tail : List Char) :
    readString? none done (cs.flatMap escapeChar ++ '"' :: tail) =
      some (String.ofList (done.reverse ++ cs), tail) := by
  induction cs generalizing done with
  | nil => simp [readString?]
  | cons c cs ih =>
    rw [List.flatMap_cons, List.append_assoc, readString?_escapeChar, ih]
    simp

theorem readToken?_quote (s : String) (tail : List Char) :
    readToken? (quote s ++ tail) = some (.leaf (.string s), tail) := by
  have h := readString?_flatMap s.toList [] tail
  simp only [quote, List.cons_append, List.append_assoc, List.nil_append, readToken?] at h ⊢
  rw [h]
  simp

/-! ### Numbers -/

/-- The number that a numeral with a sign denotes, if it has no zero in front. -/
def numeralValue? (negative : Bool) (n : Numeral) : Option Json := do
  guard (n.whole.length == 1 || n.whole.head? != some '0')
  number? negative n.whole n.fraction n.exponent

theorem fraction?_numeral (n : Numeral) (plus : Bool) {tail : List Char} (ht : EndsNumeral tail) :
    fraction? (n.fractionText ++ (n.exponentText plus ++ tail)) =
      some (n.fraction, n.exponentText plus ++ tail) := by
  have head := n.exponentText_head plus ht
  generalize n.exponentText plus ++ tail = rest at head
  unfold Numeral.fractionText
  cases hf : n.fraction with
  | some digits =>
    have hd := n.fraction_digits digits hf
    have take := takeWhile_run hd.all fun c hc => (head c hc).1
    have drop := dropWhile_run hd.all fun c hc => (head c hc).1
    have some_digit : digits.isEmpty = false := List.isEmpty_eq_false_iff.2 hd.ne_nil
    simp only [List.cons_append, fraction?, take, drop, some_digit, Bool.false_eq_true, if_false]
  | none =>
    show fraction? rest = some (none, rest)
    unfold fraction?
    split
    · exact absurd rfl (head '.' rfl).2
    · rfl

theorem exponent?_numeral (n : Numeral) (plus : Bool) {tail : List Char} (ht : EndsNumeral tail) :
    exponent? (n.exponentText plus ++ tail) = some (n.exponent, tail) := by
  unfold Numeral.exponentText
  cases he : n.exponent with
  | some power =>
    have hd : IsDigits (Nat.toDigits 10 power.natAbs) := .toDigits _
    have take := takeWhile_run hd.all fun c hc => (ht c hc).1
    have drop := dropWhile_run hd.all fun c hc => (ht c hc).1
    have some_digit : (Nat.toDigits 10 power.natAbs).isEmpty = false :=
      List.isEmpty_eq_false_iff.2 hd.ne_nil
    simp only [List.cons_append, exponent?, true_or, if_true, Numeral.splitSign_powerText, take, drop,
      some_digit, Bool.false_eq_true, if_false, Numeral.signed_natOfDigits]
  | none =>
    cases tail with
    | nil => rfl
    | cons c rest =>
      obtain ⟨-, -, lower, upper⟩ := ht c rfl
      simp only [List.nil_append, exponent?, lower, upper, or_self, if_false]

theorem readNumber?_text (negative : Bool) (n : Numeral) (plus : Bool) {tail : List Char}
    (ht : EndsNumeral tail) :
    readNumber? negative (n.text plus ++ tail) = (numeralValue? negative n).map (·, tail) := by
  have head := n.fractionText_head plus ht
  have some_digit : n.whole.isEmpty = false := List.isEmpty_eq_false_iff.2 n.whole_digits.ne_nil
  unfold readNumber? numeralValue? Numeral.text
  dsimp only
  rw [List.append_assoc, List.append_assoc, takeWhile_run n.whole_digits.all head,
    dropWhile_run n.whole_digits.all head, some_digit, Bool.not_false, Bool.true_and,
    fraction?_numeral n plus ht]
  cases n.whole.length == 1 || n.whole.head? != some '0' with
  | false => rfl
  | true =>
    change (exponent? (n.exponentText plus ++ tail)).bind _ = _
    rw [exponent?_numeral n plus ht]
    change (number? negative n.whole n.fraction n.exponent).bind _ =
      (number? negative n.whole n.fraction n.exponent).map _
    cases number? negative n.whole n.fraction n.exponent <;> rfl

theorem readToken?_digit {c : Char} (h : c.isDigit) (rest : List Char) :
    readToken? (c :: rest) = (readNumber? false (c :: rest)).map fun (n, rest) => (.leaf n, rest) := by
  unfold readToken?
  split
  case h_12 => rfl
  all_goals
    rename_i he
    cases he
    cases h

theorem readToken?_number (negative : Bool) (n : Numeral) (plus : Bool) {tail : List Char}
    (ht : EndsNumeral tail) :
    readToken? (Double.signText negative ++ (n.text plus ++ tail)) =
      (numeralValue? negative n).map fun value => (.leaf value, tail) := by
  have number := readNumber?_text negative n plus ht
  obtain ⟨d, digits, hd⟩ := List.exists_cons_of_ne_nil n.whole_digits.ne_nil
  have first : d.isDigit := n.whole_digits.all d (hd ▸ List.mem_cons_self)
  cases negative with
  | true =>
    show (readNumber? true (n.text plus ++ tail)).map _ = _
    rw [number, Option.map_map]
    rfl
  | false =>
    have text : n.text plus ++ tail = d :: (digits ++ (n.fractionText ++ n.exponentText plus) ++ tail) := by
      simp only [Numeral.text, hd, List.cons_append]
    show readToken? (n.text plus ++ tail) = _
    rw [text, readToken?_digit first, ← text, number, Option.map_map]
    rfl

/-- The text of a finite double is a numeral that does not look like an integer. -/
theorem float_text {x : Double} (h : x.isFinite) :
    ∃ (negative : Bool) (n : Numeral), (n.fraction.isSome ∨ n.exponent.isSome) ∧
      x.jsonText? = some (Double.signText negative ++ n.text false) := by
  cases x with
  | nan => cases h
  | signed negative rank bound =>
    have finite : rank ≠ infinityRank := Nat.ne_of_lt (of_decide_eq_true h)
    refine ⟨negative, if rank = 0 then .positional ['0'] .zero 1 true
      else (Double.shortest .even rank).numeral .json, ?_, ?_⟩
    · split
      · exact .inl rfl
      · exact Decimal.numeral_not_integer rfl _
    · simp only [Double.jsonText?, finite, if_false]
      split
      · rfl
      · exact congrArg (some <| Double.signText negative ++ ·) (Decimal.text_numeral .json _).symm

/-- The text of an integer is a numeral. -/
theorem integer_text (i : Int) :
    ∃ (negative : Bool) (n : Numeral), integerText i = Double.signText negative ++ n.text false := by
  refine ⟨decide (i < 0), ⟨Nat.toDigits 10 i.natAbs, none, none, .toDigits _, fun _ h => by cases h⟩, ?_⟩
  simp [integerText, Double.signText, Numeral.text, Numeral.fractionText, Numeral.exponentText]

/-! ### One token at a time -/

/-- From the reading `r` at a text, tokens lead to the reading `last` with `tail` left. -/
inductive Advances (tail : List Char) (last : Reading) : List Char → Reading → Prop
  | done : Advances tail last tail last
  | token {cs rest : List Char} {r next : Reading} {token : JsonToken}
      (read : readToken? cs = some (token, rest)) (shorter : rest.length < cs.length)
      (step : r.step? none token = some next) (others : Advances tail last rest next) :
      Advances tail last cs r

theorem Advances.trans {cs middle tail : List Char} {r between last : Reading}
    (h : Advances middle between cs r) (h' : Advances tail last middle between) :
    Advances tail last cs r := by
  induction h with
  | done => exact h'
  | token read shorter step _ ih => exact .token read shorter step ih

theorem isJsonBlank_iff {c : Char} : isJsonBlank c ↔ c = ' ' ∨ c = '\n' ∨ c = '\t' ∨ c = '\r' := by
  simp [isJsonBlank, or_assoc]

theorem readToken?_blank {c : Char} (h : isJsonBlank c) (rest : List Char) :
    readToken? (c :: rest) = none := by
  obtain rfl | rfl | rfl | rfl := isJsonBlank_iff.1 h <;> rfl

theorem tokensFrom_step (fuel : Nat) (done : List JsonToken) {c : Char} (h : isJsonBlank c = false)
    (cs : List Char) :
    tokensFrom (fuel + 1) done (c :: cs) =
      (readToken? (c :: cs)).bind fun read => tokensFrom fuel (read.1 :: done) read.2 := by
  have start : (c :: cs).dropWhile isJsonBlank = c :: cs := List.dropWhile_cons_of_neg (by simp [h])
  conv => lhs; unfold tokensFrom; rw [start]
  cases hread : readToken? (c :: cs) <;> simp only [hread] <;> rfl

theorem Advances.tokens {cs : List Char} {r last : Reading} (h : Advances [] last cs r) :
    ∃ tokens, tokens.foldlM (Reading.step? none) r = some last ∧
      ∀ fuel done, cs.length ≤ fuel → tokensFrom fuel done cs = some (done.reverse ++ tokens) := by
  induction h with
  | done =>
    refine ⟨[], rfl, fun fuel done _ => ?_⟩
    cases fuel <;> exact congrArg some (List.append_nil _).symm
  | @token cs rest r next token read shorter step _ ih =>
    -- The fuel is one for each character, and every token takes at least one.
    obtain ⟨tokens, fold, lexed⟩ := ih
    refine ⟨token :: tokens, by rw [List.foldlM_cons, step]; exact fold, fun fuel done enough => ?_⟩
    cases cs with
    | nil => exact absurd shorter (Nat.not_lt_zero _)
    | cons c cs =>
      have start : isJsonBlank c = false := Bool.eq_false_iff.2 fun blank => by
        rw [readToken?_blank blank] at read
        cases read
      obtain ⟨fuel, rfl⟩ := Nat.exists_eq_add_of_lt (Nat.lt_of_lt_of_le (Nat.succ_pos _) enough)
      rw [Nat.zero_add, tokensFrom_step fuel done start, read, Option.bind_some, lexed fuel _ (by omega)]
      simp

theorem read?_of_advances {s : String} {last : Reading}
    (h : Advances [] last s.toList ⟨.value, [], 0⟩) : read? none s = last.result? := by
  obtain ⟨tokens, fold, lexed⟩ := h.tokens
  simp only [read?, tokens?, lexed _ [] (Nat.le_refl _), List.reverse_nil, List.nil_append, ofTokens?,
    Option.bind_eq_bind, Option.bind_some, fold]

/-! ### Documents -/

mutual

/-- Every number of a document reads back when it is written alone. -/
def NumbersReadBack : Json → Prop
  | integer n => read? none (integer n).write = some (integer n)
  | float x => read? none (float x).write = some (float x)
  | array items => ItemsReadBack items
  | object members => MembersReadBack members
  | _ => True

def ItemsReadBack : List Json → Prop
  | [] => True
  | item :: items => NumbersReadBack item ∧ ItemsReadBack items

def MembersReadBack : List (String × Json) → Prop
  | [] => True
  | (_, value) :: members => NumbersReadBack value ∧ MembersReadBack members

end

/-- What may stand behind a document: nothing, a comma or the end of a container. -/
def Delimited (tail : List Char) : Prop := ∀ c ∈ tail.head?, c = ',' ∨ c = ']' ∨ c = '}'

theorem delimited_nil : Delimited [] := nofun

theorem Delimited.endsNumeral {tail : List Char} (h : Delimited tail) : EndsNumeral tail := by
  intro c hc
  obtain rfl | rfl | rfl := h c hc <;> decide

theorem number_not_blank (negative : Bool) (n : Numeral) (plus : Bool) :
    ∃ c cs, Double.signText negative ++ n.text plus = c :: cs ∧ isJsonBlank c = false := by
  cases negative with
  | true => exact ⟨'-', n.text plus, rfl, rfl⟩
  | false =>
    obtain ⟨d, digits, hd⟩ := List.exists_cons_of_ne_nil n.whole_digits.ne_nil
    have digit : d.isDigit := n.whole_digits.all d (hd ▸ List.mem_cons_self)
    refine ⟨d, digits ++ (n.fractionText ++ n.exponentText plus), congrArg (· ++ _) hd,
      Bool.eq_false_iff.2 fun blank => ?_⟩
    obtain rfl | rfl | rfl | rfl := isJsonBlank_iff.1 blank <;> cases digit

/-- A number that reads back alone is the number of its numeral. -/
theorem numeralValue?_of_read? {negative : Bool} {n : Numeral} {j : Json}
    (h : read? none (String.ofList (Double.signText negative ++ n.text false)) = some j) :
    numeralValue? negative n = some j := by
  have read := readToken?_number negative n false delimited_nil.endsNumeral
  rw [List.append_nil] at read
  cases hv : numeralValue? negative n with
  | some value =>
    rw [hv] at read
    have whole : Advances [] ⟨.next value, [], 0⟩
        (Double.signText negative ++ n.text false) ⟨.value, [], 0⟩ := by
      refine .token read ?_ rfl .done
      have := List.length_pos_iff.2 n.whole_digits.ne_nil
      simp only [Numeral.text, List.length_append, List.length_nil]
      omega
    rw [read?_of_advances (by rw [String.toList_ofList]; exact whole)] at h
    exact h
  | none =>
    obtain ⟨c, cs, text, start⟩ := number_not_blank negative n false
    rw [hv, text] at read
    rw [text] at h
    simp only [read?, String.toList_ofList, tokens?, List.length_cons, tokensFrom_step _ _ start, read] at h
    cases h

theorem delimited_items (items : List Json) (tail : List Char) :
    Delimited (writeItems items (']' :: tail)) := by
  intro c hc
  cases items with
  | nil => exact .inr (.inl (Option.some.inj hc).symm)
  | cons item items => exact .inl (Option.some.inj hc).symm

theorem delimited_members (members : List (String × Json)) (tail : List Char) :
    Delimited (writeMembers members ('}' :: tail)) := by
  intro c hc
  cases members with
  | nil => exact .inr (.inr (Option.some.inj hc).symm)
  | cons member members => exact .inl (Option.some.inj hc).symm

theorem readToken?_integer {i : Int} (h : NumbersReadBack (integer i)) {tail : List Char}
    (ht : Delimited tail) : readToken? (integerText i ++ tail) = some (.leaf (integer i), tail) := by
  obtain ⟨negative, n, text⟩ := integer_text i
  have back : read? none (integer i).write = some (integer i) := h
  have written : (integer i).write = String.ofList (integerText i) :=
    congrArg String.ofList (List.append_nil _)
  rw [written, text] at back
  rw [text, List.append_assoc, readToken?_number negative n false ht.endsNumeral,
    numeralValue?_of_read? back]
  rfl

theorem readToken?_float {x : Double} (h : NumbersReadBack (float x)) {tail : List Char}
    (ht : Delimited tail) :
    readToken? (x.jsonText?.getD "null".toList ++ tail) = some (.leaf (float x), tail) := by
  have back : read? none (float x).write = some (float x) := h
  have written : (float x).write = String.ofList (x.jsonText?.getD "null".toList) :=
    congrArg String.ofList (List.append_nil _)
  rw [written] at back
  cases finite : x.isFinite with
  | true =>
    obtain ⟨negative, n, -, text⟩ := float_text finite
    rw [text, Option.getD_some] at back ⊢
    rw [List.append_assoc, readToken?_number negative n false ht.endsNumeral,
      numeralValue?_of_read? back]
    rfl
  | false =>
    have null : x.jsonText? = none := by
      cases x with
      | nan => rfl
      | signed negative rank bound =>
        have infinite : rank = infinityRank := Nat.le_antisymm bound (Nat.not_lt.1 (of_decide_eq_false finite))
        exact if_pos infinite
    rw [null] at back
    cases back

/-- Where a document may begin, every token but the end of an array begins one. -/
theorem step?_eq_enter? {r : Reading} (hr : r.expecting = .value ∨ r.expecting = .firstItem)
    {token : JsonToken} (ht : token ≠ .closeArray) : r.step? none token = r.enter? none token := by
  obtain ⟨expecting, stack, depth⟩ := r
  obtain rfl | rfl := hr
  · rfl
  · unfold Reading.step?
    split
    case h_1 => exact absurd rfl ht
    all_goals simp_all

theorem advances_leaf {cs tail : List Char} {j : Json} {r : Reading}
    (hr : r.expecting = .value ∨ r.expecting = .firstItem)
    (read : readToken? (cs ++ tail) = some (.leaf j, tail)) (some_char : cs ≠ []) :
    Advances tail { r with expecting := .next j } (cs ++ tail) r := by
  have shorter : tail.length < (cs ++ tail).length := by
    have := List.length_pos_iff.2 some_char
    rw [List.length_append]
    omega
  exact .token read shorter (step?_eq_enter? hr (by simp)) .done

theorem Advances.symbol {tail rest : List Char} {last next r : Reading} {c : Char} {token : JsonToken}
    (read : readToken? (c :: rest) = some (token, rest)) (step : r.step? none token = some next)
    (others : Advances tail last rest next) : Advances tail last (c :: rest) r :=
  .token read (Nat.lt_succ_self _) step others

-- The invariant is on the state of the reader: a document that was written becomes the value that is read
-- next, and what is open around it stays as it is.  Items behind the first are read one at a time onto those
-- before them, which the container holds in reverse.
mutual

theorem advances_document (j : Json) (h : j.NumbersReadBack) {tail : List Char} (ht : Delimited tail)
    {r : Reading} (hr : r.expecting = .value ∨ r.expecting = .firstItem) :
    Advances tail { r with expecting := .next j } (writeOnto j tail) r := by
  match j with
  | null => exact advances_leaf hr rfl (by decide)
  | bool true => exact advances_leaf hr rfl (by decide)
  | bool false => exact advances_leaf hr rfl (by decide)
  | integer i => exact advances_leaf hr (readToken?_integer h ht) (by simp [integerText])
  | float x =>
    refine advances_leaf hr (readToken?_float h ht) fun empty => ?_
    have read := readToken?_float h delimited_nil
    rw [empty] at read
    cases read
  | string s => exact advances_leaf hr (readToken?_quote s tail) (by simp [quote])
  | array [] =>
    exact .symbol rfl (step?_eq_enter? hr (by simp)) (.symbol rfl rfl .done)
  | array (item :: items) =>
    exact .symbol rfl (step?_eq_enter? hr (by simp)) <|
      (advances_document item h.1 (delimited_items items tail) (.inr rfl)).trans <|
      advances_items items h.2 item []
  | object [] =>
    exact .symbol rfl (step?_eq_enter? hr (by simp)) (.symbol rfl rfl .done)
  | object ((key, value) :: members) =>
    exact .symbol rfl (step?_eq_enter? hr (by simp)) <|
      .token (readToken?_quote key _) (by simp [quote]; omega) rfl <| .symbol rfl rfl <|
      (advances_document value h.1 (delimited_members members tail) (.inl rfl)).trans <|
      advances_members members h.2 key value []

theorem advances_items (items : List Json) (h : ItemsReadBack items) (item : Json) (before : List Json)
    {tail : List Char} {outer : List OpenContainer} {depth : Nat} :
    Advances tail ⟨.next (.array ((item :: before).reverse ++ items)), outer, depth⟩
      (writeItems items (']' :: tail)) ⟨.next item, .array before :: outer, depth + 1⟩ := by
  match items with
  | [] =>
    rw [List.append_nil]
    exact .symbol rfl rfl .done
  | next :: items =>
    have all : (item :: before).reverse ++ next :: items = (next :: item :: before).reverse ++ items := by
      simp
    rw [all]
    exact .symbol rfl rfl <|
      (advances_document next h.1 (delimited_items items tail) (.inl rfl)).trans <|
      advances_items items h.2 next (item :: before)

theorem advances_members (members : List (String × Json)) (h : MembersReadBack members) (key : String)
    (value : Json) (before : List (String × Json)) {tail : List Char} {outer : List OpenContainer}
    {depth : Nat} :
    Advances tail ⟨.next (.object (((key, value) :: before).reverse ++ members)), outer, depth⟩
      (writeMembers members ('}' :: tail)) ⟨.next value, .object before key :: outer, depth + 1⟩ := by
  match members with
  | [] =>
    rw [List.append_nil]
    exact .symbol rfl rfl .done
  | (key', value') :: members =>
    have all : ((key, value) :: before).reverse ++ (key', value') :: members =
        ((key', value') :: (key, value) :: before).reverse ++ members := by simp
    rw [all]
    exact .symbol rfl rfl <|
      .token (readToken?_quote key' _) (by simp [quote]; omega) rfl <| .symbol rfl rfl <|
      (advances_document value' h.1 (delimited_members members tail) (.inl rfl)).trans <|
      advances_members members h.2 key' value' ((key, value) :: before)

end

/-- A document that was written reads back, whatever its depth. -/
theorem read?_write (j : Json) (h : j.NumbersReadBack) : read? none j.write = some j := by
  have whole : Advances [] ⟨.next j, [], 0⟩ j.write.toList ⟨.value, [], 0⟩ := by
    rw [write, String.toList_ofList]
    exact advances_document j h delimited_nil (r := ⟨.value, [], 0⟩) (.inl rfl)
  exact read?_of_advances whole

end Json

end TemplateExpr
