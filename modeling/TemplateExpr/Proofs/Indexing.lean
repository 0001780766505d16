import TemplateExpr.Proofs.Concatenation
import TemplateExpr.Proofs.WholeNumbers

/-!
# Indexing

An entry of an array or string stands under the decimal text of its index and under no other key, so an index can be
given as a number.  The entries of a string are its UTF-16 units read one at a time: a character that takes two of
them falls apart into two replacement characters, and every other character is found as it is.
-/

namespace TemplateExpr

/-! ### Keys -/

theorem indexOfKey?_eq_some_iff_repr {key : String} {i : Nat} : indexOfKey? key = some i ↔ key = i.repr := by
  rw [indexOfKey?_eq_some_iff, ← Nat.toList_repr, String.toList_inj]

theorem indexOfKey?_repr (i : Nat) : indexOfKey? i.repr = some i := indexOfKey?_eq_some_iff_repr.2 rfl

theorem Property.ofPart?_eq_stored_iff {part? : Option Value} {part : Value} :
    ofPart? part? = .stored part ↔ part? = some part := by
  cases part? <;> simp [ofPart?]

theorem Property.ofComputed?_eq_missing_iff {made? : Option Value} : ofComputed? made? = .missing ↔ made? = none := by
  cases made? <;> simp [ofComputed?]

theorem repr_ne_length (i : Nat) : i.repr ≠ "length" := by
  intro same
  have letter : 'l' ∈ i.repr.toList := by
    rw [same]
    decide
  rw [Nat.toList_repr] at letter
  exact absurd ((IsDigits.toDigits i).all _ letter) (by decide)

/-- A key finds an entry of a list exactly if it is the text of the index of the entry. -/
theorem bind_indexOfKey?_eq_some_iff {key : String} {entries : List α} {a : α} :
    ((indexOfKey? key).bind fun i => entries[i]?) = some a ↔
      ∃ i : Nat, key = i.repr ∧ entries[i]? = some a := by
  simp only [Option.bind_eq_some_iff, indexOfKey?_eq_some_iff_repr]

theorem bind_indexOfKey?_eq_none_iff {key : String} {entries : List α} :
    ((indexOfKey? key).bind fun i => entries[i]?) = none ↔ ∀ i < entries.length, key ≠ i.repr := by
  simp only [Option.bind_eq_none_iff, indexOfKey?_eq_some_iff_repr, List.getElem?_eq_none_iff]
  exact forall_congr' fun i => ⟨fun h less same => absurd less (Nat.not_lt.2 (h same)),
    fun h same => Nat.not_lt.1 fun less => h less same⟩

theorem Double.text_ne_length (x : Double) : x.text ≠ "length" := by
  intro same
  have read := ofText_text x
  have nothing : ofText "length" = nan := by decide
  rw [same, nothing] at read
  split at read
  · cases read
  · subst read
    exact absurd same (by decide)

theorem evaluate_index {bindings : Bindings} {env o k : Value} {object key : Expr}
    (ho : object.evaluate bindings env = .ok o) (hk : key.evaluate bindings env = .ok k)
    (shallow : key.depth < maxDepth ∨ (Expr.index object key).evaluate bindings env ≠ .error .tooDeep) :
    (Expr.index object key).evaluate bindings env = o.read k.text := by
  have meant := Expr.meaning_of_evaluate hk
  obtain shallow | shallow := shallow
  · obtain ⟨left, hleft, rfl⟩ := Expr.evaluate_ok ho
    rw [maxDepth] at hleft
    have same : (Scope.evalWithin ⟨bindings, env⟩ 511 key).map Held.value = Scope.meaning ⟨bindings, env⟩ key :=
      Scope.evalWithin_eq_meaning (Nat.le_of_lt_succ shallow)
    rw [← same] at meant
    rw [Expr.evaluate, maxDepth, Scope.evalWithin_link fun _ => rfl, hleft, ok_bind, Scope.applyLink]
    cases inner : Scope.evalWithin ⟨bindings, env⟩ 511 key with
    | error cause =>
      rw [inner] at meant
      cases meant
    | ok name =>
      rw [inner] at meant
      rw [ok_bind, ← Except.ok.inj meant]
      exact Scope.readMember_eq left name.value.text
  · obtain same | ⟨-, deep⟩ := evaluate_follows bindings env (.index object key)
    · rw [same, Scope.meaning, Expr.meaning_of_evaluate ho, meant]
      rfl
    · exact absurd deep shallow

/-! ### Arrays -/

namespace Value

/-- What reading gives in place of an entry: the one at the index that `P` holds for, and undefined if there is none. -/
def IsEntry (items : List Value) (P : Nat → Prop) (v : Value) : Prop :=
  (∀ (i : Nat) (h : i < items.length), P i → v = items[i]) ∧ ((∀ i < items.length, ¬ P i) → v = .undefined)

theorem IsEntry.congr {items : List Value} {P Q : Nat → Prop} {v : Value} (h : IsEntry items P v)
    (same : ∀ i < items.length, (P i ↔ Q i)) : IsEntry items Q v :=
  ⟨fun i less holds => h.1 i less ((same i less).2 holds),
    fun none => h.2 fun i less holds => none i less ((same i less).1 holds)⟩

theorem property_array_eq_stored_iff {items : List Value} {key : String} {part : Value} :
    (array items).property key = .stored part ↔ ∃ i : Nat, key = i.repr ∧ items[i]? = some part := by
  by_cases length : key = "length"
  · have nothing : indexOfKey? "length" = none := by decide
    rw [← bind_indexOfKey?_eq_some_iff, length, nothing, property]
    simp
  · rw [property, if_neg length, Property.ofPart?_eq_stored_iff, bind_indexOfKey?_eq_some_iff]

theorem isEntry_property {key : String} (h : key ≠ "length") (items : List Value) :
    IsEntry items (fun i => key = i.repr) ((array items).property key).value := by
  constructor
  · intro i less same
    rw [property_array_eq_stored_iff.2 ⟨i, same, List.getElem?_eq_getElem less⟩]
    rfl
  · intro none
    rw [property, if_neg h, bind_indexOfKey?_eq_none_iff.2 none]
    rfl

/-- Reading an array under a number gives the entry at the index that the number is, a zero of either sign being the
first, and undefined under every other number: a fraction, a negative number, an infinity, NaN or one that is too large.
Under a string it gives the entry at the index whose decimal text the string is, and undefined under every other string
but `length`. -/
theorem array_indexes {items : List Value} (h : items.length ≤ 2 ^ 53) {bindings : Bindings} {env : Value}
    {object key : Expr} (ho : object.evaluate bindings env = .ok (.array items))
    (shallow : key.depth < maxDepth ∨ (Expr.index object key).evaluate bindings env ≠ .error .tooDeep) :
    (∀ x, key.evaluate bindings env = .ok (.number x) →
      ∃ v, (Expr.index object key).evaluate bindings env = .ok v ∧
        IsEntry items (fun i => x.toInt? = some (i : Int)) v) ∧
    (∀ s, key.evaluate bindings env = .ok (.string s) → s ≠ "length" →
      ∃ v, (Expr.index object key).evaluate bindings env = .ok v ∧ IsEntry items (fun i => s = i.repr) v) ∧
    ∀ s part, (array items).property s = .stored part ↔ ∃ i : Nat, s = i.repr ∧ items[i]? = some part := by
  refine ⟨fun x hx => ?_, fun s hs name => ?_, fun s part => property_array_eq_stored_iff⟩
  · have entry := isEntry_property (Double.text_ne_length x) items
    refine ⟨_, evaluate_index ho hx shallow, entry.congr fun i less => ?_⟩
    exact Double.text_eq_repr_iff (Nat.lt_of_lt_of_le less h)
  · exact ⟨_, evaluate_index ho hs shallow, isEntry_property name items⟩

/-- An array of two texts: the entries under -0 and under the text of 1, and nothing under 0.5, `01` and `+1`. -/
theorem array_indexes_two :
    let items : List Value := [string "a", string "b"]
    let read (key : Expr) := (Expr.index (.identifier "e") key).evaluate ⟨"r", "e"⟩ (array items)
    read (.unary .negate (.literal (.number .zero))) = .ok (string "a") ∧
      read (.literal (.number (.ofDecimal false 5 (-1)))) = .ok undefined ∧
      read (.literal (.string "1")) = .ok (string "b") ∧ read (.literal (.string "01")) = .ok undefined ∧
      read (.literal (.string "+1")) = .ok undefined := by
  intro items read
  have entries (key : Expr) (shallow : key.depth < maxDepth) :=
    @array_indexes items (by decide) ⟨"r", "e"⟩ (array items) (.identifier "e") key rfl (.inl shallow)
  refine ⟨?_, ?_, ?_, ?_, ?_⟩
  · obtain ⟨v, outcome, entry, -⟩ := (entries (.unary .negate (.literal (.number .zero))) (by decide)).1 _ rfl
    exact outcome.trans (congrArg _ (entry 0 (by decide) (Double.toInt?_of_isZero rfl)))
  · obtain ⟨v, outcome, -, nothing⟩ :=
      (entries (.literal (.number (.ofDecimal false 5 (-1)))) (by decide)).1 _ rfl
    have fraction : (Double.ofDecimal false 5 (-1)).toInt? = none := by decide +kernel
    refine outcome.trans (congrArg _ (nothing fun i _ => ?_))
    rw [fraction]
    simp
  · obtain ⟨v, outcome, entry, -⟩ := (entries (.literal (.string "1")) (by decide)).2.1 _ rfl (by decide)
    exact outcome.trans (congrArg _ (entry 1 (by decide) (by decide)))
  · obtain ⟨v, outcome, -, nothing⟩ := (entries (.literal (.string "01")) (by decide)).2.1 _ rfl (by decide)
    exact outcome.trans (congrArg _ (nothing (by decide)))
  · obtain ⟨v, outcome, -, nothing⟩ := (entries (.literal (.string "+1")) (by decide)).2.1 _ rfl (by decide)
    exact outcome.trans (congrArg _ (nothing (by decide)))

end Value

/-! ### Units one at a time -/

namespace Utf16

/-- Whether a character takes two units. -/
def isWide (c : Char) : Bool := 0x10000 ≤ c.toNat

/-- A text read unit by unit: the halves of a character that takes two units stand for no character. -/
def narrowed (cs : List Char) : List Char := cs.flatMap fun c => if isWide c then [replacement, replacement] else [c]

theorem charOf_eq_replacement {unit : Nat} (low : 0xd800 ≤ unit) (high : unit < 0xe000) : charOf unit = replacement := by
  rw [charOf, if_neg]
  unfold Nat.isValidChar
  omega

theorem length_unitsOfChar (c : Char) : (unitsOfChar c).length = 1 + (isWide c).toNat := by
  unfold unitsOfChar isWide
  split
  · rename_i narrow
    rw [decide_eq_false (Nat.not_le.2 narrow)]
    rfl
  · rename_i wide
    rw [decide_eq_true (Nat.not_lt.1 wide)]
    rfl

theorem map_charOf_unitsOfChar (c : Char) :
    (unitsOfChar c).map charOf = if isWide c then [replacement, replacement] else [c] := by
  have valid : c.toNat.isValidChar := c.valid
  unfold Nat.isValidChar at valid
  unfold unitsOfChar isWide
  split
  · rename_i narrow
    rw [decide_eq_false (Nat.not_le.2 narrow), List.map_singleton, charOf_toNat]
    rfl
  · rename_i wide
    rw [decide_eq_true (Nat.not_lt.1 wide), List.map_cons, List.map_singleton, charOf_eq_replacement (by omega) (by omega),
      charOf_eq_replacement (by omega) (by omega)]
    rfl

theorem length_eq (cs : List Char) : length cs = cs.length + cs.countP isWide := by
  induction cs with
  | nil => rfl
  | cons c cs ih =>
    rw [length, units_cons, List.length_append, length_unitsOfChar, List.length_cons, List.countP_cons]
    rw [length] at ih
    rw [ih]
    cases isWide c <;> simp <;> omega

theorem map_charOf_units (cs : List Char) : (units cs).map charOf = narrowed cs := by
  rw [units, List.map_flatMap, narrowed]
  simp only [map_charOf_unitsOfChar]

theorem length_narrowed (cs : List Char) : (narrowed cs).length = cs.length + cs.countP isWide := by
  rw [← map_charOf_units, List.length_map, ← length_eq]
  rfl

theorem narrowed_eq_self_iff {cs : List Char} : narrowed cs = cs ↔ ∀ c ∈ cs, c.toNat < 0x10000 := by
  constructor
  · intro same
    have length := length_narrowed cs
    rw [same] at length
    have none : cs.countP isWide = 0 := by omega
    intro c hc
    simpa [isWide] using List.countP_eq_zero.1 none c hc
  · intro narrow
    induction cs with
    | nil => rfl
    | cons c cs ih =>
      obtain ⟨first, rest⟩ := List.forall_mem_cons.1 narrow
      have one : isWide c = false := decide_eq_false (Nat.not_le.2 first)
      have others : cs.flatMap (fun c => if isWide c then [replacement, replacement] else [c]) = cs := ih rest
      rw [narrowed, List.flatMap_cons, one, others]
      rfl

end Utf16

/-! ### Strings -/

namespace Value

theorem property_string {key : String} (h : key ≠ "length") (s : String) :
    (string s).property key = .ofComputed? (((indexOfKey? key).bind fun i => (Utf16.units s.toList)[i]?).map
      fun unit => string (String.singleton (Utf16.charOf unit))) := by
  rw [property, if_neg h]
  cases indexOfKey? key <;> rfl

theorem property_string_eq_missing_iff {key : String} {s : String} :
    (string s).property key = .missing ↔ key ≠ "length" ∧ ∀ i < Utf16.length s.toList, key ≠ i.repr := by
  by_cases length : key = "length"
  · rw [property, if_pos length]
    simp [length]
  · rw [property_string length, Property.ofComputed?_eq_missing_iff, Option.map_eq_none_iff, Utf16.length,
      bind_indexOfKey?_eq_none_iff, and_iff_right length]

theorem property_string_repr {s : String} {i : Nat} (h : i < (Utf16.units s.toList).length) :
    (string s).property i.repr =
      .computed (string (String.singleton (Utf16.charOf (Utf16.units s.toList)[i]))) := by
  rw [property_string (repr_ne_length i), indexOfKey?_repr, Option.bind_some, List.getElem?_eq_getElem h]
  rfl

/-- The characters of a string under its indexes, one after the other. -/
theorem join_property_string (s : String) :
    String.join ((List.range (Utf16.length s.toList)).map fun i => ((string s).property i.repr).value.text) =
      String.ofList (Utf16.narrowed s.toList) := by
  have entries : (List.range (Utf16.length s.toList)).map (fun i => ((string s).property i.repr).value.text) =
      (Utf16.units s.toList).map fun unit => String.singleton (Utf16.charOf unit) := by
    apply List.ext_getElem
    · rw [List.length_map, List.length_map, List.length_range, Utf16.length]
    · intro i less _
      rw [List.length_map, List.length_range] at less
      rw [List.getElem_map, List.getElem_map, List.getElem_range, property_string_repr less]
      rfl
  rw [entries, ← String.toList_inj, String.toList_join, String.toList_ofList, ← Utf16.map_charOf_units,
    List.flatMap_map, List.map_eq_flatMap]
  simp only [String.toList_singleton]

/-- The length of a string is the number of its UTF-16 units, one for each character and a second one for each above
U+FFFF.  Under the text of an index below the length there is one character, and under any other key but `length`
nothing.  All these characters in a row are the string with two replacement characters for each character above
U+FFFF, so they are the string exactly if it has none of these. -/
theorem string_indexes_cover (s : String) :
    ((string s).property "length" = .computed (number (.ofNat (Utf16.length s.toList))) ∧
      Utf16.length s.toList = s.toList.length + s.toList.countP Utf16.isWide ∧
      (Utf16.length s.toList < 2 ^ 53 →
        (Double.ofNat (Utf16.length s.toList)).toInt? = some (Utf16.length s.toList : Int))) ∧
    (∀ i : Nat, (∃ c : Char, (string s).property i.repr = .computed (string (String.singleton c))) ↔
      i < Utf16.length s.toList) ∧
    (∀ key : String, (string s).property key = .missing ↔
      key ≠ "length" ∧ ∀ i < Utf16.length s.toList, key ≠ i.repr) ∧
    String.join ((List.range (Utf16.length s.toList)).map fun i => ((string s).property i.repr).value.text) =
      String.ofList (Utf16.narrowed s.toList) ∧
    (String.ofList (Utf16.narrowed s.toList) = s ↔ ∀ c ∈ s.toList, c.toNat < 0x10000) := by
  refine ⟨⟨?_, Utf16.length_eq _, Double.toInt?_ofNat⟩, fun i => ⟨?_, ?_⟩, fun key => property_string_eq_missing_iff,
    join_property_string s, ?_⟩
  · rw [property, if_pos rfl]
  · rintro ⟨c, found⟩
    by_contra beyond
    rw [property_string (repr_ne_length i), indexOfKey?_repr, Option.bind_some,
      List.getElem?_eq_none (Nat.not_lt.1 beyond)] at found
    cases found
  · exact fun less => ⟨_, property_string_repr less⟩
  · rw [← Utf16.narrowed_eq_self_iff, ← String.toList_inj, String.toList_ofList]

/-- A character above U+FFFF between two letters: four units, and two replacement characters at 1 and 2. -/
theorem string_indexes_cover_wide :
    (string "a😀b").property "length" = .computed (number (.ofNat 4)) ∧
      (string "a😀b").property "01" = .missing ∧
      String.join ((List.range 4).map fun i => ((string "a😀b").property i.repr).value.text) = "a\ufffd\ufffdb" := by
  obtain ⟨⟨length, -⟩, -, missing, joined, -⟩ := string_indexes_cover "a😀b"
  have units : Utf16.length "a😀b".toList = 4 := by decide
  rw [units] at length missing joined
  exact ⟨length, (missing "01").2 (by decide), joined⟩

end Value

end TemplateExpr
