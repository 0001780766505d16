import TemplateExpr.Config.Yaml
import TemplateExpr.Proofs.BindingNames
import TemplateExpr.Proofs.EntityDecoding
import TemplateExpr.Proofs.YamlLines
import TemplateExpr.Yaml.Json

/-!
# Configurations written and read back

The text of a configuration is four lines of keys with words behind them, plain or between quotes.  The scanner
takes it line by line, so its tokens and its document are known for all names and numbers, and the reader of
configurations has the same names and the same number from it.  The quotes are for other readers, which take a
plain scalar for what it stands for: with them a name is always a text.
-/

namespace TemplateExpr

namespace Yaml

/-! ### The characters of a document -/

/-- A character that stands in the text of a configuration. -/
def isWrittenChar (c : Char) : Bool := isWordChar c || c == ':' || c == ' ' || c == '\n' || c == '\''

theorem isWrittenChar_toNat {c : Char} (h : isWrittenChar c) :
    c.toNat = 0x0a ∨ 0x20 ≤ c.toNat ∧ c.toNat ≤ 0x7e := by
  simp only [isWrittenChar, isWordChar, Char.isAlphanum, Char.isDigit, Bool.or_eq_true, Bool.and_eq_true,
    decide_eq_true_eq, beq_iff_eq, ← Char.toNat_inj, Html.isAlpha_toNat, UInt32.le_iff_toNat_le, ge_iff_le,
    Char.toNat_val, Char.reduceToNat, Char.reduceVal, UInt32.reduceToNat] at h
  omega

theorem unifyBreaks_eq {cs : List Char} (h : ∀ c ∈ cs, c ≠ '\r' ∧ c ≠ '\x85') : unifyBreaks cs = cs := by
  induction cs with
  | nil => rfl
  | cons c cs ih =>
    obtain ⟨notReturn, notNext⟩ := h c List.mem_cons_self
    have rest := ih fun c hc => h c (List.mem_cons_of_mem _ hc)
    unfold unifyBreaks
    split <;> simp_all

theorem spots?_written {s : String} (h : ∀ c ∈ s.toList, isWrittenChar c) :
    spots? s = some (locate 0 0 s.toList) := by
  have code (c : Char) (hc : c ∈ s.toList) := isWrittenChar_toNat (h c hc)
  have document : s.toList.all isDocumentChar = true := by
    refine List.all_eq_true.2 fun c hc => ?_
    have range := code c hc
    simp only [isDocumentChar, Bool.or_eq_true, Bool.and_eq_true, beq_iff_eq, decide_eq_true_eq]
    omega
  have unified : unifyBreaks s.toList = s.toList := by
    refine unifyBreaks_eq fun c hc => ⟨?_, ?_⟩
    · rintro rfl
      exact absurd (code _ hc) (by decide)
    · rintro rfl
      exact absurd (code _ hc) (by decide)
  rw [spots?, if_pos document, unified]
  cases text : s.toList with
  | nil => rfl
  | cons c rest =>
    have notMark : c ≠ '\ufeff' := by
      rintro rfl
      exact absurd (code _ (text ▸ List.mem_cons_self)) (by decide)
    simp only [locate, notMark, if_false]

section

variable {key w below : List Char} {quoted : Bool} {n : Nat}

theorem isWrittenChar_of_isWordChar {c : Char} (h : isWordChar c) : isWrittenChar c := by
  simp [isWrittenChar, h]

theorem isWrittenChar_lineEnd (h : ∀ c ∈ below, isWrittenChar c) : ∀ c ∈ lineEnd n below, isWrittenChar c := by
  refine List.forall_mem_cons.2 ⟨rfl, List.forall_mem_append.2 ⟨fun c hc => ?_, h⟩⟩
  rw [List.eq_of_mem_replicate hc]
  rfl

theorem isWrittenChar_written (hw : ∀ c ∈ w, isWordChar c) :
    ∀ c ∈ Scanner.written quoted w, isWrittenChar c := by
  have word (c : Char) (hc : c ∈ w) : isWrittenChar c := isWrittenChar_of_isWordChar (hw c hc)
  cases quoted with
  | false => exact word
  | true =>
    exact List.forall_mem_cons.2 ⟨rfl, List.forall_mem_append.2 ⟨word, List.forall_mem_singleton.2 rfl⟩⟩

theorem isWrittenChar_opening (hkey : Scanner.IsKey key) (hbelow : ∀ c ∈ below, isWrittenChar c) :
    ∀ c ∈ Scanner.opening key n below, isWrittenChar c :=
  List.forall_mem_append.2 ⟨fun c hc => isWrittenChar_of_isWordChar (hkey.word c hc),
    List.forall_mem_cons.2 ⟨rfl, isWrittenChar_lineEnd hbelow⟩⟩

theorem isWrittenChar_entry (hkey : Scanner.IsKey key) (hw : ∀ c ∈ w, isWordChar c)
    (hbelow : ∀ c ∈ below, isWrittenChar c) : ∀ c ∈ Scanner.entry key quoted w n below, isWrittenChar c :=
  List.forall_mem_append.2 ⟨fun c hc => isWrittenChar_of_isWordChar (hkey.word c hc),
    List.forall_mem_cons.2 ⟨rfl, List.forall_mem_cons.2 ⟨rfl,
      List.forall_mem_append.2 ⟨isWrittenChar_written hw, isWrittenChar_lineEnd hbelow⟩⟩⟩⟩

end

/-! ### Whole numbers -/

theorem digitsIn?_toDigits (n : Nat) : digitsIn? 10 (Nat.toDigits 10 n) = some n := by
  have some_digit : (Nat.toDigits 10 n).isEmpty = false := List.isEmpty_eq_false_iff.2 Nat.toDigits_ne_nil
  rw [digitsIn?, some_digit]
  exact foldlM_toDigits (by decide) (by decide) n

theorem unsigned?_toDigits {n : Nat} (h : n ≠ 0) : unsigned? (Nat.toDigits 10 n) = some n := by
  have head := head_toDigits h
  have value := digitsIn?_toDigits n
  revert head value
  generalize Nat.toDigits 10 n = digits
  intro head value
  unfold unsigned?
  split
  · exact absurd rfl head
  · exact absurd rfl head
  · exact absurd rfl head
  · exact absurd rfl head
  · exact value

theorem toList_toString (n : Nat) : (toString n).toList = Nat.toDigits 10 n := by simp

theorem count?_toString {n : Nat} (h : n ≠ 0) : count? (toString n) = some n := by
  have value := unsigned?_toDigits h
  have digits := (IsDigits.toDigits n).all
  rw [count?, toList_toString]
  revert value digits
  generalize Nat.toDigits 10 n = digits
  intro value digit
  split
  · exact absurd (digit _ List.mem_cons_self) (by decide)
  · exact absurd (digit _ List.mem_cons_self) (by decide)
  · exact value

theorem integer?_toString {n : Nat} (h : n ≠ 0) : integer? (toString n) = some (n : Int) := by
  obtain ⟨c, rest, digits⟩ := List.exists_cons_of_ne_nil (Nat.toDigits_ne_nil (b := 10) (n := n))
  have digit : c.isDigit := (IsDigits.toDigits n).all c (digits ▸ List.mem_cons_self)
  rw [integer?, toList_toString, digits, Numeral.splitSign_digit digit, ← digits]
  simp [unsigned?_toDigits h]

theorem plainJson?_integer {text : String} {n : Int} (value : integer? text = some n)
    (wide : -(Nat.pow 2 127 : Nat) ≤ n ∧ n < (Nat.pow 2 128 : Nat)) : plainJson? text = wholeJson? n := by
  -- None of the words that stand for something else is a numeral.
  have words : ∀ word ∈ ["", "~", "null", "Null", "NULL", "true", "True", "TRUE", "false", "False", "FALSE"],
      integer? word = none := by decide
  have other : text ∉ ["", "~", "null", "Null", "NULL", "true", "True", "TRUE", "false", "False", "FALSE"] :=
    fun listed => Option.some_ne_none n (value.symm.trans (words text listed))
  simp only [List.mem_cons, List.not_mem_nil, or_false, not_or] at other
  have notNull : isNullWord text = false := by simp [isNullWord, other]
  have notTruth : truth? text = none := by simp [truth?, other]
  rw [plainJson?, notNull, notTruth, value]
  exact if_pos wide

/-- A whole number of 64 bits is read back as that number, wherever a plain scalar may be anything. -/
theorem plainJson?_toString {n : Nat} (h : n ≠ 0) (hn : n < Nat.pow 2 64) :
    plainJson? (toString n) = some (.integer n) := by
  have grows : Nat.pow 2 64 < Nat.pow 2 128 := by decide
  rw [plainJson?_integer (integer?_toString h) (by omega)]
  exact if_pos (by omega)

/-- A text that is not written between quotes is a string to every reader. -/
theorem plainJson?_of_not_special {text : String} (h : isSpecial text = false) :
    plainJson? text = some (.string text) := by
  simp only [isSpecial, Bool.or_eq_false_iff, Option.isSome_eq_false_iff, Option.isNone_iff_eq_none] at h
  obtain ⟨⟨⟨⟨null, truth⟩, whole⟩, double⟩, zero⟩ := h
  simp [plainJson?, null, truth, whole, double]

/-! ### Names and numbers as words -/

theorem isWordChar_of_isDigit {c : Char} (h : c.isDigit) : isWordChar c := by
  simp [isWordChar, Char.isAlphanum, h]

theorem isWordChar_toDigits (n : Nat) : ∀ c ∈ Nat.toDigits 10 n, isWordChar c := fun c hc =>
  isWordChar_of_isDigit ((IsDigits.toDigits n).all c hc)

theorem isWordChar_of_isBindingStart {c : Char} (h : isBindingStart c) : isWordChar c := by
  simp only [isBindingStart, Bool.or_eq_true] at h
  simp only [isWordChar, Char.isAlphanum, Bool.or_eq_true]
  tauto

theorem isWordChar_of_isBindingName {name : String} (h : isBindingName name) :
    name.toList ≠ [] ∧ ∀ c ∈ name.toList, isWordChar c := by
  obtain ⟨c, rest, text, start, parts⟩ := exists_of_isBindingName h
  rw [text]
  refine ⟨List.cons_ne_nil c rest, List.forall_mem_cons.2 ⟨isWordChar_of_isBindingStart start, fun d hd => ?_⟩⟩
  obtain start | digit := parts d hd
  · exact isWordChar_of_isBindingStart start
  · exact isWordChar_of_isDigit digit

end Yaml

namespace Config

open Yaml

theorem isKey_bindings : Scanner.IsKey "bindings".toList := by decide

theorem isKey_filters : Scanner.IsKey "filters".toList := by decide

theorem isKey_env : Scanner.IsKey "env".toList := by decide

theorem isKey_nesting : Scanner.IsKey "max_nesting".toList := by decide

theorem nameText_toList (name : String) :
    (nameText name).toList = Scanner.written (isSpecial name) name.toList := by
  rw [nameText, Scanner.written]
  split <;> simp

theorem write_toList (config : Config) :
    config.write.toList =
      Scanner.opening "bindings".toList 2
        (Scanner.entry "filters".toList (isSpecial config.bindings.filters) config.bindings.filters.toList 2
          (Scanner.entry "env".toList (isSpecial config.bindings.env) config.bindings.env.toList 0
            (Scanner.entry "max_nesting".toList false (Nat.toDigits 10 config.maxNesting) 0 []))) := by
  unfold write
  simp only [String.toList_append, nameText_toList, toList_toString, List.append_assoc]
  rfl

/-- The tokens of the text of a configuration. -/
def tokens (config : Config) : List Yaml.Token :=
  [.blockMappingStart, .key, .scalar .plain "bindings", .value,
    .blockMappingStart, .key, .scalar .plain "filters", .value,
      .scalar (Scanner.styleOf (isSpecial config.bindings.filters)) config.bindings.filters,
    .key, .scalar .plain "env", .value,
      .scalar (Scanner.styleOf (isSpecial config.bindings.env)) config.bindings.env, .blockEnd,
    .key, .scalar .plain "max_nesting", .value, .scalar .plain (toString config.maxNesting), .blockEnd]

/-- The document of the text of a configuration. -/
def document (config : Config) : Yaml :=
  .mapping .bare [
    (.scalar .bare .plain "bindings", .mapping .bare [
      (.scalar .bare .plain "filters",
        .scalar .bare (Scanner.styleOf (isSpecial config.bindings.filters)) config.bindings.filters),
      (.scalar .bare .plain "env",
        .scalar .bare (Scanner.styleOf (isSpecial config.bindings.env)) config.bindings.env)]),
    (.scalar .bare .plain "max_nesting", .scalar .bare .plain (toString config.maxNesting))]

theorem tokens?_write {config : Config} (filters : isBindingName config.bindings.filters)
    (env : isBindingName config.bindings.env) :
    tokens? (locate 0 0 config.write.toList) = some config.tokens := by
  obtain ⟨filters_ne, filters_word⟩ := isWordChar_of_isBindingName filters
  obtain ⟨env_ne, env_word⟩ := isWordChar_of_isBindingName env
  -- The three places of a key: the first of all, the first of the names, and the one behind them, which ends
  -- their mapping.
  have outermost : Scanner.Enters 0 [] [] [.blockMappingStart] [0] := .first (by simp)
  have within (done : List Yaml.Token) : Scanner.Enters 2 done [0] (.blockMappingStart :: done) [2, 0] :=
    .first (by simp)
  have behind (done : List Yaml.Token) : Scanner.Enters 0 done [2, 0] (.blockEnd :: done) [0] :=
    .closing (by decide) .next
  have run : Scanner.Reaches (2 + (3 + (3 + 3))) (.between [] [] true)
      (locate 0 0 config.write.toList)
      (.between (Scanner.entryTokens "max_nesting".toList false (Nat.toDigits 10 config.maxNesting)
        (.blockEnd :: Scanner.entryTokens "env".toList (isSpecial config.bindings.env) config.bindings.env.toList
          (Scanner.entryTokens "filters".toList (isSpecial config.bindings.filters)
            config.bindings.filters.toList
            [.blockMappingStart, .value, .scalar .plain "bindings", .key, .blockMappingStart]))) [0] true) [] := by
    rw [write_toList]
    refine (Scanner.opening_reaches isKey_bindings outermost (Scanner.beginsWord_entry isKey_filters) 0).trans ?_
    refine (Scanner.entry_reaches isKey_filters _ filters_word filters_ne (within _) (Nat.le_refl 2)
      (Scanner.beginsWord_entry isKey_env) 1).trans ?_
    refine (Scanner.entry_reaches isKey_env _ env_word env_ne .next (Nat.zero_le 2)
      (Scanner.beginsWord_entry isKey_nesting) 2).trans ?_
    exact Scanner.entry_reaches isKey_nesting false (isWordChar_toDigits _) Nat.toDigits_ne_nil (behind _)
      (Nat.le_refl 0) beginsWord_nil 3
  -- The fuel is counted by characters, of which there are more than tokens.
  have enough : 11 ≤ (locate 0 0 config.write.toList).length := by
    rw [← List.length_map Spot.char]
    show 11 ≤ (textOf _).length
    rw [textOf_locate, write_toList]
    simp [Scanner.opening, Scanner.entry, lineEnd]
  have numeral : String.ofList (Nat.toDigits 10 config.maxNesting) = toString config.maxNesting := rfl
  rw [Scanner.tokens?_of_reaches run enough]
  simp only [Scanner.entryTokens, String.ofList_toList, numeral]
  rfl

theorem root?_tokens (config : Config) : root? config.tokens = some config.document := rfl

theorem isWrittenChar_write {config : Config} (filters : isBindingName config.bindings.filters)
    (env : isBindingName config.bindings.env) : ∀ c ∈ config.write.toList, isWrittenChar c := by
  rw [write_toList]
  refine isWrittenChar_opening isKey_bindings ?_
  refine isWrittenChar_entry isKey_filters (isWordChar_of_isBindingName filters).2 ?_
  refine isWrittenChar_entry isKey_env (isWordChar_of_isBindingName env).2 ?_
  exact isWrittenChar_entry isKey_nesting (isWordChar_toDigits _) (by simp)

theorem read?_write {config : Config} (filters : isBindingName config.bindings.filters)
    (env : isBindingName config.bindings.env) : Yaml.read? config.write = some config.document := by
  unfold Yaml.read?
  rw [spots?_written (isWrittenChar_write filters env), Option.bind_eq_bind, Option.bind_some,
    Option.bind_eq_bind, tokens?_write filters env, Option.bind_some, root?_tokens]

theorem word?_toString {n : Nat} (h : n ≠ 0) (hn : n < Nat.pow 2 64) (targets : List (Nat × Yaml)) :
    word? targets (.scalar .bare .plain (toString n)) = some n := by
  show (count? (toString n)).filter (· < Nat.pow 2 64) = some n
  rw [count?_toString h]
  exact if_pos (decide_eq_true hn)

theorem ofYaml?_document {config : Config} (h : config.maxNesting ≠ 0)
    (word : config.maxNesting < Nat.pow 2 64) : ofYaml? config.document = some config := by
  show (word? [] (.scalar .bare .plain (toString config.maxNesting))).bind
    (fun n => some ⟨config.bindings, n⟩) = some config
  rw [word?_toString h word]
  rfl

theorem ofYaml?_write {config : Config} (filters : isBindingName config.bindings.filters)
    (env : isBindingName config.bindings.env) (h : config.maxNesting ≠ 0) (word : config.maxNesting < Nat.pow 2 64) :
    (Yaml.read? config.write).bind ofYaml? = some config := by
  rw [read?_write filters env, Option.bind_some, ofYaml?_document h word]

theorem write_filled (config : Config) : config.write.toList.all isBlank = false := by
  rw [write_toList]
  rfl

theorem scalarJson?_name (name : String) :
    scalarJson? Properties.bare.tag (Scanner.styleOf (isSpecial name)) name = some (.string name) := by
  cases special : isSpecial name with
  | false => exact plainJson?_of_not_special special
  | true => rfl

/-- What a configuration is to a reader that knows nothing of configurations. -/
def json (config : Config) : Json :=
  .object [
    ("bindings", .object [("filters", .string config.bindings.filters), ("env", .string config.bindings.env)]),
    ("max_nesting", .integer config.maxNesting)]

theorem toJson?_document {config : Config} (h : config.maxNesting ≠ 0)
    (word : config.maxNesting < Nat.pow 2 64) : config.document.toJson? = some config.json := by
  have bare : Properties.bare.tag.any isLocalTag = false := rfl
  have filters := scalarJson?_name config.bindings.filters
  have env := scalarJson?_name config.bindings.env
  have nesting : scalarJson? Properties.bare.tag .plain (toString config.maxNesting) =
      some (.integer config.maxNesting) := plainJson?_toString h word
  have read (targets : List (Nat × Yaml)) (depth : Nat) :
      toJsonWithin targets (depth + 2) config.document = pure config.json := by
    simp only [document, toJsonWithin_mapping _ _ bare, toJsonWithin_scalar, keyText_scalar, List.mapM_cons,
      List.mapM_nil, filters, env, nesting]
    rfl
  rw [toJson?, depthLimit, read]
  rfl

/-- A valid configuration with a nesting of 64 bits is read back from its text as it is.  In a reader that takes
plain scalars for what they stand for, its names are texts all the same. -/
theorem read_write (config : Config) (valid : config.validate = .ok ()) (word : config.maxNesting < Nat.pow 2 64)
    (complaint : String → String) :
    read complaint config.write = .ok config ∧ (Yaml.read? config.write).bind toJson? = some config.json := by
  obtain ⟨⟨⟨filters, -⟩, ⟨env, -⟩, -⟩, positive⟩ := validate_eq_ok_iff.1 valid
  have nonzero : config.maxNesting ≠ 0 := Nat.pos_iff_ne_zero.1 positive
  constructor
  · rw [read, write_filled, ofYaml?_write filters env nonzero word]
    simp [checked, valid, Except.map]
  · rw [read?_write filters env, Option.bind_some, toJson?_document nonzero word]

theorem read_write_words :
    let config : Config := ⟨⟨"Null", "FALSE"⟩, Nat.pow 2 64 - 1⟩
    config.validate = .ok () ∧ config.maxNesting < Nat.pow 2 64 ∧ isSpecial "Null" ∧ isSpecial "FALSE" ∧
      read id config.write = .ok config ∧
      (Yaml.read? config.write).bind toJson? = some (.object [
        ("bindings", .object [("filters", .string "Null"), ("env", .string "FALSE")]),
        ("max_nesting", .integer 18446744073709551615)]) := by
  intro config
  have valid : config.validate = .ok () :=
    validate_eq_ok_iff.2 ⟨⟨by decide, by decide, by decide⟩, by decide⟩
  have word : config.maxNesting < Nat.pow 2 64 := by decide
  exact ⟨valid, word, by decide, by decide, read_write config valid word id⟩

end Config

end TemplateExpr
