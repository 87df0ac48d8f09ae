/-
BenchLoop/JsonObject/RoundTrip.lean

Every text that spells a flat JSON object is read as this object, and what is written for an object
spells it.  So no text spells two objects, and what is written is read back as it was.

The reader takes a text in two turns, and so do the proofs.

* `SpellsChars.unquote?_eq`: the inside of a string is read as its characters, because every
  spelling of a character is read as its code or as the two halves of it, and codes of characters
  are no halves;
* `SpellsString.tokens?_append`, `SpellsScalar.tokens?_append`, `SpellsField.tokens?_append`: a
  piece of the text gives its tokens, and leaves the reader between tokens behind it;
* `Spells.read?_eq`: a whole object, hence `Spells.unique`;
* `spells_render`, `read?_render`: what is written.
-/
import BenchLoop.JsonObject.Grammar

namespace BenchLoop

namespace JsonObject

/-! ### The characters of a string -/

theorem char?_toNat (c : Char) : char? c.toNat = some c := by
  have h : c.toNat.isValidChar := c.valid
  simp [char?, h]

theorem isHighHalf_toNat (c : Char) : isHighHalf c.toNat = false := by
  have h : c.toNat.isValidChar := c.valid
  simp only [Nat.isValidChar] at h
  simp only [isHighHalf, Bool.and_eq_false_iff, decide_eq_false_iff_not]
  omega

/-- The code of a character stands for it, whatever comes next. -/
theorem chars?_toNat_cons (c : Char) (rest : List Nat) :
    chars? (c.toNat :: rest) = (chars? rest).map (c :: ·) := by
  cases rest with
  | nil => simp [chars?, char?_toNat]
  | cons unit rest => simp [chars?, isHighHalf_toNat, char?_toNat]

theorem chars?_pair_cons {high low : Nat} {c : Char} (hhigh : isHighHalf high = true)
    (hlow : isLowHalf low = true) (hcode : pairCode high low = c.toNat) (rest : List Nat) :
    chars? (high :: low :: rest) = (chars? rest).map (c :: ·) := by
  simp [chars?, hhigh, hlow, hcode, char?_toNat]

theorem units?_cons {c : Char} (rest : List Char) (h1 : c ≠ '\\') (h2 : ¬ c.toNat < 32) :
    units? (c :: rest) = (units? rest).map (c.toNat :: ·) := by
  rw [units?]
  · simp only [h1, h2, decide_false, Bool.or_self, Bool.false_eq_true, if_false]
  all_goals simp_all

theorem units?_letter {l c : Char} (h : letterEscape? l = some c) (rest : List Char) :
    units? ('\\' :: l :: rest) = (units? rest).map (c.toNat :: ·) := by
  have hu : l ≠ 'u' := by
    rintro rfl
    cases h
  rw [units?]
  · rw [h]
    rfl
  · simp_all

theorem SpellsUnit.units?_append {digits : List Char} {unit : Nat} (h : SpellsUnit digits unit)
    (rest : List Char) :
    units? ('\\' :: 'u' :: (digits ++ rest)) = (units? rest).map (unit :: ·) := by
  obtain ⟨ha, hb, hc, hd⟩ := h
  simp [units?, ha, hb, hc, hd]

/-- A spelling of a character is read as code units that stand for it, whatever comes next. -/
theorem SpellsChar.exists_units {piece : List Char} {c : Char} (h : SpellsChar piece c) :
    ∃ units, (∀ rest, units? (piece ++ rest) = (units? rest).map (units ++ ·)) ∧
      ∀ rest, chars? (units ++ rest) = (chars? rest).map (c :: ·) := by
  cases h with
  | plain hquote hslash hcontrol =>
    exact ⟨[c.toNat], fun rest => units?_cons rest hslash (Nat.not_lt.2 hcontrol),
      chars?_toNat_cons c⟩
  | letter h => exact ⟨[c.toNat], units?_letter h, chars?_toNat_cons c⟩
  | unit h => exact ⟨[c.toNat], h.units?_append, chars?_toNat_cons c⟩
  | @pair digits digits' high low _ hd hd' hhigh hlow hcode =>
    refine ⟨[high, low], fun rest => ?_, chars?_pair_cons hhigh hlow hcode⟩
    show units? ('\\' :: 'u' :: (digits ++ '\\' :: 'u' :: digits' ++ rest)) = _
    rw [List.append_assoc, hd.units?_append, List.cons_append, List.cons_append,
      hd'.units?_append, Option.map_map]
    rfl

/-- The inside of a string is read as its characters. -/
theorem SpellsChars.unquote?_eq {inside : List Char} {s : String}
    (h : SpellsChars inside s.toList) : unquote? inside = some s := by
  -- all units come first, since it takes the next one to see that a unit is a half
  have hunits {inside cs : List Char} (h : SpellsChars inside cs) :
      ∃ units, units? inside = some units ∧ chars? units = some cs := by
    induction h with
    | nil => exact ⟨[], rfl, rfl⟩
    | cons hc _ ih =>
      obtain ⟨rest, hrest, hchars⟩ := ih
      obtain ⟨units, hunits, hc⟩ := hc.exists_units
      exact ⟨units ++ rest, by rw [hunits, hrest]; rfl, by rw [hc, hchars]; rfl⟩
  obtain ⟨units, hinside, hchars⟩ := hunits h
  simp [unquote?, hinside, hchars]

/-! ### The end of a string -/

theorem SpellsUnit.tokens?_append {digits : List Char} {unit : Nat} (h : SpellsUnit digits unit)
    (sofar rest : List Char) : tokens? (.inString false sofar) (digits ++ rest)
      = tokens? (.inString false (digits.reverse ++ sofar)) rest := by
  -- a digit neither ends the string nor escapes what comes next
  have hdigit {c : Char} {i : Nat} (h : hexDigit? c = some i) : c ≠ '"' ∧ c ≠ '\\' := by
    constructor <;> rintro rfl <;> cases h
  obtain ⟨ha, hb, hc, hd⟩ := h
  simp [tokens?, hdigit ha, hdigit hb, hdigit hc, hdigit hd]

/-- The reader does not leave a string in the midst of a character. -/
theorem SpellsChar.tokens?_append {piece : List Char} {c : Char} (h : SpellsChar piece c)
    (sofar rest : List Char) : tokens? (.inString false sofar) (piece ++ rest)
      = tokens? (.inString false (piece.reverse ++ sofar)) rest := by
  cases h with
  | plain hquote hslash hcontrol => simp [tokens?, hquote, hslash]
  | letter h => simp [tokens?]
  | unit h => simp [tokens?, h.tokens?_append]
  | pair hd hd' hhigh hlow hcode =>
    simp [tokens?, hd.tokens?_append, hd'.tokens?_append]

theorem SpellsChars.tokens?_append {inside cs : List Char} (h : SpellsChars inside cs)
    (sofar rest : List Char) : tokens? (.inString false sofar) (inside ++ rest)
      = tokens? (.inString false (inside.reverse ++ sofar)) rest := by
  induction h generalizing sofar with
  | nil => rfl
  | cons hc _ ih => rw [List.append_assoc, hc.tokens?_append, ih, List.reverse_append,
      List.append_assoc]

/-- A string is one token. -/
theorem SpellsString.tokens?_append {text : List Char} {s : String} (h : SpellsString text s)
    (rest : List Char) : tokens? .betweenTokens (text ++ rest)
      = (tokens? .betweenTokens rest).map (.scalar (.text s) :: ·) := by
  obtain ⟨h⟩ := h
  have hquote : enter? '"' = some ([], .inString false []) := by decide
  simp [tokens?, hquote, h.tokens?_append, h.unquote?_eq, Function.comp_def]

/-! ### Numbers -/

/-- Digits are read one by one, none of them a leading zero. -/
theorem tokens?_toDigits_append (n : Nat) (rest : List Char) :
    tokens? .betweenTokens (Nat.toDigits 10 n ++ rest) = tokens? (.inNumber n) rest := by
  induction n using Nat.strongRecOn generalizing rest with
  | _ n ih =>
    rw [Nat.toDigits_eq_if (by decide)]
    split
    · rename_i h
      have key : ∀ n < 10, enter? (Nat.digitChar n) = some ([], .inNumber n) := by decide
      simp [tokens?, key n h]
    · rename_i h
      have key : ∀ d < 10,
          (Nat.digitChar d).isDigit = true ∧ (Nat.digitChar d).toNat - 48 = d := by decide
      have hd := key (n % 10) (Nat.mod_lt _ (by decide))
      have hpos : n / 10 ≠ 0 := by omega
      have hn : n / 10 * 10 + n % 10 = n := by omega
      rw [List.append_assoc, ih (n / 10) (by omega)]
      simp [tokens?, hd, hpos, hn]

/-- Whether a text does not go on with a digit. -/
def Stops (rest : List Char) : Prop := ∀ c ∈ rest.head?, c.isDigit = false

theorem tokens?_inNumber {rest : List Char} (h : Stops rest) (n : Nat) :
    tokens? (.inNumber n) rest
      = (tokens? .betweenTokens rest).map (.scalar (.number n) :: ·) := by
  cases rest with
  | nil => rfl
  | cons c rest =>
    have hc : c.isDigit = false := h c rfl
    simp [tokens?, hc, Function.comp_def]

/-- So is any value, if the numeral ends behind it. -/
theorem SpellsScalar.tokens?_append {text rest : List Char} {value : JsonScalar}
    (h : SpellsScalar text value) (hrest : Stops rest) : tokens? .betweenTokens (text ++ rest)
      = (tokens? .betweenTokens rest).map (.scalar value :: ·) := by
  cases h with
  | text h => exact h.tokens?_append rest
  | number n => rw [tokens?_toDigits_append, tokens?_inNumber hrest]

/-! ### Fields and objects -/

/-- A character that is a token. -/
theorem tokens?_cons {c : Char} {t : Token} (h : enter? c = some ([t], .betweenTokens))
    (rest : List Char) : tokens? .betweenTokens (c :: rest)
      = (tokens? .betweenTokens rest).map (t :: ·) := by
  rw [tokens?, h]
  rfl

/-- Blanks are no tokens. -/
theorem Blank.tokens?_append {blanks : List Char} (h : Blank blanks) (rest : List Char) :
    tokens? .betweenTokens (blanks ++ rest) = tokens? .betweenTokens rest := by
  induction blanks with
  | nil => rfl
  | cons c blanks ih =>
    obtain ⟨hc, hblanks⟩ := List.forall_mem_cons.1 h
    have henter : enter? c = some ([], .betweenTokens) := by
      unfold enter?
      exact if_pos hc
    simp [tokens?, henter, ih hblanks]

theorem Blank.stops_append {blanks rest : List Char} (h : Blank blanks) (hrest : Stops rest) :
    Stops (blanks ++ rest) := by
  cases blanks with
  | nil => exact hrest
  | cons c blanks =>
    rintro _ ⟨⟩
    have hblank := h c List.mem_cons_self
    simp only [isBlank, Bool.or_eq_true, beq_iff_eq] at hblank
    rcases hblank with ((rfl | rfl) | rfl) | rfl <;> rfl

/-- The tokens of a field. -/
def fieldTokens (field : String × JsonScalar) : List Token :=
  [.scalar (.text field.1), .colon, .scalar field.2]

/-- The tokens of some fields, up to the closing brace. -/
def objectTokens : List (String × JsonScalar) → List Token
  | [] => [.closeBrace]
  | [field] => fieldTokens field ++ [.closeBrace]
  | field :: rest => fieldTokens field ++ .comma :: objectTokens rest

theorem SpellsField.tokens?_append {text rest : List Char} {field : String × JsonScalar}
    (h : SpellsField text field) (hrest : Stops rest) : tokens? .betweenTokens (text ++ rest)
      = (tokens? .betweenTokens rest).map (fieldTokens field ++ ·) := by
  obtain ⟨h₁, hname, h₂, h₃, hvalue, h₄⟩ := h
  have hcolon : enter? ':' = some ([.colon], .betweenTokens) := by decide
  simp only [List.append_assoc, List.cons_append]
  rw [h₁.tokens?_append, hname.tokens?_append, h₂.tokens?_append, tokens?_cons hcolon,
    h₃.tokens?_append, hvalue.tokens?_append (h₄.stops_append hrest), h₄.tokens?_append,
    Option.map_map, Option.map_map]
  rfl

theorem SpellsFields.tokens?_append {text : List Char} {fields : List (String × JsonScalar)}
    (h : SpellsFields text fields) (rest : List Char) :
    tokens? .betweenTokens (text ++ '\x7d' :: rest)
      = (tokens? .betweenTokens rest).map (objectTokens fields ++ ·) := by
  have hcomma : enter? ',' = some ([.comma], .betweenTokens) := by decide
  have hbrace : enter? '\x7d' = some ([.closeBrace], .betweenTokens) := by decide
  induction h with
  | last h =>
    have hstops : Stops ('\x7d' :: rest) := by rintro _ ⟨⟩; rfl
    rw [h.tokens?_append hstops, tokens?_cons hbrace, Option.map_map]
    rfl
  | @cons text more field fields h hfields ih =>
    have hstops : Stops (',' :: (more ++ '\x7d' :: rest)) := by rintro _ ⟨⟩; rfl
    rw [List.append_assoc, List.cons_append, h.tokens?_append hstops, tokens?_cons hcomma, ih,
      Option.map_map, Option.map_map]
    cases hfields <;> simp [objectTokens, Function.comp_def]

theorem fields?_objectTokens (fields : List (String × JsonScalar)) (h : fields ≠ []) :
    fields? (objectTokens fields) = some fields := by
  induction fields with
  | nil => exact absurd rfl h
  | cons field rest ih =>
    cases rest with
    | nil => rfl
    | cons next rest =>
      simp [objectTokens, fieldTokens, fields?, ih]

/-- **What spells an object is read as this object.** -/
theorem Spells.read?_eq {s : String} {o : JsonObject} (h : Spells s.toList o) :
    read? s = some o := by
  have hopen : enter? '\x7b' = some ([.openBrace], .betweenTokens) := by decide
  have hclose : enter? '\x7d' = some ([.closeBrace], .betweenTokens) := by decide
  have hend {blanks : List Char} (h : Blank blanks) : tokens? .betweenTokens blanks = some [] := by
    have := h.tokens?_append []
    rwa [List.append_nil] at this
  unfold read?
  generalize s.toList = text at h
  -- an object without fields is read apart, since its brace closes where a key would stand
  cases h with
  | empty h₁ h₂ h₃ =>
    rw [h₁.tokens?_append, tokens?_cons hopen, h₂.tokens?_append, tokens?_cons hclose, hend h₃]
    rfl
  | fields h₁ hfields h₂ =>
    rw [h₁.tokens?_append, tokens?_cons hopen, hfields.tokens?_append, hend h₂]
    cases hfields with
    | last h => rfl
    | @cons _ _ field fields h hrest =>
      have hread := fields?_objectTokens (field :: fields) (List.cons_ne_nil _ _)
      cases hrest <;> simpa [objectTokens, fieldTokens] using hread

/-- No text spells two objects. -/
theorem Spells.unique {text : List Char} {o o' : JsonObject} (h : Spells text o)
    (h' : Spells text o') : o = o' := by
  rw [← String.toList_ofList (l := text)] at h h'
  exact Option.some.inj (h.read?_eq.symm.trans h'.read?_eq)

/-! ### What is written -/

theorem spellsUnit_hexDigits {n : Nat} (h : n < 32) : SpellsUnit ('0' :: '0' :: hexDigits n) n := by
  have hdigit : ∀ n < 16, hexDigit? (Nat.digitChar n) = some n := by decide
  have hunit := SpellsUnit.digits (hdigit 0 (by decide)) (hdigit 0 (by decide))
    (hdigit (n / 16) (by omega)) (hdigit (n % 16) (by omega))
  rwa [show 16 * (16 * (16 * 0 + 0) + n / 16) + n % 16 = n by omega] at hunit

theorem spellsChar_escape (c : Char) : SpellsChar (escape c) c := by
  unfold escape
  split
  all_goals try exact .letter rfl
  rename_i hquote hslash _ _ _ _ _
  split
  · next hcontrol => exact .unit (spellsUnit_hexDigits hcontrol)
  · next hplain => exact .plain hquote hslash (Nat.not_lt.1 hplain)

theorem spellsString_quote (s : String) : SpellsString (quote s) s := by
  refine .quoted ?_
  induction s.toList with
  | nil => exact .nil
  | cons c cs ih => exact .cons (spellsChar_escape c) ih

theorem spellsScalar_renderScalar (value : JsonScalar) :
    SpellsScalar (renderScalar value) value := by
  cases value with
  | text s => exact .text (spellsString_quote s)
  | number n =>
    have hdigits : renderScalar (.number n) = Nat.toDigits 10 n := by
      simp [renderScalar, Nat.repr_eq_ofList_toDigits]
    rw [hdigits]
    exact .number n

theorem blank_nil : Blank [] := nofun

theorem spellsField_renderField (field : String × JsonScalar) :
    SpellsField (renderField field) field := by
  have h := SpellsField.field blank_nil (spellsString_quote field.1) blank_nil blank_nil
    (spellsScalar_renderScalar field.2) blank_nil
  rwa [List.append_nil] at h

theorem spellsFields_intercalate {fields : List (String × JsonScalar)} (h : fields ≠ []) :
    SpellsFields ([','].intercalate (fields.map renderField)) fields := by
  induction fields with
  | nil => exact absurd rfl h
  | cons field rest ih =>
    cases rest with
    | nil =>
      rw [List.map_singleton, List.intercalate_singleton]
      exact .last (spellsField_renderField field)
    | cons next rest =>
      rw [List.map_cons, List.map_cons, List.intercalate_cons_cons, ← List.map_cons,
        List.append_assoc]
      exact .cons (spellsField_renderField field) (ih (List.cons_ne_nil _ _))

/-- What is written for an object spells it. -/
theorem spells_render (o : JsonObject) : Spells o.render.toList o := by
  obtain ⟨fields⟩ := o
  rw [render, String.toList_ofList]
  by_cases h : fields = []
  · subst h
    exact .empty blank_nil blank_nil blank_nil
  · exact .fields blank_nil (spellsFields_intercalate h) blank_nil

/-- What is written is read back as it was. -/
theorem read?_render (o : JsonObject) : read? o.render = some o :=
  (spells_render o).read?_eq

end JsonObject

end BenchLoop
