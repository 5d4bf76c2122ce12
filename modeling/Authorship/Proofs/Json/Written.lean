/-
Module: Authorship.Proofs.Json.Written
Purpose: JSON that was written is read back. A written value is read the same whatever follows it,
  by every careful reader that admits its levels of nesting; arrays and objects of written values
  are written values one level up.
Main exports: Json.textFrom_quoted, Json.Written, Json.written_quote, Json.written_bracket,
  Json.written_object, Json.readWhole_of_written, Json.printed_quote, Json.printed_bracket
-/
import Mathlib.Data.List.Basic
import Authorship.Json.Value

namespace Authorship.Json

/-! ## Texts in quotes -/

theorem hexValue?_digitChar : ∀ digit < 16, hexValue? (Nat.digitChar digit) = some digit := by
  decide

theorem hexQuad?_control {code : Nat} (control : code < 0x20) (rest : List Char) :
    hexQuad? ('0' :: '0' :: Nat.digitChar (code / 16) :: Nat.digitChar (code % 16) :: rest) =
      some (code, rest) := by
  have zero : hexValue? '0' = some 0 := by decide
  have high := hexValue?_digitChar (code / 16) (by omega)
  have low := hexValue?_digitChar (code % 16) (by omega)
  have value : ((0 * 16 + 0) * 16 + code / 16) * 16 + code % 16 = code := by omega
  simp only [hexQuad?, zero, high, low, Option.bind_eq_bind, Option.bind_some, Option.pure_def,
    value]

theorem numberEscape_of_lt {code : Nat} (control : code < 0x20) (rest : List Char) :
    numberEscape code rest = .char (Char.ofNat code) rest := by
  unfold numberEscape
  rw [if_neg (by omega), if_neg (by omega)]

/-- A character between quotes is read back. -/
theorem textHead_quotedChar (char : Char) (rest : List Char) :
    textHead true (quotedChar char ++ rest) = .char char rest := by
  unfold quotedChar
  split
  case h_8 notQuote notBackslash _ _ _ _ _ =>
    split
    · next control =>
      have shown := hexQuad?_control control rest
      simp [textHead, escape, shown, numberEscape_of_lt control]
    · next printed =>
      rw [List.singleton_append, textHead, if_neg printed]
      · exact notQuote
      · exact notBackslash
  all_goals rfl

section

variable {paired : Bool} {text rest more : List Char}

theorem textFrom_of_close (head : textHead paired text = .close rest) :
    textFrom paired text = .ok ([], rest) := by
  rw [textFrom]
  split
  · next other => cases head.symm.trans other
  · next other => cases head.symm.trans other; rfl
  · next other => cases head.symm.trans other

theorem textFrom_of_char {char : Char} {chars : List Char}
    (head : textHead paired text = .char char rest)
    (later : textFrom paired rest = .ok (chars, more)) :
    textFrom paired text = .ok (char :: chars, more) := by
  rw [textFrom]
  split
  · next other => cases head.symm.trans other
  · next other => cases head.symm.trans other
  · next other =>
    cases head.symm.trans other
    rw [later]
    rfl

end

/-- Characters written in quotes are read back up to the closing one. -/
theorem textFrom_quoted (chars rest : List Char) :
    textFrom true (chars.flatMap quotedChar ++ '"' :: rest) = .ok (chars, rest) := by
  induction chars with
  | nil => exact textFrom_of_close rfl
  | cons char chars inductionHypothesis =>
      rw [List.flatMap_cons, List.append_assoc]
      exact textFrom_of_char (textHead_quotedChar char _) inductionHypothesis

theorem toList_quote (text : String) :
    (quote text).toList = '"' :: text.toList.flatMap quotedChar ++ ['"'] :=
  String.toList_ofList

/-! ## One reader after another -/

section

variable {α β : Type} {text rest : List Char}

theorem run_bind_of_ok {first : Reader α} {next : α → Reader β} {value : α}
    (ran : first text = .ok (value, rest)) : (first >>= next) text = next value rest := by
  change (Except.bind (first text) fun (value, rest) => next value rest) = _
  rw [ran]
  rfl

theorem readText_quoted (chars : List Char) (rest : List Char) :
    readText true (chars.flatMap quotedChar ++ '"' :: rest) = .ok (String.ofList chars, rest) := by
  rw [readText, textFrom_quoted]
  rfl

theorem skipBlanks_gap {gap : List Char} (blank : ∀ char ∈ gap, isBlank char = true)
    {first : Char} (printed : isBlank first = false) (rest : List Char) :
    skipBlanks (gap ++ first :: rest) = .ok ((), first :: rest) := by
  change Except.ok ((), (gap ++ first :: rest).dropWhile isBlank) = _
  rw [List.dropWhile_append_of_pos blank, List.dropWhile_cons_of_neg (by simp [printed])]

theorem skipBlanks_cons {first : Char} (printed : isBlank first = false) (rest : List Char) :
    skipBlanks (first :: rest) = .ok ((), first :: rest) :=
  skipBlanks_gap (List.forall_mem_nil _) printed rest

end

/-! ## Reading by the first character -/

section

variable {strict : Bool} {depth fuel : Nat} {text rest more gap : List Char}

theorem run_get (text : List Char) : (get : Reader (List Char)) text = .ok (text, text) := rfl

theorem valueFrom_quote (care : Care) :
    valueFrom care (fuel + 1) ('"' :: text) =
      (do return .string (← readText care.strict) : Reader Value) text := by
  rw [valueFrom]
  rfl

/-- The text starts with a text in quotes, an array or an object. -/
def OpensValue (text : List Char) : Prop :=
  ∃ first rest, text = first :: rest ∧ (first = '"' ∨ first = '[' ∨ first = '\x7b')

theorem OpensValue.append (opens : OpensValue text) (more : List Char) :
    OpensValue (text ++ more) := by
  obtain ⟨first, rest, rfl, opening⟩ := opens
  exact ⟨first, rest ++ more, rfl, opening⟩

theorem valueFrom_emptyArray :
    valueFrom ⟨depth + 1, strict⟩ (fuel + 1) ('[' :: ']' :: rest) = .ok (.array [], rest) := by
  rw [valueFrom]
  rfl

theorem valueFrom_array {items : List Value} (opens : OpensValue text)
    (filled : itemsFrom ⟨depth, strict⟩ fuel text = .ok (items, more)) :
    valueFrom ⟨depth + 1, strict⟩ (fuel + 1) ('[' :: text) = .ok (.array items, more) := by
  have dispatch : valueFrom ⟨depth + 1, strict⟩ (fuel + 1) ('[' :: text) =
      (do return .array (← itemsFrom ⟨depth, strict⟩ fuel) : Reader Value) text := by
    rw [valueFrom]
    obtain ⟨first, rest, rfl, opening⟩ := opens
    rcases opening with rfl | rfl | rfl
    · rfl
    · rfl
    · rfl
  rw [dispatch, run_bind_of_ok filled]
  rfl

theorem valueFrom_brace :
    valueFrom ⟨depth + 1, strict⟩ (fuel + 1) ('\x7b' :: text) =
      (do
        skipBlanks
        match ← get with
        | '\x7d' :: rest => do set rest; return .object []
        | _ => return .object (← membersFrom ⟨depth, strict⟩ fuel) : Reader Value) text := by
  rw [valueFrom]
  rfl

theorem valueFrom_emptyObject (blank : ∀ char ∈ gap, isBlank char = true) :
    valueFrom ⟨depth + 1, strict⟩ (fuel + 1) ('\x7b' :: (gap ++ '\x7d' :: rest)) =
      .ok (.object [], rest) := by
  rw [valueFrom_brace, run_bind_of_ok (skipBlanks_gap blank rfl rest), run_bind_of_ok (run_get _)]
  rfl

theorem valueFrom_object (blank : ∀ char ∈ gap, isBlank char = true)
    {members : List (String × Value)}
    (filled : membersFrom ⟨depth, strict⟩ fuel ('"' :: rest) = .ok (members, more)) :
    valueFrom ⟨depth + 1, strict⟩ (fuel + 1) ('\x7b' :: (gap ++ '"' :: rest)) =
      .ok (.object members, more) := by
  rw [valueFrom_brace, run_bind_of_ok (skipBlanks_gap blank rfl rest), run_bind_of_ok (run_get _)]
  change (do return .object (← membersFrom ⟨depth, strict⟩ fuel) : Reader Value) ('"' :: rest) = _
  rw [run_bind_of_ok filled]
  rfl

/-! ## Items and members one by one -/

theorem itemsFrom_last {care : Care} {item : Value}
    (first : valueFrom care fuel text = .ok (item, ']' :: rest)) :
    itemsFrom care (fuel + 1) text = .ok ([item], rest) := by
  rw [itemsFrom, run_bind_of_ok first, run_bind_of_ok (skipBlanks_cons rfl _)]
  rfl

theorem itemsFrom_cons {care : Care} {item : Value} {items : List Value}
    (first : valueFrom care fuel text = .ok (item, ',' :: rest))
    (later : itemsFrom care fuel rest = .ok (items, more)) :
    itemsFrom care (fuel + 1) text = .ok (item :: items, more) := by
  rw [itemsFrom, run_bind_of_ok first, run_bind_of_ok (skipBlanks_cons rfl _)]
  change (do return item :: (← itemsFrom care fuel) : Reader (List Value)) rest = _
  rw [run_bind_of_ok later]
  rfl

/-- A member up to its value. -/
theorem membersFrom_named (blank : ∀ char ∈ gap, isBlank char = true) (name : String) :
    membersFrom ⟨depth, true⟩ (fuel + 1) (gap ++ ((quote name).toList ++ ':' :: text)) =
      (do
        let value ← valueFrom ⟨depth, true⟩ fuel
        skipBlanks
        match ← get with
        | ',' :: rest => do
          set rest
          return (name, value) :: (← membersFrom ⟨depth, true⟩ fuel)
        | '\x7d' :: rest => do set rest; return [(name, value)]
        | _ => throw .malformed : Reader (List (String × Value))) text := by
  have inside : (quote name).toList ++ ':' :: text =
      '"' :: (name.toList.flatMap quotedChar ++ '"' :: ':' :: text) := by
    rw [toList_quote, List.cons_append, List.cons_append, List.append_assoc]
    rfl
  have printed : isBlank '"' = false := rfl
  have read := readText_quoted name.toList (':' :: text)
  rw [String.ofList_toList] at read
  have opened : literal ['"'] ('"' :: (name.toList.flatMap quotedChar ++ '"' :: ':' :: text)) =
      .ok ((), name.toList.flatMap quotedChar ++ '"' :: ':' :: text) := rfl
  rw [inside, membersFrom, run_bind_of_ok (skipBlanks_gap blank printed _),
    run_bind_of_ok opened, run_bind_of_ok read]
  rfl

theorem membersFrom_last (blank : ∀ char ∈ gap, isBlank char = true) (name : String) {value : Value}
    (closes : skipBlanks rest = .ok ((), '\x7d' :: more))
    (first : valueFrom ⟨depth, true⟩ fuel text = .ok (value, rest)) :
    membersFrom ⟨depth, true⟩ (fuel + 1) (gap ++ ((quote name).toList ++ ':' :: text)) =
      .ok ([(name, value)], more) := by
  rw [membersFrom_named blank, run_bind_of_ok first, run_bind_of_ok closes]
  rfl

theorem membersFrom_cons (blank : ∀ char ∈ gap, isBlank char = true) (name : String) {value : Value}
    {members : List (String × Value)}
    (first : valueFrom ⟨depth, true⟩ fuel text = .ok (value, ',' :: rest))
    (later : membersFrom ⟨depth, true⟩ fuel rest = .ok (members, more)) :
    membersFrom ⟨depth, true⟩ (fuel + 1) (gap ++ ((quote name).toList ++ ':' :: text)) =
      .ok ((name, value) :: members, more) := by
  rw [membersFrom_named blank, run_bind_of_ok first, run_bind_of_ok (skipBlanks_cons rfl _)]
  change (do return (name, value) :: (← membersFrom ⟨depth, true⟩ fuel) :
    Reader (List (String × Value))) rest = _
  rw [run_bind_of_ok later]
  rfl

end

/-! ## Written values -/

/-- A written value that is read back, whatever follows it, by a careful reader that admits so many
levels of nesting. -/
structure Written (levels : Nat) (text : String) (value : Value) : Prop where
  opens : OpensValue text.toList
  reads : ∀ depth fuel rest, levels ≤ depth → text.toList.length ≤ fuel →
    valueFrom ⟨depth, true⟩ fuel (text.toList ++ rest) = .ok (value, rest)

theorem written_quote (text : String) : Written 0 (quote text) (.string text) where
  opens := ⟨'"', _, toList_quote text, .inl rfl⟩
  reads depth fuel rest _ enough := by
    have inside : (quote text).toList ++ rest =
        '"' :: (text.toList.flatMap quotedChar ++ '"' :: rest) := by
      rw [toList_quote, List.cons_append, List.cons_append, List.append_assoc]
      rfl
    have read := readText_quoted text.toList rest
    rw [String.ofList_toList] at read
    rw [toList_quote, List.cons_append, List.length_cons] at enough
    obtain ⟨fuel, rfl⟩ : ∃ less, fuel = less + 1 := ⟨fuel - 1, by omega⟩
    rw [inside, valueFrom_quote, run_bind_of_ok read]
    rfl

section

variable {α : Type} {levels : Nat} {name text : α → String} {value : α → Value}

theorem intercalate_map_cons_cons {β : Type} (separator : List β) (form : α → List β)
    (first second : α) (more : List α) :
    separator.intercalate ((first :: second :: more).map form) =
      form first ++ (separator ++ separator.intercalate ((second :: more).map form)) := by
  rw [List.map_cons, List.map_cons, List.intercalate_cons_cons, List.append_assoc]

theorem exists_intercalate_map {β : Type} (separator : List β) (form : α → List β) (first : α)
    (more : List α) :
    ∃ rest, separator.intercalate ((first :: more).map form) = form first ++ rest := by
  cases more with
  | nil =>
      rw [List.map_singleton, List.intercalate_singleton]
      exact ⟨[], (List.append_nil _).symm⟩
  | cons next more => exact ⟨_, intercalate_map_cons_cons separator form first next more⟩

/-- Written items with commas between them, up to the end of their array. -/
theorem itemsFrom_written {items : List α} (filled : items ≠ [])
    (written : ∀ item ∈ items, Written levels (text item) (value item)) {depth fuel : Nat}
    (admitted : levels ≤ depth) (rest : List Char)
    (enough : ([','].intercalate (items.map fun item => (text item).toList)).length < fuel) :
    itemsFrom ⟨depth, true⟩ fuel
        ([','].intercalate (items.map fun item => (text item).toList) ++ ']' :: rest) =
      .ok (items.map value, rest) := by
  induction items generalizing fuel with
  | nil => exact absurd rfl filled
  | cons item more inductionHypothesis =>
      -- This call costs one unit; the item has as much left as its text is long, and the rest of
      -- the items are at least a comma shorter.
      obtain ⟨fuel, rfl⟩ : ∃ less, fuel = less + 1 := ⟨fuel - 1, by omega⟩
      have first := (written item List.mem_cons_self).reads depth fuel
      cases more with
      | nil =>
          rw [List.map_singleton, List.intercalate_singleton] at enough ⊢
          exact itemsFrom_last (first _ admitted (by omega))
      | cons next more =>
          rw [intercalate_map_cons_cons] at enough ⊢
          rw [List.length_append, List.length_append, List.length_singleton] at enough
          rw [List.append_assoc, List.append_assoc]
          refine itemsFrom_cons (first _ admitted (by omega)) ?_
          refine inductionHypothesis (List.cons_ne_nil _ _) ?_ (by omega)
          exact fun item member => written item (List.mem_cons_of_mem _ member)

theorem opensValue_items {items : List α} (filled : items ≠ [])
    (written : ∀ item ∈ items, Written levels (text item) (value item)) :
    OpensValue ([','].intercalate (items.map fun item => (text item).toList)) := by
  cases items with
  | nil => exact absurd rfl filled
  | cons item more =>
      obtain ⟨rest, starts⟩ :=
        exists_intercalate_map [','] (fun item => (text item).toList) item more
      rw [starts]
      exact (written item List.mem_cons_self).opens.append rest

theorem toList_bracket (texts : List String) :
    (bracket texts).toList = '[' :: ([','].intercalate (texts.map String.toList) ++ [']']) := by
  rw [bracket, String.toList_append, String.toList_append, String.toList_intercalate]
  rfl

theorem written_bracket {items : List α}
    (written : ∀ item ∈ items, Written levels (text item) (value item)) :
    Written (levels + 1) (bracket (items.map text)) (.array (items.map value)) where
  opens := ⟨'[', _, toList_bracket _, .inr (.inl rfl)⟩
  reads depth fuel rest admitted enough := by
    rw [toList_bracket, List.map_map, Function.comp_def] at enough ⊢
    rw [List.length_cons, List.length_append, List.length_singleton] at enough
    obtain ⟨fuel, rfl⟩ : ∃ less, fuel = less + 1 := ⟨fuel - 1, by omega⟩
    obtain ⟨depth, rfl⟩ : ∃ less, depth = less + 1 := ⟨depth - 1, by omega⟩
    rw [List.cons_append, List.append_assoc, List.singleton_append]
    by_cases filled : items = []
    · subst filled
      exact valueFrom_emptyArray
    · exact valueFrom_array ((opensValue_items filled written).append _)
        (itemsFrom_written filled written (Nat.le_of_succ_le_succ admitted) rest (by omega))

theorem toList_member (name text : String) :
    (member name text).toList = (quote name).toList ++ ':' :: text.toList := by
  rw [member, String.toList_append, String.toList_append, List.append_assoc]
  rfl

/-- Written members with commas and a gap between them, up to the end of their object. What stands
before the first of them is a gap too, unless the reader of the object has taken it off. -/
theorem membersFrom_written {gap : List Char} (blank : ∀ char ∈ gap, isBlank char = true)
    {items : List α} (filled : items ≠ [])
    (written : ∀ item ∈ items, Written levels (text item) (value item)) {depth fuel : Nat}
    (admitted : levels ≤ depth) {before : List Char}
    (blankBefore : ∀ char ∈ before, isBlank char = true) (rest : List Char)
    (enough : ((',' :: gap).intercalate
      (items.map fun item => (member (name item) (text item)).toList)).length < fuel) :
    membersFrom ⟨depth, true⟩ fuel (before ++
        ((',' :: gap).intercalate (items.map fun item => (member (name item) (text item)).toList) ++
          (gap ++ '\x7d' :: rest))) =
      .ok (items.map fun item => (name item, value item), rest) := by
  induction items generalizing fuel before with
  | nil => exact absurd rfl filled
  | cons item more inductionHypothesis =>
      obtain ⟨fuel, rfl⟩ : ∃ less, fuel = less + 1 := ⟨fuel - 1, by omega⟩
      have first := (written item List.mem_cons_self).reads depth fuel
      cases more with
      | nil =>
          rw [List.map_singleton, List.intercalate_singleton, toList_member] at enough ⊢
          rw [List.length_append, List.length_cons] at enough
          rw [List.append_assoc, List.cons_append]
          exact membersFrom_last blankBefore _ (skipBlanks_gap blank rfl rest)
            (first _ admitted (by omega))
      | cons next more =>
          rw [intercalate_map_cons_cons, toList_member] at enough ⊢
          rw [List.length_append, List.length_append, List.length_append, List.length_cons]
            at enough
          simp only [List.append_assoc, List.cons_append]
          refine membersFrom_cons blankBefore _ (first _ admitted (by omega)) ?_
          refine inductionHypothesis (List.cons_ne_nil _ _) ?_ blank (by omega)
          exact fun item member => written item (List.mem_cons_of_mem _ member)

/-- Written members as an object, spread over lines or not. -/
theorem written_object {gap : List Char} (blank : ∀ char ∈ gap, isBlank char = true)
    {items : List α}
    (written : ∀ item ∈ items, Written levels (text item) (value item)) {object : String}
    (form : object.toList = '\x7b' :: (gap ++ ((',' :: gap).intercalate
      (items.map fun item => (member (name item) (text item)).toList) ++ (gap ++ ['\x7d'])))) :
    Written (levels + 1) object (.object (items.map fun item => (name item, value item))) where
  opens := ⟨'\x7b', _, form, .inr (.inr rfl)⟩
  reads depth fuel rest admitted enough := by
    rw [form] at enough ⊢
    rw [List.length_cons, List.length_append, List.length_append, List.length_append,
      List.length_singleton] at enough
    obtain ⟨fuel, rfl⟩ : ∃ less, fuel = less + 1 := ⟨fuel - 1, by omega⟩
    obtain ⟨depth, rfl⟩ : ∃ less, depth = less + 1 := ⟨depth - 1, by omega⟩
    simp only [List.cons_append, List.append_assoc, List.nil_append]
    cases items with
    | nil =>
        have blankTwice : ∀ char ∈ gap ++ gap, isBlank char = true :=
          List.forall_mem_append.mpr ⟨blank, blank⟩
        rw [List.map_nil, List.intercalate_nil, List.nil_append, ← List.append_assoc]
        exact valueFrom_emptyObject blankTwice
    | cons item more =>
        -- The first gap is skipped before the reader looks whether there are members at all.
        have read : membersFrom ⟨depth, true⟩ fuel ([] ++ ((',' :: gap).intercalate
            ((item :: more).map fun item => (member (name item) (text item)).toList) ++
              (gap ++ '\x7d' :: rest))) = _ :=
          membersFrom_written blank (List.cons_ne_nil item more) written
            (Nat.le_of_succ_le_succ admitted) (List.forall_mem_nil _) rest (by omega)
        obtain ⟨other, starts⟩ :
            ∃ other, (',' :: gap).intercalate ((item :: more).map fun item =>
              (member (name item) (text item)).toList) = '"' :: other := by
          obtain ⟨later, starts⟩ := exists_intercalate_map (',' :: gap)
            (fun item => (member (name item) (text item)).toList) item more
          rw [starts, toList_member, toList_quote]
          exact ⟨_, rfl⟩
        rw [starts] at read
        rw [starts]
        exact valueFrom_object blank read

end

/-! ## Whole texts -/

theorem run_atEnd : atEnd [] = .ok ((), []) := rfl

/-- A written value makes a whole text, if it is nested no deeper than a careful reader admits. -/
theorem readWhole_of_written {levels : Nat} {text : String} {value : Value}
    (written : Written levels text value) (admitted : levels ≤ depthLimit) :
    readWhole readValue text = .ok value := by
  have read : readValue text.toList = .ok (value, []) := by
    have first := written.reads depthLimit (2 * text.toList.length + 2) [] admitted (by omega)
    rwa [List.append_nil] at first
  rw [readWhole]
  dsimp only [StateT.run]
  rw [run_bind_of_ok read, run_bind_of_ok run_atEnd]
  rfl

/-! ## No line breaks -/

/-- The text holds no control characters of ASCII, so no line breaks. -/
def Printed (text : List Char) : Prop :=
  ∀ char ∈ text, 0x20 ≤ char.toNat

theorem Printed.append {text more : List Char} (printed : Printed text)
    (printedMore : Printed more) : Printed (text ++ more) :=
  List.forall_mem_append.mpr ⟨printed, printedMore⟩

theorem Printed.newline_not_mem {text : List Char} (printed : Printed text) : '\n' ∉ text :=
  fun breaks => absurd (printed _ breaks) (by decide)

theorem Printed.intercalate {separator : List Char} (printed : Printed separator)
    {texts : List (List Char)} (printedTexts : ∀ text ∈ texts, Printed text) :
    Printed (separator.intercalate texts) := by
  induction texts with
  | nil => exact List.forall_mem_nil _
  | cons text more inductionHypothesis =>
      have later := inductionHypothesis fun text member =>
        printedTexts text (List.mem_cons_of_mem _ member)
      have first := printedTexts text List.mem_cons_self
      cases more with
      | nil =>
          rw [List.intercalate_singleton]
          exact first
      | cons next more =>
          rw [List.intercalate_cons_cons]
          exact (first.append printed).append later

theorem printed_digitChar : ∀ digit < 16, 0x20 ≤ (Nat.digitChar digit).toNat := by
  decide

theorem printed_quotedChar (char : Char) : Printed (quotedChar char) := by
  unfold quotedChar
  split
  case h_8 =>
    split
    · next control =>
      have high := printed_digitChar (char.toNat / 16) (by omega)
      have low := printed_digitChar (char.toNat % 16) (by omega)
      simp [Printed, high, low]
    · next printed => simpa [Printed] using printed
  all_goals simp [Printed]

theorem printed_quote (text : String) : Printed (quote text).toList := by
  intro char member
  rw [toList_quote, List.mem_append, List.mem_cons, List.mem_singleton, List.mem_flatMap] at member
  rcases member with (rfl | ⟨source, _, shown⟩) | rfl
  · decide
  · exact printed_quotedChar source char shown
  · decide

theorem printed_bracket {texts : List String} (printed : ∀ text ∈ texts, Printed text.toList) :
    Printed (bracket texts).toList := by
  rw [toList_bracket]
  have inside : Printed ([','].intercalate (texts.map String.toList)) :=
    Printed.intercalate (by simp [Printed]) (List.forall_mem_map.mpr printed)
  have opened : Printed ['['] := by simp [Printed]
  have closed : Printed [']'] := by simp [Printed]
  exact opened.append (inside.append closed)

theorem printed_member (name : String) {text : String} (printed : Printed text.toList) :
    Printed (member name text).toList := by
  rw [toList_member]
  exact (printed_quote name).append (List.forall_mem_cons.mpr ⟨by decide, printed⟩)

end Authorship.Json
