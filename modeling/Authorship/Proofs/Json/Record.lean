/-
Module: Authorship.Proofs.Json.Record
Purpose: Records are read from their members, in any order. A name may be spelled with escapes, and
  blanks may stand between all parts; what a field's reader makes of its value is the state that the
  next member finds.
Main exports: Json.Gap, Json.Spelled, Json.ReadsFrom, Json.readsFrom_natural, Json.readsFrom_bool,
  Json.ReadsFrom.optional, Json.MemberText, Json.ObjectText, Json.objectText_brace,
  Json.RecordFormat.Leads, Json.RecordFormat.read_of_leads, Json.readWhole_of_run
-/
import Authorship.Json.Record
import Authorship.Proofs.Json.Number
import Authorship.Proofs.Json.Written

namespace Authorship.Json

/-- Nothing but white space. -/
def Gap (text : List Char) : Prop :=
  ∀ char ∈ text, isBlank char = true

theorem gap_nil : Gap [] :=
  List.forall_mem_nil _

/-! ## Texts in quotes, spelled in any way -/

/-- Characters and a text between quotes that stands for them: each character for itself, as a
letter after a backslash, or by its number. Characters that need two numbers are left out. -/
inductive Spelled : List Char → List Char → Prop where
  | nil : Spelled [] []
  | plain {char : Char} {chars text : List Char} (printed : 0x20 ≤ char.toNat)
      (noQuote : char ≠ '"') (noBackslash : char ≠ '\\') (later : Spelled chars text) :
      Spelled (char :: chars) (char :: text)
  | short {letter char : Char} {chars text : List Char} (stands : shortEscape? letter = some char)
      (later : Spelled chars text) : Spelled (char :: chars) ('\\' :: letter :: text)
  | number {a b c d : Char} {unit : Nat} {chars text : List Char}
      (stands : hexQuad? [a, b, c, d] = some (unit, []))
      (noSurrogate : unit < 0xD800 ∨ 0xDFFF < unit) (later : Spelled chars text) :
      Spelled (Char.ofNat unit :: chars) ('\\' :: 'u' :: a :: b :: c :: d :: text)

theorem hexQuad?_append {a b c d : Char} {unit : Nat}
    (stands : hexQuad? [a, b, c, d] = some (unit, [])) (rest : List Char) :
    hexQuad? (a :: b :: c :: d :: rest) = some (unit, rest) := by
  simp only [hexQuad?, Option.bind_eq_bind, Option.bind_eq_some_iff, Option.pure_def,
    Option.some.injEq, Prod.mk.injEq, and_true] at stands ⊢
  exact stands

theorem textHead_short {letter char : Char} (stands : shortEscape? letter = some char)
    (rest : List Char) : textHead true ('\\' :: letter :: rest) = .char char rest := by
  rw [textHead]
  unfold escape
  split
  · next other =>
    cases other
    cases stands
  · next other =>
    cases other
    rw [stands]
  · next other => cases other

theorem textHead_number {a b c d : Char} {unit : Nat}
    (stands : hexQuad? [a, b, c, d] = some (unit, [])) (noSurrogate : unit < 0xD800 ∨ 0xDFFF < unit)
    (rest : List Char) :
    textHead true ('\\' :: 'u' :: a :: b :: c :: d :: rest) = .char (Char.ofNat unit) rest := by
  rw [textHead, escape, hexQuad?_append stands]
  dsimp only
  unfold numberEscape
  rw [if_pos rfl, if_neg (by omega), if_neg (by omega)]

theorem textHead_plain {char : Char} (printed : 0x20 ≤ char.toNat) (noQuote : char ≠ '"')
    (noBackslash : char ≠ '\\') (rest : List Char) :
    textHead true (char :: rest) = .char char rest := by
  rw [textHead, if_neg (Nat.not_lt_of_le printed)]
  · exact noQuote
  · exact noBackslash

theorem Spelled.textFrom {chars text : List Char} (spelled : Spelled chars text)
    (rest : List Char) : Json.textFrom true (text ++ '"' :: rest) = .ok (chars, rest) := by
  induction spelled with
  | nil => exact textFrom_of_close rfl
  | plain printed noQuote noBackslash _ inductionHypothesis =>
      exact textFrom_of_char (textHead_plain printed noQuote noBackslash _) inductionHypothesis
  | short stands _ inductionHypothesis =>
      exact textFrom_of_char (textHead_short stands _) inductionHypothesis
  | number stands noSurrogate _ inductionHypothesis =>
      exact textFrom_of_char (textHead_number stands noSurrogate _) inductionHypothesis

theorem Spelled.readText {name : String} {text : List Char} (spelled : Spelled name.toList text)
    (rest : List Char) : Json.readText true (text ++ '"' :: rest) = .ok (name, rest) := by
  rw [Json.readText, spelled.textFrom]
  exact congrArg (fun name => Except.ok (name, rest)) String.ofList_toList

/-- What the writer puts between quotes. -/
theorem spelled_quotedChars (chars : List Char) : Spelled chars (chars.flatMap quotedChar) := by
  induction chars with
  | nil => exact .nil
  | cons char chars later =>
      rw [List.flatMap_cons]
      unfold quotedChar
      split
      case h_8 noQuote noBackslash _ _ _ _ _ =>
        split
        · next control =>
          have spelled := Spelled.number (hexQuad?_control control []) (.inl (by omega)) later
          rw [Char.ofNat_toNat] at spelled
          exact spelled
        · next printed => exact .plain (Nat.le_of_not_lt printed) noQuote noBackslash later
      all_goals exact .short rfl later

/-! ## Values of fields -/

section Values

variable {α : Type} {rest : List Char}

/-- A blank, the next member or the end of the object comes next. -/
def EndsMember (rest : List Char) : Prop :=
  ∃ first more, rest = first :: more ∧ (isBlank first = true ∨ first = ',' ∨ first = '\x7d')

theorem eq_of_isBlank {char : Char} (blank : isBlank char = true) :
    char = ' ' ∨ char = '\n' ∨ char = '\t' ∨ char = '\r' := by
  simpa [isBlank, or_assoc] using blank

theorem EndsMember.endsNumber (ends : EndsMember rest) : EndsNumber rest := by
  obtain ⟨first, more, rfl, delimiter⟩ := ends
  intro _ _ same
  cases same
  rcases delimiter with blank | rfl | rfl
  · rcases eq_of_isBlank blank with rfl | rfl | rfl | rfl
    all_goals decide
  · decide
  · decide

/-- The reader makes this value of the text, with blanks before it and what may come after. -/
def ReadsFrom (reader : Reader α) (text : List Char) (value : α) : Prop :=
  ∀ gap rest, Gap gap → EndsMember rest → reader (gap ++ (text ++ rest)) = .ok (value, rest)

theorem isBlank_of_isDigit {char : Char} (digit : char.isDigit = true) : isBlank char = false := by
  rw [Bool.eq_false_iff]
  intro blank
  rcases eq_of_isBlank blank with rfl | rfl | rfl | rfl
  all_goals exact absurd digit (by decide)

theorem readsFrom_natural (wanted : String) {bound value : Nat} (small : value ≤ bound)
    (bounded : bound < UInt64.size) :
    ReadsFrom (readNatural wanted bound) (Nat.toDigits 10 value) value := by
  intro gap rest blank ends
  obtain ⟨first, more, form, digit⟩ := exists_toDigits_eq_cons value
  have read := readNumber_toDigits ends.endsNumber true (Nat.lt_of_le_of_lt small bounded)
  rw [form, List.cons_append] at read ⊢
  rw [readNatural, run_bind_of_ok (skipBlanks_gap blank (isBlank_of_isDigit digit) _),
    run_bind_of_ok (run_get _)]
  generalize shape : first :: (more ++ rest) = text at read ⊢
  dsimp only
  split
  · cases shape
    exact absurd digit (by decide)
  · cases shape
    rw [if_pos (isDigit_of_isDigit digit), run_bind_of_ok read]
    dsimp only
    rw [if_pos small]
    rfl
  · cases shape

theorem readsFrom_bool (value : Bool) :
    ReadsFrom readBool (if value then "true" else "false").toList value := by
  intro gap rest blank _
  cases value with
  | false =>
      have written : (if false = true then "true" else "false").toList =
        ['f', 'a', 'l', 's', 'e'] := rfl
      rw [written, readBool, List.cons_append, run_bind_of_ok (skipBlanks_gap blank rfl _),
        run_bind_of_ok (run_get _)]
      rfl
  | true =>
      have written : (if true = true then "true" else "false").toList = ['t', 'r', 'u', 'e'] := rfl
      rw [written, readBool, List.cons_append, run_bind_of_ok (skipBlanks_gap blank rfl _),
        run_bind_of_ok (run_get _)]
      rfl

theorem readsFrom_null (reader : Reader α) :
    ReadsFrom (readOptional reader) ['n', 'u', 'l', 'l'] none := by
  intro gap rest blank _
  rw [readOptional, List.cons_append, run_bind_of_ok (skipBlanks_gap blank rfl _),
    run_bind_of_ok (run_get _)]
  rfl

/-- What is not null is left to the reader. -/
theorem ReadsFrom.optional {reader : Reader α} {first : Char} {more : List Char} {value : α}
    (reads : ReadsFrom reader (first :: more) value) (printed : isBlank first = false)
    (notNull : first ≠ 'n') : ReadsFrom (readOptional reader) (first :: more) (some value) := by
  intro gap rest blank ends
  have read := reads [] rest gap_nil ends
  rw [List.nil_append, List.cons_append] at read
  rw [readOptional, List.cons_append, run_bind_of_ok (skipBlanks_gap blank printed _),
    run_bind_of_ok (run_get _)]
  generalize shape : first :: (more ++ rest) = text at read ⊢
  split
  · cases shape
    exact absurd rfl notNull
  · rw [run_bind_of_ok read]
    rfl

theorem ReadsFrom.bind_pure {β : Type} {reader : Reader α} {text : List Char} {value : α}
    (reads : ReadsFrom reader text value) (convert : α → β) :
    ReadsFrom (do return convert (← reader)) text (convert value) := by
  intro gap rest blank ends
  rw [run_bind_of_ok (reads gap rest blank ends)]
  rfl

end Values

/-! ## Members and whole records -/

/-- A member of an object: a name, spelled in quotes, and the text of a value, with blanks before
and after the colon and after the value. -/
inductive MemberText (name : String) (value : List Char) : List Char → Prop where
  | intro {spelling before between after : List Char} (spelled : Spelled name.toList spelling)
      (blankBefore : Gap before) (blankBetween : Gap between) (blankAfter : Gap after) :
      MemberText name value
        ('"' :: (spelling ++ '"' :: (before ++ ':' :: (between ++ (value ++ after)))))

theorem MemberText.exists_eq_cons {name : String} {value text : List Char}
    (member : MemberText name value text) : ∃ more, text = '"' :: more := by
  cases member
  exact ⟨_, rfl⟩

/-- The members of an object, with commas and blanks between them: each one's name, and the text of
its value. -/
inductive MembersText : List (String × List Char) → List Char → Prop where
  | last {name : String} {value text : List Char} (member : MemberText name value text) :
      MembersText [(name, value)] text
  | cons {name : String} {value text gap rest : List Char} {more : List (String × List Char)}
      (member : MemberText name value text) (blank : Gap gap) (later : MembersText more rest) :
      MembersText ((name, value) :: more) (text ++ ',' :: (gap ++ rest))

theorem MembersText.exists_eq_cons {entries : List (String × List Char)} {text : List Char}
    (members : MembersText entries text) : ∃ more, text = '"' :: more := by
  cases members with
  | last member => exact member.exists_eq_cons
  | cons member =>
      obtain ⟨inside, rfl⟩ := member.exists_eq_cons
      exact ⟨_, rfl⟩

/-- A text that is an object with these members. -/
inductive ObjectText : List (String × List Char) → List Char → Prop where
  | empty {before inside after : List Char} (blankBefore : Gap before) (blankInside : Gap inside)
      (blankAfter : Gap after) :
      ObjectText [] (before ++ '\x7b' :: (inside ++ '\x7d' :: after))
  | filled {before between text after : List Char} {entries : List (String × List Char)}
      (blankBefore : Gap before) (blankBetween : Gap between) (members : MembersText entries text)
      (blankAfter : Gap after) :
      ObjectText entries (before ++ '\x7b' :: (between ++ (text ++ '\x7d' :: after)))

/-! ## Objects that were written -/

theorem memberText_member (name value : String) :
    MemberText name value.toList (member name value).toList := by
  have text : MemberText name value.toList _ :=
    .intro (spelled_quotedChars name.toList) gap_nil gap_nil gap_nil
  rw [List.append_nil] at text
  rw [toList_member, toList_quote, List.cons_append, List.cons_append, List.append_assoc]
  exact text

theorem membersText_intercalate {members : List (String × String)} (filled : members ≠ []) :
    MembersText (members.map fun entry => (entry.1, entry.2.toList))
      ([','].intercalate (members.map fun entry => (member entry.1 entry.2).toList)) := by
  induction members with
  | nil => exact absurd rfl filled
  | cons entry more inductionHypothesis =>
      have first := memberText_member entry.1 entry.2
      cases more with
      | nil =>
          rw [List.map_singleton, List.map_singleton, List.intercalate_singleton]
          exact .last first
      | cons next more =>
          rw [intercalate_map_cons_cons, List.map_cons]
          exact .cons first gap_nil (inductionHypothesis (List.cons_ne_nil _ _))

theorem toList_brace (members : List (String × String)) :
    (brace members).toList = '\x7b' ::
      ([','].intercalate (members.map fun entry => (member entry.1 entry.2).toList) ++
        ['\x7d']) := by
  rw [brace, String.toList_append, String.toList_append, String.toList_intercalate, List.map_map]
  rfl

/-- What was written as an object with members is one. -/
theorem objectText_brace {members : List (String × String)} (filled : members ≠ []) :
    ObjectText (members.map fun entry => (entry.1, entry.2.toList)) (brace members).toList := by
  rw [toList_brace]
  exact .filled gap_nil gap_nil (membersText_intercalate filled) gap_nil

namespace RecordFormat

variable {σ α : Type} {format : RecordFormat σ α} {state next last : σ} {field : Field σ}
  {name : String} {value text more rest gap : List Char} {fuel : Nat}

theorem endsMember_append (blank : Gap gap) {separator : Char}
    (separates : separator = ',' ∨ separator = '\x7d') (rest : List Char) :
    EndsMember (gap ++ separator :: rest) := by
  cases gap with
  | nil => exact ⟨separator, rest, rfl, .inr separates⟩
  | cons first gap => exact ⟨first, _, rfl, .inl (blank first List.mem_cons_self)⟩

theorem readName_of_spelled (known : format.field? name = some field)
    (new : field.isSet state = false) (spelled : Spelled name.toList text) (rest : List Char) :
    format.readName state ('"' :: (text ++ '"' :: rest)) = .ok (some field, rest) := by
  have opened : literal ['"'] ('"' :: (text ++ '"' :: rest)) = .ok ((), text ++ '"' :: rest) := rfl
  rw [readName, run_bind_of_ok opened, run_bind_of_ok (spelled.readText rest), known]
  dsimp only
  rw [new]
  rfl

/-- A member with a known name that is new is read by its field, up to the blanks after its value.
-/
theorem readMember_of_memberText (known : format.field? name = some field)
    (new : field.isSet state = false) (reads : ReadsFrom (field.read state) value next)
    (member : MemberText name value text) {separator : Char}
    (separates : separator = ',' ∨ separator = '\x7d') (rest : List Char) :
    ∃ after, Gap after ∧
      format.readMember state (text ++ separator :: rest) =
        .ok (next, after ++ separator :: rest) := by
  obtain ⟨spelled, blankBefore, blankBetween, blankAfter⟩ := member
  refine ⟨_, blankAfter, ?_⟩
  have colon text : literal [':'] (':' :: text) = .ok ((), text) := rfl
  simp only [List.cons_append, List.append_assoc]
  rw [readMember, run_bind_of_ok (readName_of_spelled known new spelled _),
    run_bind_of_ok (skipBlanks_gap blankBefore rfl _), run_bind_of_ok (colon _)]
  exact reads _ _ blankBetween (endsMember_append blankAfter separates rest)

theorem membersFrom_last (blank : Gap gap) (known : format.field? name = some field)
    (new : field.isSet state = false) (reads : ReadsFrom (field.read state) value next)
    (member : MemberText name value text) (rest : List Char) :
    format.membersFrom (fuel + 1) state (gap ++ (text ++ '\x7d' :: rest)) =
      .ok (next, '\x7d' :: rest) := by
  obtain ⟨after, blankAfter, read⟩ :=
    readMember_of_memberText known new reads member (.inr rfl) rest
  obtain ⟨inside, rfl⟩ := member.exists_eq_cons
  rw [List.cons_append] at read ⊢
  rw [membersFrom, run_bind_of_ok (skipBlanks_gap blank rfl _),
    run_bind_of_ok read, run_bind_of_ok (skipBlanks_gap blankAfter rfl _),
    run_bind_of_ok (run_get _)]
  rfl

theorem membersFrom_cons (blank : Gap gap) (known : format.field? name = some field)
    (new : field.isSet state = false) (reads : ReadsFrom (field.read state) value next)
    (member : MemberText name value text)
    (later : format.membersFrom fuel next more = .ok (last, rest)) :
    format.membersFrom (fuel + 1) state (gap ++ (text ++ ',' :: more)) = .ok (last, rest) := by
  obtain ⟨after, blankAfter, read⟩ :=
    readMember_of_memberText known new reads member (.inl rfl) more
  obtain ⟨inside, rfl⟩ := member.exists_eq_cons
  rw [List.cons_append] at read ⊢
  rw [membersFrom, run_bind_of_ok (skipBlanks_gap blank rfl _),
    run_bind_of_ok read, run_bind_of_ok (skipBlanks_gap blankAfter rfl _),
    run_bind_of_ok (run_get _)]
  exact later

/-- Members with known names that are new, each with a value that its field can read, lead from one
state to another. -/
inductive Leads (format : RecordFormat σ α) : σ → List (String × List Char) → σ → Prop where
  | nil (state : σ) : Leads format state [] state
  | cons {state next last : σ} {name : String} {value : List Char}
      {more : List (String × List Char)} {field : Field σ}
      (known : format.field? name = some field) (new : field.isSet state = false)
      (reads : ReadsFrom (field.read state) value next) (later : Leads format next more last) :
      Leads format state ((name, value) :: more) last

theorem membersFrom_of_leads {entries : List (String × List Char)}
    (members : MembersText entries text) (leads : format.Leads state entries last)
    (blank : Gap gap) (enough : text.length ≤ fuel) (rest : List Char) :
    format.membersFrom fuel state (gap ++ (text ++ '\x7d' :: rest)) =
      .ok (last, '\x7d' :: rest) := by
  induction members generalizing state gap fuel with
  | last member =>
      obtain ⟨inside, rfl⟩ := member.exists_eq_cons
      rw [List.length_cons] at enough
      obtain ⟨fuel, rfl⟩ : ∃ less, fuel = less + 1 := ⟨fuel - 1, by omega⟩
      cases leads with
      | cons known new reads later =>
          cases later
          exact membersFrom_last blank known new reads member rest
  | cons member blankNext _ inductionHypothesis =>
      rw [List.length_append, List.length_cons, List.length_append] at enough
      obtain ⟨fuel, rfl⟩ : ∃ less, fuel = less + 1 := ⟨fuel - 1, by omega⟩
      cases leads with
      | cons known new reads later =>
          have read : format.membersFrom fuel _ _ = _ :=
            inductionHypothesis later blankNext (by omega)
          rw [List.append_assoc, List.cons_append, List.append_assoc]
          exact membersFrom_cons blank known new reads member read

theorem run_complete {record : α} (finished : format.finish state = .ok record)
    (rest : List Char) : format.complete state rest = .ok (record, rest) := by
  rw [complete, finished]
  rfl

/-- The end of an object whose members lead to this state. -/
theorem run_close {record : α} (finished : format.finish state = .ok record) (rest : List Char) :
    (do
      let record ← format.complete state
      literal ['\x7d']
      return record : Reader α) ('\x7d' :: rest) = .ok (record, rest) := by
  rw [run_bind_of_ok (run_complete finished _)]
  rfl

theorem read_brace (blank : Gap gap) (text : List Char) :
    format.read (gap ++ '\x7b' :: text) =
      (do
        skipBlanks
        let close (state : σ) : Reader α := do
          let record ← format.complete state
          literal ['\x7d']
          return record
        match ← get with
        | '\x7d' :: _ => close format.start
        | _ => do close (← format.membersFrom text.length format.start) : Reader α) text := by
  rw [read, run_bind_of_ok (skipBlanks_gap blank rfl _), run_bind_of_ok (run_get _)]
  rfl

/-- An object is read as the record that its members lead to, whatever their order. -/
theorem read_of_leads {record : α} {entries : List (String × List Char)}
    (object : ObjectText entries text) (leads : format.Leads format.start entries last)
    (finished : format.finish last = .ok record) :
    ∃ rest, Gap rest ∧ format.read text = .ok (record, rest) := by
  cases object with
  | @empty before inside after blankBefore blankInside blankAfter =>
      cases leads
      refine ⟨after, blankAfter, ?_⟩
      rw [read_brace blankBefore, run_bind_of_ok (skipBlanks_gap blankInside rfl after),
        run_bind_of_ok (run_get _)]
      exact run_close finished after
  | @filled before between text after _ blankBefore blankBetween members blankAfter =>
      refine ⟨after, blankAfter, ?_⟩
      have filled : format.membersFrom (between ++ (text ++ '\x7d' :: after)).length format.start
          ([] ++ (text ++ '\x7d' :: after)) = .ok (last, '\x7d' :: after) := by
        refine membersFrom_of_leads members leads gap_nil ?_ after
        rw [List.length_append, List.length_append]
        omega
      obtain ⟨inside, starts⟩ := members.exists_eq_cons
      rw [read_brace blankBefore]
      rw [starts, List.cons_append] at filled ⊢
      rw [run_bind_of_ok (skipBlanks_gap blankBetween rfl _), run_bind_of_ok (run_get _)]
      exact (run_bind_of_ok filled).trans (run_close finished after)

end RecordFormat

/-- What a reader makes of a text, but for blanks at its end, is what the whole text stands for. -/
theorem readWhole_of_run {α : Type} {reader : Reader α} {text : String} {value : α}
    {rest : List Char} (ran : reader text.toList = .ok (value, rest)) (blank : Gap rest) :
    readWhole reader text = .ok value := by
  have ended : atEnd rest = .ok ((), []) := by
    have skipped : skipBlanks rest = .ok ((), []) := by
      change Except.ok ((), rest.dropWhile isBlank) = _
      rw [← List.append_nil rest, List.dropWhile_append_of_pos blank, List.dropWhile_nil]
    rw [atEnd, run_bind_of_ok skipped]
    rfl
  rw [readWhole]
  dsimp only [StateT.run]
  rw [run_bind_of_ok ran, run_bind_of_ok ended]
  rfl

end Authorship.Json
