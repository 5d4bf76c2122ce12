/-
Module: Authorship.Proofs.Docs.ImplementationTable
Purpose: The script of a table and the table of a script. A table is read back from its script,
  whatever texts it lists, and the script lists one crate a line.
Main exports: Docs.ImplementationTable.toValue, Docs.ImplementationTable.written_body,
  Docs.ImplementationTable.ofValue_toValue, Docs.ImplementationTable.parse_render_and_lines
-/
import Authorship.Docs.ImplementationTable
import Authorship.Proofs.Json.Written

namespace Authorship.Docs

/-- An implementation as JSON. -/
def Implementation.toValue (item : Implementation) : Json.Value :=
  .array ((item.html :: item.extra.toList).map .string)

namespace ImplementationTable

open Json (Value Written)

/-- The implementations of a crate as JSON. -/
def crateValue (crate : String × List Implementation) : Value :=
  .array (crate.2.map Implementation.toValue)

/-- A table as JSON. -/
def toValue (table : ImplementationTable) : Value :=
  .object (table.byCrate.entries.map fun crate => (crate.1, crateValue crate))

/-! ## The table's text -/

/-- What stands between the opening and the closing of a script. -/
def body (table : ImplementationTable) : String :=
  "\x7b\n" ++ ",\n".intercalate (table.byCrate.entries.map renderCrate) ++ "\n\x7d"

theorem render_eq (table : ImplementationTable) :
    render table = opening ++ body table ++ closing := by
  rw [render, body]
  simp only [String.append_assoc]

theorem written_item (item : Implementation) : Written 1 (renderItem item) item.toValue :=
  Json.written_bracket fun text _ => Json.written_quote text

theorem written_crate (crate : String × List Implementation) :
    Written 2 (Json.bracket (crate.2.map renderItem)) (crateValue crate) :=
  Json.written_bracket fun item _ => written_item item

theorem written_body (table : ImplementationTable) : Written 3 (body table) (toValue table) := by
  have lineBreak : ∀ char ∈ ['\n'], Json.isBlank char = true :=
    List.forall_mem_singleton.mpr rfl
  refine Json.written_object lineBreak (fun crate _ => written_crate crate) ?_
  simp only [body, String.toList_append, String.toList_intercalate, List.map_map]
  rfl

/-! ## The table's value -/

theorem readItem_toValue (item : Implementation) : readItem item.toValue = .ok item := by
  obtain ⟨html, extra⟩ := item
  cases extra with
  | none => rfl
  | some extra => rfl

theorem readItems_crateValue (crate : String × List Implementation) :
    readItems (crateValue crate) = .ok crate.2 := by
  obtain ⟨name, items⟩ := crate
  change (items.map Implementation.toValue).mapM readItem = .ok items
  induction items with
  | nil => rfl
  | cons item more inductionHypothesis =>
      rw [List.map_cons, List.mapM_cons, readItem_toValue, inductionHypothesis]
      rfl

theorem entries_pushAll {table : ImplementationTable} {before : List (String × List Implementation)}
    {crate : String} (above : ∀ pair ∈ before, pair.1 < crate) {items : List Implementation}
    (last : table.byCrate.entries = before ++ [(crate, items)]) (more : List Implementation) :
    (more.foldl (fun table item => table.push crate item) table).byCrate.entries =
      before ++ [(crate, items ++ more)] := by
  induction more generalizing table items with
  | nil => rw [List.append_nil, List.foldl_nil, last]
  | cons item more inductionHypothesis =>
      rw [List.foldl_cons, List.append_cons items]
      refine inductionHypothesis ?_
      change NamedValues.update crate _ table.byCrate.entries = _
      rw [last, NamedValues.update_of_last above]
      rfl

/-- A crate above all others is added at the end. -/
theorem readCrate_of_above {table : ImplementationTable} {crate : String × List Implementation}
    (above : ∀ pair ∈ table.byCrate.entries, pair.1 < crate.1) (filled : crate.2 ≠ []) :
    ∃ grown, readCrate table (crate.1, crateValue crate) = .ok grown ∧
      grown.byCrate.entries = table.byCrate.entries ++ [crate] := by
  obtain ⟨name, items⟩ := crate
  obtain ⟨first, more, rfl⟩ := List.exists_cons_of_ne_nil filled
  refine ⟨(first :: more).foldl (fun table item => table.push name item) table, ?_, ?_⟩
  · rw [readCrate, readItems_crateValue]
  · rw [List.foldl_cons]
    have pushed : (table.push name first).byCrate.entries =
        table.byCrate.entries ++ [(name, [first])] := NamedValues.update_of_above above _
    exact entries_pushAll above pushed more

theorem foldlM_readCrate {table : ImplementationTable}
    {crates : List (String × List Implementation)}
    (sorted : NamedValues.Sorted (table.byCrate.entries ++ crates))
    (filled : ∀ crate ∈ crates, crate.2 ≠ []) :
    ∃ grown, (crates.map fun crate => (crate.1, crateValue crate)).foldlM readCrate table =
        .ok grown ∧
      grown.byCrate.entries = table.byCrate.entries ++ crates := by
  induction crates generalizing table with
  | nil => exact ⟨table, rfl, (List.append_nil _).symm⟩
  | cons crate more inductionHypothesis =>
      have above : ∀ pair ∈ table.byCrate.entries, pair.1 < crate.1 := fun pair member =>
        (List.pairwise_append.mp sorted).2.2 pair member crate List.mem_cons_self
      obtain ⟨grown, read, listed⟩ := readCrate_of_above above (filled crate List.mem_cons_self)
      rw [List.append_cons, ← listed] at sorted ⊢
      rw [List.map_cons, List.foldlM_cons, read]
      exact inductionHypothesis sorted fun other member =>
        filled other (List.mem_cons_of_mem _ member)

theorem ofValue_toValue (table : ImplementationTable) : ofValue (toValue table) = .ok table := by
  have sorted : NamedValues.Sorted
      (table.byCrate.entries.map fun crate => (crate.1, crateValue crate)) :=
    List.pairwise_map.mpr table.byCrate.sorted
  obtain ⟨grown, read, listed⟩ :
      ∃ grown, (table.byCrate.entries.map fun crate => (crate.1, crateValue crate)).foldlM
          readCrate empty = .ok grown ∧ grown.byCrate.entries = table.byCrate.entries :=
    foldlM_readCrate table.byCrate.sorted table.listed
  have same : grown = table := ext (NameMap.ext listed)
  rw [toValue, ofValue, NameMap.entries_ofPairs sorted, read, same]

/-! ## The script around the table -/

theorem head?_opening : opening.toList.head? = some '(' := by
  decide +kernel

theorem getLast?_closing : closing.toList.getLast? = some ')' := by
  decide +kernel

/-- The body of a script is found between its outermost parentheses, whatever copies of the opening
and the closing stand in it. -/
theorem body?_render (table : ImplementationTable) {before after : String}
    (blankBefore : ∀ char ∈ before.toList, Text.isBlank char = true)
    (blankAfter : ∀ char ∈ after.toList, Text.isBlank char = true) :
    body? (before ++ render table ++ after) = some (body table).toList := by
  have inside : (render table).toList =
      opening.toList ++ ((body table).toList ++ closing.toList) := by
    rw [render_eq, String.toList_append, String.toList_append, List.append_assoc]
  have starts : (render table).toList.head? = some '(' := by
    rw [inside, List.head?_append, head?_opening, Option.some_or]
  have ends : (render table).toList.getLast? = some ')' := by
    rw [inside, ← List.append_assoc, List.getLast?_append, getLast?_closing, Option.some_or]
  -- A script starts and ends with a parenthesis, so trimming stops there.
  have trimmed : Text.trim (before ++ render table ++ after).toList = (render table).toList := by
    rw [String.toList_append, String.toList_append]
    exact Text.trim_append_append blankBefore blankAfter starts ends rfl rfl
  have opened : opening.toList.isPrefixOf? (render table).toList =
      some ((body table).toList ++ closing.toList) :=
    List.isPrefixOf?_eq_some_iff_append_eq.mpr inside.symm
  have closed : closing.toList.isSuffixOf? ((body table).toList ++ closing.toList) =
      some (body table).toList :=
    List.isSuffixOf?_eq_some_iff_append_eq.mpr rfl
  rw [body?, trimmed, opened, Option.bind_eq_bind, Option.bind_some, closed]

theorem parse_render (table : ImplementationTable) {before after : String}
    (blankBefore : ∀ char ∈ before.toList, Text.isBlank char = true)
    (blankAfter : ∀ char ∈ after.toList, Text.isBlank char = true) :
    parse (before ++ render table ++ after) = .ok table := by
  have read : Json.readWhole Json.readValue (body table) = .ok (toValue table) :=
    Json.readWhole_of_written (written_body table) (by decide)
  rw [parse, body?_render table blankBefore blankAfter]
  dsimp only
  rw [String.ofList_toList, read]
  exact ofValue_toValue table

/-! ## The script's lines -/

/-- The lines of a text. -/
def lines (text : String) : List String :=
  (text.toList.splitOn '\n').map String.ofList

theorem lines_intercalate {texts : List String} (filled : texts ≠ [])
    (unbroken : ∀ text ∈ texts, '\n' ∉ text.toList) : lines ("\n".intercalate texts) = texts := by
  have split : ("\n".intercalate texts).toList.splitOn '\n' = texts.map String.toList := by
    rw [String.toList_intercalate]
    refine List.splitOn_intercalate '\n' (List.forall_mem_map.mpr unbroken) ?_
    exact fun none => filled (List.map_eq_nil_iff.mp none)
  rw [lines, split, List.map_map]
  exact (List.map_congr_left fun text _ => String.ofList_toList).trans (List.map_id texts)

/-- Every text but the last one with a comma behind it. -/
def commaEnded : List String → List String
  | [] => []
  | [text] => [text]
  | text :: next :: more => (text ++ ",") :: commaEnded (next :: more)

theorem commaEnded_ne_nil {texts : List String} (filled : texts ≠ []) : commaEnded texts ≠ [] := by
  cases texts with
  | nil => exact filled
  | cons text more =>
      cases more with
      | nil => exact List.cons_ne_nil _ _
      | cons next more => exact List.cons_ne_nil _ _

theorem intercalate_commaEnded (texts : List String) :
    "\n".intercalate (commaEnded texts) = ",\n".intercalate texts := by
  induction texts with
  | nil => rfl
  | cons text more inductionHypothesis =>
      cases more with
      | nil => rw [commaEnded, String.intercalate_singleton, String.intercalate_singleton]
      | cons next more =>
          have later : commaEnded (next :: more) ≠ [] := commaEnded_ne_nil (List.cons_ne_nil _ _)
          rw [commaEnded, String.intercalate_cons_of_ne_nil later, inductionHypothesis,
            String.intercalate_cons_cons]
          simp only [String.append_assoc]
          rfl

theorem unbroken_commaEnded {texts : List String} (unbroken : ∀ text ∈ texts, '\n' ∉ text.toList) :
    ∀ text ∈ commaEnded texts, '\n' ∉ text.toList := by
  induction texts with
  | nil => exact unbroken
  | cons text more inductionHypothesis =>
      cases more with
      | nil => exact unbroken
      | cons next more =>
          have first : '\n' ∉ (text ++ ",").toList := by
            rw [String.toList_append, List.mem_append, not_or]
            exact ⟨unbroken text List.mem_cons_self, by decide⟩
          exact List.forall_mem_cons.mpr ⟨first, inductionHypothesis fun other member =>
            unbroken other (List.mem_cons_of_mem _ member)⟩

theorem unbroken_renderCrate (crate : String × List Implementation) :
    '\n' ∉ (renderCrate crate).toList := by
  refine Json.Printed.newline_not_mem (Json.printed_member _ (Json.printed_bracket ?_))
  refine List.forall_mem_map.mpr fun item _ => Json.printed_bracket ?_
  exact List.forall_mem_map.mpr fun text _ => Json.printed_quote text

/-- The lines of a script: one opens it, one closes it, and each crate has one between them. -/
theorem lines_render {table : ImplementationTable} (filled : table.isEmpty = false) :
    lines (render table) =
      (opening ++ "\x7b") :: commaEnded (table.byCrate.entries.map renderCrate) ++
        ["\x7d" ++ closing] := by
  have listed : table.byCrate.entries.map renderCrate ≠ [] := by
    rw [isEmpty, List.isEmpty_eq_false_iff] at filled
    exact fun none => filled (List.map_eq_nil_iff.mp none)
  have joined : render table = "\n".intercalate
      ((opening ++ "\x7b") :: commaEnded (table.byCrate.entries.map renderCrate) ++
        ["\x7d" ++ closing]) := by
    rw [render, String.intercalate_append_of_ne_nil (List.cons_ne_nil _ _) (List.cons_ne_nil _ _),
      String.intercalate_cons_of_ne_nil (commaEnded_ne_nil listed), intercalate_commaEnded,
      String.intercalate_singleton]
    have opened : "\x7b\n" = "\x7b" ++ "\n" := by decide
    have closed : "\n\x7d" = "\n" ++ "\x7d" := by decide
    rw [opened, closed]
    simp only [String.append_assoc]
  rw [joined]
  refine lines_intercalate (List.append_ne_nil_of_right_ne_nil _ (List.cons_ne_nil _ _)) ?_
  refine List.forall_mem_append.mpr ⟨List.forall_mem_cons.mpr ⟨by decide +kernel, ?_⟩,
    List.forall_mem_singleton.mpr (by decide +kernel)⟩
  exact unbroken_commaEnded (List.forall_mem_map.mpr fun crate _ => unbroken_renderCrate crate)

/-! ## The script as a whole -/

/-- A table is read back from its script, with any white space around it, and the table that any
script registers is the one that its own script registers. One crate stands on each line, in the
order of the names, whatever the texts contain. -/
theorem parse_render_and_lines (table : ImplementationTable) :
    (∀ before after : String, (∀ char ∈ before.toList ++ after.toList, Text.isBlank char = true) →
      parse (before ++ render table ++ after) = .ok table) ∧
    (∀ script, parse script = .ok table → parse (render table) = parse script) ∧
    (table.isEmpty = false →
      table.crates.Pairwise (· < ·) ∧
      lines (render table) =
        (opening ++ "\x7b") :: commaEnded (table.byCrate.entries.map renderCrate) ++
          ["\x7d" ++ closing]) := by
  refine ⟨fun before after blank => ?_, fun script registers => ?_, fun filled => ⟨?_, ?_⟩⟩
  · obtain ⟨blankBefore, blankAfter⟩ := List.forall_mem_append.mp blank
    exact parse_render table blankBefore blankAfter
  · have alone : parse ("" ++ render table ++ "") = .ok table :=
      parse_render table (List.forall_mem_nil _) (List.forall_mem_nil _)
    rw [String.empty_append, String.append_empty] at alone
    rw [alone, registers]
  · exact List.pairwise_map.mpr table.byCrate.sorted
  · exact lines_render filled

/-- What opens and closes the script, as texts of a table, beside characters that JSON escapes. -/
theorem parse_render_and_lines_hostileTexts :
    let table :=
      (empty.push closing ⟨"\"\\\n\x01\x7d", some opening⟩).push opening ⟨closing, none⟩
    parse ("\n\u2003" ++ render table ++ " \t") = .ok table ∧
      parse (render table) = .ok table ∧
      table.crates = [opening, closing] ∧ (lines (render table)).length = 4 := by
  intro table
  obtain ⟨around, again, lined⟩ := parse_render_and_lines table
  have blank : ("\n\u2003".toList ++ " \t".toList).all Text.isBlank = true := by
    decide +kernel
  have spaced : parse ("\n\u2003" ++ render table ++ " \t") = .ok table :=
    around "\n\u2003" " \t" (List.all_eq_true.mp blank)
  refine ⟨spaced, (again _ spaced).trans spaced, by decide +kernel, ?_⟩
  rw [(lined (by decide +kernel)).2]
  decide +kernel

end ImplementationTable

end Authorship.Docs
