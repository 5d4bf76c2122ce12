/-
Module: Authorship.Proofs.Settings
Purpose: Settings are what their text gives, over the standard ones, and they make sense. The fields
  may come in any order and under any of their names; settings that were written are read back, or
  refused if they make no sense.
Main exports: Settings.fault, Settings.Assignment, Settings.Member, Settings.assignAll,
  Settings.leads_of_nodup, Settings.readWhole_of_objectText, Settings.readWhole_toJson,
  Settings.reads_what_is_given
-/
import Authorship.Proofs.Json.Record
import Authorship.Settings

namespace Authorship.Settings

variable {settings : Settings} {text : String}

/-! ## Settings that make sense -/

/-- Why settings that make no sense are refused. -/
def fault (settings : Settings) : Error :=
  if settings.slotMillis = 0 then .zeroSlot else .proposingTooLong

theorem validate_of_valid (valid : settings.Valid) : settings.validate = .ok () := by
  rw [validate, if_neg valid.1, if_neg (UInt64.not_lt.mpr valid.2)]

theorem validate_of_not_valid (senseless : ¬ settings.Valid) :
    settings.validate = .error settings.fault := by
  unfold validate fault
  split
  · rfl
  · next lasts =>
    have long : settings.slotMillis < settings.proposingMillis :=
      UInt64.not_le.mp fun short => senseless ⟨lasts, short⟩
    rw [if_pos long]

theorem ofJson_of_valid (read : Json.readWhole format.read text = .ok settings)
    (valid : settings.Valid) : ofJson text = .ok settings := by
  rw [ofJson, read]
  change (do settings.validate; return settings) = _
  rw [validate_of_valid valid]
  rfl

theorem ofJson_of_not_valid (read : Json.readWhole format.read text = .ok settings)
    (senseless : ¬ settings.Valid) : ofJson text = .error settings.fault := by
  rw [ofJson, read]
  change (do settings.validate; return settings) = _
  rw [validate_of_not_valid senseless]
  rfl

theorem valid_of_ofJson (read : ofJson text = .ok settings) : settings.Valid := by
  cases found : Json.readWhole format.read text with
  | error fault =>
      rw [ofJson, found] at read
      cases read
  | ok other =>
      by_cases valid : other.Valid
      · cases read.symm.trans (ofJson_of_valid found valid)
        exact valid
      · cases read.symm.trans (ofJson_of_not_valid found valid)

/-! ## Fields that are given -/

/-- A field and the value that it is given. -/
inductive Assignment where
  | slotMillis (value : UInt64)
  | proposingMillis (value : UInt64)
  | blockSizeLimit (value : Option UInt64)
  | forceAuthoring (value : Bool)
deriving DecidableEq, Repr

/-- The settings with a field given. -/
def assign (settings : Settings) : Assignment → Settings
  | .slotMillis value => { settings with slotMillis := value }
  | .proposingMillis value => { settings with proposingMillis := value }
  | .blockSizeLimit value => { settings with blockSizeLimit := value }
  | .forceAuthoring value => { settings with forceAuthoring := value }

namespace Assignment

/-- The names that the field may have in a text. -/
def names : Assignment → List String
  | slotMillis _ => ["slot_duration", "slot_duration_ms"]
  | proposingMillis _ => ["proposing_duration", "proposing_duration_ms"]
  | blockSizeLimit _ => ["block_size_limit"]
  | forceAuthoring _ => ["force_authoring"]

/-- The value as it is written. -/
def valueText : Assignment → String
  | slotMillis value | proposingMillis value => toString value.toNat
  | blockSizeLimit value => limitText value
  | forceAuthoring value => if value then "true" else "false"

end Assignment

/-- A field that is given under one of its names. -/
structure Member where
  assignment : Assignment
  name : String
  named : name ∈ assignment.names

/-- The name and the text of the value. -/
def Member.entry (member : Member) : String × List Char :=
  (member.name, member.assignment.valueText.toList)

namespace Given

def assign (given : Given) : Assignment → Given
  | .slotMillis value => { given with slotMillis := some value }
  | .proposingMillis value => { given with proposingMillis := some value }
  | .blockSizeLimit value => { given with blockSizeLimit := some value }
  | .forceAuthoring value => { given with forceAuthoring := some value }

/-- Whether the field of the assignment was given before. -/
def has (given : Given) : Assignment → Bool
  | .slotMillis _ => given.slotMillis.isSome
  | .proposingMillis _ => given.proposingMillis.isSome
  | .blockSizeLimit _ => given.blockSizeLimit.isSome
  | .forceAuthoring _ => given.forceAuthoring.isSome

theorem complete_assign (given : Given) (assignment : Assignment) :
    (given.assign assignment).complete = given.complete.assign assignment := by
  cases assignment <;> rfl

theorem has_assign {one two : Assignment} (different : one.names ≠ two.names) (given : Given) :
    (given.assign one).has two = given.has two := by
  cases one <;> cases two <;> first | rfl | exact absurd rfl different

end Given

/-! ## Reading the fields -/

theorem readsFrom_word (wanted : String) (value : UInt64) :
    Json.ReadsFrom (readWord wanted) (toString value.toNat).toList value := by
  have small : value.toNat ≤ UInt64.size - 1 := Nat.le_sub_one_of_lt value.toNat_lt_size
  have read := (Json.readsFrom_natural wanted small (by decide)).bind_pure UInt64.ofNat
  rw [UInt64.ofNat_toNat] at read
  rw [readWord, map_eq_pure_bind, Nat.toString_eq_repr, Nat.toList_repr]
  exact read

theorem readsFrom_limit (limit : Option UInt64) :
    Json.ReadsFrom (Json.readOptional (readWord "usize")) (limitText limit).toList limit := by
  cases limit with
  | none => exact Json.readsFrom_null _
  | some limit =>
      have read := readsFrom_word "usize" limit
      obtain ⟨first, more, form, digit⟩ := Json.exists_toDigits_eq_cons limit.toNat
      rw [limitText]
      rw [Nat.toString_eq_repr, Nat.toList_repr, form] at read ⊢
      refine read.optional (Json.isBlank_of_isDigit digit) ?_
      rintro rfl
      exact absurd digit (by decide)

/-- Each field is found under its names, knows whether it was given, and reads its values. -/
theorem exists_field (assignment : Assignment) :
    ∃ field, (∀ name ∈ assignment.names, format.field? name = some field) ∧
      (∀ given, field.isSet given = given.has assignment) ∧
      ∀ given, Json.ReadsFrom (field.read given) assignment.valueText.toList
        (given.assign assignment) := by
  cases assignment with
  | slotMillis value =>
      refine ⟨fields[0], ?_, fun _ => rfl, fun _ => (readsFrom_word "u64" value).bind_pure _⟩
      exact List.forall_mem_cons.mpr ⟨rfl, List.forall_mem_singleton.mpr rfl⟩
  | proposingMillis value =>
      refine ⟨fields[1], ?_, fun _ => rfl, fun _ => (readsFrom_word "u64" value).bind_pure _⟩
      exact List.forall_mem_cons.mpr ⟨rfl, List.forall_mem_singleton.mpr rfl⟩
  | blockSizeLimit value =>
      refine ⟨fields[2], ?_, fun _ => rfl, fun _ => (readsFrom_limit value).bind_pure _⟩
      exact List.forall_mem_singleton.mpr rfl
  | forceAuthoring value =>
      refine ⟨fields[3], ?_, fun _ => rfl, fun _ => (Json.readsFrom_bool value).bind_pure _⟩
      exact List.forall_mem_singleton.mpr rfl

/-- Members that give no field twice lead to what they give. -/
theorem leads_of_nodup {members : List Member} {given : Given}
    (unset : ∀ member ∈ members, given.has member.assignment = false)
    (once : (members.map (·.assignment.names)).Nodup) :
    format.Leads given (members.map Member.entry)
      (members.foldl (fun given member => given.assign member.assignment) given) := by
  induction members generalizing given with
  | nil => exact .nil given
  | cons member more inductionHypothesis =>
      obtain ⟨unsetFirst, unsetRest⟩ := List.forall_mem_cons.mp unset
      obtain ⟨new, onceRest⟩ := List.nodup_cons.mp once
      obtain ⟨field, known, isSet, reads⟩ := exists_field member.assignment
      refine .cons (known member.name member.named) ((isSet given).trans unsetFirst)
        (reads given) ?_
      refine inductionHypothesis ?_ onceRest
      intro other later
      have different : member.assignment.names ≠ other.assignment.names := fun same =>
        new (List.mem_map.mpr ⟨other, later, same.symm⟩)
      rw [Given.has_assign different]
      exact unsetRest other later

/-- The settings that members give, over others. -/
def assignAll (settings : Settings) (members : List Member) : Settings :=
  members.foldl (fun settings member => settings.assign member.assignment) settings

theorem complete_foldl (members : List Member) (given : Given) :
    (members.foldl (fun given member => given.assign member.assignment) given).complete =
      given.complete.assignAll members := by
  induction members generalizing given with
  | nil => rfl
  | cons member more inductionHypothesis =>
      refine (inductionHypothesis _).trans ?_
      rw [Given.complete_assign]
      rfl

/-- An object that gives no field twice is read as what it gives, over the standard settings. -/
theorem readWhole_of_objectText {members : List Member}
    (once : (members.map (·.assignment.names)).Nodup)
    (object : Json.ObjectText (members.map Member.entry) text.toList) :
    Json.readWhole format.read text = .ok (assignAll {} members) := by
  have unset : ∀ member ∈ members, format.start.has member.assignment = false := by
    intro member _
    cases member.assignment <;> rfl
  obtain ⟨rest, blank, read⟩ :=
    Json.RecordFormat.read_of_leads object (leads_of_nodup unset once) rfl
  rw [complete_foldl] at read
  exact Json.readWhole_of_run read blank

/-! ## Settings that were written -/

/-- All fields under their first names. -/
def members (settings : Settings) : List Member := [
  ⟨.slotMillis settings.slotMillis, "slot_duration", List.mem_cons_self⟩,
  ⟨.proposingMillis settings.proposingMillis, "proposing_duration", List.mem_cons_self⟩,
  ⟨.blockSizeLimit settings.blockSizeLimit, "block_size_limit", List.mem_cons_self⟩,
  ⟨.forceAuthoring settings.forceAuthoring, "force_authoring", List.mem_cons_self⟩]

theorem nodup_members (settings : Settings) :
    (settings.members.map (·.assignment.names)).Nodup := by
  change [["slot_duration", "slot_duration_ms"], ["proposing_duration", "proposing_duration_ms"],
    ["block_size_limit"], ["force_authoring"]].Nodup
  decide

theorem assignAll_members (standard settings : Settings) :
    standard.assignAll settings.members = settings := rfl

theorem objectText_toJson (settings : Settings) :
    Json.ObjectText (settings.members.map Member.entry) settings.toJson.toList := by
  have object : Json.ObjectText _ (Json.brace (settings.members.map fun member =>
      (member.name, member.assignment.valueText))).toList :=
    Json.objectText_brace (List.cons_ne_nil _ _)
  rw [List.map_map] at object
  exact object

/-- Written settings are read back, sensible or not. -/
theorem readWhole_toJson (settings : Settings) :
    Json.readWhole format.read settings.toJson = .ok settings := by
  have read := readWhole_of_objectText settings.nodup_members settings.objectText_toJson
  rwa [assignAll_members] at read

/-- Settings that are read make sense. Settings that were written are read back if they do, and are
refused as senseless if they do not; and so are those that an object gives over the standard ones,
whichever fields it gives, in whichever order and under whichever names, but none twice. -/
theorem reads_what_is_given :
    (∀ text settings, ofJson text = .ok settings → settings.Valid) ∧
    (∀ settings : Settings,
      (settings.Valid → ofJson settings.toJson = .ok settings) ∧
      (¬ settings.Valid → ofJson settings.toJson = .error settings.fault)) ∧
    ∀ (members : List Member) (text : String),
      (members.map (·.assignment.names)).Nodup →
      Json.ObjectText (members.map Member.entry) text.toList →
      let settings := assignAll {} members
      (settings.Valid → ofJson text = .ok settings) ∧
      (¬ settings.Valid → ofJson text = .error settings.fault) := by
  refine ⟨fun _ _ => valid_of_ofJson, fun settings => ?_, fun members text once object => ?_⟩
  · have read := settings.readWhole_toJson
    exact ⟨ofJson_of_valid read, ofJson_of_not_valid read⟩
  · have read := readWhole_of_objectText once object
    exact ⟨ofJson_of_valid read, ofJson_of_not_valid read⟩

/-- Two fields under their other names or spelled with escapes, and blanks between them. -/
private def spacedText : String :=
  " \x7b \"proposing_duration_ms\" : 7000 ,\n\"sl\\u006ft_duration\":8000\x7d"

private def spacedMembers : List Member := [
  ⟨.proposingMillis 7000, "proposing_duration_ms", by decide⟩,
  ⟨.slotMillis 8000, "slot_duration", by decide⟩]

private theorem gap_space : Json.Gap [' '] := List.forall_mem_singleton.mpr rfl

private theorem objectText_spaced :
    Json.ObjectText (spacedMembers.map Member.entry) spacedText.toList := by
  have first : Json.MemberText "proposing_duration_ms" (toString 7000).toList _ :=
    .intro (Json.spelled_quotedChars _) gap_space gap_space gap_space
  have spelled : Json.Spelled "slot_duration".toList _ :=
    .plain (by decide) (by decide) (by decide) <| .plain (by decide) (by decide) (by decide) <|
      .number (a := '0') (b := '0') (c := '6') (d := 'f') rfl (.inl (by decide))
        (Json.spelled_quotedChars "t_duration".toList)
  have second : Json.MemberText "slot_duration" (toString 8000).toList _ :=
    .intro spelled Json.gap_nil Json.gap_nil Json.gap_nil
  have newline : Json.Gap ['\n'] := List.forall_mem_singleton.mpr rfl
  exact .filled gap_space gap_space (.cons first newline (.last second)) Json.gap_nil

/-- Settings that are given so; and a slot that is too short for the standard proposing duration. -/
theorem reads_what_is_given_spaced :
    ofJson spacedText = .ok { slotMillis := 8000, proposingMillis := 7000 } ∧
    ofJson (toJson { slotMillis := 100 }) = .error .proposingTooLong ∧
    ofJson (toJson { slotMillis := 100, proposingMillis := 100, blockSizeLimit := some 0 }) =
      .ok { slotMillis := 100, proposingMillis := 100, blockSizeLimit := some 0 } := by
  obtain ⟨_, written, given⟩ := reads_what_is_given
  refine ⟨(given spacedMembers spacedText (by decide) objectText_spaced).1 ?_, (written _).2 ?_,
    (written _).1 ?_⟩
  all_goals
    unfold Valid
    decide

end Authorship.Settings
