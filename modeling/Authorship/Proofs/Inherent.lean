/-
Module: Authorship.Proofs.Inherent
Purpose: What providers write that are put together from others. Their entries are written from left
  to right, each under an identifier that held nothing, up to the first one that cannot be written;
  what was there stays. So it does not matter how the pairs are nested, nor, where all is written,
  in which order they stand.
Main exports: InherentEntry, InherentEntry.Refused, InherentData.Admits, InherentData.Adds,
  InherentData.Agrees, Provision, ProviderTree, ProviderTree.provision,
  ProviderTree.writes_entries_once
-/
import Mathlib.Data.List.Nodup
import Authorship.Inherent
import Authorship.Proofs.Codec

namespace Authorship

/-! ## Entries -/

/-- What a provider is to write: an identifier, and the value's binary form if it has one. -/
structure InherentEntry where
  id : InherentId
  form : Except EncodeError Bytes

namespace InherentEntry

def of {α : Type} [TryEncode α] (id : InherentId) (value : α) : InherentEntry :=
  ⟨id, tryEncode value⟩

/-- Why an entry cannot be written. Whether its identifier is free counts before whether its value
has a binary form. -/
inductive Refused (data : InherentData) (entry : InherentEntry) : InherentError → Prop where
  | alreadyPresent {bytes : Bytes} (present : data.values.get? entry.id = some bytes) :
      Refused data entry (.alreadyPresent entry.id)
  | encode {reason : EncodeError} (absent : data.values.get? entry.id = none)
      (formless : entry.form = .error reason) : Refused data entry (.encode entry.id)

end InherentEntry

namespace InherentData

variable {start middle data other : InherentData} {one two entries : List InherentEntry}

/-- The entries can all be written: their identifiers are distinct, none of these holds a value, and
every value has a binary form. -/
structure Admits (data : InherentData) (entries : List InherentEntry) : Prop where
  distinct : (entries.map InherentEntry.id).Nodup
  absent : ∀ entry ∈ entries, data.values.get? entry.id = none
  encodes : ∀ entry ∈ entries, ∃ bytes, entry.form = .ok bytes

/-- The data hold what the old ones did and exactly the values of the entries besides. -/
structure Adds (start : InherentData) (entries : List InherentEntry) (data : InherentData) :
    Prop where
  written : ∀ entry ∈ entries, ∃ bytes,
    entry.form = .ok bytes ∧ data.values.get? entry.id = some bytes
  kept : ∀ id, (∀ entry ∈ entries, entry.id ≠ id) →
    data.values.get? id = start.values.get? id
  size : data.size = start.size + entries.length

/-- Data that hold the same bytes under every identifier. -/
def Agrees (data other : InherentData) : Prop :=
  ∀ id, data.values.get? id = other.values.get? id

theorem Agrees.size_eq (agrees : data.Agrees other) : data.size = other.size := by
  have sameKeys : data.values.keys.Perm other.values.keys := by
    rw [List.perm_ext_iff_of_nodup data.values.nodup_keys other.values.nodup_keys]
    intro id
    rw [Assoc.mem_keys_iff, Assoc.mem_keys_iff, agrees id]
  rw [size, size, Assoc.size_eq_length_keys, Assoc.size_eq_length_keys, sameKeys.length_eq]

/-! ## Entries in a row -/

theorem Admits.nil (data : InherentData) : data.Admits [] where
  distinct := List.nodup_nil
  absent _ member := absurd member List.not_mem_nil
  encodes _ member := absurd member List.not_mem_nil

theorem Admits.singleton {entry : InherentEntry} {bytes : Bytes}
    (absent : data.values.get? entry.id = none) (form : entry.form = .ok bytes) :
    data.Admits [entry] where
  distinct := List.nodup_singleton entry.id
  absent := List.forall_mem_singleton.mpr absent
  encodes := List.forall_mem_singleton.mpr ⟨bytes, form⟩

theorem Adds.nil (data : InherentData) : data.Adds [] data where
  written _ member := absurd member List.not_mem_nil
  kept _ _ := rfl
  size := rfl

/-- An entry under a free identifier is added by putting its bytes there. -/
theorem adds_insert {entry : InherentEntry} {bytes : Bytes} (form : entry.form = .ok bytes)
    (absent : data.values.get? entry.id = none) :
    data.Adds [entry] { values := data.values.insert entry.id bytes } where
  written := by
    rw [List.forall_mem_singleton]
    exact ⟨bytes, form, Assoc.get?_insert_self ..⟩
  kept id different := by
    rw [List.forall_mem_singleton] at different
    exact (Assoc.get?_insert ..).trans (if_neg different)
  size := by
    change (data.values.insert entry.id bytes).size = data.values.size + 1
    rw [Assoc.size_eq_length_keys, Assoc.size_eq_length_keys, Assoc.keys_insert,
      if_neg (Assoc.get?_eq_none_iff.mp absent), List.length_append, List.length_singleton]

theorem Adds.append (first : start.Adds one middle) (admits : middle.Admits two)
    (second : middle.Adds two data) : start.Adds (one ++ two) data where
  written := by
    rw [List.forall_mem_append]
    refine ⟨?_, second.written⟩
    intro entry member
    obtain ⟨bytes, form, held⟩ := first.written entry member
    -- A later entry needs a free identifier, so none has this one.
    have apart : ∀ later ∈ two, later.id ≠ entry.id := by
      intro later memberLater same
      have free := admits.absent later memberLater
      rw [same, held] at free
      cases free
    exact ⟨bytes, form, (second.kept entry.id apart).trans held⟩
  kept id different := by
    rw [List.forall_mem_append] at different
    exact (second.kept id different.2).trans (first.kept id different.1)
  size := by
    rw [second.size, first.size, List.length_append, Nat.add_assoc]

theorem Admits.append (admits : start.Admits one) (adds : start.Adds one middle)
    (admitsMore : middle.Admits two) : start.Admits (one ++ two) where
  distinct := by
    rw [List.map_append, List.nodup_append]
    refine ⟨admits.distinct, admitsMore.distinct, ?_⟩
    intro id inOne other inTwo same
    obtain ⟨entry, member, rfl⟩ := List.mem_map.mp inOne
    obtain ⟨later, memberLater, rfl⟩ := List.mem_map.mp inTwo
    obtain ⟨_, _, held⟩ := adds.written entry member
    have free := admitsMore.absent later memberLater
    rw [← same, held] at free
    cases free
  absent := by
    rw [List.forall_mem_append]
    refine ⟨admits.absent, ?_⟩
    intro later member
    by_cases again : ∃ entry ∈ one, entry.id = later.id
    · obtain ⟨entry, memberOne, same⟩ := again
      rw [← same]
      exact admits.absent entry memberOne
    · have apart : ∀ entry ∈ one, entry.id ≠ later.id := fun entry memberOne same =>
        again ⟨entry, memberOne, same⟩
      exact (adds.kept later.id apart).symm.trans (admitsMore.absent later member)
  encodes := List.forall_mem_append.mpr ⟨admits.encodes, admitsMore.encodes⟩

/-- What is admitted after some entries were added, if they are admitted together. -/
theorem Admits.of_append (admits : start.Admits (one ++ two)) (adds : start.Adds one middle) :
    middle.Admits two := by
  have distinct := admits.distinct
  rw [List.map_append, List.nodup_append] at distinct
  obtain ⟨_, distinctTwo, apart⟩ := distinct
  have encodes := fun entry member => admits.encodes entry (List.mem_append_right one member)
  refine ⟨distinctTwo, ?_, encodes⟩
  intro entry member
  have different : ∀ earlier ∈ one, earlier.id ≠ entry.id := fun earlier memberOne =>
    apart _ (List.mem_map_of_mem memberOne) _ (List.mem_map_of_mem member)
  exact (adds.kept entry.id different).trans (admits.absent entry (List.mem_append_right _ member))

theorem Admits.perm (admits : data.Admits one) (reordered : one.Perm two) : data.Admits two where
  distinct := (reordered.map InherentEntry.id).nodup admits.distinct
  absent entry member := admits.absent entry (reordered.mem_iff.mpr member)
  encodes entry member := admits.encodes entry (reordered.mem_iff.mpr member)

theorem Adds.agrees (adds : start.Adds one data) (reordered : one.Perm two)
    (addsOther : start.Adds two other) : data.Agrees other := by
  intro id
  by_cases listed : ∃ entry ∈ one, entry.id = id
  · obtain ⟨entry, member, rfl⟩ := listed
    obtain ⟨bytes, form, held⟩ := adds.written entry member
    obtain ⟨bytesOther, formOther, heldOther⟩ :=
      addsOther.written entry (reordered.mem_iff.mp member)
    cases form.symm.trans formOther
    exact held.trans heldOther.symm
  · have apart : ∀ entry ∈ one, entry.id ≠ id := fun entry member same =>
      listed ⟨entry, member, same⟩
    have apartOther : ∀ entry ∈ two, entry.id ≠ id := fun entry member =>
      apart entry (reordered.mem_iff.mpr member)
    exact (adds.kept id apart).trans (addsOther.kept id apartOther).symm

end InherentData

/-! ## How writing ends -/

/-- How the writing of entries ends: all are written, or those before the first one that cannot be.
-/
inductive Provision (start : InherentData) (entries : List InherentEntry) :
    Except InherentError Unit × InherentData → Prop where
  | written {data : InherentData} (admits : start.Admits entries)
      (adds : start.Adds entries data) : Provision start entries (.ok (), data)
  | stopped {before later : List InherentEntry} {entry : InherentEntry} {data : InherentData}
      {error : InherentError} (split : entries = before ++ entry :: later)
      (admits : start.Admits before) (adds : start.Adds before data)
      (refused : entry.Refused data error) : Provision start entries (.error error, data)

namespace Provision

variable {start middle : InherentData} {one two entries : List InherentEntry}
  {result : Except InherentError Unit × InherentData}

theorem append (first : Provision start one (.ok (), middle))
    (second : Provision middle two result) : Provision start (one ++ two) result := by
  cases first with
  | written admits adds =>
      cases second with
      | written admitsMore addsMore =>
          exact .written (admits.append adds admitsMore) (adds.append admitsMore addsMore)
      | stopped split admitsMore addsMore refused =>
          subst split
          exact .stopped (List.append_assoc ..).symm (admits.append adds admitsMore)
            (adds.append admitsMore addsMore) refused

theorem stop_append {error : InherentError} {data : InherentData}
    (first : Provision start one (.error error, data)) (two : List InherentEntry) :
    Provision start (one ++ two) (.error error, data) := by
  cases first with
  | stopped split admits adds refused =>
      subst split
      exact .stopped (List.append_assoc ..) admits adds refused

theorem eq_ok_iff (provision : Provision start entries result) :
    result.1 = .ok () ↔ start.Admits entries := by
  cases provision with
  | written admits _ => exact iff_of_true rfl admits
  | stopped split _ adds refused =>
      refine iff_of_false (fun same => nomatch same) fun admitsAll => ?_
      have admitted := (split ▸ admitsAll).of_append adds
      have free := admitted.absent _ List.mem_cons_self
      obtain ⟨bytes, form⟩ := admitted.encodes _ List.mem_cons_self
      cases refused with
      | alreadyPresent present => cases free.symm.trans present
      | encode _ formless => cases form.symm.trans formless

/-- What an identifier held it still holds, however the writing ended. -/
theorem keeps (provision : Provision start entries result) {id : InherentId} {bytes : Bytes}
    (held : start.values.get? id = some bytes) : result.2.values.get? id = some bytes := by
  have stays {entries : List InherentEntry} {data : InherentData} (admits : start.Admits entries)
      (adds : start.Adds entries data) : data.values.get? id = some bytes := by
    refine (adds.kept id ?_).trans held
    rintro entry member rfl
    cases (admits.absent entry member).symm.trans held
  cases provision with
  | written admits adds => exact stays admits adds
  | stopped _ admits adds _ => exact stays admits adds

end Provision

/-! ## One value -/

namespace InherentData

variable {α : Type} [TryEncode α] {data : InherentData} {id : InherentId} {value : α}

theorem run_put_of_present {bytes : Bytes} (present : data.values.get? id = some bytes) :
    (put id value).run.run data = (.error (.alreadyPresent id), data) := by
  have holds : data.values.contains id = true := by rw [Assoc.contains, present]; rfl
  rw [put, Attempt.run_bind_eq (Attempt.run_get data), if_pos holds]
  rfl

section Absent

variable (absent : data.values.get? id = none)
include absent

theorem run_put_ok {bytes : Bytes} (form : tryEncode value = .ok bytes) :
    (put id value).run.run data = (.ok (), { values := data.values.insert id bytes }) := by
  have fresh : ¬data.values.contains id = true := by simp [Assoc.contains, absent]
  rw [put, Attempt.run_bind_eq (Attempt.run_get data), if_neg fresh, form]
  rfl

theorem run_put_of_formless {reason : EncodeError} (formless : tryEncode value = .error reason) :
    (put id value).run.run data = (.error (.encode id), data) := by
  have fresh : ¬data.values.contains id = true := by simp [Assoc.contains, absent]
  rw [put, Attempt.run_bind_eq (Attempt.run_get data), if_neg fresh, formless]
  rfl

end Absent

end InherentData

/-! ## Providers put together -/

namespace InherentProvider

theorem provide_both (one two : InherentProvider) (start : InherentData) :
    (both one two).provide start =
      match one.provide start with
      | (.ok (), middle) => two.provide middle
      | (.error error, middle) => (.error error, middle) := by
  rw [provide, provide, both]
  cases ran : one.run.run start with
  | mk outcome middle =>
      cases outcome with
      | ok _ => exact Attempt.run_bind_eq ran
      | error _ => exact Attempt.run_bind_error ran

theorem provision_single {α : Type} [TryEncode α] (id : InherentId) (value : α)
    (data : InherentData) :
    Provision data [.of id value] ((single id value).provide data) := by
  rw [provide, single]
  cases present : data.values.get? id with
  | some bytes =>
      rw [InherentData.run_put_of_present present]
      exact .stopped (List.nil_append _).symm (.nil data) (.nil data) (.alreadyPresent present)
  | none =>
      cases form : tryEncode value with
      | ok bytes =>
          rw [InherentData.run_put_ok present form]
          exact .written (.singleton present form) (InherentData.adds_insert form present)
      | error reason =>
          rw [InherentData.run_put_of_formless present form]
          exact .stopped (List.nil_append _).symm (.nil data) (.nil data) (.encode present form)

theorem both_assoc (one two three : InherentProvider) :
    both (both one two) three = both one (both two three) :=
  bind_assoc one (fun _ => two) (fun _ => three)

theorem nothing_both (provider : InherentProvider) : both nothing provider = provider :=
  pure_bind () fun _ => provider

theorem both_nothing (provider : InherentProvider) : both provider nothing = provider :=
  bind_pure_unit

end InherentProvider

/-- How a provider is put together from those of one value and those of none. -/
inductive ProviderTree : Type 1 where
  | nothing
  | slot (number : UInt32)
  | single {α : Type} [TryEncode α] (id : InherentId) (value : α)
  | both (one two : ProviderTree)

namespace ProviderTree

def provider : ProviderTree → InherentProvider
  | nothing => .nothing
  | slot number => .slot number
  | single id value => .single id value
  | both one two => .both one.provider two.provider

/-- What is to be written, from left to right. -/
def entries : ProviderTree → List InherentEntry
  | nothing => []
  | slot number => [.of slotInherent number]
  | single id value => [.of id value]
  | both one two => one.entries ++ two.entries

/-- The slots that are supplied, from left to right. -/
def slots : ProviderTree → List UInt32
  | nothing | single _ _ => []
  | slot number => [number]
  | both one two => one.slots ++ two.slots

theorem provision (tree : ProviderTree) (start : InherentData) :
    Provision start tree.entries (tree.provider.provide start) := by
  induction tree generalizing start with
  | nothing => exact .written (.nil start) (.nil start)
  | slot number => exact InherentProvider.provision_single slotInherent number start
  | single id value => exact InherentProvider.provision_single id value start
  | both one two first second =>
      rw [provider, InherentProvider.provide_both, entries]
      have done := first start
      generalize one.provider.provide start = result at done ⊢
      obtain ⟨outcome, middle⟩ := result
      cases outcome with
      | ok _ => exact done.append (second middle)
      | error error => exact done.stop_append two.entries

theorem mem_entries_of_mem_slots {tree : ProviderTree} {number : UInt32}
    (supplied : number ∈ tree.slots) : .of slotInherent number ∈ tree.entries := by
  induction tree with
  | nothing => cases supplied
  | single id value => cases supplied
  | slot other =>
      cases List.mem_singleton.mp supplied
      exact List.mem_cons_self
  | both one two first second =>
      rw [slots, List.mem_append] at supplied
      exact List.mem_append.mpr (supplied.imp first second)

/-- Where both halves of a pair are written, they are written the other way round too. -/
theorem provide_swapped {one two : ProviderTree} {start data : InherentData}
    (written : (both one two).provider.provide start = (.ok (), data)) :
    ∃ swapped, (both two one).provider.provide start = (.ok (), swapped) ∧ swapped.Agrees data := by
  have reordered : (two.entries ++ one.entries).Perm (one.entries ++ two.entries) :=
    List.perm_append_comm
  have done := provision (both one two) start
  rw [written] at done
  cases done with
  | written admits adds =>
      have other := provision (both two one) start
      have went := other.eq_ok_iff.mpr (admits.perm reordered.symm)
      generalize (both two one).provider.provide start = result at other went ⊢
      cases other with
      | written _ addsOther => exact ⟨_, rfl, addsOther.agrees reordered adds⟩
      | stopped => cases went

end ProviderTree

namespace InherentProvider

theorem provide_of_create_eq_ok {provider : InherentProvider} {data : InherentData}
    (created : provider.create = .ok data) : provider.provide .empty = (.ok (), data) := by
  rw [create] at created
  split at created
  · next outcome =>
      cases created
      exact outcome
  · cases created

end InherentProvider

namespace InherentData

variable {start data : InherentData} {entries : List InherentEntry}

theorem slot_of_get?_eq_none (absent : data.values.get? slotInherent = none) :
    data.slot = .ok none := by
  rw [slot, get, absent]

theorem slot_of_get?_encode {number : UInt32}
    (held : data.values.get? slotInherent = some (encode number)) :
    data.slot = .ok (some number) := by
  have fits : Fits number := trivial
  rw [slot, get, held]
  simp only [LawfulCodec.decode_encode fits]

theorem Adds.slot_of_mem {number : UInt32} (adds : start.Adds entries data)
    (member : .of slotInherent number ∈ entries) : data.slot = .ok (some number) := by
  obtain ⟨bytes, form, held⟩ := adds.written _ member
  cases form
  exact slot_of_get?_encode held

end InherentData

namespace ProviderTree

/-- However providers of slots and of single values are put together: all their entries are written
just when these have distinct identifiers, under which the data hold nothing, and binary forms; then
exactly their values are added. Otherwise the entries before the first one that cannot be written
are added, and that one is what the error is about. No value that was there changes. So the nesting
does not matter and a provider of nothing does not either; the order does not where all is written;
and fresh data show the slot that a provider of slots supplied, or none if there is no entry for it.
-/
theorem writes_entries_once :
    (∀ (tree : ProviderTree) (start : InherentData),
      let result := tree.provider.provide start
      (result.1 = .ok () ↔ start.Admits tree.entries) ∧
      (result.1 = .ok () → start.Adds tree.entries result.2) ∧
      (∀ error, result.1 = .error error → ∃ before entry later,
        tree.entries = before ++ entry :: later ∧ start.Admits before ∧
          start.Adds before result.2 ∧ entry.Refused result.2 error) ∧
      ∀ id bytes, start.values.get? id = some bytes → result.2.values.get? id = some bytes) ∧
    (∀ one two three : ProviderTree,
      (both (both one two) three).provider = (both one (both two three)).provider ∧
      (both nothing one).provider = one.provider ∧ (both one nothing).provider = one.provider) ∧
    (∀ (one two : ProviderTree) (start data : InherentData),
      (both one two).provider.provide start = (.ok (), data) →
        ∃ swapped, (both two one).provider.provide start = (.ok (), swapped) ∧
          swapped.Agrees data ∧ swapped.size = data.size) ∧
    ∀ (tree : ProviderTree) (data : InherentData), tree.provider.create = .ok data →
      (∀ number ∈ tree.slots, data.slot = .ok (some number)) ∧
      ((∀ entry ∈ tree.entries, entry.id ≠ slotInherent) → data.slot = .ok none) := by
  refine ⟨?once, ?nested, ?swapped, ?slotRead⟩
  case once =>
    intro tree start result
    have done : Provision start tree.entries result := tree.provision start
    clear_value result
    refine ⟨done.eq_ok_iff, ?_, ?_, fun _ _ => done.keeps⟩
    · intro went
      cases done with
      | written _ adds => exact adds
      | stopped => cases went
    · intro error failed
      cases done with
      | written => cases failed
      | stopped split admits adds refused =>
          cases failed
          exact ⟨_, _, _, split, admits, adds, refused⟩
  case nested =>
    intro one two three
    exact ⟨InherentProvider.both_assoc .., InherentProvider.nothing_both _,
      InherentProvider.both_nothing _⟩
  case swapped =>
    intro one two start data written
    obtain ⟨swapped, other, agrees⟩ := provide_swapped written
    exact ⟨swapped, other, agrees, agrees.size_eq⟩
  case slotRead =>
    intro tree data created
    have done := tree.provision .empty
    rw [InherentProvider.provide_of_create_eq_ok created] at done
    cases done with
    | written _ adds =>
        refine ⟨?_, ?_⟩
        · intro number supplied
          exact adds.slot_of_mem (mem_entries_of_mem_slots supplied)
        · intro absent
          exact InherentData.slot_of_get?_eq_none (adds.kept slotInherent absent)

/-- A value without a binary form. -/
private structure Formless where

private instance : TryEncode Formless := ⟨fun _ => .error ⟨"formless"⟩⟩

private def someInherent : InherentId := .replicate 8 1

private def otherInherent : InherentId := .replicate 8 2

/-- Data in which one identifier is taken. -/
private def takenData : InherentData := { values := .ofPairs [(otherInherent, [9])] }

private def slotAndValue : ProviderTree := both (slot 7) (both nothing (single someInherent true))

/-- The last of three entries cannot be written: its identifier is taken, and it has no form. -/
private def stumbling : ProviderTree := both slotAndValue (single otherInherent Formless.mk)

/-- Two entries before one that cannot be written; and the two alone, in either order. -/
theorem writes_entries_once_stumbling :
    (∃ before entry later,
      stumbling.entries = before ++ entry :: later ∧ takenData.Admits before ∧
        takenData.Adds before (stumbling.provider.provide takenData).2 ∧
        entry.Refused (stumbling.provider.provide takenData).2 (.alreadyPresent otherInherent)) ∧
    (stumbling.provider.provide takenData).2.values.get? otherInherent = some [9] ∧
    takenData.Admits slotAndValue.entries ∧
    takenData.Adds slotAndValue.entries (slotAndValue.provider.provide takenData).2 ∧
    (∃ swapped, (both (both nothing (single someInherent true)) (slot 7)).provider.provide
        takenData = (.ok (), swapped) ∧
      swapped.Agrees (slotAndValue.provider.provide takenData).2) ∧
    ∃ data, slotAndValue.provider.create = .ok data ∧ data.slot = .ok (some 7) := by
  obtain ⟨once, _, swapped, slotRead⟩ := writes_entries_once
  obtain ⟨_, _, stops, keeps⟩ := once stumbling takenData
  obtain ⟨goes, adds, _, _⟩ := once slotAndValue takenData
  have went : (slotAndValue.provider.provide takenData).1 = .ok () := rfl
  obtain ⟨other, turned, agrees, _⟩ := swapped (slot 7) (both nothing (single someInherent true))
    takenData (slotAndValue.provider.provide takenData).2 rfl
  obtain ⟨shows, _⟩ := slotRead slotAndValue _ rfl
  exact ⟨stops _ rfl, keeps otherInherent [9] rfl, goes.mp went, adds went, ⟨other, turned, agrees⟩,
    _, rfl, shows 7 List.mem_cons_self⟩

end ProviderTree

end Authorship
