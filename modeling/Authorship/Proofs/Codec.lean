/-
Module: Authorship.Proofs.Codec
Purpose: Reading undoes writing, and nothing else can be read. A value whose lengths fit into 64
  bits is read back from its binary form, whatever comes after it; and what a value is read from
  begins with its binary form. So the binary form of one value never begins that of another.
Main exports: Decoder.run_bind_eq_ok_iff, Decoder.run_map_eq_ok_iff, LawfulCodec,
  LawfulCodec.decode?_eq_some_iff, LawfulCodec.eq_of_encode_append_eq,
  LawfulCodec.run_counted_eq_ok_iff
-/
import Authorship.Codec
import Authorship.Proofs.Text.Utf8

namespace Authorship

variable {α β : Type} {bytes rest : Bytes}

namespace Decoder

/-! ## Decoders in a row -/

theorem run_pure_eq_ok_iff {given value : α} :
    (pure given : Decoder α).run bytes = .ok (value, rest) ↔ given = value ∧ bytes = rest := by
  change Except.ok (given, bytes) = .ok (value, rest) ↔ _
  rw [Except.ok.injEq, Prod.mk.injEq]

/-- A decoder that goes on with what another one leaves. -/
theorem run_bind_eq_ok_iff {first : Decoder β} {next : β → Decoder α} {value : α} :
    (first >>= next).run bytes = .ok (value, rest) ↔
      ∃ given middle, first.run bytes = .ok (given, middle) ∧
        (next given).run middle = .ok (value, rest) := by
  rw [StateT.run_bind]
  cases ran : first.run bytes with
  | error error =>
      constructor
      · intro failed
        cases failed
      · rintro ⟨given, middle, impossible, _⟩
        cases impossible
  | ok result =>
      obtain ⟨given, middle⟩ := result
      constructor
      · intro went
        exact ⟨given, middle, rfl, went⟩
      · rintro ⟨_, _, same, went⟩
        cases same
        exact went

theorem run_map_eq_ok_iff {convert : β → α} {decoder : Decoder β} {value : α} :
    (convert <$> decoder).run bytes = .ok (value, rest) ↔
      ∃ given, decoder.run bytes = .ok (given, rest) ∧ convert given = value := by
  rw [map_eq_pure_bind, run_bind_eq_ok_iff]
  simp only [run_pure_eq_ok_iff]
  constructor
  · rintro ⟨given, _, ran, converted, rfl⟩
    exact ⟨given, ran, converted⟩
  · rintro ⟨given, ran, converted⟩
    exact ⟨given, rest, ran, converted, rfl⟩

/-! ## Bytes and numbers of a fixed width -/

/-- Reading a fixed number of bytes succeeds just when the input begins with the bytes read, and
leaves what follows them. -/
theorem run_fixedBytes_eq_ok_iff {width : Nat} {fixed : FixedBytes width} :
    (fixedBytes width).run bytes = .ok (fixed, rest) ↔ bytes = fixed.toList ++ rest := by
  simp only [StateT.run, fixedBytes]
  constructor
  · intro ran
    cases front : (FixedBytes.ofList? (bytes.take width) : Option (FixedBytes width)) with
    | none =>
        rw [front] at ran
        cases ran
    | some found =>
        rw [front] at ran
        cases ran
        rw [← FixedBytes.ofList?_eq_some_iff.mp front]
        exact (List.take_append_drop width bytes).symm
  · rintro rfl
    rw [List.take_left' fixed.length_toList, FixedBytes.ofList?_toList,
      List.drop_left' fixed.length_toList]

theorem run_byte_eq_ok_iff {value : UInt8} :
    byte.run bytes = .ok (value, rest) ↔ bytes = value :: rest := by
  cases bytes with
  | nil => simp [byte, StateT.run]
  | cons first tail => simp [byte, StateT.run]

theorem run_unsigned_eq_ok_iff {width number : Nat} :
    (unsigned width).run bytes = .ok (number, rest) ↔
      number < Nat.pow 256 width ∧ bytes = littleEndian width number ++ rest := by
  simp only [unsigned, run_bind_eq_ok_iff, run_fixedBytes_eq_ok_iff, run_pure_eq_ok_iff]
  constructor
  · rintro ⟨⟨digits, rfl⟩, _, rfl, rfl, rfl⟩
    rw [littleEndian_ofLittleEndian]
    exact ⟨ofLittleEndian_lt digits, rfl⟩
  · rintro ⟨small, rfl⟩
    refine ⟨⟨littleEndian width number, length_littleEndian width number⟩, rest, rfl, ?_, rfl⟩
    rw [ofLittleEndian_littleEndian, Nat.mod_eq_of_lt small]

/-- A word is read as the number that it stands for. -/
theorem run_word_eq_ok_iff {word : Type} {width : Nat} {ofNat : Nat → word} {toNat : word → Nat}
    (bounded : ∀ value, toNat value < Nat.pow 256 width)
    (ofNat_toNat : ∀ value, ofNat (toNat value) = value)
    (toNat_ofNat : ∀ number, number < Nat.pow 256 width → toNat (ofNat number) = number)
    {value : word} :
    (ofNat <$> unsigned width).run bytes = .ok (value, rest) ↔
      bytes = littleEndian width (toNat value) ++ rest := by
  simp only [run_map_eq_ok_iff, run_unsigned_eq_ok_iff]
  constructor
  · rintro ⟨number, ⟨small, begins⟩, rfl⟩
    rw [toNat_ofNat number small]
    exact begins
  · intro begins
    exact ⟨toNat value, ⟨bounded value, begins⟩, ofNat_toNat value⟩

end Decoder

/-! ## Lawful types -/

/-- Types whose values are read back from their binary form, and from nothing else. -/
class LawfulCodec (α : Type) [Encode α] [Decode α] where
  /-- The type admits the value, and every length in it fits into the 64 bits that it has in the
  binary form. -/
  Fits : α → Prop
  /-- A value is read just when the input begins with its binary form, and the rest is left. -/
  run_eq_ok_iff : ∀ {bytes rest : Bytes} {value : α},
    (Decode.decoder : Decoder α).run bytes = .ok (value, rest) ↔
      Fits value ∧ bytes = encode value ++ rest

export LawfulCodec (Fits)

namespace LawfulCodec

section Laws

variable [Encode α] [Decode α] [LawfulCodec α]

theorem run_encode_append {value : α} (fits : Fits value) (rest : Bytes) :
    (Decode.decoder : Decoder α).run (encode value ++ rest) = .ok (value, rest) :=
  run_eq_ok_iff.mpr ⟨fits, rfl⟩

/-- No binary form begins another one. -/
theorem eq_of_encode_append_eq {one two : α} {oneRest twoRest : Bytes} (oneFits : Fits one)
    (twoFits : Fits two) (same : encode one ++ oneRest = encode two ++ twoRest) :
    one = two ∧ oneRest = twoRest := by
  have readsOne := run_encode_append oneFits oneRest
  rw [same, run_encode_append twoFits twoRest] at readsOne
  obtain ⟨values, rests⟩ := Prod.mk.inj (Except.ok.inj readsOne)
  exact ⟨values.symm, rests.symm⟩

theorem encode_inj {one two : α} (oneFits : Fits one) (twoFits : Fits two) :
    encode one = encode two ↔ one = two := by
  constructor
  · intro same
    have sameRest : encode one ++ [] = encode two ++ [] := by rw [same]
    exact (eq_of_encode_append_eq oneFits twoFits sameRest).1
  · exact congrArg encode

theorem decode_eq_ok_iff {value : α} :
    decode α bytes = .ok value ↔ Fits value ∧ ∃ rest, bytes = encode value ++ rest := by
  have reads : (∃ rest, (Decode.decoder : Decoder α).run bytes = .ok (value, rest)) ↔
      Fits value ∧ ∃ rest, bytes = encode value ++ rest := by
    simp only [run_eq_ok_iff, exists_and_left]
  rw [← reads, decode]
  cases (Decode.decoder : Decoder α).run bytes with
  | error error => simp [Except.map]
  | ok result =>
      obtain ⟨found, rest⟩ := result
      simp [Except.map]

theorem decode?_eq_some_iff {value : α} :
    decode? α bytes = some value ↔ Fits value ∧ ∃ rest, bytes = encode value ++ rest := by
  rw [← decode_eq_ok_iff, decode?]
  cases decode α bytes <;> simp [Except.toOption]

theorem decode_encode {value : α} (fits : Fits value) : decode α (encode value) = .ok value :=
  decode_eq_ok_iff.mpr ⟨fits, [], (List.append_nil _).symm⟩

end Laws

/-! ## Base types -/

instance : LawfulCodec UInt8 where
  Fits _ := True
  run_eq_ok_iff := by
    intro bytes rest value
    rw [true_and]
    exact Decoder.run_byte_eq_ok_iff

instance : LawfulCodec UInt16 where
  Fits _ := True
  run_eq_ok_iff := by
    intro bytes rest value
    rw [true_and]
    exact Decoder.run_word_eq_ok_iff UInt16.toNat_lt (fun _ => UInt16.ofNat_toNat)
      fun _ => UInt16.toNat_ofNat_of_lt

instance : LawfulCodec UInt32 where
  Fits _ := True
  run_eq_ok_iff := by
    intro bytes rest value
    rw [true_and]
    exact Decoder.run_word_eq_ok_iff UInt32.toNat_lt (fun _ => UInt32.ofNat_toNat)
      fun _ => UInt32.toNat_ofNat_of_lt

instance : LawfulCodec UInt64 where
  Fits _ := True
  run_eq_ok_iff := by
    intro bytes rest value
    rw [true_and]
    exact Decoder.run_word_eq_ok_iff UInt64.toNat_lt (fun _ => UInt64.ofNat_toNat)
      fun _ => UInt64.toNat_ofNat_of_lt

instance : LawfulCodec Int32 where
  Fits _ := True
  run_eq_ok_iff := by
    intro bytes rest value
    change (UInt32.toInt32 <$> (Decode.decoder : Decoder UInt32)).run bytes = _ ↔ _
    simp only [Decoder.run_map_eq_ok_iff, run_eq_ok_iff]
    constructor
    · rintro ⟨word, begins, rfl⟩
      exact begins
    · intro begins
      exact ⟨value.toUInt32, begins, value.toInt32_toUInt32⟩

instance : LawfulCodec Bool where
  Fits _ := True
  run_eq_ok_iff := by
    intro bytes rest value
    change (do
      match ← Decoder.byte with
      | 0 => return false
      | 1 => return true
      | found => throw (.invalidBool found) : Decoder Bool).run bytes = _ ↔ _
    simp only [Decoder.run_bind_eq_ok_iff, Decoder.run_byte_eq_ok_iff, true_and]
    constructor
    · rintro ⟨first, _, rfl, ran⟩
      split at ran
      · cases ran
        rfl
      · cases ran
        rfl
      · cases ran
    · rintro rfl
      cases value with
      | false => exact ⟨0, rest, rfl, rfl⟩
      | true => exact ⟨1, rest, rfl, rfl⟩

instance {width : Nat} : LawfulCodec (FixedBytes width) where
  Fits _ := True
  run_eq_ok_iff := by
    intro bytes rest value
    rw [true_and]
    exact Decoder.run_fixedBytes_eq_ok_iff

/-! ## Texts -/

theorem run_text_eq_ok_iff {count : Nat} {value : String} :
    (Decoder.text count).run bytes = .ok (value, rest) ↔
      (Utf8.encode value).length = count ∧ bytes = Utf8.encode value ++ rest := by
  simp only [StateT.run, Decoder.text]
  constructor
  · intro ran
    split at ran
    · cases ran
    · next front taken =>
      split at ran
      · next found read =>
        cases ran
        rw [← Utf8.decode_eq_ok_iff.mp read]
        refine ⟨front.length_toList, ?_⟩
        rw [← FixedBytes.ofList?_eq_some_iff.mp taken, List.take_append_drop]
      · cases ran
  · rintro ⟨rfl, rfl⟩
    have taken := FixedBytes.ofList?_toList ⟨Utf8.encode value, rfl⟩
    rw [List.take_left, List.drop_left, taken]
    dsimp only
    rw [Utf8.decode_eq_ok_iff.mpr rfl]

/-- What follows its 64-bit length is read just if the length fits. -/
theorem run_counted_eq_ok_iff {body : Nat → Decoder α} {value : α} {size : Nat} {valid : Prop}
    {form : Bytes}
    (reads : ∀ {count bytes}, (body count).run bytes = .ok (value, rest) ↔
      size = count ∧ valid ∧ bytes = form ++ rest) :
    (Decode.decoder >>= fun count : UInt64 => body count.toNat).run bytes = .ok (value, rest) ↔
      (size < UInt64.size ∧ valid) ∧ bytes = encodeLength size ++ form ++ rest := by
  simp only [Decoder.run_bind_eq_ok_iff, reads, run_eq_ok_iff, encodeLength, List.append_assoc]
  constructor
  · rintro ⟨count, _, ⟨_, rfl⟩, counted, holds, rfl⟩
    rw [counted, UInt64.ofNat_toNat]
    exact ⟨⟨count.toNat_lt_size, holds⟩, rfl⟩
  · rintro ⟨⟨short, holds⟩, rfl⟩
    exact ⟨UInt64.ofNat size, _, ⟨trivial, rfl⟩, (UInt64.toNat_ofNat_of_lt short).symm, holds,
      rfl⟩

instance : LawfulCodec String where
  Fits value := (Utf8.encode value).length < UInt64.size
  run_eq_ok_iff := by
    intro bytes rest value
    change (Decode.decoder >>= fun count : UInt64 => Decoder.text count.toNat).run bytes = _ ↔ _
    have reads {count bytes} : (Decoder.text count).run bytes = .ok (value, rest) ↔
        (Utf8.encode value).length = count ∧ True ∧ bytes = Utf8.encode value ++ rest := by
      rw [run_text_eq_ok_iff, true_and]
    rw [run_counted_eq_ok_iff reads, and_true]
    rfl

/-! ## Options and lists -/

section Options

variable [Encode α] [Decode α] [LawfulCodec α]

instance : LawfulCodec (Option α) where
  Fits
    | none => True
    | some value => Fits value
  run_eq_ok_iff := by
    intro bytes rest value
    change (do
      match ← Decoder.byte with
      | 0 => return none
      | 1 => return some (← Decode.decoder)
      | found => throw (.invalidTag found) : Decoder (Option α)).run bytes = _ ↔ _
    simp only [Decoder.run_bind_eq_ok_iff, Decoder.run_byte_eq_ok_iff]
    constructor
    · rintro ⟨first, middle, rfl, ran⟩
      split at ran
      · cases ran
        exact ⟨trivial, rfl⟩
      · obtain ⟨inside, _, read, ended⟩ := Decoder.run_bind_eq_ok_iff.mp ran
        obtain ⟨fits, rfl⟩ := run_eq_ok_iff.mp read
        obtain ⟨rfl, rfl⟩ := Decoder.run_pure_eq_ok_iff.mp ended
        exact ⟨fits, rfl⟩
      · cases ran
    · rintro ⟨fits, rfl⟩
      cases value with
      | none => exact ⟨0, rest, rfl, rfl⟩
      | some inside =>
          refine ⟨1, _, rfl, ?_⟩
          exact Decoder.run_bind_eq_ok_iff.mpr ⟨inside, rest, run_eq_ok_iff.mpr ⟨fits, rfl⟩, rfl⟩

end Options

section Lists

variable [Encode α] [Decode α] [LawfulCodec α]

theorem run_replicate_eq_ok_iff {count : Nat} {values : List α} :
    (Decoder.replicate (Decode.decoder : Decoder α) count).run bytes = .ok (values, rest) ↔
      values.length = count ∧ (∀ value ∈ values, Fits value) ∧
        bytes = values.flatMap encode ++ rest := by
  induction count generalizing bytes rest values with
  | zero =>
      rw [Decoder.replicate, Decoder.run_pure_eq_ok_iff]
      constructor
      · rintro ⟨rfl, rfl⟩
        simp
      · rintro ⟨empty, _, rfl⟩
        obtain rfl := List.eq_nil_of_length_eq_zero empty
        exact ⟨rfl, rfl⟩
  | succ count inductionHypothesis =>
      simp only [Decoder.replicate, Decoder.run_bind_eq_ok_iff, Decoder.run_pure_eq_ok_iff,
        run_eq_ok_iff, inductionHypothesis]
      constructor
      · rintro ⟨first, _, ⟨fits, rfl⟩, others, _, ⟨rfl, fit, rfl⟩, rfl, rfl⟩
        refine ⟨rfl, List.forall_mem_cons.mpr ⟨fits, fit⟩, ?_⟩
        rw [List.flatMap_cons, List.append_assoc]
      · rintro ⟨counted, fit, rfl⟩
        cases values with
        | nil => cases counted
        | cons first others =>
            obtain ⟨fits, fit⟩ := List.forall_mem_cons.mp fit
            refine ⟨first, _, ⟨fits, ?_⟩, others, rest, ⟨Nat.succ.inj counted, fit, rfl⟩, rfl, rfl⟩
            rw [List.flatMap_cons, List.append_assoc]

instance : LawfulCodec (List α) where
  Fits values := values.length < UInt64.size ∧ ∀ value ∈ values, Fits value
  run_eq_ok_iff := by
    intro bytes rest values
    exact run_counted_eq_ok_iff run_replicate_eq_ok_iff

end Lists

end LawfulCodec

end Authorship
