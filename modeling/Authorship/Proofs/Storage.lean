/-
Module: Authorship.Proofs.Storage
Purpose: What storage holds after a write, and what is read from it. A write touches one key; a
  value written can be read back; and what no value can be read from is told apart from what is not
  there.
Main exports: Storage.get?_put, Storage.get?_kill, Storage.exists_keys,
  Storage.getValue_eq_ok_some_iff, Storage.getValue_eq_error_iff, Storage.getValue_put_encode,
  Storage.run_putValueBy_ok, GuardedStorage.run_putValue_cases
-/
import Authorship.Proofs.Codec
import Authorship.Storage

namespace Authorship

namespace Storage

/-! ## Byte strings -/

theorem get?_put (storage : Storage) (key wanted : StorageKey) (value : Bytes) :
    (storage.put key value).get? wanted =
      if key = wanted then some value else storage.get? wanted :=
  Assoc.get?_insert storage.items key wanted value

theorem get?_kill (storage : Storage) (key wanted : StorageKey) :
    (storage.kill key).get? wanted = if key = wanted then none else storage.get? wanted :=
  Assoc.get?_erase storage.items key wanted

theorem put_put (storage : Storage) (key : StorageKey) (first second : Bytes) :
    (storage.put key first).put key second = storage.put key second :=
  congrArg Storage.mk (Assoc.insert_insert storage.items key first second)

/-- The size counts the keys that are there. -/
theorem exists_keys (storage : Storage) :
    ∃ keys : List StorageKey, keys.Nodup ∧ (∀ key, key ∈ keys ↔ storage.contains key = true) ∧
      storage.size = keys.length := by
  refine ⟨storage.items.keys, storage.items.nodup_keys, ?_, storage.items.size_eq_length_keys⟩
  intro key
  rw [Assoc.mem_keys_iff, contains, Assoc.contains, Option.isSome_iff_exists]

/-! ## Values -/

section Values

variable {α : Type} [Decode α] {storage : Storage} {key : StorageKey}

theorem getValue_of_get?_eq_none (absent : storage.get? key = none) :
    storage.getValue α key = .ok none := by
  rw [getValue, absent]

theorem getValue_eq_ok_some_iff {value : α} :
    storage.getValue α key = .ok (some value) ↔
      ∃ bytes, storage.get? key = some bytes ∧ decode α bytes = .ok value := by
  unfold getValue
  cases storage.get? key with
  | none => simp
  | some bytes =>
      cases read : decode α bytes with
      | error error => simp [read]
      | ok found => simp [read]

theorem getValue_eq_ok_none_iff :
    storage.getValue α key = .ok none ↔ storage.get? key = none := by
  unfold getValue
  cases storage.get? key with
  | none => simp
  | some bytes => cases read : decode α bytes <;> simp [read]

/-- Nothing is a fault but bytes that are no value, and the fault names the key. -/
theorem getValue_eq_error_iff {error : StorageError} :
    storage.getValue α key = .error error ↔
      ∃ bytes fault, storage.get? key = some bytes ∧ decode α bytes = .error fault ∧
        error = .decode key.name fault.message := by
  unfold getValue
  cases storage.get? key with
  | none => simp
  | some bytes =>
      cases read : decode α bytes with
      | error fault => simp [read, eq_comm]
      | ok value => simp [read]

/-- Bytes that are no value are a fault that names the key. -/
theorem getValue_of_decode_eq_error {bytes : Bytes} {error : DecodeError}
    (stored : storage.get? key = some bytes) (faulty : decode α bytes = .error error) :
    storage.getValue α key = .error (.decode key.name error.message) :=
  getValue_eq_error_iff.mpr ⟨bytes, error, stored, faulty, rfl⟩

/-- Nothing but a fault keeps a value, or the lack of one, from being read. -/
theorem exists_getValue_eq_ok_iff :
    (∃ found, storage.getValue α key = .ok found) ↔
      storage.get? key = none ∨
        ∃ bytes value, storage.get? key = some bytes ∧ decode α bytes = .ok value := by
  constructor
  · rintro ⟨_ | value, read⟩
    · exact .inl (getValue_eq_ok_none_iff.mp read)
    · obtain ⟨bytes, stored, decoded⟩ := getValue_eq_ok_some_iff.mp read
      exact .inr ⟨bytes, value, stored, decoded⟩
  · rintro (absent | ⟨bytes, value, stored, decoded⟩)
    · exact ⟨none, getValue_of_get?_eq_none absent⟩
    · exact ⟨some value, getValue_eq_ok_some_iff.mpr ⟨bytes, stored, decoded⟩⟩

section Lawful

variable [Encode α] [LawfulCodec α] {value : α}

/-- The binary form of a value is read as the value just when the value fits its type. -/
theorem getValue_eq_ok_some_iff_fits (stored : storage.get? key = some (encode value)) :
    storage.getValue α key = .ok (some value) ↔ Fits value := by
  constructor
  · intro read
    obtain ⟨_, _, decoded⟩ := getValue_eq_ok_some_iff.mp read
    exact (LawfulCodec.decode_eq_ok_iff.mp decoded).1
  · intro fits
    exact getValue_eq_ok_some_iff.mpr ⟨_, stored, LawfulCodec.decode_encode fits⟩

theorem getValue_put_encode (fits : Fits value) :
    (storage.put key (encode value)).getValue α key = .ok (some value) := by
  have stored : (storage.put key (encode value)).get? key = some (encode value) := by
    rw [get?_put, if_pos rfl]
  exact (getValue_eq_ok_some_iff_fits stored).mpr fits

end Lawful

end Values

end Storage

/-! ## Storage that may refuse -/

section PutValueBy

variable {σ α : Type} [TryEncode α] {put : σ → StorageKey → Bytes → σ} {key : StorageKey}
  {value : α}

theorem Storage.run_putValueBy_ok {bytes : Bytes} (form : tryEncode value = .ok bytes) (state : σ) :
    (Storage.putValueBy put key value).run.run state = (.ok (), put state key bytes) := by
  rw [Storage.putValueBy, form]
  rfl

theorem Storage.run_putValueBy_error {error : EncodeError}
    (formless : tryEncode value = .error error) (state : σ) :
    (Storage.putValueBy put key value).run.run state =
      (.error (.encode key.name error.reason), state) := by
  rw [Storage.putValueBy, formless]
  rfl

end PutValueBy

namespace GuardedStorage

/-- A write is refused, whatever is to be written, and changes nothing, or it leaves the value's
binary form under its key. -/
theorem run_putValue_cases {α : Type} [Encode α] (guarded : GuardedStorage) (key : StorageKey)
    (value : α) :
    (∃ error, guarded.refusal = some error ∧
      (putValue key value).run.run guarded = (.error error, guarded)) ∨
    (guarded.refusal = none ∧
      (putValue key value).run.run guarded = (.ok (), guarded.put key (encode value))) := by
  obtain ⟨storage, refusal⟩ := guarded
  cases refusal with
  | some error => exact .inl ⟨error, rfl, rfl⟩
  | none => exact .inr ⟨rfl, rfl⟩

end GuardedStorage

end Authorship
