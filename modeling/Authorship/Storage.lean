/-
Module: Authorship.Storage
Purpose: The storage of a runtime: byte strings under a pallet's name and an item's name, and values
  kept there in binary form. A guarded storage may refuse to write values; what is read and what was
  written before stays as it is.
Main exports: StorageKey, StorageError, Storage, Storage.getValue, Storage.putValueBy,
  GuardedStorage, GuardedStorage.putValue
-/
import Authorship.Assoc
import Authorship.Attempt
import Authorship.Codec

namespace Authorship

/-- Where a value is kept. -/
structure StorageKey where
  pallet : Bytes
  item : Bytes
deriving DecidableEq

/-- A key as errors name it. -/
def StorageKey.name (key : StorageKey) : String :=
  Utf8.decodeLossy key.pallet ++ "::" ++ Utf8.decodeLossy key.item

/-- A value that cannot be read or written. -/
inductive StorageError where
  | decode (item reason : String)
  | encode (item reason : String)
deriving DecidableEq, Repr

def StorageError.message : StorageError → String
  | .decode item reason => s!"failed to decode {item}: {reason}"
  | .encode item reason => s!"failed to encode {item}: {reason}"

/-- Byte strings under keys. -/
structure Storage where
  items : Assoc StorageKey Bytes := .empty
deriving DecidableEq

namespace Storage

def empty : Storage := {}

instance : Inhabited Storage := ⟨empty⟩

def get? (storage : Storage) (key : StorageKey) : Option Bytes :=
  storage.items.get? key

def put (storage : Storage) (key : StorageKey) (value : Bytes) : Storage :=
  { items := storage.items.insert key value }

def kill (storage : Storage) (key : StorageKey) : Storage :=
  { items := storage.items.erase key }

def contains (storage : Storage) (key : StorageKey) : Bool :=
  storage.items.contains key

def size (storage : Storage) : Nat :=
  storage.items.size

/-- The value under a key; nothing if no bytes are there. -/
def getValue (α : Type) [Decode α] (storage : Storage) (key : StorageKey) :
    Except StorageError (Option α) :=
  match storage.get? key with
  | none => .ok none
  | some bytes =>
    match decode α bytes with
    | .ok value => .ok (some value)
    | .error error => .error (.decode key.name error.message)

/-- Put a value under a key of whatever can put bytes. The binary form comes first: of a value
without one nothing is put. -/
def putValueBy {σ α : Type} [TryEncode α] (put : σ → StorageKey → Bytes → σ) (key : StorageKey)
    (value : α) : Attempt StorageError σ Unit :=
  match tryEncode value with
  | .ok bytes => modify (put · key bytes)
  | .error error => throw (.encode key.name error.reason)

end Storage

/-- Storage that may refuse to write values. -/
structure GuardedStorage where
  storage : Storage := .empty
  /-- What every write of a value fails with, if writes fail. -/
  refusal : Option StorageError := none
deriving DecidableEq

namespace GuardedStorage

def put (guarded : GuardedStorage) (key : StorageKey) (value : Bytes) : GuardedStorage :=
  { guarded with storage := guarded.storage.put key value }

/-- Put a value under a key, unless writes are refused. -/
def putValue {α : Type} [TryEncode α] (key : StorageKey) (value : α) :
    Attempt StorageError GuardedStorage Unit := do
  if let some error := (← get).refusal then throw error
  Storage.putValueBy put key value

end GuardedStorage

end Authorship
