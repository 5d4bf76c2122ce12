/-
Module: Authorship.StorageHandle
Purpose: Handles on storages. The parts of a runtime hold a handle each on one storage: a handle is
  the place of a storage in memory, and a clone of it is a handle on the same place.
Main exports: StorageMemory, StorageHandle, StorageHandle.create, StorageHandle.clone,
  StorageHandle.storage, StorageHandle.update
-/
import Authorship.Storage

namespace Authorship

/-- The storages that there are handles on, in the order in which they were made. -/
structure StorageMemory where
  storages : List Storage := []
deriving DecidableEq

/-- A handle on a storage. -/
structure StorageHandle where
  /-- The storage's place in memory. -/
  place : Nat
deriving DecidableEq, Repr

namespace StorageHandle

/-- Make an empty storage: a handle on it, and the memory with it. -/
def create (memory : StorageMemory) : StorageHandle × StorageMemory :=
  (⟨memory.storages.length⟩, ⟨memory.storages ++ [.empty]⟩)

/-- Another handle on the same storage. -/
def clone (handle : StorageHandle) : StorageHandle := handle

/-- The storage that the handle is on. -/
def storage (handle : StorageHandle) (memory : StorageMemory) : Storage :=
  memory.storages.getD handle.place .empty

/-- Put a storage in the place of the one that the handle is on. -/
def update (handle : StorageHandle) (memory : StorageMemory) (storage : Storage) : StorageMemory :=
  ⟨memory.storages.set handle.place storage⟩

/-! ## What is done through a handle -/

def get? (handle : StorageHandle) (memory : StorageMemory) (key : StorageKey) : Option Bytes :=
  (handle.storage memory).get? key

def contains (handle : StorageHandle) (memory : StorageMemory) (key : StorageKey) : Bool :=
  (handle.storage memory).contains key

def size (handle : StorageHandle) (memory : StorageMemory) : Nat :=
  (handle.storage memory).size

def getValue (α : Type) [Decode α] (handle : StorageHandle) (memory : StorageMemory)
    (key : StorageKey) : Except StorageError (Option α) :=
  (handle.storage memory).getValue α key

def put (handle : StorageHandle) (memory : StorageMemory) (key : StorageKey) (value : Bytes) :
    StorageMemory :=
  handle.update memory ((handle.storage memory).put key value)

def kill (handle : StorageHandle) (memory : StorageMemory) (key : StorageKey) : StorageMemory :=
  handle.update memory ((handle.storage memory).kill key)

def putValue {α : Type} [TryEncode α] (handle : StorageHandle) (key : StorageKey) (value : α) :
    Attempt StorageError StorageMemory Unit :=
  Storage.putValueBy handle.put key value

end StorageHandle

end Authorship
