/-
Module: Authorship.KeyStore
Purpose: Keys that a node signs with, grouped into families. A keyring is what the rest of the node
  sees of them; a key store holds the secrets in memory, and beside them the order in which the keys
  of a family came.
Main exports: KeyType, authorshipKeys, Keyring, KeyringError, KeySet, KeySet.insert, KeyStore,
  KeyStore.insert, KeyStore.keyring
-/
import Authorship.Assoc
import Authorship.Author

namespace Authorship

/-- Four-byte tag of a family of keys. -/
abbrev KeyType := FixedBytes 4

def authorshipKeys : KeyType := authorshipTag

/-- A keyring that cannot answer. -/
inductive KeyringError where
  | unavailable (reason : String)
deriving DecidableEq, Repr

def KeyringError.message : KeyringError → String
  | .unavailable reason => s!"keystore is unavailable: {reason}"

/-- Keys that can sign. -/
structure Keyring where
  /-- The public keys of a family, in the order in which they are tried. -/
  keys : KeyType → List AuthorId
  /-- Whether the secret of a public key is held. -/
  holds : KeyType → AuthorId → Bool
  /-- Sign with a key; nothing if its secret is not held. -/
  signWith : KeyType → AuthorId → Bytes → Except KeyringError (Option Signature)

/-- The keys of a family. -/
structure KeySet where
  /-- The public keys, in the order in which they were first added. -/
  order : List AuthorId := []
  /-- The secrets, by public key. -/
  pairs : Assoc AuthorId Seed := .empty

/-- Add the key pair of a seed. The pair is always written; the order gets the key only if no pair
was there before. -/
def KeySet.insert (scheme : SignatureScheme) (set : KeySet) (seed : Seed) : KeySet :=
  let author := scheme.publicKey seed
  let previous := set.pairs.get? author
  let set := { set with pairs := set.pairs.insert author seed }
  if previous.isNone then { set with order := set.order ++ [author] } else set

/-- Keys by family. -/
structure KeyStore where
  families : Assoc KeyType KeySet := .empty

namespace KeyStore

/-- The keys of a family; none if nothing was added to it. -/
def family (store : KeyStore) (keyType : KeyType) : KeySet :=
  (store.families.get? keyType).getD {}

/-- Add the key pair of a seed to a family. -/
def insert (scheme : SignatureScheme) (store : KeyStore) (keyType : KeyType) (seed : Seed) :
    KeyStore :=
  { families := store.families.insert keyType ((store.family keyType).insert scheme seed) }

/-- A store that holds the given seeds as author keys. -/
def ofSeeds (scheme : SignatureScheme) (seeds : List Seed) : KeyStore :=
  seeds.foldl (fun store seed => store.insert scheme authorshipKeys seed) {}

/-- The keys of a family, in the order in which they were first added. -/
def keys (store : KeyStore) (keyType : KeyType) : List AuthorId :=
  (store.family keyType).order

/-- Whether the secret of a public key is held. -/
def holds (store : KeyStore) (keyType : KeyType) (author : AuthorId) : Bool :=
  (store.family keyType).pairs.contains author

/-- Sign with a key that is held. -/
def signWith? (scheme : SignatureScheme) (store : KeyStore) (keyType : KeyType)
    (author : AuthorId) (message : Bytes) : Option Signature :=
  ((store.family keyType).pairs.get? author).map fun seed => scheme.sign seed message

/-- The store as a keyring, which always answers. -/
def keyring (scheme : SignatureScheme) (store : KeyStore) : Keyring where
  keys := store.keys
  holds := store.holds
  signWith keyType author message := .ok (store.signWith? scheme keyType author message)

end KeyStore

end Authorship
