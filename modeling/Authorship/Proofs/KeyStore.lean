/-
Module: Authorship.Proofs.KeyStore
Purpose: What a key store signs with. However key pairs were added, the order of a family lists just
  the keys that secrets are held of, each once, and every secret is held under the public key that
  is made from it. So the keys of a family are those added to it, in the order in which they first
  came; those are the keys that sign; and what the store signs for an author checks against that
  author.
Main exports: KeySet.Faithful, KeySet.Faithful.insert, KeyStore.addAll, KeyStore.Faithful,
  KeyStore.faithful_addAll, Keyring.Sound, KeyStore.sound_keyring, KeyStore.added,
  KeyStore.keys_addAll, SignatureScheme.trusting, KeyStore.keyring_follows_additions
-/
import Authorship.Ed25519
import Authorship.KeyStore

namespace Authorship

/-- What the keyring signs for an author checks against that author. -/
def Keyring.Sound (scheme : SignatureScheme) (keyring : Keyring) : Prop :=
  ∀ keyType author message signature,
    keyring.signWith keyType author message = .ok (some signature) →
      scheme.verify author message signature = true

/-! ## One family -/

namespace KeySet

variable {scheme : SignatureScheme} {set : KeySet}

/-- The order and the secrets of a family belong together: the order lists just the keys that a
secret is held of, each once, and a secret is held under the public key that is made from it. -/
structure Faithful (scheme : SignatureScheme) (set : KeySet) : Prop where
  once : set.order.Nodup
  listed : ∀ author, author ∈ set.order ↔ set.pairs.contains author = true
  own : ∀ author seed, set.pairs.get? author = some seed → scheme.publicKey seed = author

theorem pairs_insert (seed : Seed) :
    (set.insert scheme seed).pairs = set.pairs.insert (scheme.publicKey seed) seed := by
  simp only [insert]
  split <;> rfl

theorem order_insert (seed : Seed) :
    (set.insert scheme seed).order =
      if set.pairs.contains (scheme.publicKey seed) then set.order
      else set.order ++ [scheme.publicKey seed] := by
  cases held : set.pairs.get? (scheme.publicKey seed) with
  | none => simp [insert, Assoc.contains, held]
  | some earlier => simp [insert, Assoc.contains, held]

namespace Faithful

theorem empty (scheme : SignatureScheme) : Faithful scheme {} where
  once := List.nodup_nil
  listed author := by simp [Assoc.contains]
  own author seed held := by cases held

/-- A key whose secret is held already keeps its place. -/
theorem order_insert (faithful : set.Faithful scheme) (seed : Seed) :
    (set.insert scheme seed).order =
      if scheme.publicKey seed ∈ set.order then set.order
      else set.order ++ [scheme.publicKey seed] := by
  simp only [KeySet.order_insert, faithful.listed]

/-- Adding a pair that is there already writes the secret and leaves the order; adding a new one
does both. -/
theorem insert (faithful : set.Faithful scheme) (seed : Seed) :
    (set.insert scheme seed).Faithful scheme where
  once := by
    rw [faithful.order_insert]
    split
    · exact faithful.once
    · next fresh =>
        refine List.nodup_append.mpr ⟨faithful.once, List.pairwise_singleton .., ?_⟩
        intro earlier member last here same
        exact fresh (List.mem_singleton.mp here ▸ same ▸ member)
  listed author := by
    have grown : author ∈ (set.insert scheme seed).order ↔
        author ∈ set.order ∨ scheme.publicKey seed = author := by
      rw [faithful.order_insert]
      split
      · next known => exact ⟨.inl, fun found => found.elim id fun same => same ▸ known⟩
      · rw [List.mem_append, List.mem_singleton, eq_comm (a := author)]
    rw [grown, faithful.listed, pairs_insert, Assoc.contains, Assoc.contains, Assoc.get?_insert]
    split
    · next same => simp [same]
    · next other => simp [other]
  own author found held := by
    rw [pairs_insert, Assoc.get?_insert] at held
    split at held
    · next same =>
        cases held
        exact same
    · exact faithful.own author found held

end Faithful

end KeySet

/-! ## All families -/

namespace KeyStore

variable {scheme : SignatureScheme} {store : KeyStore}

/-- Add key pairs to families, one after the other. -/
def addAll (scheme : SignatureScheme) (store : KeyStore) (pairs : List (KeyType × Seed)) :
    KeyStore :=
  pairs.foldl (fun store (keyType, seed) => store.insert scheme keyType seed) store

/-- In every family the order and the secrets belong together. -/
def Faithful (scheme : SignatureScheme) (store : KeyStore) : Prop :=
  ∀ keyType, (store.family keyType).Faithful scheme

theorem family_insert (keyType wanted : KeyType) (seed : Seed) :
    (store.insert scheme keyType seed).family wanted =
      if keyType = wanted then (store.family keyType).insert scheme seed
      else store.family wanted := by
  rw [family, insert, Assoc.get?_insert]
  split
  · rfl
  · rfl

theorem family_insert_of_ne {keyType other : KeyType} (different : other ≠ keyType) (seed : Seed) :
    (store.insert scheme keyType seed).family other = store.family other := by
  rw [family_insert, if_neg different.symm]

theorem faithful_empty (scheme : SignatureScheme) : Faithful scheme {} := by
  intro keyType
  exact KeySet.Faithful.empty scheme

theorem Faithful.insert (faithful : store.Faithful scheme) (keyType : KeyType) (seed : Seed) :
    (store.insert scheme keyType seed).Faithful scheme := by
  intro wanted
  rw [family_insert]
  split
  · exact (faithful keyType).insert seed
  · exact faithful wanted

theorem Faithful.addAll (faithful : store.Faithful scheme) (pairs : List (KeyType × Seed)) :
    (store.addAll scheme pairs).Faithful scheme := by
  induction pairs generalizing store with
  | nil => exact faithful
  | cons pair rest inductionHypothesis =>
      exact inductionHypothesis (faithful.insert pair.1 pair.2)

/-- However key pairs were added to an empty store, it is faithful. -/
theorem faithful_addAll (scheme : SignatureScheme) (pairs : List (KeyType × Seed)) :
    (addAll scheme {} pairs).Faithful scheme :=
  (faithful_empty scheme).addAll pairs

theorem sound_keyring (sound : scheme.Sound) (faithful : store.Faithful scheme) :
    (store.keyring scheme).Sound scheme := by
  intro keyType author message signature signed
  cases held : (store.family keyType).pairs.get? author with
  | none => simp [keyring, signWith?, held] at signed
  | some seed =>
      obtain rfl := (faithful keyType).own author seed held
      have made : scheme.sign seed message = signature := by
        simpa [keyring, signWith?, held] using signed
      rw [← made]
      exact sound seed message

/-! ## The keys that are held -/

/-- The public keys of the pairs added to a family, in order, repeated ones included. -/
def added (scheme : SignatureScheme) (pairs : List (KeyType × Seed)) (keyType : KeyType) :
    List AuthorId :=
  (pairs.filter (·.1 = keyType)).map fun (_, seed) => scheme.publicKey seed

theorem added_cons (pair : KeyType × Seed) (rest : List (KeyType × Seed)) (keyType : KeyType) :
    added scheme (pair :: rest) keyType =
      (if pair.1 = keyType then [scheme.publicKey pair.2] else []) ++
        added scheme rest keyType := by
  by_cases same : pair.1 = keyType <;> simp [added, same]

theorem Faithful.mem_keys_iff_holds (faithful : store.Faithful scheme) {keyType : KeyType}
    {author : AuthorId} : author ∈ store.keys keyType ↔ store.holds keyType author = true :=
  (faithful keyType).listed author

/-- A key signs just when it is held, whatever the message. -/
theorem exists_signWith?_iff_holds {keyType : KeyType} {author : AuthorId} {message : Bytes} :
    (∃ signature, store.signWith? scheme keyType author message = some signature) ↔
      store.holds keyType author = true := by
  rw [← Option.isSome_iff_exists, signWith?, Option.isSome_map, holds, Assoc.contains]

theorem Faithful.keys_insert (faithful : store.Faithful scheme) (keyType wanted : KeyType)
    (seed : Seed) :
    (store.insert scheme keyType seed).keys wanted =
      if keyType = wanted then
        if scheme.publicKey seed ∈ store.keys keyType then store.keys keyType
        else store.keys keyType ++ [scheme.publicKey seed]
      else store.keys wanted := by
  rw [keys, family_insert]
  split
  · exact (faithful keyType).order_insert seed
  · rfl

/-- What comes again is dropped. -/
theorem eraseDups_concat {α : Type} [DecidableEq α] (before : List α) (last : α) :
    (before ++ [last]).eraseDups =
      if last ∈ before then before.eraseDups else before.eraseDups ++ [last] := by
  rw [List.eraseDups_append]
  split
  · next again => simp [List.removeAll, again]
  · next first => simp [List.removeAll, first, List.eraseDups_cons]

/-- An addition continues the list of keys of its family, and of no other. -/
theorem Faithful.keys_insert_of_eraseDups (faithful : store.Faithful scheme)
    {before : List AuthorId} {keyType wanted : KeyType} (seed : Seed)
    (listed : store.keys wanted = before.eraseDups) :
    (store.insert scheme keyType seed).keys wanted =
      (before ++ if keyType = wanted then [scheme.publicKey seed] else []).eraseDups := by
  rw [faithful.keys_insert]
  by_cases same : keyType = wanted
  · subst same
    rw [if_pos rfl, if_pos rfl, eraseDups_concat, listed]
    simp only [List.mem_eraseDups]
  · rw [if_neg same, if_neg same, List.append_nil, listed]

/-- However key pairs were added, the keys of a family are those added to it, in the order in which
they first came, each once. -/
theorem Faithful.keys_addAll_of_eraseDups (faithful : store.Faithful scheme)
    (pairs : List (KeyType × Seed)) {keyType : KeyType} {before : List AuthorId}
    (listed : store.keys keyType = before.eraseDups) :
    (store.addAll scheme pairs).keys keyType =
      (before ++ added scheme pairs keyType).eraseDups := by
  induction pairs generalizing store before with
  | nil =>
      rw [added, List.filter_nil, List.map_nil, List.append_nil]
      exact listed
  | cons pair rest inductionHypothesis =>
      rw [added_cons, ← List.append_assoc]
      exact inductionHypothesis (faithful.insert pair.1 pair.2)
        (faithful.keys_insert_of_eraseDups pair.2 listed)

theorem keys_addAll (scheme : SignatureScheme) (pairs : List (KeyType × Seed))
    (keyType : KeyType) :
    (addAll scheme {} pairs).keys keyType = (added scheme pairs keyType).eraseDups := by
  have fresh : ({} : KeyStore).keys keyType = ([] : List AuthorId).eraseDups := rfl
  exact (faithful_empty scheme).keys_addAll_of_eraseDups pairs fresh

end KeyStore

/-! ## What a keyring shows of additions -/

/-- The scheme, except that what a key signed is accepted for the key without a computation. -/
noncomputable def SignatureScheme.trusting (scheme : SignatureScheme) : SignatureScheme :=
  { scheme with
    verify := fun author message signature =>
      @decide (∃ seed, scheme.publicKey seed = author ∧ scheme.sign seed message = signature)
          (Classical.propDecidable _) ||
        scheme.verify author message signature }

theorem SignatureScheme.sound_trusting (scheme : SignatureScheme) : scheme.trusting.Sound := by
  intro seed message
  exact Bool.or_eq_true_iff.mpr
    (.inl (@decide_eq_true _ (Classical.propDecidable _) ⟨seed, rfl, rfl⟩))

namespace KeyStore

/-- However key pairs were added, the order of each family and its secrets belong together. The
keyring lists the keys of a family in the order in which they first came, each once. These are the
keys that it holds and the keys that sign, whatever the message: it answers always, and what a key
signed checks against the key. One more addition leaves all other families as they are. -/
theorem keyring_follows_additions {scheme : SignatureScheme} (sound : scheme.Sound)
    (pairs : List (KeyType × Seed)) :
    let store := addAll scheme {} pairs
    let keyring := store.keyring scheme
    store.Faithful scheme ∧
    (∀ keyType, keyring.keys keyType = (added scheme pairs keyType).eraseDups ∧
      (keyring.keys keyType).Nodup) ∧
    (∀ keyType author, keyring.holds keyType author = true ↔ author ∈ keyring.keys keyType) ∧
    (∀ keyType author message,
      (author ∈ keyring.keys keyType → ∃ signature,
        keyring.signWith keyType author message = .ok (some signature) ∧
        scheme.verify author message signature = true) ∧
      (author ∉ keyring.keys keyType → keyring.signWith keyType author message = .ok none)) ∧
    ∀ keyType seed other, other ≠ keyType →
      let next := (store.insert scheme keyType seed).keyring scheme
      next.keys other = keyring.keys other ∧ next.holds other = keyring.holds other ∧
        next.signWith other = keyring.signWith other := by
  intro store keyring
  have faithful : store.Faithful scheme := faithful_addAll scheme pairs
  refine ⟨faithful, ?_, ?_, ?_, ?_⟩
  · intro keyType
    exact ⟨keys_addAll scheme pairs keyType, (faithful keyType).once⟩
  · intro keyType author
    exact faithful.mem_keys_iff_holds.symm
  · intro keyType author message
    have signs : author ∈ store.keys keyType ↔
        ∃ signature, store.signWith? scheme keyType author message = some signature :=
      faithful.mem_keys_iff_holds.trans exists_signWith?_iff_holds.symm
    refine ⟨?_, ?_⟩
    · intro member
      obtain ⟨signature, signed⟩ := signs.mp member
      have answered : keyring.signWith keyType author message = .ok (some signature) :=
        congrArg Except.ok signed
      have checks := sound_keyring sound faithful
      exact ⟨signature, answered, checks keyType author message signature answered⟩
    · intro absent
      have unsigned : store.signWith? scheme keyType author message = none :=
        Option.eq_none_iff_forall_ne_some.mpr fun signature signed =>
          absent (signs.mpr ⟨signature, signed⟩)
      exact congrArg Except.ok unsigned
  · intro keyType seed other different next
    have same : (store.insert scheme keyType seed).family other = store.family other :=
      family_insert_of_ne different seed
    refine ⟨congrArg KeySet.order same, ?_, ?_⟩
    · funext author
      exact congrArg (·.pairs.contains author) same
    · funext author message
      simp only [next, keyring, KeyStore.keyring, signWith?, same]

private def someSeed : Seed := ⟨FixedBytes.replicate 32 1⟩

private def otherSeed : Seed := ⟨FixedBytes.replicate 32 2⟩

/-- Two keys of one family, the first of them added again, and between them a key of another one. -/
private def repeatedPairs : List (KeyType × Seed) :=
  [(authorshipKeys, otherSeed), (⟨[0x62, 0x61, 0x62, 0x65], rfl⟩, someSeed),
    (authorshipKeys, someSeed), (authorshipKeys, otherSeed)]

theorem keyring_follows_additions_repeatedPairs :
    let keyring := (addAll ed25519.trusting {} repeatedPairs).keyring ed25519.trusting
    ed25519.trusting.Sound ∧
      keyring.keys authorshipKeys = [ed25519.publicKey otherSeed, ed25519.publicKey someSeed] ∧
      ∃ signature,
        keyring.signWith authorshipKeys (ed25519.publicKey otherSeed) [7] =
          .ok (some signature) ∧
        ed25519.trusting.verify (ed25519.publicKey otherSeed) [7] signature = true := by
  intro keyring
  have sound := ed25519.sound_trusting
  obtain ⟨_, listed, _, signs, _⟩ := keyring_follows_additions sound repeatedPairs
  have once : (added ed25519.trusting repeatedPairs authorshipKeys).eraseDups =
      [ed25519.publicKey otherSeed, ed25519.publicKey someSeed] := by
    decide +kernel
  have keys := (listed authorshipKeys).1.trans once
  refine ⟨sound, keys, (signs authorshipKeys _ [7]).1 ?_⟩
  rw [keys]
  exact List.mem_cons_self

end KeyStore

end Authorship
