/-
Module: Authorship.Proofs.StorageHandle
Purpose: Clones of a handle share one storage, and nobody else has it. Whatever is requested through
  whichever handles, a key holds what the last request through a clone left there that named exactly
  this key and did not fail, and that is what is read through every clone.
Main exports: StorageHandle.HasClone, StorageHandle.Held, StorageRequest, StorageRequest.performAll,
  StorageRequest.Writes, StorageRequest.LastToWrite, StorageHandle.clones_share_writes
-/
import Authorship.Proofs.Storage
import Authorship.StorageHandle

namespace Authorship

/-! ## Handles and their storages -/

namespace StorageHandle

variable {origin handle other : StorageHandle} {memory : StorageMemory} {key : StorageKey}

/-- The other handle was made from this one by cloning, in any number of steps. -/
inductive HasClone (origin : StorageHandle) : StorageHandle → Prop where
  | self : HasClone origin origin
  | clone {handle : StorageHandle} (cloned : HasClone origin handle) : HasClone origin handle.clone

theorem HasClone.eq (cloned : origin.HasClone handle) : handle = origin := by
  induction cloned with
  | self => rfl
  | clone _ inductionHypothesis => exact inductionHypothesis

/-- There is a storage that the handle is on. -/
def Held (handle : StorageHandle) (memory : StorageMemory) : Prop :=
  handle.place < memory.storages.length

theorem held_create (memory : StorageMemory) : (create memory).1.Held (create memory).2 := by
  rw [Held, create, List.length_append]
  exact Nat.lt_succ_self _

theorem held_update_iff (storage : Storage) :
    origin.Held (handle.update memory storage) ↔ origin.Held memory := by
  rw [Held, Held, update, List.length_set]

theorem storage_update (held : handle.Held memory) (storage : Storage) :
    handle.storage (handle.update memory storage) = storage := by
  rw [StorageHandle.storage, update, List.getD_eq_getElem?_getD, List.getElem?_set_self held]
  rfl

theorem storage_update_of_ne (different : handle ≠ other) (storage : Storage) :
    other.storage (handle.update memory storage) = other.storage memory := by
  have apart : handle.place ≠ other.place := fun same => different (congrArg StorageHandle.mk same)
  rw [StorageHandle.storage, update, List.getD_eq_getElem?_getD, List.getElem?_set_ne apart,
    ← List.getD_eq_getElem?_getD, StorageHandle.storage]

end StorageHandle

/-! ## Requests -/

/-- What is requested through a handle. -/
inductive StorageRequest : Type 1 where
  | put (via : StorageHandle) (key : StorageKey) (value : Bytes)
  | kill (via : StorageHandle) (key : StorageKey)
  | putValue {α : Type} [TryEncode α] (via : StorageHandle) (key : StorageKey) (value : α)

namespace StorageRequest

def via : StorageRequest → StorageHandle
  | put via _ _ | kill via _ | putValue via _ _ => via

def key : StorageRequest → StorageKey
  | put _ key _ | kill _ key | putValue _ key _ => key

/-- What is to be under the key afterwards, if it has a binary form. -/
def content : StorageRequest → Except EncodeError (Option Bytes)
  | put _ _ value => .ok (some value)
  | kill _ _ => .ok none
  | putValue _ _ value => some <$> tryEncode value

/-- Do what is requested. -/
def perform : StorageRequest → Attempt StorageError StorageMemory Unit
  | put via key value => modify (via.put · key value)
  | kill via key => modify (via.kill · key)
  | putValue via key value => via.putValue key value

/-- The memory that a request leaves, whether it fails or not. -/
def advance (memory : StorageMemory) (request : StorageRequest) : StorageMemory :=
  (request.perform.run.run memory).2

/-- The memory after requests, one after the other. -/
def performAll (memory : StorageMemory) (requests : List StorageRequest) : StorageMemory :=
  requests.foldl advance memory

/-- The request goes through a clone of the handle and settles what is under the key. -/
structure Writes (request : StorageRequest) (origin : StorageHandle) (key : StorageKey) : Prop where
  through : origin.HasClone request.via
  names : request.key = key
  succeeds : ∃ content, request.content = .ok content

variable {origin : StorageHandle} {memory : StorageMemory} {key : StorageKey}
  {request : StorageRequest} {requests : List StorageRequest}

/-! ## One request -/

/-- All that a request can do: it fails and changes nothing, or puts its content under its key in
its storage. -/
theorem perform_cases (memory : StorageMemory) (request : StorageRequest) :
    (∃ error, request.content = .error error ∧
      request.perform.run.run memory =
        (.error (.encode request.key.name error.reason), memory)) ∨
    ∃ content storage, request.content = .ok content ∧
      request.perform.run.run memory = (.ok (), request.via.update memory storage) ∧
      ∀ wanted, storage.get? wanted =
        if request.key = wanted then content else (request.via.storage memory).get? wanted := by
  cases request with
  | put via key value =>
      exact .inr ⟨some value, _, rfl, rfl, fun wanted => Storage.get?_put _ key wanted value⟩
  | kill via key => exact .inr ⟨none, _, rfl, rfl, fun wanted => Storage.get?_kill _ key wanted⟩
  | putValue via key value =>
      cases form : tryEncode value with
      | ok bytes =>
          refine .inr ⟨some bytes, (via.storage memory).put key bytes, ?_, ?_, ?_⟩
          · rw [content, form]
            rfl
          · exact Storage.run_putValueBy_ok form memory
          · exact fun wanted => Storage.get?_put _ key wanted bytes
      | error error =>
          refine .inl ⟨error, ?_, ?_⟩
          · rw [content, form]
            rfl
          · exact Storage.run_putValueBy_error form memory

/-- A request fails just when its value has no binary form. -/
theorem run_perform_eq_error_iff {error : StorageError} :
    (request.perform.run.run memory).1 = .error error ↔
      ∃ reason, request.content = .error reason ∧
        error = .encode request.key.name reason.reason := by
  rcases request.perform_cases memory with ⟨reason, formless, failed⟩ | ⟨_, _, settled, went, _⟩
  · rw [failed]
    constructor
    · rintro ⟨rfl⟩
      exact ⟨reason, formless, rfl⟩
    · rintro ⟨_, again, rfl⟩
      cases formless.symm.trans again
      rfl
  · rw [went]
    constructor
    · intro failed
      cases failed
    · rintro ⟨_, formless, _⟩
      cases settled.symm.trans formless

theorem advance_of_run {outcome : Except StorageError Unit} {left : StorageMemory}
    (ran : request.perform.run.run memory = (outcome, left)) : request.advance memory = left := by
  rw [advance, ran]

theorem held_advance_iff : origin.Held (request.advance memory) ↔ origin.Held memory := by
  rcases perform_cases memory request with ⟨_, _, failed⟩ | ⟨_, storage, _, went, _⟩
  · rw [advance_of_run failed]
  · rw [advance_of_run went, StorageHandle.held_update_iff]

theorem get?_advance_of_writes (held : origin.Held memory) (writes : request.Writes origin key)
    {content : Option Bytes} (form : request.content = .ok content) :
    origin.get? (request.advance memory) key = content := by
  have same := writes.through.eq
  rcases perform_cases memory request with ⟨_, formless, _⟩ | ⟨_, storage, settled, went, stored⟩
  · cases form.symm.trans formless
  · cases form.symm.trans settled
    rw [advance_of_run went, same, StorageHandle.get?, StorageHandle.storage_update held, stored,
      if_pos writes.names]

theorem get?_advance_of_not_writes (held : origin.Held memory)
    (keeps : ¬ request.Writes origin key) :
    origin.get? (request.advance memory) key = origin.get? memory key := by
  rcases perform_cases memory request with ⟨_, _, failed⟩ | ⟨_, storage, settled, went, stored⟩
  · rw [advance_of_run failed]
  · rw [advance_of_run went, StorageHandle.get?]
    by_cases same : request.via = origin
    · have otherKey : request.key ≠ key := fun names =>
        keeps ⟨same ▸ .self, names, _, settled⟩
      rw [same, StorageHandle.storage_update held, stored, if_neg otherKey, same]
      rfl
    · rw [StorageHandle.storage_update_of_ne same]
      rfl

/-! ## Requests in a row -/

theorem performAll_append (memory : StorageMemory) (before after : List StorageRequest) :
    performAll memory (before ++ after) = performAll (performAll memory before) after :=
  List.foldl_append

theorem held_performAll (held : origin.Held memory) (requests : List StorageRequest) :
    origin.Held (performAll memory requests) := by
  induction requests generalizing memory with
  | nil => exact held
  | cons request rest inductionHypothesis => exact inductionHypothesis (held_advance_iff.mpr held)

theorem get?_performAll_of_not_writes (held : origin.Held memory)
    (keep : ∀ request ∈ requests, ¬ request.Writes origin key) :
    origin.get? (performAll memory requests) key = origin.get? memory key := by
  induction requests generalizing memory with
  | nil => rfl
  | cons request rest inductionHypothesis =>
      obtain ⟨keeps, keepRest⟩ := List.forall_mem_cons.mp keep
      exact (inductionHypothesis (held_advance_iff.mpr held) keepRest).trans
        (get?_advance_of_not_writes held keeps)

/-- The request is the last one that settled what is under the key in the handle's storage. -/
def LastToWrite (request : StorageRequest) (requests : List StorageRequest)
    (origin : StorageHandle) (key : StorageKey) : Prop :=
  ∃ before after, requests = before ++ request :: after ∧ request.Writes origin key ∧
    ∀ later ∈ after, ¬ later.Writes origin key

theorem LastToWrite.get? (last : request.LastToWrite requests origin key)
    (held : origin.Held memory) {content : Option Bytes} (form : request.content = .ok content) :
    origin.get? (performAll memory requests) key = content := by
  obtain ⟨before, after, rfl, writes, keep⟩ := last
  have heldBefore := held_performAll held before
  rw [performAll_append]
  exact (get?_performAll_of_not_writes (held_advance_iff.mpr heldBefore) keep).trans
    (get?_advance_of_writes heldBefore writes form)

/-- A request that fails leaves no trace. -/
theorem performAll_drop_failed {error : EncodeError} (formless : request.content = .error error)
    (memory : StorageMemory) (before after : List StorageRequest) :
    performAll memory (before ++ request :: after) = performAll memory (before ++ after) := by
  rw [performAll_append, performAll_append]
  rcases perform_cases (performAll memory before) request with
    ⟨_, _, failed⟩ | ⟨_, _, settled, _⟩
  · exact congrArg (performAll · after) (advance_of_run failed)
  · cases formless.symm.trans settled

end StorageRequest

namespace StorageHandle

/-- Whatever is requested through any handles, one of which is on a storage: through each of its
clones a key is found to hold what the last request through any of its clones left there that named
exactly this key and did not fail, or what was there before. A value is read as the bytes say: the
value that was put last, just if it is one that fits its type; nothing if there are no bytes; and a
fault just when they are no value. The size counts the keys that hold something. A request fails
just when its value has no binary form, and then everything is as if it had not been made. -/
theorem clones_share_writes {memory : StorageMemory} {origin : StorageHandle}
    (held : origin.Held memory) (requests : List StorageRequest) :
    let last := StorageRequest.performAll memory requests
    (∀ handle, origin.HasClone handle →
      (∀ key,
        ((∀ request ∈ requests, ¬ request.Writes origin key) →
          handle.get? last key = origin.get? memory key) ∧
        (∀ (request : StorageRequest) content, request.LastToWrite requests origin key →
          request.content = .ok content → handle.get? last key = content) ∧
        (handle.contains last key = true ↔ ∃ bytes, handle.get? last key = some bytes)) ∧
      (∀ (α : Type) [Decode α] key,
        (handle.getValue α last key = .ok none ↔ handle.get? last key = none) ∧
        (∀ error, handle.getValue α last key = .error error ↔
          ∃ bytes fault, handle.get? last key = some bytes ∧ decode α bytes = .error fault ∧
            error = .decode key.name fault.message)) ∧
      (∀ (α : Type) [Encode α] [Decode α] [LawfulCodec α] via key (value : α),
        (StorageRequest.putValue via key value).LastToWrite requests origin key →
          (handle.getValue α last key = .ok (some value) ↔ Fits value)) ∧
      ∃ keys : List StorageKey, keys.Nodup ∧
        (∀ key, key ∈ keys ↔ handle.contains last key = true) ∧
        handle.size last = keys.length) ∧
    ∀ (before : List StorageRequest) request after, requests = before ++ request :: after →
      ∀ error, (request.perform.run.run (StorageRequest.performAll memory before)).1 =
          .error error ↔
        ∃ reason, request.content = .error reason ∧ error = .encode request.key.name reason.reason ∧
          StorageRequest.performAll memory (before ++ after) = last := by
  intro last
  refine ⟨?clones, ?failed⟩
  case clones =>
    intro handle cloned
    obtain rfl := cloned.eq
    refine ⟨fun key => ⟨?unwritten, ?written, ?present⟩, fun α _ key => ⟨?nothing, ?fault⟩, ?value,
      Storage.exists_keys _⟩
    case unwritten => exact StorageRequest.get?_performAll_of_not_writes held
    case written =>
      intro request content lastToWrite form
      exact lastToWrite.get? held form
    case present => exact Option.isSome_iff_exists
    case nothing => exact Storage.getValue_eq_ok_none_iff
    case fault => exact fun _ => Storage.getValue_eq_error_iff
    case value =>
      intro α _ _ _ via key value lastToWrite
      have stored : handle.get? last key = some (encode value) := lastToWrite.get? held rfl
      exact Storage.getValue_eq_ok_some_iff_fits stored
  case failed =>
    rintro before request after rfl error
    rw [StorageRequest.run_perform_eq_error_iff]
    constructor
    · rintro ⟨reason, formless, rfl⟩
      have dropped := StorageRequest.performAll_drop_failed formless memory before after
      exact ⟨reason, formless, rfl, dropped.symm⟩
    · rintro ⟨reason, formless, rfl, _⟩
      exact ⟨reason, formless, rfl⟩

/-- A value without a binary form. -/
private structure Shapeless where

private instance : TryEncode Shapeless := ⟨fun _ => .error ⟨"shapeless"⟩⟩

private def sharedHandle : StorageHandle := (create {}).1

/-- The key of the bytes `ab` and `c`. -/
private def splitLate : StorageKey := ⟨[97, 98], [99]⟩

/-- The key of the bytes `a` and `bc`. -/
private def splitEarly : StorageKey := ⟨[97], [98, 99]⟩

private def putText : StorageRequest := .putValue sharedHandle splitLate (some "c")

private def putNumber : StorageRequest := .putValue sharedHandle.clone splitEarly (-1 : Int32)

private def putShapeless : StorageRequest := .putValue sharedHandle splitEarly Shapeless.mk

private def sharedRequests : List StorageRequest :=
  [.put sharedHandle splitLate [7], putText, putNumber, putShapeless]

private theorem putText_last : putText.LastToWrite sharedRequests sharedHandle splitLate := by
  refine ⟨[_], [putNumber, putShapeless], rfl, ⟨.self, rfl, _, rfl⟩, ?_⟩
  intro later member writes
  have named := writes.names
  simp only [List.mem_cons, List.not_mem_nil, or_false] at member
  rcases member with rfl | rfl
  · exact absurd named (by decide)
  · exact absurd named (by decide)

private theorem putNumber_last : putNumber.LastToWrite sharedRequests sharedHandle splitEarly := by
  refine ⟨[_, putText], [putShapeless], rfl, ⟨.clone .self, rfl, _, rfl⟩, ?_⟩
  intro later member writes
  obtain rfl := List.mem_singleton.mp member
  obtain ⟨_, form⟩ := writes.succeeds
  cases form

/-- Two keys of the same bytes, each written through one clone and read through another; a third one
of these bytes, which nothing was put under; and a value without a form. -/
theorem clones_share_writes_split :
    ∃ last, StorageRequest.performAll (create {}).2 sharedRequests = last ∧
      sharedHandle.clone.getValue (Option String) last splitLate = .ok (some (some "c")) ∧
      sharedHandle.getValue Int32 last splitEarly = .ok (some (-1)) ∧
      sharedHandle.get? last ⟨[97, 98, 99], []⟩ = none ∧
      sharedHandle.clone.size last = 2 ∧
      StorageRequest.performAll (create {}).2
        [.put sharedHandle splitLate [7], putText, putNumber] = last := by
  obtain ⟨clones, failing⟩ := clones_share_writes (held_create {}) sharedRequests
  obtain ⟨keys, _, values, _⟩ := clones _ .self
  obtain ⟨_, _, cloneValues, _⟩ := clones _ (.clone .self)
  obtain ⟨_, _, _, dropped⟩ :=
    (failing [_, putText, putNumber] putShapeless [] rfl
      (.encode splitEarly.name "shapeless")).mp rfl
  have short : (Utf8.encode "c").length < UInt64.size := by decide
  refine ⟨_, rfl, (cloneValues (Option String) _ _ _ putText_last).mpr short,
    (values Int32 _ _ _ putNumber_last).mpr trivial, ?_, rfl, dropped⟩
  refine (keys _).1 fun request member writes => ?_
  have named := writes.names
  simp only [sharedRequests, List.mem_cons, List.not_mem_nil, or_false] at member
  rcases member with rfl | rfl | rfl | rfl
  all_goals exact absurd named (by decide)

end StorageHandle

end Authorship
