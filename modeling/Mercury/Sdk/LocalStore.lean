import Mathlib.Algebra.Order.Ring.Rat
import Mathlib.Data.List.Induction
import Mathlib.Data.List.Lex
import Mathlib.Order.Fin.Basic
import Mathlib.Tactic.NormNum
import Mercury.Foundations.IndexedTable
import Mercury.Foundations.Selection
import Mercury.Sdk.HexStrings

/-!
# The local message store

The `messages` object store of `LocalStore`: its key path, its index by channel and
time, and the cursor loops of `readMessages` and `evictOldMessages` over the index.
Strings are of any type `Text` with the order in which IndexedDB compares them, and
numbers are rationals.
-/

namespace Mercury.Sdk

open Foundations

/-- `StoredMessage`. -/
structure LocalMessage (Text : Type) where
  channelId : Text
  messageId : Text
  sender : Text
  content : Text
  contentType : ℚ
  timestamp : ℚ

variable {Text : Type} [LinearOrder Text]

namespace LocalStore

def maxMessagesPerChannel : ℕ := 10000

/-- `Number.MAX_SAFE_INTEGER`. -/
def maxSafeInteger : ℚ := 2 ^ 53 - 1

/-- The key path of the object store. -/
def keyPath (msg : LocalMessage Text) : Text ×ₗ Text :=
  toLex (msg.channelId, msg.messageId)

def byTimestamp (msg : LocalMessage Text) : Text ×ₗ ℚ :=
  toLex (msg.channelId, msg.timestamp)

abbrev Messages (Text : Type) : Type :=
  KeyedTable (keyPath : LocalMessage Text → Text ×ₗ Text)

/-- `IDBKeyRange.bound` with the bounds of a channel. -/
def channelRange (channelId : Text) : KeyRange (Text ×ₗ ℚ) where
  lower := toLex (channelId, 0)
  upper := toLex (channelId, maxSafeInteger)

variable (messages : Messages Text) (channelId : Text)

/-- `put` replaces the message of the same key. -/
def writeMessage (msg : LocalMessage Text) : Messages Text :=
  messages.upsert msg

def readMessages (limit : ℕ) : List (LocalMessage Text) :=
  IndexedTable.collect byTimestamp messages (channelRange channelId) limit none

/-- `index.count(range)`. -/
def count : ℕ :=
  (IndexedTable.listing byTimestamp messages (channelRange channelId)).length

/-- `evictOldMessages`: the messages afterwards and the count of deleted ones. -/
def evictOldMessages : Messages Text × ℕ :=
  if count messages channelId ≤ maxMessagesPerChannel then (messages, 0)
  else
    IndexedTable.purge byTimestamp (channelRange channelId)
      (count messages channelId - maxMessagesPerChannel) messages none

/-! ## The order of a channel -/

/-- Descending by time, and at one time by id. -/
def Newer (left right : LocalMessage Text) : Prop :=
  right.timestamp < left.timestamp ∨
    right.timestamp = left.timestamp ∧ right.messageId < left.messageId

def messagesOf : List (LocalMessage Text) :=
  messages.rows.filter fun msg => msg.channelId = channelId

/-- The timestamps are within the bounds of the ranges. -/
def Dated : Prop :=
  ∀ msg ∈ messages, 0 ≤ msg.timestamp ∧ msg.timestamp ≤ maxSafeInteger

variable {messages channelId}

theorem mem_messagesOf {msg : LocalMessage Text} :
    msg ∈ messagesOf messages channelId ↔ msg ∈ messages ∧ msg.channelId = channelId := by
  rw [messagesOf, List.mem_filter, decide_eq_true_eq]
  rfl

theorem covers_iff {msg : LocalMessage Text} :
    (channelRange channelId).Covers (byTimestamp msg) ↔
      msg.channelId = channelId ∧ 0 ≤ msg.timestamp ∧ msg.timestamp ≤ maxSafeInteger := by
  simp only [KeyRange.Covers, channelRange, byTimestamp, Prod.Lex.toLex_le_toLex]
  constructor
  · rintro ⟨after | ⟨same, first⟩, before | ⟨_, last⟩⟩
    · exact absurd (after.trans before) (lt_irrefl _)
    · exact absurd after (by simp_all)
    · exact absurd before (by simp_all)
    · exact ⟨same.symm, first, last⟩
  · rintro ⟨same, first, last⟩
    exact ⟨Or.inr ⟨same.symm, first⟩, Or.inr ⟨same, last⟩⟩

theorem mem_writeMessage {msg other : LocalMessage Text} :
    other ∈ writeMessage messages msg ↔
      other ∈ messages ∧ keyPath other ≠ keyPath msg ∨ other = msg :=
  KeyedTable.mem_upsert

theorem nodup_messagesOf : (messagesOf messages channelId).Nodup :=
  (List.Nodup.of_map keyPath messages.unique).filter _

/-- The rows of a channel, in the order of the index. -/
def indexed (messages : Messages Text) (channelId : Text) : List (LocalMessage Text) :=
  IndexedTable.listing byTimestamp messages (channelRange channelId)

theorem mem_indexed (dated : Dated messages) {msg : LocalMessage Text} :
    msg ∈ indexed messages channelId ↔ msg ∈ messages ∧ msg.channelId = channelId := by
  rw [indexed, IndexedTable.mem_listing, covers_iff]
  constructor
  · rintro ⟨msgMem, own, _⟩
    exact ⟨msgMem, own⟩
  · rintro ⟨msgMem, own⟩
    exact ⟨msgMem, own, dated msg msgMem⟩

theorem nodup_indexed : (indexed messages channelId).Nodup :=
  IndexedTable.nodup_listing

theorem count_le_length : count messages channelId ≤ messages.rows.length := by
  rw [count, IndexedTable.listing, List.length_insertionSort]
  exact List.length_filter_le _ _

theorem length_indexed (dated : Dated messages) :
    (indexed messages channelId).length = (messagesOf messages channelId).length := by
  apply List.Perm.length_eq
  apply (List.perm_ext_iff_of_nodup nodup_indexed nodup_messagesOf).mpr
  intro msg
  rw [mem_indexed dated, mem_messagesOf]

/-- Backwards, the index lists the newer message first. -/
theorem newer_reverse_indexed : (indexed messages channelId).reverse.Pairwise Newer := by
  apply List.pairwise_reverse.mpr
  apply IndexedTable.ascending_listing.imp_of_mem
  intro left right leftMem rightMem before
  have leftOwn := (covers_iff.mp (IndexedTable.mem_listing.mp leftMem).2).1
  have rightOwn := (covers_iff.mp (IndexedTable.mem_listing.mp rightMem).2).1
  simp only [IndexedTable.position, byTimestamp, keyPath, Prod.Lex.toLex_lt_toLex, leftOwn,
    rightOwn, lt_self_iff_false, true_and, false_or, toLex_inj, Prod.mk.injEq] at before
  exact before

/-- The newest messages of a channel, as many as asked for. -/
theorem firstBy_reverse_indexed (dated : Dated messages) (limit : ℕ) :
    FirstBy Newer limit (messagesOf messages channelId)
      ((indexed messages channelId).reverse.take limit) := by
  have mem_reverse : ∀ msg, msg ∈ (indexed messages channelId).reverse ↔
      msg ∈ messagesOf messages channelId := by
    intro msg
    rw [List.mem_reverse, mem_indexed dated, mem_messagesOf]
  apply (firstBy_prefix_iff (List.nodup_reverse.mpr nodup_indexed)
    fun msg msgMem => (mem_reverse msg).mp msgMem).mpr
  refine ⟨by rw [List.length_reverse, length_indexed dated], ?_, ?_⟩
  · intro taken _ other pair
    exact newer_reverse_indexed.forall_sublist pair
  · intro taken _ other otherMem outside
    exact absurd ((mem_reverse other).mpr otherMem) outside

theorem readMessages_eq (limit : ℕ) :
    readMessages messages channelId limit = (indexed messages channelId).reverse.take limit :=
  IndexedTable.collect_none limit

/-- Eviction deletes what the index lists before the newest messages. -/
theorem evictOldMessages_spec :
    (∀ msg, msg ∈ (evictOldMessages messages channelId).1 ↔ msg ∈ messages ∧
        msg ∉ (indexed messages channelId).take
          ((indexed messages channelId).length - maxMessagesPerChannel)) ∧
      (evictOldMessages messages channelId).2 =
        (indexed messages channelId).length - maxMessagesPerChannel := by
  have counted : count messages channelId = (indexed messages channelId).length := rfl
  unfold evictOldMessages
  rw [counted]
  split
  · next few =>
      rw [Nat.sub_eq_zero_of_le few]
      simp
  · generalize excess :
      (indexed messages channelId).length - maxMessagesPerChannel = surplus
    have purged := @IndexedTable.purge_none _ _ _ _ _ _ byTimestamp messages
      (channelRange channelId) surplus
    refine ⟨purged.1, purged.2.trans (Nat.min_eq_left ?_)⟩
    rw [← excess]
    exact Nat.sub_le _ _

/-! ## Runs -/

structure EvictsOldest (messages : Messages Text) (channelId : Text) : Prop where
  kept : ∃ newest, FirstBy Newer maxMessagesPerChannel (messagesOf messages channelId) newest ∧
    ∀ msg, msg ∈ messagesOf (evictOldMessages messages channelId).1 channelId ↔ msg ∈ newest
  counted : (evictOldMessages messages channelId).2 +
      (messagesOf (evictOldMessages messages channelId).1 channelId).length =
    (messagesOf messages channelId).length
  others : ∀ msg : LocalMessage Text, msg.channelId ≠ channelId →
    (msg ∈ (evictOldMessages messages channelId).1 ↔ msg ∈ messages)

theorem mem_evicted_iff (dated : Dated messages) {msg : LocalMessage Text} :
    msg ∈ messagesOf (evictOldMessages messages channelId).1 channelId ↔
      msg ∈ (indexed messages channelId).drop
        ((indexed messages channelId).length - maxMessagesPerChannel) := by
  have distinct := @nodup_indexed _ _ messages channelId
  have parts := List.take_append_drop
    ((indexed messages channelId).length - maxMessagesPerChannel) (indexed messages channelId)
  rw [← parts, List.nodup_append] at distinct
  rw [mem_messagesOf, evictOldMessages_spec.1]
  constructor
  · rintro ⟨⟨msgMem, kept⟩, own⟩
    have listed := (mem_indexed dated).mpr ⟨msgMem, own⟩
    rw [← parts, List.mem_append] at listed
    exact listed.resolve_left kept
  · intro dropped
    rcases (mem_indexed dated).mp (List.mem_of_mem_drop dropped) with ⟨msgMem, own⟩
    refine ⟨⟨msgMem, ?_⟩, own⟩
    intro taken
    exact distinct.2.2 msg taken msg dropped rfl

theorem evictsOldest (dated : Dated messages) (channelId : Text) :
    EvictsOldest messages channelId where
  kept := by
    refine ⟨_, firstBy_reverse_indexed dated maxMessagesPerChannel, ?_⟩
    intro msg
    rw [mem_evicted_iff dated, List.take_reverse, List.mem_reverse]
  counted := by
    have perm : List.Perm (messagesOf (evictOldMessages messages channelId).1 channelId)
        ((indexed messages channelId).drop
          ((indexed messages channelId).length - maxMessagesPerChannel)) := by
      apply (List.perm_ext_iff_of_nodup nodup_messagesOf
        (nodup_indexed.sublist (List.drop_sublist _ _))).mpr
      intro msg
      exact mem_evicted_iff dated
    rw [evictOldMessages_spec.2, perm.length_eq, List.length_drop, ← length_indexed dated]
    omega
  others msg away := by
    rw [evictOldMessages_spec.1, and_iff_left_iff_imp]
    intro _ taken
    exact away ((mem_indexed dated).mp (List.mem_of_mem_take taken)).2

end LocalStore

/-- An awaited call of the store. -/
inductive StoreCall (Text : Type) where
  | writeMessage (msg : LocalMessage Text)
  | readMessages (channelId : Text) (limit : ℕ)
  | evictOldMessages (channelId : Text)

namespace StoreCall

open LocalStore

def InBounds : StoreCall Text → Prop
  | writeMessage msg => 0 ≤ msg.timestamp ∧ msg.timestamp ≤ maxSafeInteger
  | _ => True

def apply (messages : Messages Text) : StoreCall Text → Messages Text
  | writeMessage msg => LocalStore.writeMessage messages msg
  | readMessages _ _ => messages
  | evictOldMessages channelId => (LocalStore.evictOldMessages messages channelId).1

def run (calls : List (StoreCall Text)) : Messages Text :=
  calls.foldl apply KeyedTable.empty

theorem dated_apply {messages : Messages Text} (dated : Dated messages) {call : StoreCall Text}
    (inBounds : call.InBounds) : Dated (call.apply messages) := by
  cases call with
  | writeMessage msg =>
      intro other otherMem
      rcases KeyedTable.mem_upsert.mp otherMem with ⟨held, _⟩ | rfl
      · exact dated other held
      · exact inBounds
  | readMessages => exact dated
  | evictOldMessages channelId =>
      intro msg msgMem
      exact dated msg (evictOldMessages_spec.1 msg |>.mp msgMem).1

theorem dated_foldl {calls : List (StoreCall Text)} (inBounds : ∀ call ∈ calls, call.InBounds)
    {messages : Messages Text} (dated : Dated messages) : Dated (calls.foldl apply messages) := by
  induction calls generalizing messages with
  | nil => exact dated
  | cons call rest ih =>
      apply ih fun later laterMem => inBounds later (List.mem_cons_of_mem _ laterMem)
      exact dated_apply dated (inBounds call List.mem_cons_self)

/-- After any calls, eviction leaves a channel its newest messages, and reading lists the
newest ones. -/
theorem evicts_and_reads {calls : List (StoreCall Text)}
    (inBounds : ∀ call ∈ calls, call.InBounds) (channelId : Text) (limit : ℕ) :
    EvictsOldest (run calls) channelId ∧
      FirstBy Newer limit (messagesOf (run calls) channelId)
        (LocalStore.readMessages (run calls) channelId limit) := by
  have dated : Dated (run calls) := dated_foldl inBounds (by
    intro msg msgMem
    cases msgMem)
  refine ⟨evictsOldest dated channelId, ?_⟩
  rw [readMessages_eq]
  exact firstBy_reverse_indexed dated limit

/-- Messages with different keys are all there once they are written. -/
theorem mem_run_writes {written : List (LocalMessage Text)}
    (distinct : (written.map keyPath).Nodup) :
    ∀ msg ∈ written, msg ∈ run (written.map writeMessage) := by
  induction written using List.reverseRecOn with
  | nil => exact nofun
  | append_singleton earlier last ih =>
      rw [List.map_append, List.nodup_append] at distinct
      have runs : run ((earlier ++ [last]).map writeMessage) =
          LocalStore.writeMessage (run (earlier.map writeMessage)) last := by
        rw [run, List.map_append, List.foldl_append]
        rfl
      rw [runs]
      intro msg msgMem
      apply KeyedTable.mem_upsert.mpr
      rcases List.mem_append.mp msgMem with inEarlier | isLast
      · left
        refine ⟨ih distinct.1 msg inEarlier, ?_⟩
        exact distinct.2.2 _ (List.mem_map_of_mem inEarlier) _ (List.mem_map_of_mem (by simp))
      · exact Or.inr (List.mem_singleton.mp isLast)

def tiedChannel : JsString :=
  JsString.ofAscii (ascii "c")

/-- Messages of one channel, two of each time. -/
def tiedMessage (number : ℕ) : LocalMessage JsString where
  channelId := tiedChannel
  messageId := JsString.ofAscii (bytesToHex (littleEndian 2 number))
  sender := []
  content := []
  contentType := 0
  timestamp := (number / 2 : ℕ)

def tiedMessages : List (LocalMessage JsString) :=
  (List.range 10003).map tiedMessage

theorem nodup_keyPath_tied : (tiedMessages.map keyPath).Nodup := by
  rw [tiedMessages, List.map_map]
  refine List.Nodup.map_on ?_ List.nodup_range
  intro left leftMem right rightMem same
  have ids : (tiedMessage left).messageId = (tiedMessage right).messageId :=
    congrArg (fun key => key.2) same
  have hex := List.map_injective_iff.mpr (Fin.castLE_injective _) ids
  have numbers := congrArg fromLittleEndian (bytesToHex_injective hex)
  rw [List.mem_range] at leftMem rightMem
  rwa [fromLittleEndian_littleEndian (by omega), fromLittleEndian_littleEndian (by omega)]
    at numbers

/-- A channel of 10,003 messages, two of each time. -/
theorem evicts_and_reads_tied :
    10003 ≤ (messagesOf (run (tiedMessages.map writeMessage)) tiedChannel).length ∧
      EvictsOldest (run (tiedMessages.map writeMessage)) tiedChannel ∧
      FirstBy Newer 50 (messagesOf (run (tiedMessages.map writeMessage)) tiedChannel)
        (LocalStore.readMessages (run (tiedMessages.map writeMessage)) tiedChannel 50) := by
  constructor
  · have within : tiedMessages ⊆
        messagesOf (run (tiedMessages.map writeMessage)) tiedChannel := by
      intro msg msgMem
      refine mem_messagesOf.mpr ⟨mem_run_writes nodup_keyPath_tied msg msgMem, ?_⟩
      rcases List.mem_map.mp msgMem with ⟨number, -, rfl⟩
      rfl
    have counted := (List.subperm_of_subset (nodup_keyPath_tied.of_map _) within).length_le
    rwa [tiedMessages, List.length_map, List.length_range] at counted
  · apply evicts_and_reads
    intro call callMem
    rcases List.mem_map.mp callMem with ⟨msg, msgMem, rfl⟩
    rcases List.mem_map.mp msgMem with ⟨number, numberMem, rfl⟩
    rw [List.mem_range] at numberMem
    have small : number / 2 ≤ 5001 := by omega
    refine ⟨Nat.cast_nonneg _, ?_⟩
    calc ((number / 2 : ℕ) : ℚ) ≤ (5001 : ℕ) := Nat.cast_le.mpr small
      _ ≤ maxSafeInteger := by norm_num [maxSafeInteger]

end StoreCall

end Mercury.Sdk
