import Mathlib.Data.List.Sort
import Mercury.Core.Base
import Mercury.Foundations.KeyedTable
import Mercury.Foundations.Program

/-!
# The stores behind the persistence application

The commands that the persistence modules send to ScyllaDB, Redis and Postgres,
and the message table of ScyllaDB. A failed command is an answer of its own:
`{:error, _}` of Xandra, `:error` of `safe_command`, or an exception of Ecto.
-/

namespace Mercury.Persistence

/-- A message as `Messages.write` takes it. -/
structure Message where
  messageId : Bytes
  senderId : Bytes
  encryptedContent : Bytes
  contentType : ℕ
  replyTo : Option Bytes
  createdAt : ℕ
deriving DecidableEq

/-- The primary key of `mercury.messages`. -/
structure MessageKey where
  tenantId : Bytes
  channelId : Bytes
  bucketId : ℕ
  messageId : Bytes
deriving DecidableEq

/-- A row of `mercury.messages`. -/
structure MessageRow where
  tenantId : Bytes
  channelId : Bytes
  bucketId : ℕ
  message : Message
  serverReceivedAt : ℕ
deriving DecidableEq

def MessageRow.key (row : MessageRow) : MessageKey where
  tenantId := row.tenantId
  channelId := row.channelId
  bucketId := row.bucketId
  messageId := row.message.messageId

namespace Backend

inductive Call where
  | systemTime
  | generateMessageId
  | insertMessage (row : MessageRow)
  | selectMessages (tenantId channelId : Bytes) (bucketId limit : ℕ)
  | insertReaction (tenantId channelId messageId userId : Bytes) (emoji : Option Bytes)
  | updateReadPosition (tenantId userId channelId messageId : Bytes)
  | smembers (key : Bytes)
  /-- The pipeline `DEL`, `SADD`, `EXPIRE` on one key. -/
  | replaceSet (key : Bytes) (members : List Bytes)
  | del (key : Bytes)
  | selectMemberIds (tenantId channelId : Id16)
  | selectRole (tenantId channelId userId : Id16)
  | insertMember (tenantId channelId userId : Id16) (role : ℕ)
  | deleteMember (tenantId channelId userId : Id16)
deriving DecidableEq

abbrev Answer : Call → Type
  | .systemTime => ℕ
  | .generateMessageId => Bytes
  | .insertMessage _ => Except Bytes Unit
  | .selectMessages .. => Except Bytes (List MessageRow)
  | .insertReaction .. => Except Bytes Unit
  | .updateReadPosition .. => Except Bytes Unit
  | .smembers _ => Except Unit (List Bytes)
  | .replaceSet .. => Except Unit Unit
  | .del _ => Except Unit Unit
  | .selectMemberIds .. => List Id16
  | .selectRole .. => Option ℕ
  | .insertMember .. => Except Bytes Unit
  | .deleteMember .. => ℕ

end Backend

abbrev backend : Foundations.Interface where
  Call := Backend.Call
  Answer := Backend.Answer

/-- A function of a persistence module. -/
abbrev Backed (Result : Type) := Foundations.Program backend Raise Result

def ask (asked : Backend.Call) : Backed (Backend.Answer asked) :=
  @Foundations.Program.perform backend Raise asked

/-- The table `mercury.messages`. -/
abbrev MessageTable := Foundations.KeyedTable MessageRow.key

namespace MessageTable

def partition (table : MessageTable) (tenantId channelId : Bytes) (bucketId : ℕ) :
    List MessageRow :=
  table.rows.filter fun row =>
    row.tenantId = tenantId ∧ row.channelId = channelId ∧ row.bucketId = bucketId

/-- `SELECT ... ORDER BY message_id DESC LIMIT ?` on one partition. -/
def select (table : MessageTable) (tenantId channelId : Bytes) (bucketId limit : ℕ) :
    List MessageRow :=
  ((table.partition tenantId channelId bucketId).insertionSort fun first second =>
    second.message.messageId ≤ first.message.messageId).take limit

end MessageTable

end Mercury.Persistence
