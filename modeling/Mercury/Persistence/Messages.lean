import Mercury.Persistence.Backend

/-!
# Writing messages

`Persistence.Messages.write`: an unconditional `INSERT`, which ScyllaDB carries
out as an upsert on the primary key.
-/

namespace Mercury.Persistence.Messages

open Foundations.Program

def write (tenantId channelId : Bytes) (bucketId : ℕ) (msg : Message) :
    Backed (Except Bytes Unit) := do
  let now ← ask .systemTime
  ask (.insertMessage
    { tenantId := tenantId
      channelId := channelId
      bucketId := bucketId
      message := msg
      serverReceivedAt := now })

end Mercury.Persistence.Messages
