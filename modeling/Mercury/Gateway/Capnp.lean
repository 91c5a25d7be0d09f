import Mercury.Gateway.Call

/-!
# Cap'n Proto messages

The bytes that the Cap'n Proto library writes for the messages of the schema: one
segment with a root struct of 64-bit numbers and `Data` pointers. A decoder is
given by the messages it is asked to read; everything else fails to decode.
-/

namespace Mercury.Gateway.Capnp

def words (field : Bytes) : ℕ :=
  (field.length + 7) / 8

def padToWord (field : Bytes) : Bytes :=
  field ++ List.replicate (8 * words field - field.length) 0

/-- The pointers from word `position` on, to fields that lie from word `start` on. -/
def dataPointers (position start : ℕ) : List Bytes → Bytes
  | [] => []
  | field :: later =>
      littleEndian 4 (4 * (start - position - 1) + 1) ++
        littleEndian 4 (8 * field.length + 2) ++
          dataPointers (position + 1) (start + words field) later

def message (numbers : List ℕ) (fields : List Bytes) : Bytes :=
  let fieldStart := 1 + numbers.length + fields.length
  littleEndian 4 0 ++ littleEndian 4 (fieldStart + (fields.map words).sum) ++
    littleEndian 4 0 ++ littleEndian 2 numbers.length ++ littleEndian 2 fields.length ++
      (numbers.map (littleEndian 8)).flatten ++
        dataPointers (1 + numbers.length) fieldStart fields ++ (fields.map padToWord).flatten

def envelope (fields : Envelope) : Bytes :=
  message [fields.timestamp]
    [fields.tenantId, fields.channelId, fields.senderId, fields.messageId, fields.payload]

def mlsCommit (commit : Bytes) : Bytes :=
  message [] [commit]

/-- The message of a decoder that fails. -/
def failure : Bytes :=
  ascii "Failed: premature end of file"

/-- The NIFs, with decoders for the messages of `envelopes` and `commits`. -/
def native (envelopes : List Envelope) (commits : List Bytes) : Native where
  build := .wrapping
  envelopeEncode := envelope
  envelopeDecode bytes :=
    match envelopes.find? fun fields => envelope fields = bytes with
    | some fields => .ok (.ok fields)
    | none => .ok (.error failure)
  typingEncode userId := message [] [userId]
  readReceiptEncode userId messageId := message [] [userId, messageId]
  readReceiptDecode _ := .ok (.error failure)
  mlsKeyPackageDecode _ := .ok (.error failure)
  mlsKeyPackageListEncode packages := message [] packages
  mlsCommitDecode bytes :=
    match commits.find? fun commit => mlsCommit commit = bytes with
    | some commit => .ok (.ok commit)
    | none => .ok (.error failure)

end Mercury.Gateway.Capnp
