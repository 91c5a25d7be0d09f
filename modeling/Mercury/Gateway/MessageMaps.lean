import Mercury.Gateway.Sessions

/-!
# The maps that a read returns

`Messages.read` returns a map for each row, with the time at which the server received the
message. The cache does not keep that time. The callers of `read_recent` look at nothing
but the message, which is all that the other modules have of a map.
-/

namespace Mercury.Gateway

open Foundations Foundations.Program Persistence

/-- A map that a read returns; the maps of the cache have no `server_received_at`. -/
structure MessageMap where
  message : Message
  serverReceivedAt : Option ℕ
deriving DecidableEq

namespace MessageMap

def ofRow (row : MessageRow) : MessageMap :=
  ⟨row.message, some row.serverReceivedAt⟩

def ofCached (msg : Message) : MessageMap :=
  ⟨msg, none⟩

@[simp]
theorem message_ofRow (row : MessageRow) : (ofRow row).message = row.message :=
  rfl

@[simp]
theorem message_ofCached (msg : Message) : (ofCached msg).message = msg :=
  rfl

end MessageMap

namespace Messages

def readMaps (tenantId channelId : Bytes) (bucketId limit : ℕ) :
    Stored (Except Bytes (List MessageMap)) := do
  match ← send (.selectMessages tenantId channelId bucketId limit) with
  | .ok page => pure (.ok (page.map MessageMap.ofRow))
  | .error reason => pure (.error reason)

def readMapsFromScylla (tenantId channelId : Bytes) (limit : ℕ) : Stored (List MessageMap) := do
  let now ← send .time
  let nowBucket ← ofExcept (TimeBucket.compute now)
  match ← readMaps tenantId channelId nowBucket limit with
  | .error _ => pure []
  | .ok maps =>
      if maps.length < limit then
        match nowBucket with
        -- no message is in a bucket before the first one
        | 0 => pure maps
        | older + 1 =>
            match ← readMaps tenantId channelId older (limit - maps.length) with
            | .ok more => pure (maps ++ more)
            | .error _ => pure maps
      else pure maps

/-- What a miss of the cache leads to. -/
def refreshMaps (json : Json) (tenantId channelId : Bytes) (limit : ℕ) :
    Stored (List MessageMap) := do
  let maps ← readMapsFromScylla tenantId channelId limit
  if maps ≠ [] then
    Cache.putRecentMessages json tenantId channelId (maps.map MessageMap.message)
  pure maps

def readRecentMaps (json : Json) (tenantId channelId : Bytes) (limit : ℕ) :
    Stored (List MessageMap) := do
  match ← Cache.getRecentMessages json tenantId channelId with
  | some cached =>
      if limit ≤ cached.length then pure ((cached.take limit).map MessageMap.ofCached)
      else refreshMaps json tenantId channelId limit
  | none => refreshMaps json tenantId channelId limit

/-! ## Their messages -/

/-- The program, and then the messages of the maps that it returns. -/
def messagesOf (program : Stored (List MessageMap)) : Stored (List Message) :=
  program >>= fun maps => pure (maps.map MessageMap.message)

variable {json : Json} {tenantId channelId : Bytes} {bucketId limit : ℕ}

theorem read_eq : read tenantId channelId bucketId limit =
    readMaps tenantId channelId bucketId limit >>= fun reply =>
      pure (reply.map (List.map MessageMap.message)) := by
  rw [read, readMaps, bind_bind]
  refine congrArg _ (funext fun page => ?_)
  rcases page with reason | page
  · rfl
  · have same : page.map MessageRow.message =
        (page.map MessageMap.ofRow).map MessageMap.message := by
      rw [List.map_map]
      rfl
    exact congrArg (fun msgs => done (Except.ok msgs)) same

theorem readRecentFromScylla_eq : readRecentFromScylla tenantId channelId limit =
    messagesOf (readMapsFromScylla tenantId channelId limit) := by
  rw [readRecentFromScylla, readMapsFromScylla, messagesOf, bind_bind]
  refine congrArg _ (funext fun now => ?_)
  rw [bind_bind]
  refine congrArg _ (funext fun nowBucket => ?_)
  rw [read_eq, bind_bind, bind_bind]
  refine congrArg _ (funext fun reply => ?_)
  rcases reply with reason | maps
  · rfl
  change (if (maps.map MessageMap.message).length < limit then _ else _) =
    messagesOf (if maps.length < limit then _ else _)
  rw [List.length_map]
  by_cases short : maps.length < limit
  · rw [if_pos short, if_pos short]
    rcases nowBucket with _ | older
    · rfl
    · dsimp only
      rw [messagesOf, read_eq, bind_bind, bind_bind]
      refine congrArg _ (funext fun reply => ?_)
      rcases reply with reason | more
      · rfl
      · exact congrArg done List.map_append.symm
  · rw [if_neg short, if_neg short]
    rfl

theorem refreshRecent_eq : refreshRecent json tenantId channelId limit =
    messagesOf (refreshMaps json tenantId channelId limit) := by
  rw [refreshRecent, refreshMaps, messagesOf, readRecentFromScylla_eq, messagesOf, bind_bind,
    bind_bind]
  refine congrArg _ (funext fun maps => ?_)
  rcases maps with _ | ⟨first, later⟩
  · rfl
  · change (Cache.putRecentMessages .. >>= _) = (Cache.putRecentMessages .. >>= _) >>= _
    rw [bind_bind]
    rfl

/-- `read_recent` returns the messages of its maps. -/
theorem readRecent_eq : readRecent json tenantId channelId limit =
    messagesOf (readRecentMaps json tenantId channelId limit) := by
  rw [readRecent, readRecentMaps, messagesOf, bind_bind]
  refine congrArg _ (funext fun cached => ?_)
  rcases cached with _ | cached
  · exact refreshRecent_eq
  · change (if limit ≤ cached.length then _ else _) =
      messagesOf (if limit ≤ cached.length then _ else _)
    by_cases enough : limit ≤ cached.length
    · have same : cached.take limit =
          ((cached.take limit).map MessageMap.ofCached).map MessageMap.message := by
        rw [List.map_map]
        exact (List.map_id _).symm
      rw [if_pos enough, if_pos enough]
      exact congrArg done same
    · rw [if_neg enough, if_neg enough]
      exact refreshRecent_eq

end Messages

end Mercury.Gateway
