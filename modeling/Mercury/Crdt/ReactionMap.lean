import Mercury.Crdt.OrSet

/-!
# The reaction map

`ReactionMap` of `mercury-crdt`: an observed-remove set of (user, emoji) pairs.
-/

namespace Mercury.Crdt

structure ReactionMap where
  reactions : OrSet (Id16 × String)

namespace ReactionMap

def new : ReactionMap := ⟨OrSet.new⟩

def addReaction (build : Build) (map : ReactionMap) (user : Id16) (emoji : String)
    (nodeId : Id16) : Option ReactionMap :=
  (map.reactions.add build (user, emoji) nodeId).map ReactionMap.mk

def removeReaction (map : ReactionMap) (user : Id16) (emoji : String) : ReactionMap :=
  ⟨map.reactions.remove (user, emoji)⟩

/-- The emojis of `user`; the source lists them in the iteration order of the set. -/
def userReactions (map : ReactionMap) (user : Id16) : Finset String :=
  (map.reactions.elements.filter fun reaction => reaction.1 = user).image Prod.snd

def isEmpty (map : ReactionMap) : Bool :=
  map.reactions.isEmpty

def merge (self other : ReactionMap) : ReactionMap :=
  ⟨self.reactions.merge other.reactions⟩

theorem mem_userReactions {map : ReactionMap} {user : Id16} {emoji : String} :
    emoji ∈ map.userReactions user ↔ map.reactions.contains (user, emoji) = true := by
  simp [userReactions, OrSet.mem_elements]

end ReactionMap

end Mercury.Crdt
