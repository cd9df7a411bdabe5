import TextWorld.Proofs.Conversation.Closing
import TextWorld.Proofs.World.Errands

/-!
What conversations do to the world when they start and end. They hold and release characters, and
nothing else in the world notices.
-/

namespace TextWorld

/-- What of a character does not depend on the conversation it is in. -/
def Character.unheld (c : Character) : Character := { c with conversation := none }

namespace World

variable {w v u : World}

/-- The same world, but for the conversations that its characters are in. -/
structure Regrouped (w v : World) : Prop where
  zones : v.zones = w.zones
  rooms : v.rooms = w.rooms
  items : v.items = w.items
  roomIndex : v.roomIndex = w.roomIndex
  lastIndex : v.lastIndex = w.lastIndex
  now : v.now = w.now
  alike : Alike Character.unheld w v

namespace Regrouped

theorem refl (w : World) : w.Regrouped w := ⟨rfl, rfl, rfl, rfl, rfl, rfl, .refl w⟩

theorem trans (h : w.Regrouped v) (h' : v.Regrouped u) : w.Regrouped u :=
  ⟨h'.zones.trans h.zones, h'.rooms.trans h.rooms, h'.items.trans h.items,
    h'.roomIndex.trans h.roomIndex, h'.lastIndex.trans h.lastIndex, h'.now.trans h.now,
    h.alike.trans h'.alike⟩

theorem exit?_eq (h : w.Regrouped v) (room : RoomId) (d : Direction) :
    v.exit? room d = w.exit? room d := by
  rw [exit?, exit?, room?, room?, h.rooms]

theorem characterRoom_eq (h : w.Regrouped v) (id : CharacterId) :
    v.characterRoom id = w.characterRoom id := by
  have hroom := congrArg (Option.bind · Character.room) (h.alike id)
  simp only [Option.bind_map] at hroom
  exact hroom

theorem sameWalls (h : w.Regrouped v) : w.SameWalls v := .of_exits h.roomIndex h.exit?_eq

end Regrouped

end World

namespace State

variable {S : Setting} {s t u : State S}

/-- A new conversation is that of its participants, but for those who are in one already. -/
theorem conversation_add (s : State S) (c : Conversation S.Talk S.Ending) (x : CharacterId) :
    ((s.addConversation c).2.world.character? x).bind (·.conversation) =
      if x ∈ c.participants then
        (s.world.character? x).map fun d => d.conversation.getD (s.forest.insert c).1
      else (s.world.character? x).bind (·.conversation) := by
  have hheld := character?_hold { s with forest := (s.forest.insert c).2 } (s.forest.insert c).1
    c.participants x
  have hconversation := congrArg (Option.bind · Character.conversation) hheld
  refine hconversation.trans ?_
  split
  · change ((s.world.character? x).map _).bind _ = _
    cases s.world.character? x with
    | none => rfl
    | some d => cases hd : d.conversation <;> simp [hd]
  · rfl

/-- A conversation that ends is no longer that of its participants. -/
theorem conversation_close {id : ConversationId} {c : Conversation S.Talk S.Ending}
    (hc : s.forest.get? id = some c) (x : CharacterId) :
    ((s.close id).world.character? x).bind (·.conversation) =
      if x ∈ c.participants ∧ (s.world.character? x).bind (·.conversation) = some id then none
      else (s.world.character? x).bind (·.conversation) := by
  rw [close_eq hc, character?_release]
  change (if x ∈ c.participants then (s.world.character? x).map _
    else s.world.character? x).bind _ = _
  by_cases hx : x ∈ c.participants
  · cases s.world.character? x with
    | none => simp
    | some d => simp [hx]
  · simp [hx]

/-- Conversations have started or ended, and that is all that has happened. -/
structure Regroups (s t : State S) : Prop where
  world : s.world.Regrouped t.world
  followUps : t.followUps = s.followUps

namespace Regroups

theorem refl (s : State S) : s.Regroups s := ⟨.refl _, rfl⟩

theorem trans (h : s.Regroups t) (h' : t.Regroups u) : s.Regroups u :=
  ⟨h.world.trans h'.world, h'.followUps.trans h.followUps⟩

theorem hold (s : State S) (id : ConversationId) (participants : List CharacterId) :
    s.Regroups (s.hold id participants) := by
  refine ⟨⟨rfl, rfl, rfl, rfl, rfl, rfl, fun x => ?_⟩, rfl⟩
  rw [character?_hold]
  split
  · rw [Option.map_map]
    rfl
  · rfl

theorem release (s : State S) (id : ConversationId) (participants : List CharacterId) :
    s.Regroups (s.release id participants) := by
  refine ⟨⟨rfl, rfl, rfl, rfl, rfl, rfl, fun x => ?_⟩, rfl⟩
  rw [character?_release]
  split
  · rw [Option.map_map]
    rfl
  · rfl

theorem addConversation (s : State S) (c : Conversation S.Talk S.Ending) :
    s.Regroups (s.addConversation c).2 := by
  have hheld := hold { s with forest := (s.forest.insert c).2 } (s.forest.insert c).1 c.participants
  exact ⟨hheld.world, hheld.followUps⟩

theorem start (s : State S) (participants : List CharacterId) (talk : S.Talk)
    (ending : Option S.Ending) : s.Regroups (s.start participants talk ending).2 := by
  rcases s.start_cases participants talk ending with hsame | ⟨c, hadd⟩
  · rw [hsame]
    exact .refl s
  · rw [hadd]
    exact addConversation s c

theorem startChild (s : State S) (parent : ConversationId) (participants : List CharacterId)
    (talk : S.Talk) : s.Regroups (s.startChild parent participants talk).2 := by
  rcases s.startChild_cases parent participants talk with hsame | ⟨c, hadd⟩
  · rw [hsame]
    exact .refl s
  · rw [hadd]
    exact addConversation s c

theorem close (s : State S) (id : ConversationId) : s.Regroups (s.close id) := by
  unfold State.close
  split
  · exact .refl s
  · rename_i c _
    have hreleased := release { s with forest := s.forest.remove id } id c.participants
    exact ⟨hreleased.world, hreleased.followUps⟩

theorem closeAll (s : State S) (id : ConversationId) : s.Regroups (s.closeAll id) :=
  closeAll_keeps (P := fun t => s.Regroups t) (fun t x _ ht => ht.trans (close t x)) (.refl s)

end Regroups

end State

end TextWorld
