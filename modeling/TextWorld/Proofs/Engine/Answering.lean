import TextWorld.Proofs.Engine.Composition
import TextWorld.Proofs.Engine.Structure

/-!
Who answers a line. The levels of the chain are asked one after another until one of them does not
leave the line to others; which levels there are depends on how the ones before have left things.
-/

namespace TextWorld

variable {S : Setting}

/-- A level of the chain that was asked, with its answer and the state it has left. -/
structure Ask (S : Setting) where
  level : Responder
  outcome : CommandOutcome
  state : State S

namespace Responder

def isConversation : Responder → Bool
  | .conversation _ => true
  | _ => false

def isRoom : Responder → Bool
  | .room _ => true
  | _ => false

end Responder

/-- The state that the last level of a kind has left, if any of it was asked. -/
def stateAfter (kind : Responder → Bool) (s : State S) (asks : List (Ask S)) : State S :=
  asks.foldl (fun s ask => if kind ask.level then ask.state else s) s

theorem stateAfter_append (kind : Responder → Bool) (s : State S) (asks asks' : List (Ask S)) :
    stateAfter kind s (asks ++ asks') = stateAfter kind (stateAfter kind s asks) asks' :=
  List.foldl_append

theorem stateAfter_congr {kind kind' : Responder → Bool} {asks : List (Ask S)}
    (h : ∀ ask ∈ asks, kind ask.level = kind' ask.level) (s : State S) :
    stateAfter kind s asks = stateAfter kind' s asks := by
  induction asks generalizing s with
  | nil => rfl
  | cons ask asks ih =>
    rw [stateAfter, stateAfter, List.foldl_cons, List.foldl_cons, h ask List.mem_cons_self]
    exact ih (fun later hlater => h later (List.mem_cons_of_mem _ hlater)) _

theorem stateAfter_of_none {kind : Responder → Bool} {asks : List (Ask S)}
    (h : ∀ ask ∈ asks, kind ask.level = false) (s : State S) : stateAfter kind s asks = s := by
  induction asks generalizing s with
  | nil => rfl
  | cons ask asks ih =>
    rw [stateAfter, List.foldl_cons, h ask List.mem_cons_self]
    exact ih (fun later hlater => h later (List.mem_cons_of_mem _ hlater)) s

namespace Rules

variable (rules : Rules S) (depth : Nat) (actor : CharacterId) (command : Command)

/-- What a level answers a line with; one without a registry leaves it to others. -/
def answer : Responder → Run S CommandOutcome
  | .conversation id => rules.offer depth id actor command
  | .room room =>
    match rules.registries.rooms.get? room with
    | none => pure .notHandled
    | some registry => rules.handle depth registry actor command (.room room)
  | .character other =>
    match rules.registries.characters.get? other with
    | none => pure .notHandled
    | some registry => rules.handle depth registry actor command (.character other)
  | .global => rules.handle depth rules.registries.global actor command .global

/-- The innermost conversation of an actor, if there is one. -/
def conversationLevels (s : State S) (actor : CharacterId) : List Responder :=
  (activeConversation s.world s.forest actor).toList.map .conversation

/-- A room, if it has a registry. -/
def roomLevels (room : RoomId) : List Responder :=
  match rules.registries.rooms.get? room with
  | none => []
  | some _ => [.room room]

/-- Those of the characters that have a registry. -/
def characterLevels : List CharacterId → List Responder
  | [] => []
  | other :: others =>
    match rules.registries.characters.get? other with
    | none => characterLevels others
    | some _ => .character other :: characterLevels others

/-- The others in a room that have a registry, in the order they came. -/
def occupantLevels (actor : CharacterId) (room : RoomId) (s : State S) : List Responder :=
  rules.characterLevels ((((s.world.room? room).map (·.characters)).getD []).filter (· ≠ actor))

/-- The levels around an actor, who is where `s` says, while `s'` says who else is there. -/
def surroundingLevels (actor : CharacterId) (s s' : State S) : List Responder :=
  match s.world.characterRoom actor with
  | none => []
  | some room => rules.roomLevels room ++ rules.occupantLevels actor room s'

/-- The whole chain: the conversation there is at first, the room the actor is in when that has
answered, those who are there when the room has answered, and the world. -/
def chain (actor : CharacterId) (s : State S) (asks : List (Ask S)) : List Responder :=
  conversationLevels s actor ++
    rules.surroundingLevels actor (stateAfter (·.isConversation) s asks)
      (stateAfter (fun level => level.isConversation || level.isRoom) s asks) ++
    [.global]

theorem mem_conversationLevels {s : State S} {level : Responder}
    (h : level ∈ conversationLevels s actor) : ∃ id, level = .conversation id := by
  obtain ⟨id, -, rfl⟩ := List.mem_map.1 h
  exact ⟨id, rfl⟩

theorem mem_roomLevels {room : RoomId} {level : Responder} (h : level ∈ rules.roomLevels room) :
    level = .room room := by
  rw [roomLevels] at h
  split at h
  · cases h
  · exact List.mem_singleton.1 h

theorem mem_characterLevels {others : List CharacterId} {level : Responder}
    (h : level ∈ rules.characterLevels others) : ∃ other ∈ others, level = .character other := by
  induction others with
  | nil => cases h
  | cons other others ih =>
    rw [characterLevels] at h
    split at h
    · obtain ⟨found, hmem, hlevel⟩ := ih h
      exact ⟨found, List.mem_cons_of_mem _ hmem, hlevel⟩
    · rcases List.mem_cons.1 h with rfl | h
      · exact ⟨other, List.mem_cons_self, rfl⟩
      · obtain ⟨found, hmem, hlevel⟩ := ih h
        exact ⟨found, List.mem_cons_of_mem _ hmem, hlevel⟩

theorem mem_surroundingLevels {s s' : State S} {level : Responder}
    (h : level ∈ rules.surroundingLevels actor s s') :
    (∃ room, level = .room room) ∨ ∃ other, other ≠ actor ∧ level = .character other := by
  rw [surroundingLevels] at h
  split at h
  · cases h
  · rcases List.mem_append.1 h with h | h
    · exact .inl ⟨_, rules.mem_roomLevels h⟩
    · obtain ⟨other, hother, hlevel⟩ := rules.mem_characterLevels h
      exact .inr ⟨other, by simpa using (List.mem_filter.1 hother).2, hlevel⟩

/-- Levels are asked one after another, each in the state that the one before has left. -/
inductive Asking : State S → List (Ask S) → List (Sight S) → State S → Prop where
  | nil (s : State S) : Asking s [] [] s
  | cons {s s' s'' : State S} {level : Responder} {outcome : CommandOutcome}
      {asks : List (Ask S)} {seen more : List (Sight S)}
      (hanswer : rules.answer depth actor command level s = ⟨seen, .ok outcome, s'⟩)
      (hrest : Asking s' asks more s'') :
      Asking s (⟨level, outcome, s'⟩ :: asks)
        (⟨.reached (.offered level), s⟩ :: seen ++ ⟨.reached (.answered level outcome), s'⟩ :: more)
        s''

/-- Levels are asked until one accepts, or breaks off. -/
inductive Asked (levels : List Responder) (s : State S) :
    List (Ask S) → Course S (Option Responder) → Prop where
  | passed {asks : List (Ask S)} {seen : List (Sight S)} {s' : State S}
      (hasking : Asking rules depth actor command s asks seen s')
      (hlevels : asks.map (·.level) = levels) (hleft : ∀ ask ∈ asks, ask.outcome = .notHandled) :
      Asked levels s asks ⟨seen, .ok none, s'⟩
  | accepted {asks : List (Ask S)} {last : Ask S} {seen : List (Sight S)}
      (hasking : Asking rules depth actor command s (asks ++ [last]) seen last.state)
      (hlevels : (asks ++ [last]).map (·.level) <+: levels)
      (hleft : ∀ ask ∈ asks, ask.outcome = .notHandled) (hlast : last.outcome.isHandled = true) :
      Asked levels s (asks ++ [last]) ⟨seen, .ok (some last.level), last.state⟩
  | broken {asks : List (Ask S)} {level : Responder} {seen more : List (Sight S)}
      {s' s'' : State S} {fault : Fault}
      (hasking : Asking rules depth actor command s asks seen s')
      (hlevels : asks.map (·.level) ++ [level] <+: levels)
      (hleft : ∀ ask ∈ asks, ask.outcome = .notHandled)
      (hanswer : rules.answer depth actor command level s' = ⟨more, .error fault, s''⟩) :
      Asked levels s asks ⟨seen ++ ⟨.reached (.offered level), s'⟩ :: more, .error fault, s''⟩

variable {rules : Rules S} {depth : Nat} {actor : CharacterId} {command : Command}
variable {levels levels' : List Responder} {asks asks' : List (Ask S)} {s s' s'' : State S}
variable {seen more : List (Sight S)}

theorem Asking.append (h : Asking rules depth actor command s asks seen s')
    (h' : Asking rules depth actor command s' asks' more s'') :
    Asking rules depth actor command s (asks ++ asks') (seen ++ more) s'' := by
  induction h with
  | nil s => exact h'
  | cons hanswer _ ih =>
    rw [List.append_assoc, List.cons_append]
    exact .cons hanswer (ih h')

theorem Asking.stateAfter_eq (h : Asking rules depth actor command s asks seen s')
    {kind : Responder → Bool} (hkind : ∀ ask ∈ asks, kind ask.level = true) :
    stateAfter kind s asks = s' := by
  induction h with
  | nil s => rfl
  | @cons s s' s'' level outcome asks seen more _ _ ih =>
    have hlevel : kind level = true := hkind _ List.mem_cons_self
    rw [stateAfter, List.foldl_cons, if_pos hlevel]
    exact ih fun later hlater => hkind later (List.mem_cons_of_mem _ hlater)

/-- Only levels of the chain are asked. -/
theorem Asked.level_mem {course : Course S (Option Responder)}
    (h : Asked rules depth actor command levels s asks course) :
    ∀ ask ∈ asks, ask.level ∈ levels := by
  intro ask hmem
  have hlevel := List.mem_map_of_mem (f := (·.level)) hmem
  cases h with
  | passed _ hlevels _ => rwa [hlevels] at hlevel
  | accepted _ hlevels _ _ => exact hlevels.subset hlevel
  | broken _ hlevels _ _ => exact hlevels.subset (List.mem_append_left _ hlevel)

/-- If nobody accepts, the last answer is what is left. -/
theorem Asked.state_eq {course : Course S (Option Responder)}
    (h : Asked rules depth actor command levels s asks course) (hpassed : course.result = .ok none)
    {kind : Responder → Bool} (hkind : ∀ level ∈ levels, kind level = true) :
    stateAfter kind s asks = course.state := by
  have hmem := h.level_mem
  cases h with
  | passed hasking _ _ => exact hasking.stateAfter_eq fun ask hask => hkind _ (hmem ask hask)
  | _ => cases hpassed

variable (rules depth actor command) in
/-- What one level answers settles whether the next is asked. -/
theorem ask_asked (level : Responder) (s : State S) :
    ∃ asks, Asked rules depth actor command [level] s asks
      (ask level (rules.answer depth actor command level) s) := by
  have hcourse : ask level (rules.answer depth actor command level) s =
      (Run.reach (.offered level) >>= fun _ => rules.answer depth actor command level >>=
        fun outcome => (Run.reach (.answered level outcome) >>= fun _ =>
          pure (if outcome.isHandled then some level else none))) s := rfl
  rcases hanswer : rules.answer depth actor command level s with ⟨seen, fault | outcome, s'⟩
  · have hask : ask level (rules.answer depth actor command level) s =
        ⟨[] ++ ⟨.reached (.offered level), s⟩ :: seen, .error fault, s'⟩ := by
      rw [hcourse, Run.bind_of_ok (m := Run.reach (.offered level)) rfl, Run.bind_of_error hanswer]
      rfl
    rw [hask]
    exact ⟨[], .broken (.nil s) (List.prefix_refl _) (fun ask hmem => by cases hmem) hanswer⟩
  · have hask : ask level (rules.answer depth actor command level) s =
        ⟨⟨.reached (.offered level), s⟩ :: seen ++ ⟨.reached (.answered level outcome), s'⟩ :: [],
          .ok (if outcome.isHandled then some level else none), s'⟩ := by
      rw [hcourse, Run.bind_of_ok (m := Run.reach (.offered level)) rfl, Run.bind_of_ok hanswer]
      rfl
    have hasking : Asking rules depth actor command s ([] ++ [⟨level, outcome, s'⟩])
        (⟨.reached (.offered level), s⟩ :: seen ++ ⟨.reached (.answered level outcome), s'⟩ :: [])
        s' := .cons hanswer (.nil s')
    rw [hask]
    cases houtcome : outcome.isHandled with
    | true =>
      exact ⟨_, .accepted hasking (List.prefix_refl _) (fun ask hmem => by cases hmem) houtcome⟩
    | false =>
      refine ⟨_, .passed hasking rfl fun ask hmem => ?_⟩
      cases List.mem_singleton.1 hmem
      cases outcome with
      | notHandled => rfl
      | _ => cases houtcome

/-- One part of the chain after the other. -/
theorem Asked.append {first second : Run S (Option Responder)}
    (hfirst : Asked rules depth actor command levels s asks (first s))
    (hsecond : (first s).result = .ok none →
      Asked rules depth actor command levels' (first s).state asks' (second (first s).state))
    (hover : (first s).result ≠ .ok none → asks' = []) :
    Asked rules depth actor command (levels ++ levels') s (asks ++ asks')
      (orAsk first second s) := by
  -- The first part breaks off, or is passed so that the second follows, or accepts.
  rcases hcourse : first s with ⟨seen, fault | answer, s'⟩
  · rw [hcourse] at hfirst hover
    rw [hover (by rintro ⟨⟩), List.append_nil]
    have hor : Rules.orAsk first second s = ⟨seen, .error fault, s'⟩ := Run.bind_of_error hcourse
    rw [hor]
    cases hfirst with
    | broken hasking hlevels hleft hanswer =>
      exact .broken hasking (hlevels.trans (List.prefix_append _ _)) hleft hanswer
  · rw [hcourse] at hfirst hsecond hover
    cases hfirst with
    | passed hasking hlevels hleft =>
      have hor : Rules.orAsk first second s =
          ⟨seen ++ (second s').sights, (second s').result, (second s').state⟩ :=
        Run.bind_of_ok hcourse
      have hrest := hsecond rfl
      rw [hor]
      dsimp only at hrest
      rcases hcourse' : second s' with ⟨more, result, s''⟩
      rw [hcourse'] at hrest
      have hall (ask : Ask S) {later : List (Ask S)}
          (hlater : ∀ ask ∈ later, ask.outcome = .notHandled) (hmem : ask ∈ asks ++ later) :
          ask.outcome = .notHandled := by
        rcases List.mem_append.1 hmem with hmem | hmem
        · exact hleft ask hmem
        · exact hlater ask hmem
      cases hrest with
      | passed hasking' hlevels' hleft' =>
        refine .passed (hasking.append hasking') ?_ fun ask => hall ask hleft'
        rw [List.map_append, hlevels, hlevels']
      | accepted hasking' hlevels' hleft' hlast =>
        have hboth := hasking.append hasking'
        rw [← List.append_assoc] at hboth ⊢
        refine .accepted hboth ?_ (fun ask => hall ask hleft') hlast
        rw [List.append_assoc, List.map_append, hlevels]
        exact List.prefix_append_right_inj _ |>.2 hlevels'
      | broken hasking' hlevels' hleft' hanswer =>
        rw [← List.append_assoc]
        refine .broken (hasking.append hasking') ?_ (fun ask => hall ask hleft') hanswer
        rw [List.map_append, hlevels, List.append_assoc]
        exact List.prefix_append_right_inj _ |>.2 hlevels'
    | accepted hasking hlevels hleft hlast =>
      have hor : Rules.orAsk first second s = ⟨seen ++ [], .ok (some _), _⟩ :=
        Run.bind_of_ok hcourse
      rw [hover (by rintro ⟨⟩), hor, List.append_nil, List.append_nil]
      exact .accepted hasking (hlevels.trans (List.prefix_append _ _)) hleft hlast

/-- The second part of the chain, which depends on how things are by then, is only asked if nobody
in the first accepts. -/
theorem Asked.orAsk {first second : Run S (Option Responder)}
    (later : List (Ask S) → List Responder)
    (hfirst : Asked rules depth actor command levels s asks (first s))
    (hsecond : (first s).result = .ok none → ∃ asks',
      Asked rules depth actor command (later asks') (first s).state asks'
        (second (first s).state)) :
    ∃ asks', (∀ ask ∈ asks', ask.level ∈ later asks') ∧
      Asked rules depth actor command (levels ++ later asks') s (asks ++ asks')
        (Rules.orAsk first second s) := by
  by_cases hpassed : (first s).result = .ok none
  · obtain ⟨asks', hasks'⟩ := hsecond hpassed
    exact ⟨asks', hasks'.level_mem, hfirst.append (fun _ => hasks') fun hnot =>
      absurd hpassed hnot⟩
  · exact ⟨[], fun ask hmem => (by cases hmem), hfirst.append (fun h => absurd h hpassed)
      fun _ => rfl⟩

section

variable (rules depth actor command)

theorem asked_nil (s : State S) :
    Asked rules depth actor command [] s [] ((pure none : Run S (Option Responder)) s) :=
  .passed (.nil s) rfl fun ask hmem => by cases hmem

theorem askConversation_asked (s : State S) :
    ∃ asks, Asked rules depth actor command (conversationLevels s actor) s asks
      (rules.askConversation depth actor command s) := by
  rw [askConversation, Run.get_bind, conversationLevels]
  cases activeConversation s.world s.forest actor with
  | none => exact ⟨[], asked_nil rules depth actor command s⟩
  | some id => exact ask_asked rules depth actor command (.conversation id) s

theorem askRoom_asked (room : RoomId) (s : State S) :
    ∃ asks, Asked rules depth actor command (rules.roomLevels room) s asks
      (rules.askRoom depth room actor command s) := by
  rw [askRoom, roomLevels]
  cases hregistry : rules.registries.rooms.get? room with
  | none => exact ⟨[], asked_nil rules depth actor command s⟩
  | some registry =>
    obtain ⟨asks, hasked⟩ := ask_asked rules depth actor command (.room room) s
    rw [answer, hregistry] at hasked
    exact ⟨asks, hasked⟩

theorem askCharacters_asked (others : List CharacterId) (s : State S) :
    ∃ asks, Asked rules depth actor command (rules.characterLevels others) s asks
      (rules.askCharacters depth actor command others s) := by
  induction others generalizing s with
  | nil => exact ⟨[], asked_nil rules depth actor command s⟩
  | cons other others ih =>
    rw [askCharacters, characterLevels]
    cases hregistry : rules.registries.characters.get? other with
    | none => exact ih s
    | some registry =>
      obtain ⟨asks, hasked⟩ := ask_asked rules depth actor command (.character other) s
      rw [answer, hregistry] at hasked
      obtain ⟨asks', -, hall⟩ := hasked.orAsk (fun _ => rules.characterLevels others)
        fun _ => ih _
      exact ⟨asks ++ asks', hall⟩

theorem askOccupants_asked (room : RoomId) (s : State S) :
    ∃ asks, Asked rules depth actor command (rules.occupantLevels actor room s) s asks
      (rules.askOccupants depth room actor command s) :=
  askCharacters_asked rules depth actor command _ s

theorem askSurroundings_asked (s : State S) :
    ∃ asks, Asked rules depth actor command
      (rules.surroundingLevels actor s (stateAfter (·.isRoom) s asks)) s asks
      (rules.askSurroundings depth actor command s) := by
  rw [askSurroundings, Run.get_bind]
  unfold surroundingLevels
  cases s.world.characterRoom actor with
  | none => exact ⟨[], asked_nil rules depth actor command s⟩
  | some room =>
    obtain ⟨asks, hroom⟩ := askRoom_asked rules depth actor command room s
    obtain ⟨asks', -, hall⟩ := hroom.orAsk
      (fun asks' => rules.occupantLevels actor room (stateAfter (·.isRoom) s (asks ++ asks')))
      fun hpassed => by
        obtain ⟨asks', hoccupants⟩ := askOccupants_asked rules depth actor command room
          (rules.askRoom depth room actor command s).state
        refine ⟨asks', ?_⟩
        -- The room has answered, and nobody there is a room.
        have hstate : stateAfter (·.isRoom) s (asks ++ asks') =
            (rules.askRoom depth room actor command s).state := by
          rw [stateAfter_append, hroom.state_eq hpassed fun level hmem => by
            rw [rules.mem_roomLevels hmem]; rfl]
          apply stateAfter_of_none
          intro ask hmem
          obtain ⟨other, -, hlevel⟩ := rules.mem_characterLevels (hoccupants.level_mem ask hmem)
          rw [hlevel]
          rfl
        rwa [hstate]
    exact ⟨asks ++ asks', hall⟩

theorem askAround_asked (s : State S) :
    ∃ asks, Asked rules depth actor command
      (rules.surroundingLevels actor s (stateAfter (·.isRoom) s asks) ++ [.global]) s asks
      (Rules.orAsk (rules.askSurroundings depth actor command)
        (rules.askGlobal depth actor command) s) := by
  obtain ⟨asks, hasked⟩ := askSurroundings_asked rules depth actor command s
  obtain ⟨asks', hglobal, hall⟩ := hasked.orAsk (fun _ => [.global]) fun _ =>
    ask_asked rules depth actor command .global _
  have hstate : stateAfter (·.isRoom) s (asks ++ asks') = stateAfter (·.isRoom) s asks := by
    rw [stateAfter_append]
    apply stateAfter_of_none
    intro ask hmem
    rw [List.mem_singleton.1 (hglobal ask hmem)]
    rfl
  refine ⟨asks ++ asks', ?_⟩
  rw [hstate]
  exact hall

theorem route_asked (s : State S) :
    ∃ asks, Asked rules depth actor command (rules.chain actor s asks) s asks
      (rules.route depth actor command s) := by
  obtain ⟨asks, hasked⟩ := askConversation_asked rules depth actor command s
  have hconversation : ∀ level ∈ conversationLevels s actor,
      level.isConversation = true ∧ level.isRoom = false := by
    intro level hmem
    obtain ⟨id, rfl⟩ := mem_conversationLevels actor hmem
    exact ⟨rfl, rfl⟩
  obtain ⟨asks', -, hall⟩ := hasked.orAsk
    (fun asks' => rules.surroundingLevels actor (stateAfter (·.isConversation) s (asks ++ asks'))
      (stateAfter (fun level => level.isConversation || level.isRoom) s (asks ++ asks')) ++
        [.global])
    fun hpassed => by
      obtain ⟨asks', haround⟩ := askAround_asked rules depth actor command
        (rules.askConversation depth actor command s).state
      refine ⟨asks', ?_⟩
      have hother : ∀ ask ∈ asks', ask.level.isConversation = false := by
        intro ask hmem
        rcases List.mem_append.1 (haround.level_mem ask hmem) with hlevel | hlevel
        · rcases rules.mem_surroundingLevels actor hlevel with ⟨room, hroom⟩ | ⟨other, -, hlevel⟩
          · rw [hroom]
            rfl
          · rw [hlevel]
            rfl
        · rw [List.mem_singleton.1 hlevel]
          rfl
      -- The conversation has answered first, and nobody around is one.
      have hfirst : stateAfter (·.isConversation) s (asks ++ asks') =
          (rules.askConversation depth actor command s).state := by
        rw [stateAfter_append,
          hasked.state_eq hpassed fun level hmem => (hconversation level hmem).1]
        exact stateAfter_of_none hother _
      have hlater : stateAfter (fun level => level.isConversation || level.isRoom) s
          (asks ++ asks') = stateAfter (·.isRoom)
            (rules.askConversation depth actor command s).state asks' := by
        rw [stateAfter_append, hasked.state_eq hpassed fun level hmem => by
          rw [(hconversation level hmem).1, Bool.true_or]]
        apply stateAfter_congr
        intro ask hmem
        rw [hother ask hmem, Bool.false_or]
      rw [hfirst, hlater]
      exact haround
  refine ⟨asks ++ asks', ?_⟩
  rw [chain, List.append_assoc]
  exact hall

end

theorem own_not_mem_chain (rules : Rules S) (actor : CharacterId) (s : State S)
    (asks : List (Ask S)) : .character actor ∉ rules.chain actor s asks := by
  intro h
  rcases List.mem_append.1 h with h | h
  · rcases List.mem_append.1 h with h | h
    · obtain ⟨id, hid⟩ := mem_conversationLevels actor h
      cases hid
    · rcases rules.mem_surroundingLevels actor h with ⟨room, hroom⟩ | ⟨other, hne, hother⟩
      · cases hroom
      · cases hother
        exact hne rfl
  · cases List.mem_singleton.1 h

/-- What there is to see of a line, whose outcome is settled by who accepted it. If nobody did the
actor is told so; otherwise nothing happens after the last answer. -/
def settled (rules : Rules S) (depth : Nat) (actor : CharacterId) (line : String) (s : State S)
    (answers : Course S (Option Responder)) : Course S DispatchOutcome :=
  let seen := ⟨.reached (.task (.line ⟨actor, line, depth⟩)), s⟩ :: answers.sights
  match answers.result with
  | .error fault => ⟨seen, .error fault, answers.state⟩
  | .ok (some level) =>
    ⟨seen ++ [⟨.reached (.done (.handled level)), answers.state⟩], .ok (.handled level),
      answers.state⟩
  | .ok none =>
    let s' := answers.state.emit actor rules.config.unknownCommand
    ⟨seen ++ [⟨.reached (.done .unknown), s'⟩], .ok .unknown, s'⟩

theorem dispatchLine_settled (rules : Rules S) (depth : Nat) (actor : CharacterId) (line : String)
    (s : State S) (hline : (Command.ofLine line).isBlank = false) :
    rules.dispatchLine depth actor line s =
      rules.settled depth actor line s (rules.route depth actor (.ofLine line) s) := by
  have hnot : ¬(Command.ofLine line).isBlank = true := Bool.eq_false_iff.1 hline
  rcases hroute : rules.route depth actor (.ofLine line) s with ⟨seen, fault | answer, s'⟩
  · have hcourse : rules.respond depth actor (.ofLine line) s = ⟨seen, .error fault, s'⟩ := by
      rw [respond, if_neg hnot]
      exact Run.bind_of_error hroute
    rw [dispatchLine_course rules depth actor line s hcourse, closure, List.append_nil]
    rfl
  · cases answer with
    | some level =>
      have hcourse : rules.respond depth actor (.ofLine line) s =
          ⟨seen ++ [], .ok (.handled level), s'⟩ := by
        rw [respond, if_neg hnot]
        exact Run.bind_of_ok hroute
      rw [List.append_nil] at hcourse
      rw [dispatchLine_course rules depth actor line s hcourse]
      rfl
    | none =>
      have hcourse : rules.respond depth actor (.ofLine line) s =
          ⟨seen ++ [], .ok .unknown, s'.emit actor rules.config.unknownCommand⟩ := by
        rw [respond, if_neg hnot]
        exact Run.bind_of_ok hroute
      rw [List.append_nil] at hcourse
      rw [dispatchLine_course rules depth actor line s hcourse]
      rfl

/-- A blank line changes nothing and asks nobody. Any other is answered along the chain, which
never leads to the actor's own registry; and a call for a line comes to what the line comes to. -/
theorem line_answered_along_chain (rules : Rules S) (depth : Nat) (actor : CharacterId)
    (line : String) (s : State S) :
    (if (Command.ofLine line).isBlank = true then
      rules.dispatchLine depth actor line s =
        ⟨[⟨.reached (.task (.line ⟨actor, line, depth⟩)), s⟩, ⟨.reached (.done .empty), s⟩],
          .ok .empty, s⟩
    else
      ∃ asks answers,
        Asked rules depth actor (.ofLine line) (rules.chain actor s asks) s asks answers ∧
          .character actor ∉ rules.chain actor s asks ∧
          rules.dispatchLine depth actor line s = rules.settled depth actor line s answers) ∧
      ∀ outcome, (rules.dispatch actor line s).result = .ok outcome →
        (rules.dispatchLine 0 actor line s).result = .ok outcome := by
  constructor
  · split
    · rename_i hline
      have hrespond : rules.respond depth actor (.ofLine line) s = ⟨[], .ok .empty, s⟩ := by
        rw [respond, if_pos hline]
        rfl
      exact dispatchLine_course rules depth actor line s hrespond
    · rename_i hline
      obtain ⟨asks, hasked⟩ := route_asked rules depth actor (.ofLine line) s
      exact ⟨asks, _, hasked, rules.own_not_mem_chain actor s asks,
        rules.dispatchLine_settled depth actor line s (Bool.eq_false_iff.2 hline)⟩
  · intro outcome hok
    obtain ⟨seen, outcome', s', hfirst, hrest, -⟩ := Run.ok_of_bind hok
    obtain ⟨_, _, _, _, hlast, -⟩ := Run.ok_of_bind hrest
    cases hlast
    rw [hfirst]

end Rules

/-- A room that leaves greetings to others, in a world that takes them. -/
def greetings : Rules plainSetting :=
  { chatter with
    registries :=
      { global := Registry.empty.add (.named "wave" fun _ => pure .handled)
        rooms := Table.empty.insert ⟨2⟩
          (Registry.empty.add (.named "wave" fun inv => do
            Program.emit inv.actor "You wave."
            pure .notHandled))
        characters := .empty } }

theorem Rules.line_answered_along_chain_greetings :
    ∃ w asks answers, World.empty.run innWithGuest = some w ∧
      (greetings.dispatchLine 0 ⟨3⟩ "wave" (.initial w ())).result = .ok (.handled .global) ∧
      Asked greetings 0 ⟨3⟩ (.ofLine "wave") (greetings.chain ⟨3⟩ (.initial w ()) asks)
        (.initial w ()) asks answers ∧
      greetings.dispatchLine 0 ⟨3⟩ "wave" (.initial w ()) =
        greetings.settled 0 ⟨3⟩ "wave" (.initial w ()) answers := by
  have hrun : (World.empty.run innWithGuest).isSome := by decide
  obtain ⟨w, hw⟩ := Option.isSome_iff_exists.1 hrun
  have hok : (World.empty.run innWithGuest).map (fun w =>
      (greetings.dispatch ⟨3⟩ "wave" (.initial w ())).result) = some (.ok (.handled .global)) := by
    rfl
  rw [hw] at hok
  obtain ⟨hchain, hresult⟩ := line_answered_along_chain greetings 0 ⟨3⟩ "wave" (.initial w ())
  have hline : ¬(Command.ofLine "wave").isBlank = true := by decide
  rw [if_neg hline] at hchain
  obtain ⟨asks, answers, hasked, -, hcourse⟩ := hchain
  exact ⟨w, asks, answers, hw, hresult _ (Option.some.inj hok), hasked, hcourse⟩

end TextWorld
