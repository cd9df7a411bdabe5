import TextWorld.Proofs.Play.Founding
import TextWorld.Proofs.Play.Tolling

/-!
The time in the village. The clock is advanced by ticks and by nothing else, and the bell keeps what
is left of a minute, so that it tolls at the full minutes however the time is sliced. A session
breaks off only where the clock runs out.
-/

namespace TextWorld

namespace Village

/-- A session that has gone on for so many nanoseconds, with a bell that has kept them. -/
structure Timed (keeper : CharacterId) (elapsed : Nat) (s : Session setting) : Prop where
  deliveries : s.rules.maxDeliveries ≠ 0
  hooks : s.rules.hooks = [bell lodging [square, temple]]
  hosting : ∃ scene, Hosting World.InOrder keeper s.state.world.now scene s
  clock : elapsed ≤ s.state.world.now.nanos
  memory : s.state.memory = ⟨elapsed % bellInterval.nanos⟩
  mailbox : s.state.mailbox = .empty

variable {keeper actor : CharacterId} {elapsed : Nat} {s t : Session setting}
variable {line : String} {delta : Duration} {texts : List String} {fault : Fault}

theorem session_timed (settings : Settings) : ∃ start,
    session lodging behaviour Duration.zero settings = .ok start ∧
      Timed residents.keeper 0 start := by
  obtain ⟨start, w, hstart, -, hstate, -, hhosting⟩ := session_eq settings
  obtain ⟨hreachable, hhooks, hdeliveries⟩ := session_founded hstart
  rw [hstate] at hreachable
  refine ⟨start, hstart, hdeliveries, hhooks, ⟨.quiet, ?_⟩, Nat.zero_le _, ?_, ?_⟩
  · rw [hstate]
    exact hhosting World.InOrder hreachable.inOrder
  · rw [hstate]
    rfl
  · rw [hstate]
    rfl

namespace Timed

/-- The bell has never kept more than the clock shows. -/
theorem memory_le (hs : Timed keeper elapsed s) :
    s.state.memory.nanos ≤ s.state.world.now.nanos := by
  rw [hs.memory]
  exact Nat.le_trans (Nat.mod_le _ _) hs.clock

/-- What the clock can show the bell can keep. -/
theorem memory_fits (hs : Timed keeper elapsed s)
    (hfits : (s.state.world.now.add? delta).isSome) : (s.state.memory.add? delta).isSome := by
  obtain ⟨now, hnow⟩ := Option.isSome_iff_exists.1 hfits
  have hclock := (Duration.add?_eq_some.1 hnow).1
  exact Option.isSome_of_eq_some (Duration.add?_eq_some.2
    ⟨Nat.le_trans (Nat.add_le_add_right hs.memory_le _) hclock, rfl⟩)

theorem briefly (hs : Timed keeper elapsed s) (actor : CharacterId) (line : String) :
    Rules.Briefly s.state.world.now idleTimeout s.state.memory none
      (s.rules.dispatch actor line) s.state := by
  obtain ⟨scene, hhosting⟩ := hs.hosting
  exact Rules.briefly_dispatch (hhosting.governed.brief hs.deliveries)
    ⟨rfl, rfl, hhosting.resting.shows.settled⟩ actor line

theorem overruns_submitAs (hs : Timed keeper elapsed s)
    (h : (s.submitAs actor line).1 = .error fault) :
    Overruns s.state.world.now idleTimeout fault :=
  (hs.briefly actor line).faults fault (Session.submitAs_eq_error.1 h)

/-- A line takes no time. -/
theorem submitAs (hs : Timed keeper elapsed s) (h : s.submitAs actor line = (.ok texts, t)) :
    Timed keeper elapsed t ∧ t.state.world.now = s.state.world.now := by
  obtain ⟨scene, hhosting⟩ := hs.hosting
  obtain ⟨-, scene', -, hgoes⟩ := hhosting.submitAs durable_inOrder h
  have ht := Session.continues_submitAs h (hs.briefly actor line).ensures
  obtain ⟨u, hu, hstate⟩ := ht.state
  have hnow : t.state.world.now = s.state.world.now := by
    rw [hstate]
    exact hu.now
  have hmemory : t.state.memory = s.state.memory := by
    rw [hstate]
    exact hu.memory
  refine ⟨⟨?_, ?_, ⟨scene', hnow ▸ hgoes⟩, ?_, hmemory.trans hs.memory, ?_⟩, hnow⟩
  · rw [ht.rules]
    exact hs.deliveries
  · rw [ht.rules]
    exact hs.hooks
  · rw [hnow]
    exact hs.clock
  · rw [hstate]

theorem completes (hs : Timed keeper elapsed s)
    (hfits : (s.state.world.now.add? delta).isSome) :
    Completes (s.rules.tick delta) (fun _ t => Tolled [square, temple] delta s.state t)
      s.state := by
  obtain ⟨scene, hhosting⟩ := hs.hosting
  obtain ⟨now, hnow⟩ := Option.isSome_iff_exists.1 hfits
  have hadvance : s.state.world.advance delta = some { s.state.world with now } := by
    rw [World.advance, hnow, Option.map_some]
  exact completes_tick hhosting.governed durable_inOrder hs.deliveries hs.hooks hhosting.resting
    hadvance (hs.memory_fits hfits)

/-- A tick breaks off if the clock cannot show the time after it, and only then. -/
theorem tick_eq_error (hs : Timed keeper elapsed s) :
    (s.tick delta).1 = .error fault ↔ Overruns s.state.world.now delta fault := by
  rw [Session.tick_eq_error]
  cases hnow : s.state.world.now.add? delta with
  | none =>
    have hadvance : s.state.world.advance delta = none := by
      rw [World.advance, hnow, Option.map_none]
    -- The clock is the first thing that a tick touches.
    have hresult : (s.rules.tick delta s.state).result = .error .clockOverflow := by
      rw [Rules.tick, Run.bind_of_error (Rules.passTime_of_none hadvance)]
    rw [hresult, Except.error.injEq, eq_comm]
    exact ⟨fun h => ⟨h, Duration.lt_of_add?_eq_none hnow (Nat.le_refl _)⟩, And.left⟩
  | some now =>
    have hcompletes := hs.completes (Option.isSome_of_eq_some hnow)
    have hfits := (Duration.add?_eq_some.1 hnow).1
    exact ⟨fun h => (hcompletes.faults fault h).elim, fun h => absurd h.2 (Nat.not_lt.2 hfits)⟩

/-- A tick that the clock can show comes to its end, and the bell has been tolled by then. -/
theorem tolls (hs : Timed keeper elapsed s) (hfits : (s.state.world.now.add? delta).isSome) :
    ∃ t, (s.rules.tick delta).run.run s.state = (.ok (), t) ∧
      Tolled [square, temple] delta s.state t ∧ t.world.Seated := by
  have hcompletes := hs.completes hfits
  obtain ⟨scene, hhosting⟩ := hs.hosting
  cases hresult : (s.rules.tick delta s.state).result with
  | error fault => exact (hcompletes.faults fault hresult).elim
  | ok =>
    obtain ⟨_, -, hrests⟩ :=
      ensures_tick hhosting.governed durable_inOrder hhosting.resting delta () hresult
    exact ⟨_, Prod.ext hresult rfl, hcompletes.ensures () hresult, hrests.world.seated⟩

/-- After a tick the session has gone on for so much longer. -/
theorem tick (hs : Timed keeper elapsed s) (h : s.tick delta = (.ok texts, t)) :
    Timed keeper (elapsed + delta.nanos) t ∧
      t.state.world.now.nanos = s.state.world.now.nanos + delta.nanos := by
  -- A tick that has come to its end has found the clock able to show the time.
  have hfits : (s.state.world.now.add? delta).isSome := by
    rw [Option.isSome_iff_ne_none]
    intro hnone
    have hbroken : (s.tick delta).1 = .error .clockOverflow :=
      hs.tick_eq_error.2 ⟨rfl, Duration.lt_of_add?_eq_none hnone (Nat.le_refl _)⟩
    rw [h] at hbroken
    cases hbroken
  obtain ⟨scene, hhosting⟩ := hs.hosting
  obtain ⟨-, now, hnow, hgoes⟩ := hhosting.tick durable_inOrder h
  have ht := Session.continues_tick h (hs.completes hfits).ensures
  obtain ⟨u, hu, hstate⟩ := ht.state
  have htime : t.state.world.now = now := hgoes.resting.time
  refine ⟨⟨?_, ?_, ⟨_, htime ▸ hgoes⟩, ?_, ?_, ?_⟩, htime ▸ hnow⟩
  · rw [ht.rules]
    exact hs.deliveries
  · rw [ht.rules]
    exact hs.hooks
  · rw [htime, hnow]
    exact Nat.add_le_add_right hs.clock _
  · have hmemory : t.state.memory = u.memory := by rw [hstate]
    rw [hmemory, hu.memory, hs.memory, Nat.mod_add_mod]
  · rw [hstate]

theorem take (hs : Timed keeper elapsed s) {input : Session.Input}
    (h : s.take input = (.ok texts, t)) : Timed keeper (elapsed + input.span.nanos) t := by
  cases input with
  | line text => exact (hs.submitAs h).1
  | lineAs actor text => exact (hs.submitAs h).1
  | time delta => exact (hs.tick h).1

/-- However the time is sliced, and whatever is said in between, it adds up. -/
theorem takeAll {inputs : List Session.Input} (hs : Timed keeper elapsed s)
    (h : s.takeAll inputs = .ok t) : Timed keeper (elapsed + Session.total inputs) t := by
  -- What has elapsed so far is different for the rest of the inputs.
  induction inputs generalizing s elapsed with
  | nil =>
    cases h
    exact hs
  | cons input inputs ih =>
    obtain ⟨texts, u, hfirst, hrest⟩ := Session.takeAll_cons_eq_ok.1 h
    have hu := ih (hs.take hfirst) hrest
    rwa [Nat.add_assoc] at hu

/-- The clock shows how long the inputs took. -/
theorem now_takeAll {inputs : List Session.Input} (hs : Timed keeper elapsed s)
    (h : s.takeAll inputs = .ok t) :
    t.state.world.now.nanos = s.state.world.now.nanos + Session.total inputs := by
  obtain ⟨scene, hhosting⟩ := hs.hosting
  obtain ⟨now, scene', hnow, -, ht⟩ := hhosting.takeAll durable_inOrder (P := fun _ => True)
    (fun _ _ _ _ _ _ _ => trivial) trivial h
  rw [ht.resting.time, hnow]

/-- An input breaks off only where the clock runs out while it is taken, or soon after. -/
theorem overruns_take {input : Session.Input} (hs : Timed keeper elapsed s)
    (h : (s.take input).1 = .error fault) : fault = .clockOverflow ∧
      Duration.limit.nanos < s.state.world.now.nanos + input.span.nanos + idleTimeout.nanos := by
  cases input with
  | line text => exact hs.overruns_submitAs h
  | lineAs actor text => exact hs.overruns_submitAs h
  | time delta =>
    obtain ⟨hfault, hlate⟩ := hs.tick_eq_error.1 h
    exact ⟨hfault, Nat.lt_of_lt_of_le hlate (Nat.le_add_right _ _)⟩

theorem overruns_takeAll {inputs : List Session.Input} (hs : Timed keeper elapsed s)
    (h : s.takeAll inputs = .error fault) : fault = .clockOverflow ∧
      Duration.limit.nanos <
        s.state.world.now.nanos + Session.total inputs + idleTimeout.nanos := by
  induction inputs generalizing s elapsed with
  | nil => cases h
  | cons input inputs ih =>
    rw [Session.total]
    cases htake : s.take input with
    | mk result t =>
      cases result with
      | error broken =>
        rw [Session.takeAll_of_error input _ htake] at h
        obtain rfl := Except.error.inj h
        obtain ⟨hfault, hlate⟩ := hs.overruns_take (congrArg Prod.fst htake)
        exact ⟨hfault, by omega⟩
      | ok texts =>
        rw [Session.takeAll_of_ok input _ htake] at h
        obtain ⟨hfault, hlate⟩ := ih (hs.take htake) h
        have hnow := hs.now_takeAll (Session.takeAll_of_ok input [] htake)
        rw [Session.total, Session.total] at hnow
        exact ⟨hfault, by omega⟩

end Timed

/-! Who hears the bell. -/

/-- After whatever else there was to hear the bell was heard so many times, each time by everyone
in one of two rooms, once, and by nobody else. -/
def Heard (square temple : RoomId) (times : Nat) (t : State setting) : Prop :=
  ∃ told toll, t.mailbox.toList = told ++ (List.replicate times toll).flatten ∧
    (∀ m ∈ told, m.text ≠ tollText) ∧ (∀ m ∈ toll, m.text = tollText) ∧
      (toll.map (·.recipient)).Nodup ∧ ∀ x, x ∈ toll.map (·.recipient) ↔
        t.world.characterRoom x = some square ∨ t.world.characterRoom x = some temple

theorem recipient_peal (w : World) (rooms : List RoomId) :
    (peal w rooms).map (·.recipient) = rooms.flatMap fun room => w.attendance (.room room) := by
  rw [peal, List.map_flatMap]
  congr 1
  funext room
  rw [List.map_map]
  exact List.map_id _

theorem text_peal {w : World} {rooms : List RoomId} {m : Message} (hm : m ∈ peal w rooms) :
    m.text = tollText := by
  obtain ⟨room, -, hm⟩ := List.mem_flatMap.1 hm
  obtain ⟨x, -, rfl⟩ := List.mem_map.1 hm
  rfl

theorem mem_attendance_room {w : World} (hw : w.Seated) {x : CharacterId} {room : RoomId} :
    x ∈ w.attendance (.room room) ↔ w.characterRoom x = some room := by
  rw [hw.listed]
  constructor
  · rintro ⟨_, hroom, rfl⟩
    exact hroom
  · exact fun hroom => ⟨room, hroom, rfl⟩

/-- Nobody is in two rooms, so nobody hears the bell twice. -/
theorem nodup_recipient_peal {w : World} (hw : w.Seated) {a b : RoomId} (hne : a ≠ b) :
    ((peal w [a, b]).map (·.recipient)).Nodup := by
  rw [recipient_peal, List.flatMap_cons, List.flatMap_singleton]
  refine List.nodup_append.2 ⟨hw.once _, hw.once _, ?_⟩
  rintro x ha _ hb rfl
  rw [mem_attendance_room hw] at ha hb
  exact hne (Option.some.inj (ha.symm.trans hb))

theorem heard_of_tolled {s t : State setting} (ht : Tolled [square, temple] delta s t)
    (hw : t.world.Seated) (hmailbox : s.mailbox = .empty) :
    Heard square temple ((s.memory.nanos + delta.nanos) / bellInterval.nanos) t := by
  obtain ⟨told, hmail, htold⟩ := ht.mailbox
  rw [hmailbox] at hmail
  refine ⟨told, _, hmail, htold, fun m => text_peal, nodup_recipient_peal hw (by decide),
    fun x => ?_⟩
  rw [recipient_peal, List.flatMap_cons, List.flatMap_singleton, List.mem_append,
    mem_attendance_room hw, mem_attendance_room hw]

/-- What is left of a full interval counts towards the next one. -/
theorem mod_add_div (elapsed delta : Nat) {interval : Nat} (h : 0 < interval) :
    (elapsed % interval + delta) / interval =
      (elapsed + delta) / interval - elapsed / interval := by
  have hsplit : elapsed + delta = elapsed % interval + delta + elapsed / interval * interval := by
    have hdiv := Nat.mod_add_div' elapsed interval
    omega
  rw [hsplit, Nat.add_mul_div_right _ _ h, Nat.add_sub_cancel]

theorem lookupRoom_bell : grounds.lookupRoom "square" zoneKey = some square ∧
    grounds.lookupRoom "temple" zoneKey = some temple := by
  decide +kernel

theorem Peopled.lookupRoom {last : Nat} {people : CharacterId → Option Person} {w : World}
    (hw : Peopled last people w) (key : String) :
    w.lookupRoom key zoneKey = grounds.lookupRoom key zoneKey := by
  rw [World.lookupRoom, World.lookupRoom, hw.roomIndex]

/-- However the time is sliced, and whatever is said in between, the bell tolls at the full minutes
for those in the square and in the temple, and what it keeps fits whenever the clock does. -/
theorem bell_tolls_full_minutes (settings : Settings) : ∃ start square temple,
    session lodging behaviour Duration.zero settings = .ok start ∧
      start.state.world.lookupRoom "square" zoneKey = some square ∧
        start.state.world.lookupRoom "temple" zoneKey = some temple ∧
          ∀ inputs s, start.takeAll inputs = .ok s →
            s.state.memory.nanos = Session.total inputs % (Duration.ofSeconds 60).nanos ∧
              ∀ delta, (s.state.world.now.add? delta).isSome →
                (s.state.memory.add? delta).isSome ∧ ∃ t,
                  (s.rules.tick delta).run.run s.state = (.ok (), t) ∧
                    t.memory.nanos =
                      (Session.total inputs + delta.nanos) % (Duration.ofSeconds 60).nanos ∧
                    Heard square temple
                      ((Session.total inputs + delta.nanos) / (Duration.ofSeconds 60).nanos -
                        Session.total inputs / (Duration.ofSeconds 60).nanos) t := by
  obtain ⟨start, hstart, htimed⟩ := session_timed settings
  obtain ⟨start', w, hstart', hw, hstate, -⟩ := session_eq settings
  obtain rfl : start = start' := Except.ok.inj (hstart.symm.trans hstart')
  refine ⟨start, square, temple, hstart, ?_, ?_, fun inputs s hplayed => ?_⟩
  · rw [hstate]
    exact (hw.lookupRoom _).trans lookupRoom_bell.1
  · rw [hstate]
    exact (hw.lookupRoom _).trans lookupRoom_bell.2
  · have hs := htimed.takeAll hplayed
    rw [Nat.zero_add] at hs
    refine ⟨congrArg Duration.nanos hs.memory, fun delta hfits => ⟨hs.memory_fits hfits, ?_⟩⟩
    obtain ⟨t, hrun, htolled, hseated⟩ := hs.tolls hfits
    refine ⟨t, hrun, ?_, ?_⟩
    · rw [htolled.memory, hs.memory]
      exact Nat.mod_add_mod _ _ _
    · have hheard := heard_of_tolled htolled hseated hs.mailbox
      rw [hs.memory, mod_add_div _ _ bellInterval_pos] at hheard
      exact hheard

/-- Three quarters of a minute and then a hundred seconds make two tolls, and leave 25 seconds. -/
theorem bell_tolls_full_minutes_twice : ∃ start square temple s t,
    session lodging behaviour Duration.zero default = .ok start ∧
      start.takeAll [.time (.ofSeconds 45), .line "say hush", .lineAs ⟨14⟩ "north"] = .ok s ∧
        s.state.memory.nanos = (Duration.ofSeconds 45).nanos ∧
          (s.rules.tick (.ofSeconds 100)).run.run s.state = (.ok (), t) ∧
            t.memory.nanos = (Duration.ofSeconds 25).nanos ∧ Heard square temple 2 t := by
  obtain ⟨start, square, temple, hstart, -, -, htolls⟩ := bell_tolls_full_minutes default
  have hruns : (session lodging behaviour Duration.zero default).toOption.bind (fun start =>
      (start.takeAll [.time (.ofSeconds 45), .line "say hush", .lineAs ⟨14⟩ "north"]).toOption.map
        fun s => (s.state.world.now.add? (.ofSeconds 100)).isSome) = some true := by
    decide +kernel
  have hplays := of_bind_toOption hstart hruns
  obtain ⟨s, hplayed, hfits⟩ := Option.map_eq_some_iff.1 hplays
  obtain ⟨hkept, hticks⟩ := htolls _ s (ok_of_toOption hplayed)
  obtain ⟨-, t, hrun, hmemory, hheard⟩ := hticks _ hfits
  exact ⟨start, square, temple, s, t, hstart, ok_of_toOption hplayed, hkept, hrun, hmemory, hheard⟩

end Village

end TextWorld
