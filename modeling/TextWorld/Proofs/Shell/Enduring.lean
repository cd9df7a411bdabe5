import TextWorld.Proofs.Play.Timekeeping
import TextWorld.Shell.Basic

/-!
What the shell in the village endures. Whatever is typed, a line breaks off only where the clock
would run out, and a command of the shell itself that is refused leaves everything as it was.
-/

namespace TextWorld

namespace Shell

variable {S : Setting} {sh : Shell S} {line own : String} {fault : Fault} {delta : Duration}

/-- The shell after some lines, whatever came of them, unless one of them has broken off. -/
def after? (sh : Shell S) : List String → Option (Shell S)
  | [] => some sh
  | line :: lines =>
    match sh.evaluate line with
    | (.error (.fault _), _) => none
    | (_, sh) => sh.after? lines

/-- The command of the shell itself that a line stands for, without its slash. -/
def own? (line : String) : Option String :=
  let trimmed := (Text.trim line).toList
  if trimmed.head? = some '/' then some (String.ofList trimmed.tail) else none

/-- How long a command of the shell itself waits. -/
def pause? (sh : Shell S) (own : String) : Option Duration :=
  if (Text.words own).headD "" = "wait" then (sh.waitTime (Text.words own)[1]?).toOption else none

theorem evaluate_eq (sh : Shell S) (line : String) :
    sh.evaluate line = match own? line with
      | some own => sh.evaluateOwn own
      | none => sh.evaluateWorld line := by
  unfold evaluate own?
  split
  · rename_i rest hline
    rw [hline]
    rfl
  · rename_i hnot
    have hplain : (Text.trim line).toList.head? ≠ some '/' := by
      intro hslash
      obtain ⟨rest, hline⟩ := List.head?_eq_some_iff.1 hslash
      exact hnot rest hline
    dsimp only
    rw [if_neg hplain]

/-- A slash is not trimmed off. -/
theorem own?_isSome (h : line.toList.head? = some '/') : (own? line).isSome := by
  obtain ⟨rest, hline⟩ := List.head?_eq_some_iff.1 h
  have hkept : ¬Text.isBlank '/' = true := by decide
  have hslash : (Text.trim line).toList.head? = some '/' := by
    rw [Text.trim, String.toList_ofList, hline, List.dropWhile_cons_of_neg hkept,
      List.reverse_cons, List.dropWhile_append]
    -- Whatever is left of what follows the slash, the slash itself stops the trimming.
    split
    · rw [List.dropWhile_cons_of_neg hkept]
      rfl
    · rw [List.reverse_append]
      rfl
  rw [own?, if_pos hslash]
  rfl

theorem evaluateOwn_of_pause (h : sh.pause? own = some delta) :
    sh.evaluateOwn own = ((sh.wait delta).1.map fun texts => ("\n".intercalate texts, .proceed),
      (sh.wait delta).2) := by
  unfold pause? at h
  split at h
  · rename_i hname
    unfold evaluateOwn
    dsimp only
    rw [hname]
    cases hwait : sh.waitTime (Text.words own)[1]? with
    | error problem =>
      rw [hwait] at h
      cases h
    | ok delta' =>
      rw [hwait] at h
      cases h
      rfl
  · cases h

/-- A command of the shell itself that does not wait answers at once, and changes nothing. -/
theorem evaluateOwn_of_no_pause (h : sh.pause? own = none) :
    ∃ answer : Except Error (String × Flow), sh.evaluateOwn own = (answer.mapError .error, sh) := by
  unfold evaluateOwn
  dsimp only
  split
  · exact ⟨.ok _, rfl⟩
  · split
    · exact ⟨.ok _, rfl⟩
    · split
      · exact ⟨.ok _, rfl⟩
      · split
        · rename_i hname
          rw [pause?, if_pos hname] at h
          cases hwait : sh.waitTime (Text.words own)[1]? with
          | error problem => exact ⟨.error _, rfl⟩
          | ok delta =>
            rw [hwait] at h
            cases h
        · split
          · exact ⟨.ok _, rfl⟩
          · exact ⟨.error _, rfl⟩

theorem evaluateWorld_of_error (h : (sh.session.submit line).1 = .error fault) :
    (sh.evaluateWorld line).1 = .error (.fault fault) := by
  unfold evaluateWorld
  revert h
  cases sh.session.submit line with
  | mk result session =>
    rintro rfl
    rfl

/-- After a line that does not break off time passes, and the player is looked for. -/
theorem evaluateWorld_of_ok {told : List String} {s : Session S}
    (h : sh.session.submit line = (.ok told, s)) :
    (sh.evaluateWorld line).2.session = (s.tick sh.settings.tickInterval).2 ∧
      ∀ fault, (sh.evaluateWorld line).1 = .error (.fault fault) ↔
        (s.tick sh.settings.tickInterval).1 = .error fault := by
  unfold evaluateWorld
  rw [h]
  dsimp only
  cases s.tick sh.settings.tickInterval with
  | mk result t =>
    cases result with
    | error fault => exact ⟨rfl, fun other => by simp⟩
    | ok more =>
      dsimp only
      cases t.checkPlayer with
      | error e => exact ⟨rfl, fun other => by simp⟩
      | ok => exact ⟨rfl, fun other => by simp⟩

end Shell

namespace Village

variable {sh : Shell setting} {line own : String} {fault : Fault} {delta : Duration}

/-- A shell whose session keeps the time. -/
def Kept (sh : Shell setting) : Prop := ∃ keeper elapsed, Timed keeper elapsed sh.session

/-- Evaluating a line breaks off. -/
def BreaksOff (sh : Shell setting) (line : String) : Prop :=
  ∃ fault, (sh.evaluate line).1 = .error (.fault fault)

/-- So much later than now, no clock shows the time. -/
def OutOfTime (sh : Shell setting) (span : Duration) : Prop :=
  Duration.limit.nanos < sh.session.state.world.now.nanos + span.nanos

theorem Kept.tick (hs : Kept sh) :
    (sh.session.tick delta).1 = .error fault ↔ fault = .clockOverflow ∧ OutOfTime sh delta := by
  obtain ⟨keeper, elapsed, htimed⟩ := hs
  exact htimed.tick_eq_error

instance (sh : Shell setting) (span : Duration) : Decidable (OutOfTime sh span) :=
  inferInstanceAs (Decidable (_ < _))

/-! The shell's own commands. -/

theorem wait_eq_error (hs : Kept sh) (hpause : sh.pause? own = some delta) {failure : Failure} :
    (sh.evaluateOwn own).1 = .error failure ↔
      failure = .fault .clockOverflow ∧ OutOfTime sh delta := by
  have htick (fault : Fault) : (sh.session.tick delta).1 = .error fault ↔
      fault = .clockOverflow ∧ OutOfTime sh delta := hs.tick
  rw [Shell.evaluateOwn_of_pause hpause, Shell.wait]
  revert htick
  cases sh.session.tick delta with
  | mk result session =>
    intro htick
    cases result with
    | error fault =>
      obtain ⟨rfl, hlate⟩ := (htick fault).1 rfl
      simp [Except.mapError, Except.map, hlate, eq_comm]
    | ok texts =>
      have hearly : ¬OutOfTime sh delta := fun hlate => by
        cases (htick .clockOverflow).2 ⟨rfl, hlate⟩
      simp [Except.mapError, Except.map, hearly]

/-- A command of the shell itself breaks off exactly if it waits for longer than the clock goes. -/
theorem breaksOff_own (hs : Kept sh) (hown : Shell.own? line = some own) :
    BreaksOff sh line ↔ ∃ delta, sh.pause? own = some delta ∧ OutOfTime sh delta := by
  rw [BreaksOff, Shell.evaluate_eq, hown]
  dsimp only
  cases hpause : sh.pause? own with
  | none =>
    obtain ⟨answer, hanswer⟩ := Shell.evaluateOwn_of_no_pause hpause
    rw [hanswer]
    cases answer <;> simp [Except.mapError]
  | some delta =>
    simp only [wait_eq_error hs hpause, Failure.fault.injEq, Option.some.injEq, exists_eq_left,
      exists_eq_left']

/-- A command of the shell itself that is refused changes nothing. -/
theorem unchanged_of_refused (hs : Kept sh) (hown : Shell.own? line = some own) {e : Error}
    (h : (sh.evaluate line).1 = .error (.error e)) : (sh.evaluate line).2 = sh := by
  rw [Shell.evaluate_eq, hown] at h ⊢
  dsimp only at h ⊢
  cases hpause : sh.pause? own with
  | none =>
    obtain ⟨answer, hanswer⟩ := Shell.evaluateOwn_of_no_pause hpause
    rw [hanswer]
  | some delta =>
    -- Waiting does not end in an error: it breaks off or it is over.
    obtain ⟨hfault, -⟩ := (wait_eq_error hs hpause).1 h
    cases hfault

theorem Kept.evaluateOwn (hs : Kept sh)
    (h : ¬∃ fault, (sh.evaluateOwn own).1 = .error (.fault fault)) :
    Kept (sh.evaluateOwn own).2 := by
  cases hpause : sh.pause? own with
  | none =>
    obtain ⟨answer, hanswer⟩ := Shell.evaluateOwn_of_no_pause hpause
    rw [hanswer]
    exact hs
  | some delta =>
    obtain ⟨keeper, elapsed, htimed⟩ := hs
    rw [Shell.evaluateOwn_of_pause hpause, Shell.wait] at h ⊢
    cases htick : sh.session.tick delta with
    | mk result session =>
      rw [htick] at h
      cases result with
      | error fault => exact absurd ⟨fault, rfl⟩ h
      | ok texts => exact ⟨keeper, _, (htimed.tick htick).1⟩

/-! Lines for the village. -/

/-- A line for the village breaks off at once, or it is up to the time that passes after it. -/
theorem Timed.evaluateWorld {keeper : CharacterId} {elapsed : Nat}
    (hs : Timed keeper elapsed sh.session) (line : String) :
    (∃ fault, (sh.evaluateWorld line).1 = .error (.fault fault) ∧
      Overruns sh.session.state.world.now idleTimeout fault) ∨
    (∀ fault, (sh.evaluateWorld line).1 = .error (.fault fault) ↔
      Overruns sh.session.state.world.now sh.settings.tickInterval fault) ∧
      ((∀ fault, (sh.evaluateWorld line).1 ≠ .error (.fault fault)) →
        Kept (sh.evaluateWorld line).2) := by
  cases hsubmit : sh.session.submit line with
  | mk result s =>
    cases result with
    | error broken =>
      have hbroken : (sh.session.submit line).1 = .error broken := congrArg Prod.fst hsubmit
      exact .inl ⟨broken, Shell.evaluateWorld_of_error hbroken, hs.overruns_submitAs hbroken⟩
    | ok told =>
      -- The line has taken no time, so the tick begins at the same time.
      obtain ⟨ht, hnow⟩ := hs.submitAs hsubmit
      obtain ⟨hsession, hfault⟩ := Shell.evaluateWorld_of_ok hsubmit
      refine .inr ⟨fun fault => ?_, fun hgoes => ?_⟩
      · rw [hfault, ht.tick_eq_error, hnow]
      · cases htick : s.tick sh.settings.tickInterval with
        | mk result t =>
          cases result with
          | error fault => exact absurd ((hfault fault).2 (congrArg Prod.fst htick)) (hgoes fault)
          | ok more =>
            rw [Kept, hsession, htick]
            exact ⟨keeper, _, (ht.tick htick).1⟩

theorem breaksOff_world (hs : Kept sh) (hown : Shell.own? line = none) :
    (∀ fault, (sh.evaluate line).1 = .error (.fault fault) → fault = .clockOverflow ∧
      (OutOfTime sh idleTimeout ∨ OutOfTime sh sh.settings.tickInterval)) ∧
      (OutOfTime sh sh.settings.tickInterval → BreaksOff sh line) := by
  obtain ⟨keeper, elapsed, htimed⟩ := hs
  rw [BreaksOff, Shell.evaluate_eq, hown]
  dsimp only
  rcases htimed.evaluateWorld line with ⟨broken, hbroken, hlate⟩ | ⟨hfault, -⟩
  · refine ⟨fun fault h => ?_, fun _ => ⟨broken, hbroken⟩⟩
    rw [hbroken, Except.error.injEq, Failure.fault.injEq] at h
    subst h
    exact ⟨hlate.1, .inl hlate.2⟩
  · refine ⟨fun fault h => ?_, fun hlate => ⟨.clockOverflow, (hfault _).2 ⟨rfl, hlate⟩⟩⟩
    obtain ⟨hoverflow, hlate⟩ := (hfault fault).1 h
    exact ⟨hoverflow, .inr hlate⟩

/-! One line after another. -/

theorem Kept.evaluate (hs : Kept sh) (h : ¬BreaksOff sh line) : Kept (sh.evaluate line).2 := by
  rw [BreaksOff, Shell.evaluate_eq] at h
  rw [Shell.evaluate_eq]
  cases hown : Shell.own? line with
  | some own =>
    rw [hown] at h
    exact hs.evaluateOwn h
  | none =>
    rw [hown] at h
    obtain ⟨keeper, elapsed, htimed⟩ := hs
    rcases htimed.evaluateWorld line with ⟨broken, hbroken, -⟩ | ⟨-, hgoes⟩
    · exact absurd ⟨broken, hbroken⟩ h
    · exact hgoes fun fault hfault => h ⟨fault, hfault⟩

theorem Kept.after {lines : List String} {sh' : Shell setting} (hs : Kept sh)
    (h : sh.after? lines = some sh') : Kept sh' := by
  induction lines generalizing sh with
  | nil =>
    cases h
    exact hs
  | cons line lines ih =>
    rw [Shell.after?] at h
    split at h
    · cases h
    · rename_i result next hgoes hevaluate
      have hnext : Kept (sh.evaluate line).2 := hs.evaluate fun ⟨fault, hfault⟩ => by
        rw [hevaluate] at hfault
        exact hgoes fault hfault
      rw [hevaluate] at hnext
      exact ih hnext h

/-- Whatever has been typed before, evaluating a line breaks off only where the clock runs out: a
command of the shell itself exactly if it waits beyond the last time that there is, and a line for
the village within half a minute or one interval of it. The bell never keeps more than the clock
shows. What the shell itself refuses leaves everything as it was. -/
theorem shell_breaks_off_iff (settings shellSettings : Settings) : ∃ start,
    session lodging behaviour Duration.zero settings = .ok start ∧
      ∀ lines sh, (Shell.ofSession start shellSettings).after? lines = some sh → ∀ line,
        (∀ fault, (sh.evaluate line).1 = .error (.fault fault) → fault = .clockOverflow) ∧
          sh.session.state.memory.nanos ≤ sh.session.state.world.now.nanos ∧
            (line.toList.head? = some '/' → ∀ e, (sh.evaluate line).1 = .error (.error e) →
              (sh.evaluate line).2 = sh) ∧
              match Shell.own? line with
              | some own => BreaksOff sh line ↔
                  ∃ delta, sh.pause? own = some delta ∧ OutOfTime sh delta
              | none =>
                  (BreaksOff sh line →
                    OutOfTime sh idleTimeout ∨ OutOfTime sh sh.settings.tickInterval) ∧
                  (OutOfTime sh sh.settings.tickInterval → BreaksOff sh line) := by
  obtain ⟨start, hstart, htimed⟩ := session_timed settings
  have hbegins : Kept (Shell.ofSession start shellSettings) := ⟨_, _, htimed⟩
  refine ⟨start, hstart, fun lines sh hafter line => ?_⟩
  have hs := hbegins.after hafter
  refine ⟨fun fault hfault => ?_, ?_, fun hslash e he => ?_, ?_⟩
  · cases hown : Shell.own? line with
    | some own =>
      obtain ⟨delta, hpause, -⟩ := (breaksOff_own hs hown).1 ⟨fault, hfault⟩
      rw [Shell.evaluate_eq, hown] at hfault
      exact Failure.fault.inj ((wait_eq_error hs hpause).1 hfault).1
    | none => exact ((breaksOff_world hs hown).1 fault hfault).1
  · obtain ⟨keeper, elapsed, hsession⟩ := hs
    exact hsession.memory_le
  · obtain ⟨own, hown⟩ := Option.isSome_iff_exists.1 (Shell.own?_isSome hslash)
    exact unchanged_of_refused hs hown he
  · cases hown : Shell.own? line with
    | some own => exact breaksOff_own hs hown
    | none =>
      obtain ⟨hfault, hlate⟩ := breaksOff_world hs hown
      exact ⟨fun ⟨fault, h⟩ => (hfault fault h).2, hlate⟩

/-- After a wait, a word to the village and a command that there is not, waiting for no number is
refused, and looking around does not break off. -/
theorem shell_breaks_off_iff_refused : ∃ start sh,
    session lodging behaviour Duration.zero default = .ok start ∧
      (Shell.ofSession start default).after? ["/wait 45.5", "say hush", "/dance"] = some sh ∧
        (sh.evaluate "/wait soon").1 = .error (.error (.shell (.notANumber "soon"))) ∧
          (sh.evaluate "/wait soon").2 = sh ∧ ¬BreaksOff sh "look" := by
  obtain ⟨start, hstart, hbreaks⟩ := shell_breaks_off_iff default default
  have hruns : (session lodging behaviour Duration.zero default).toOption.bind (fun start =>
      ((Shell.ofSession start default).after? ["/wait 45.5", "say hush", "/dance"]).map fun sh =>
        ((sh.evaluate "/wait soon").1, decide (OutOfTime sh idleTimeout),
          decide (OutOfTime sh sh.settings.tickInterval))) =
      some (.error (.error (.shell (.notANumber "soon"))), false, false) := by
    decide +kernel
  have hevaluates := of_bind_toOption hstart hruns
  obtain ⟨sh, hafter, hresult⟩ := Option.map_eq_some_iff.1 hevaluates
  rw [Prod.mk.injEq, Prod.mk.injEq, decide_eq_false_iff_not, decide_eq_false_iff_not] at hresult
  obtain ⟨hrefused, hsoon, hlater⟩ := hresult
  refine ⟨start, sh, hstart, hafter, hrefused, ?_, fun hlook => ?_⟩
  · exact (hbreaks _ sh hafter "/wait soon").2.2.1 (by decide) _ hrefused
  · have hlook := (hbreaks _ sh hafter "look").2.2.2.1 hlook
    exact hlook.elim hsoon hlater

/-- After 2048 seconds the longest wait that a number of seconds can stand for breaks off. -/
theorem wait_breaks_off : ∃ start sh,
    session lodging behaviour Duration.zero default = .ok start ∧
      (Shell.ofSession start default).after? ["/wait 2048"] = some sh ∧
        (sh.evaluate "/wait 18446744073709549568").1 = .error (.fault .clockOverflow) := by
  have hruns : (session lodging behaviour Duration.zero default).toOption.bind (fun start =>
      ((Shell.ofSession start default).after? ["/wait 2048"]).map fun sh =>
        (sh.evaluate "/wait 18446744073709549568").1) =
      some (.error (.fault .clockOverflow)) := by
    decide +kernel
  obtain ⟨start, hstart, hruns⟩ := Option.bind_eq_some_iff.1 hruns
  obtain ⟨sh, hafter, hfault⟩ := Option.map_eq_some_iff.1 hruns
  exact ⟨start, sh, ok_of_toOption hstart, hafter, hfault⟩

end Village

end TextWorld
