import Mathlib.Algebra.GroupWithZero.Nat
import TextWorld.Proofs.Shell.Enduring
import TextWorld.Proofs.Text.Lines

/-!
Scripts. The lines of a script up to the one that ends it take effect one after another, as what
they mean for the session would without a shell, and the clock shows how long that has taken.
-/

namespace TextWorld

namespace Shell

variable {S : Setting} {sh sh' : Shell S} {line own : String} {lines : List String}

/-- What a line is to the shell. -/
inductive Role where
  /-- It leaves the shell. -/
  | leaving
  /-- It is answered at once. -/
  | showing
  | waiting (delta : Duration)
  /-- There is no such command of the shell, or no such time to wait for. -/
  | failing
  /-- It is for the world, and does not start with a slash. -/
  | worldly
  deriving DecidableEq

def role (sh : Shell S) (line : String) : Role :=
  match own? line with
  | none => .worldly
  | some own =>
    let name := (Text.words own).headD ""
    if name = "quit" ∨ name = "q" then .leaving
    else if name = "help" ∨ name = "h" ∨ name = "time" ∨ name = "status" then .showing
    else
      match sh.pause? own with
      | some delta => .waiting delta
      | none => .failing

/-- The span that a line waits for. -/
def Role.span? : Role → Option Duration
  | waiting delta => some delta
  | _ => none

/-- What a line does to the session, if time passes like this after a line for the world. -/
def Role.inputs (interval : Duration) (line : String) : Role → List Session.Input
  | worldly => [.line line, .time interval]
  | waiting delta => [.time delta]
  | _ => []

/-- The lines that take effect: as far as the first that leaves the shell, and none from the first
that fails. -/
def effective (role : String → Role) : List String → List String
  | [] => []
  | line :: lines =>
    match role line with
    | .failing => []
    | .leaving => [line]
    | _ => line :: effective role lines

/-- A line fails, and none in front of it leaves the shell. -/
def Fails (role : String → Role) (lines : List String) : Prop :=
  ∃ before line after, lines = before ++ line :: after ∧ role line = .failing ∧
    ∀ earlier ∈ before, role earlier ≠ .leaving

/-- What becomes of a line by its role. -/
def Role.Evaluates (sh : Shell S) (line : String) : Role → Prop
  | leaving => sh.evaluate line = (.ok ("", .quit), sh)
  | showing => ∃ text, sh.evaluate line = (.ok (text, .proceed), sh)
  | waiting delta => sh.evaluate line =
      ((sh.wait delta).1.map fun texts => ("\n".intercalate texts, .proceed), (sh.wait delta).2)
  | failing => ∃ e, sh.evaluate line = (.error (.error e), sh)
  | worldly => sh.evaluate line = sh.evaluateWorld line

theorem evaluateOwn_of_showing (hname : (Text.words own).headD "" = "help" ∨
    (Text.words own).headD "" = "h" ∨ (Text.words own).headD "" = "time" ∨
      (Text.words own).headD "" = "status") :
    ∃ text, sh.evaluateOwn own = (.ok (text, .proceed), sh) := by
  unfold evaluateOwn
  dsimp only
  rcases hname with hname | hname | hname | hname
  all_goals
    rw [hname]
    exact ⟨_, rfl⟩

theorem evaluateOwn_of_failing
    (hleaves : ¬((Text.words own).headD "" = "quit" ∨ (Text.words own).headD "" = "q"))
    (hshows : ¬((Text.words own).headD "" = "help" ∨ (Text.words own).headD "" = "h" ∨
      (Text.words own).headD "" = "time" ∨ (Text.words own).headD "" = "status"))
    (hpause : sh.pause? own = none) : ∃ e, sh.evaluateOwn own = (.error (.error e), sh) := by
  simp only [not_or] at hshows
  obtain ⟨hhelp, hh, htime, hstatus⟩ := hshows
  unfold evaluateOwn
  dsimp only
  rw [if_neg hleaves, if_neg (not_or.2 ⟨hhelp, hh⟩), if_neg htime]
  split
  · rename_i hname
    rw [pause?, if_pos hname] at hpause
    cases hwait : sh.waitTime (Text.words own)[1]? with
    | error problem => exact ⟨_, rfl⟩
    | ok delta =>
      rw [hwait] at hpause
      cases hpause
  · exact ⟨_, rfl⟩

theorem evaluates_role {role : Role} (hrole : sh.role line = role) : role.Evaluates sh line := by
  subst hrole
  have heval := evaluate_eq sh line
  cases hown : own? line with
  | none =>
    rw [hown] at heval
    rw [Shell.role, hown]
    exact heval
  | some own =>
    rw [hown] at heval
    rw [Shell.role, hown]
    dsimp only at heval ⊢
    split
    · rename_i hleaves
      rw [Role.Evaluates, heval, evaluateOwn, if_pos hleaves]
    · rename_i hleaves
      split
      · rename_i hshows
        rw [Role.Evaluates, heval]
        exact evaluateOwn_of_showing hshows
      · rename_i hshows
        cases hpause : sh.pause? own with
        | some delta =>
          rw [Role.Evaluates, heval]
          exact evaluateOwn_of_pause hpause
        | none =>
          rw [Role.Evaluates, heval]
          exact evaluateOwn_of_failing hleaves hshows hpause

theorem role_congr (h : sh'.settings = sh.settings) : sh'.role = sh.role := by
  funext line
  unfold role pause? waitTime
  rw [h]

theorem role_eq_worldly : sh.role line = .worldly ↔ own? line = none := by
  rw [role]
  cases own? line with
  | none => simp
  | some own =>
    dsimp only
    repeat' split
    all_goals simp

/-- A command of the shell that does not wait leaves everything as it is. -/
theorem unchanged_of_span (hown : (own? line).isSome) (hspan : (sh.role line).span? = none) :
    (sh.evaluate line).2 = sh := by
  cases hrole : sh.role line with
  | worldly =>
    rw [role_eq_worldly.1 hrole] at hown
    cases hown
  | waiting delta =>
    rw [hrole] at hspan
    cases hspan
  | leaving => exact congrArg Prod.snd (evaluates_role hrole)
  | showing =>
    obtain ⟨text, heval⟩ := evaluates_role hrole
    exact congrArg Prod.snd heval
  | failing =>
    obtain ⟨e, heval⟩ := evaluates_role hrole
    exact congrArg Prod.snd heval

/-! What a line does to the session. -/

/-- Evaluating a line that goes on does to the session what the line means for it. -/
def Goes (sh : Shell S) (line : String) (inputs : List Session.Input) : Prop :=
  (∃ fault last, sh.session.takeAll inputs = .error fault ∧
    sh.evaluate line = (.error (.fault fault), last)) ∨
  ∃ session text, sh.session.takeAll inputs = .ok session ∧
    sh.evaluate line = (.ok (text, .proceed), { sh with session })

theorem goes_waiting {delta : Duration} (hrole : sh.role line = .waiting delta) :
    sh.Goes line [.time delta] := by
  have heval := evaluates_role hrole
  rw [Role.Evaluates, wait] at heval
  cases htick : sh.session.tick delta with
  | mk result session =>
    rw [htick] at heval
    cases result with
    | error fault =>
      exact .inl ⟨fault, _, Session.takeAll_of_error (.time delta) [] htick, heval⟩
    | ok texts => exact .inr ⟨session, _, Session.takeAll_of_ok (.time delta) [] htick, heval⟩

theorem goes_worldly (hstays : sh.session.Stays) (hrole : sh.role line = .worldly) :
    sh.Goes line [.line line, .time sh.settings.tickInterval] := by
  let pause := Session.Input.time sh.settings.tickInterval
  have heval : sh.evaluate line = sh.evaluateWorld line := evaluates_role hrole
  unfold evaluateWorld at heval
  cases hsubmit : sh.session.submit line with
  | mk result s =>
    rw [hsubmit] at heval
    cases result with
    | error fault =>
      exact .inl ⟨fault, _, Session.takeAll_of_error (.line line) [pause] hsubmit, heval⟩
    | ok told =>
      have htold := Session.takeAll_of_ok (.line line) [pause] hsubmit
      cases htick : s.tick sh.settings.tickInterval with
      | mk result t =>
        dsimp only at heval
        rw [htick] at heval
        cases result with
        | error fault =>
          exact .inl ⟨fault, _, htold.trans (Session.takeAll_of_error pause [] htick), heval⟩
        | ok more =>
          -- The player is still there, so the shell does not complain.
          have htaken := htold.trans (Session.takeAll_of_ok pause [] htick)
          dsimp only at heval
          rw [hstays _ t htaken] at heval
          exact .inr ⟨t, _, htaken, heval⟩

/-- A line that neither leaves the shell nor fails goes on, and does what it means. -/
theorem goes_of_role (sh : Shell S) (hstays : sh.session.Stays) (hleaves : sh.role line ≠ .leaving)
    (hfails : sh.role line ≠ .failing) :
    sh.Goes line ((sh.role line).inputs sh.settings.tickInterval line) := by
  cases hrole : sh.role line with
  | leaving => exact absurd hrole hleaves
  | failing => exact absurd hrole hfails
  | waiting delta => exact goes_waiting hrole
  | worldly => exact goes_worldly hstays hrole
  | showing =>
    obtain ⟨text, heval⟩ := evaluates_role hrole
    exact .inr ⟨sh.session, text, rfl, heval⟩

/-! Whole scripts. -/

theorem fails_cons {role : String → Role} : Fails role (line :: lines) ↔
    role line = .failing ∨ role line ≠ .leaving ∧ Fails role lines := by
  constructor
  · rintro ⟨before, failed, after, hlines, hfailed, hearlier⟩
    cases before with
    | nil =>
      obtain ⟨rfl, -⟩ := List.cons.inj hlines
      exact .inl hfailed
    | cons first before =>
      obtain ⟨rfl, rfl⟩ := List.cons.inj hlines
      exact .inr ⟨hearlier _ List.mem_cons_self, before, failed, after, rfl, hfailed,
        fun earlier h => hearlier earlier (List.mem_cons_of_mem _ h)⟩
  · rintro (hfailed | ⟨hstays, before, failed, after, rfl, hfailed, hearlier⟩)
    · exact ⟨[], line, lines, rfl, hfailed, nofun⟩
    · exact ⟨line :: before, failed, after, rfl, hfailed, List.forall_mem_cons.2 ⟨hstays, hearlier⟩⟩

theorem not_fails_nil {role : String → Role} : ¬Fails role [] := by
  rintro ⟨before, failed, after, hlines, -⟩
  cases before <;> cases hlines

theorem effective_cons {role : String → Role} (hleaves : role line ≠ .leaving)
    (hfails : role line ≠ .failing) (lines : List String) :
    effective role (line :: lines) = line :: effective role lines := by
  rw [effective]
  cases hrole : role line with
  | leaving => exact absurd hrole hleaves
  | failing => exact absurd hrole hfails
  | _ => rfl

/-- What some lines mean for the session. -/
def plan (role : String → Role) (interval : Duration) (lines : List String) :
    List Session.Input :=
  (effective role lines).flatMap fun line => (role line).inputs interval line

theorem plan_of_failing {role : String → Role} (hrole : role line = .failing)
    (interval : Duration) (lines : List String) : plan role interval (line :: lines) = [] := by
  rw [plan, effective, hrole]
  rfl

theorem plan_of_leaving {role : String → Role} (hrole : role line = .leaving)
    (interval : Duration) (lines : List String) : plan role interval (line :: lines) = [] := by
  rw [plan, effective, hrole]
  change [line].flatMap _ = []
  rw [List.flatMap_singleton, hrole]
  rfl

theorem plan_cons {role : String → Role} (hleaves : role line ≠ .leaving)
    (hfails : role line ≠ .failing) (interval : Duration) (lines : List String) :
    plan role interval (line :: lines) =
      (role line).inputs interval line ++ plan role interval lines := by
  rw [plan, effective_cons hleaves hfails, List.flatMap_cons]
  rfl

/-- What a run of some lines has come to: it has broken off where the session does, or the session
has taken in what they mean for it and there is an error exactly if one of them fails. -/
inductive Performs (sh : Shell S) (lines : List String) : Except Failure Unit × Shell S → Prop
  | breaksOff {fault : Fault} {last : Shell S} (htaken : sh.session.takeAll
      (plan sh.role sh.settings.tickInterval lines) = .error fault) :
      Performs sh lines (.error (.fault fault), last)
  | fails {e : Error} {last : Shell S} (hfails : Fails sh.role lines) (htaken : sh.session.takeAll
      (plan sh.role sh.settings.tickInterval lines) = .ok last.session) :
      Performs sh lines (.error (.error e), last)
  | completes {last : Shell S} (hfails : ¬Fails sh.role lines) (htaken : sh.session.takeAll
      (plan sh.role sh.settings.tickInterval lines) = .ok last.session) :
      Performs sh lines (.ok (), last)

/-- One more line in front that goes on. -/
theorem Performs.cons {ended : Except Failure Unit × Shell S} (h : sh'.Performs lines ended)
    (hsettings : sh'.settings = sh.settings) (hleaves : sh.role line ≠ .leaving)
    (hfails : sh.role line ≠ .failing) (htaken : sh.session.takeAll
      ((sh.role line).inputs sh.settings.tickInterval line) = .ok sh'.session) :
    sh.Performs (line :: lines) ended := by
  have hplan : sh.session.takeAll (plan sh.role sh.settings.tickInterval (line :: lines)) =
      sh'.session.takeAll (plan sh'.role sh'.settings.tickInterval lines) := by
    rw [role_congr hsettings, hsettings, plan_cons hleaves hfails, Session.takeAll_append, htaken]
    rfl
  have hfail : Fails sh.role (line :: lines) ↔ Fails sh'.role lines := by
    rw [role_congr hsettings, fails_cons]
    simp [hleaves, hfails]
  cases h with
  | breaksOff hlater => exact .breaksOff (hplan.trans hlater)
  | fails hfailed hlater => exact .fails (hfail.2 hfailed) (hplan.trans hlater)
  | completes hfailed hlater => exact .completes (mt hfail.1 hfailed) (hplan.trans hlater)

/-- Only what a run of some lines means for the session can break it off. -/
theorem Performs.takeAll_of_fault {ended : Except Failure Unit × Shell S} {fault : Fault}
    (h : sh.Performs lines ended) (hfault : ended.1 = .error (.fault fault)) :
    sh.session.takeAll (plan sh.role sh.settings.tickInterval lines) = .error fault := by
  cases h with
  | breaksOff htaken =>
    obtain rfl := Failure.fault.inj (Except.error.inj hfault)
    exact htaken
  | fails => cases Except.error.inj hfault
  | completes => cases hfault

theorem Performs.takeAll {ended : Except Failure Unit × Shell S} (h : sh.Performs lines ended)
    (hgoes : ∀ fault, ended.1 ≠ .error (.fault fault)) :
    (ended.1 = .ok () ↔ ¬Fails sh.role lines) ∧
      sh.session.takeAll (plan sh.role sh.settings.tickInterval lines) = .ok ended.2.session := by
  cases h with
  | breaksOff => exact absurd rfl (hgoes _)
  | fails hfails htaken => exact ⟨⟨nofun, fun h => absurd hfails h⟩, htaken⟩
  | completes hfails htaken => exact ⟨⟨fun _ => hfails, fun _ => rfl⟩, htaken⟩

/-- Two runs whose lines mean the same lead to the same session. -/
theorem Performs.session_eq {others : List String} {ended ended' : Except Failure Unit × Shell S}
    (h : sh.Performs lines ended) (h' : sh.Performs others ended')
    (hgoes : ∀ fault, ended.1 ≠ .error (.fault fault))
    (hplan : plan sh.role sh.settings.tickInterval others =
      plan sh.role sh.settings.tickInterval lines) : ended'.2.session = ended.2.session := by
  obtain ⟨-, htaken⟩ := h.takeAll hgoes
  rw [← hplan] at htaken
  have hgoes' (fault : Fault) : ended'.1 ≠ .error (.fault fault) := fun hfault => by
    cases htaken.symm.trans (h'.takeAll_of_fault hfault)
  obtain ⟨-, htaken'⟩ := h'.takeAll hgoes'
  exact Except.ok.inj (htaken'.symm.trans htaken)

/-! Running one line after another. -/

/-- A line is shown before it is run. -/
def echo (sh : Shell S) (line : String) : Shell S :=
  sh.print (sh.settings.prompt ++ line ++ "\n")

theorem role_echo (sh : Shell S) (line : String) : (sh.echo line).role = sh.role := role_congr rfl

theorem runLines_of_error {failure : Failure}
    (h : (sh.echo line).evaluate line = (.error failure, sh')) (lines : List String) :
    sh.runLines (line :: lines) = (.error failure, sh') := by
  rw [echo] at h
  rw [runLines]
  dsimp only
  rw [h]

theorem runLines_of_quit {text : String}
    (h : (sh.echo line).evaluate line = (.ok (text, .quit), sh')) (lines : List String) :
    sh.runLines (line :: lines) = (.ok (), sh'.printText text) := by
  rw [echo] at h
  rw [runLines]
  dsimp only
  rw [h]

theorem runLines_of_proceed {text : String}
    (h : (sh.echo line).evaluate line = (.ok (text, .proceed), sh')) (lines : List String) :
    sh.runLines (line :: lines) = (sh'.printText text).runLines lines := by
  rw [echo] at h
  rw [runLines]
  dsimp only
  rw [h]

@[simp] theorem session_printText (sh : Shell S) (text : String) :
    (sh.printText text).session = sh.session := by
  unfold printText
  split <;> rfl

@[simp] theorem settings_printText (sh : Shell S) (text : String) :
    (sh.printText text).settings = sh.settings := by
  unfold printText
  split <;> rfl

/-- A line that fails or leaves the shell is the last one. -/
theorem performs_of_failing (hfails : sh.role line = .failing) (lines : List String) :
    sh.Performs (line :: lines) (sh.runLines (line :: lines)) := by
  have hrole : (sh.echo line).role line = .failing := by rw [role_echo, hfails]
  obtain ⟨e, heval⟩ := evaluates_role hrole
  rw [runLines_of_error heval]
  refine .fails (fails_cons.2 (.inl hfails)) ?_
  rw [plan_of_failing hfails]
  rfl

theorem performs_of_leaving (hleaves : sh.role line = .leaving) (lines : List String) :
    sh.Performs (line :: lines) (sh.runLines (line :: lines)) := by
  have hrole : (sh.echo line).role line = .leaving := by rw [role_echo, hleaves]
  rw [runLines_of_quit (evaluates_role hrole)]
  refine .completes (fun hfailed => ?_) ?_
  · rcases fails_cons.1 hfailed with hfails | ⟨hstays, -⟩
    · rw [hleaves] at hfails
      cases hfails
    · exact hstays hleaves
  · rw [plan_of_leaving hleaves, session_printText]
    rfl

/-- A line that goes on breaks off, or the others are run where it has led to. -/
theorem performs_of_goes (hstays : sh.session.Stays) (hleaves : sh.role line ≠ .leaving)
    (hfails : sh.role line ≠ .failing)
    (hlater : ∀ next : Shell S, next.session.Stays → next.Performs lines (next.runLines lines)) :
    sh.Performs (line :: lines) (sh.runLines (line :: lines)) := by
  -- Showing the line changes neither the session nor what the line is.
  have hgoes : (sh.echo line).Goes line
      ((sh.role line).inputs sh.settings.tickInterval line) := by
    rw [← role_echo sh line] at hleaves hfails ⊢
    exact goes_of_role (sh.echo line) hstays hleaves hfails
  have hsession : (sh.echo line).session = sh.session := rfl
  rcases hgoes with ⟨fault, last, htaken, heval⟩ | ⟨session, text, htaken, heval⟩
  · rw [hsession] at htaken
    rw [runLines_of_error heval]
    refine .breaksOff ?_
    rw [plan_cons hleaves hfails, Session.takeAll_append, htaken]
    rfl
  · rw [hsession] at htaken
    rw [runLines_of_proceed heval]
    refine .cons (hlater _ ?_) (settings_printText _ text) hleaves hfails ?_
    · rw [session_printText]
      exact hstays.takeAll htaken
    · rw [session_printText]
      exact htaken

/-- The lines of a script do to the session what they mean for it. -/
theorem performs_runLines (sh : Shell S) (hstays : sh.session.Stays) (lines : List String) :
    sh.Performs lines (sh.runLines lines) := by
  -- The session is another one for the rest of the lines.
  induction lines generalizing sh with
  | nil => exact .completes not_fails_nil rfl
  | cons line lines ih =>
    by_cases hfails : sh.role line = .failing
    · exact performs_of_failing hfails lines
    · by_cases hleaves : sh.role line = .leaving
      · exact performs_of_leaving hleaves lines
      · exact performs_of_goes hstays hleaves hfails ih

/-! The lines of a script. -/

theorem mem_of_mem_effective {role : String → Role} (h : line ∈ effective role lines) :
    line ∈ lines := by
  induction lines with
  | nil => exact h
  | cons first lines ih =>
    rw [effective] at h
    split at h
    · cases h
    · rw [List.mem_singleton.1 h]
      exact List.mem_cons_self
    · rcases List.mem_cons.1 h with rfl | h
      · exact List.mem_cons_self
      · exact List.mem_cons_of_mem first (ih h)

theorem effective_effective (role : String → Role) (lines : List String) :
    effective role (effective role lines) = effective role lines := by
  induction lines with
  | nil => rfl
  | cons line lines ih =>
    rw [effective]
    split
    · rfl
    · rename_i hleaves
      rw [effective, hleaves]
    · rename_i hfails hleaves
      rw [effective_cons hleaves hfails, ih]

theorem plan_effective (role : String → Role) (interval : Duration) (lines : List String) :
    plan role interval (effective role lines) = plan role interval lines := by
  rw [plan, effective_effective, plan]

theorem mem_scriptLines {script : String} (h : line ∈ scriptLines script) :
    Text.trim line = line ∧ '\n' ∉ line.toList ∧ line ≠ "" ∧ line.toList.head? ≠ some '#' := by
  obtain ⟨hmem, hcounts⟩ := List.mem_filter.1 h
  obtain ⟨l, hl, rfl⟩ := List.mem_map.1 hmem
  exact ⟨Text.trim_trim l, Text.newline_not_mem_trim hl, by simpa using hcounts⟩

/-- Lines of a script make up a script of their own. -/
theorem scriptLines_intercalate {script : String} (h : ∀ l ∈ lines, l ∈ scriptLines script) :
    scriptLines ("\n".intercalate lines) = lines := by
  rw [scriptLines, Text.map_trim_lines (fun l hl => (mem_scriptLines (h l hl)).2.2.1)
    (fun l hl => (mem_scriptLines (h l hl)).2.1) fun l hl => (mem_scriptLines (h l hl)).1]
  exact List.filter_eq_self.2 fun l hl => by simpa using (mem_scriptLines (h l hl)).2.2

/-- Of the lines of a script those without a slash are for the world. -/
theorem role_eq_worldly_iff (htrim : Text.trim line = line) :
    sh.role line = .worldly ↔ line.toList.head? ≠ some '/' := by
  have hown : own? line = none ↔ line.toList.head? ≠ some '/' := by
    rw [own?, htrim]
    simp
  exact role_eq_worldly.trans hown

/-- The lines of a script that take effect. -/
def effectiveLines (sh : Shell S) (script : String) : List String :=
  effective sh.role (scriptLines script)

/-- What takes effect is a script of its own. -/
theorem scriptLines_effectiveLines (sh : Shell S) (script : String) :
    scriptLines ("\n".intercalate (sh.effectiveLines script)) = sh.effectiveLines script :=
  scriptLines_intercalate fun _ => mem_of_mem_effective

/-- How long a script takes: a while for each line for the world, and what is waited for. -/
def scriptSpan (sh : Shell S) (script : String) : Nat :=
  (sh.effectiveLines script).countP (fun line => line.toList.head? ≠ some '/') *
      sh.settings.tickInterval.nanos +
    (((sh.effectiveLines script).filterMap fun line => (sh.role line).span?).map (·.nanos)).sum

/-- The inputs that a script stands for take as long as the script. -/
theorem total_plan (sh : Shell S) (script : String) : Session.total
    (plan sh.role sh.settings.tickInterval (scriptLines script)) = sh.scriptSpan script := by
  have htrim : ∀ line ∈ sh.effectiveLines script, Text.trim line = line :=
    fun line hline => (mem_scriptLines (mem_of_mem_effective hline)).1
  rw [plan, scriptSpan, ← effectiveLines]
  -- The lines that take effect are summed up one by one.
  generalize sh.effectiveLines script = lines at htrim
  induction lines with
  | nil => simp [Session.total]
  | cons line lines ih =>
    have hworldly : sh.role line = .worldly ↔ line.toList.head? ≠ some '/' :=
      role_eq_worldly_iff (htrim line List.mem_cons_self)
    rw [List.flatMap_cons, Session.total_append,
      ih fun l hl => htrim l (List.mem_cons_of_mem line hl)]
    by_cases hrole : sh.role line = .worldly
    · have hhead := hworldly.1 hrole
      rw [List.countP_cons_of_pos (by simpa using hhead),
        List.filterMap_cons_none (by rw [hrole]; rfl), hrole, Nat.succ_mul]
      simp only [Role.inputs, Session.total, Session.Input.span, Duration.zero]
      omega
    · have hhead := mt hworldly.2 hrole
      rw [List.countP_cons_of_neg (by simpa using hhead)]
      cases hspan : sh.role line with
      | worldly => exact absurd hspan hrole
      | waiting delta =>
        rw [List.filterMap_cons_some (b := delta) (by rw [hspan]; rfl), List.map_cons,
          List.sum_cons]
        simp only [Role.inputs, Session.total, Session.Input.span]
        omega
      | _ =>
        rw [List.filterMap_cons_none (by rw [hspan]; rfl)]
        simp only [Role.inputs, Session.total, Nat.zero_add]

end Shell

namespace Village

/-- Nobody leaves the world for good. -/
theorem durable_present (x : CharacterId) :
    World.Durable fun w => w.Signposted ∧ (w.character? x).isSome where
  signposted hw := hw.1
  errand hw herrand := by
    refine ⟨durable_signposted.errand hw.1 herrand, ?_⟩
    rw [herrand.cases.1.alike.character_isSome]
    exact hw.2
  regrouped hw hregrouped := by
    refine ⟨durable_signposted.regrouped hw.1 hregrouped, ?_⟩
    rw [hregrouped.alike.character_isSome]
    exact hw.2
  advance hw hadvance := by
    refine ⟨durable_signposted.advance hw.1 hadvance, ?_⟩
    obtain ⟨now, -, rfl⟩ := Option.map_eq_some_iff.1 hadvance
    exact hw.2

theorem session_stays {settings : Settings} {start : Session setting}
    (h : session lodging behaviour Duration.zero settings = .ok start) : start.Stays := by
  obtain ⟨start', w, hstart, hw, -, hplayer, hhosting⟩ := session_eq settings
  obtain rfl : start = start' := Except.ok.inj (h.symm.trans hstart)
  obtain ⟨c, hc, -⟩ := Option.map_eq_some_iff.1 (hw.characters residents.player)
  intro inputs t htaken
  obtain ⟨now, scene, -, -, ht⟩ :=
    (hhosting _ ⟨hw.signposted, Option.isSome_of_eq_some hc⟩).takeAll
      (durable_present residents.player) (P := fun _ => True) (fun _ _ _ _ _ _ _ => trivial)
      trivial htaken
  obtain ⟨c', hc'⟩ := Option.isSome_iff_exists.1 ht.resting.world.2
  rw [Session.checkPlayer, Session.player_takeAll htaken, hplayer, hc']

/-- A script that does not run out of time is over without an error exactly if no line in front of
the first that leaves the shell fails. The clock goes on by one interval for each line for the
village that takes effect and by what is waited for, and the session becomes what the lines that
take effect make of it by themselves. It breaks off only where the clock runs out within half a
minute of all that time, and a command of the shell that does not wait leaves everything as it
was. -/
theorem script_keeps_time (settings : Settings) : ∃ start,
    session lodging behaviour Duration.zero settings = .ok start ∧
      ∀ inputs (sh : Shell setting), start.takeAll inputs = .ok sh.session → ∀ script,
        (∀ fault, (sh.runScript script).1 = .error (.fault fault) → fault = .clockOverflow ∧
          Duration.limit.nanos < sh.session.state.world.now.nanos + sh.scriptSpan script +
            idleTimeout.nanos) ∧
        ((sh.runScript script).1 ≠ .error (.fault .clockOverflow) →
          ((sh.runScript script).1 = .ok () ↔
            ¬Shell.Fails sh.role (Shell.scriptLines script)) ∧
          (sh.runScript script).2.session.state.world.now.nanos =
            sh.session.state.world.now.nanos + sh.scriptSpan script ∧
          (sh.runScript ("\n".intercalate (sh.effectiveLines script))).2.session =
            (sh.runScript script).2.session) ∧
        ∀ line, (Shell.own? line).isSome → (sh.role line).span? = none →
          (sh.evaluate line).2 = sh := by
  obtain ⟨start, hstart, htimed⟩ := session_timed settings
  refine ⟨start, hstart, fun inputs sh hsession script => ?_⟩
  have hs := htimed.takeAll hsession
  have hstays := (session_stays hstart).takeAll hsession
  have hruns : sh.Performs (Shell.scriptLines script) (sh.runScript script) :=
    Shell.performs_runLines sh hstays _
  have hfault (fault : Fault) (hbroken : (sh.runScript script).1 = .error (.fault fault)) :
      fault = .clockOverflow ∧ Duration.limit.nanos <
        sh.session.state.world.now.nanos + sh.scriptSpan script + idleTimeout.nanos := by
    rw [← Shell.total_plan]
    exact hs.overruns_takeAll (hruns.takeAll_of_fault hbroken)
  refine ⟨hfault, fun hgoes => ?_, fun line hown hspan => ?_⟩
  · have hlasts (fault : Fault) : (sh.runScript script).1 ≠ .error (.fault fault) := by
      intro hbroken
      rw [(hfault fault hbroken).1] at hbroken
      exact hgoes hbroken
    obtain ⟨hok, htaken⟩ := hruns.takeAll hlasts
    have hagain : sh.Performs (sh.effectiveLines script)
        (sh.runScript ("\n".intercalate (sh.effectiveLines script))) := by
      rw [Shell.runScript, Shell.scriptLines_effectiveLines]
      exact Shell.performs_runLines sh hstays _
    refine ⟨hok, ?_, hruns.session_eq hagain hlasts (Shell.plan_effective _ _ _)⟩
    rw [hs.now_takeAll htaken, Shell.total_plan]
  · exact Shell.unchanged_of_span hown hspan

/-- After a word to the village, a script goes as far as a command that there is not: two lines for
the village and one wait take four and a half seconds, with or without the comment and the rest. -/
theorem script_keeps_time_refused : ∃ start, ∃ sh : Shell setting, ∃ script : String,
    session lodging behaviour Duration.zero default = .ok start ∧
      start.takeAll [.line "say hush"] = .ok sh.session ∧
        script = "# out\n north\n\n/wait 2.5\r\nlook\n/dance\nsouth" ∧
          (sh.runScript script).1 = .error (.error (.shell (.unknownCommand "dance"))) ∧
            (sh.runScript script).2.session.state.world.now.nanos =
              sh.session.state.world.now.nanos + 4500000000 ∧
            (sh.runScript "north\n/wait 2.5\nlook").2.session =
              (sh.runScript script).2.session ∧
            (sh.evaluate "/status").2 = sh := by
  obtain ⟨start, hstart, hkeeps⟩ := script_keeps_time default
  have hruns : (session lodging behaviour Duration.zero default).toOption.bind (fun start =>
      (start.takeAll [.line "say hush"]).toOption.map fun s =>
        let sh := Shell.ofSession s default
        let script := "# out\n north\n\n/wait 2.5\r\nlook\n/dance\nsouth"
        ((sh.runScript script).1, sh.effectiveLines script, sh.scriptSpan script,
          (sh.role "/status").span?)) =
      some (.error (.error (.shell (.unknownCommand "dance"))), ["north", "/wait 2.5", "look"],
        4500000000, none) := by
    decide +kernel
  have hplays := of_bind_toOption hstart hruns
  obtain ⟨s, hplayed, hresult⟩ := Option.map_eq_some_iff.1 hplays
  rw [Prod.mk.injEq, Prod.mk.injEq, Prod.mk.injEq] at hresult
  obtain ⟨hrefused, hlines, hspan, hstatus⟩ := hresult
  obtain ⟨-, hends, hshown⟩ := hkeeps _ (Shell.ofSession s default) (ok_of_toOption hplayed)
    "# out\n north\n\n/wait 2.5\r\nlook\n/dance\nsouth"
  obtain ⟨-, hnow, hagain⟩ := hends (by rw [hrefused]; nofun)
  rw [hspan] at hnow
  rw [hlines] at hagain
  exact ⟨start, _, _, hstart, ok_of_toOption hplayed, rfl, hrefused, hnow, hagain,
    hshown "/status" (by decide) hstatus⟩

end Village

end TextWorld
