import CheckedActions.Cli.Program
import CheckedActions.Proofs.ObjectTexts
import CheckedActions.Proofs.Runs

/-!
Running an action from the command line. The objects are read before anything else is done: if one
of them is refused, no module is imported, no action is called, and no observer is told. Otherwise
the result is printed where its success wants it, and the exit code agrees with that.
-/

namespace CheckedActions
namespace Cli

/-- A command line that runs an action, the program's own options coming first. -/
structure Invocation where
  general : List String := []
  name : String
  jacks? : Option String := none
  props? : Option String := none

namespace Invocation

variable (i : Invocation)

/-- The arguments for the objects. -/
def objectArgs : List String :=
  (i.jacks?.elim [] fun text => ["--jacks", text]) ++
    (i.props?.elim [] fun text => ["--props", text])

def args : List String := i.general ++ "run" :: i.name :: i.objectArgs

/-- The options that the command has been given. -/
def given : List Given :=
  (i.jacks?.elim [] fun text => [⟨jacksOption, some text⟩]) ++
    (i.props?.elim [] fun text => [⟨propsOption, some text⟩])

/-- The object of one option, or the failure with the option it came from. An option that is left
out gives no object. -/
def object (form : OptionForm) : Option String → Except (OptionForm × Failure) Value
  | none => .ok .null
  | some text => (objectOfText text).mapError fun f => (form, f)

/-- The two objects. The first failure counts, and jacks are read first. -/
def objects : Except (OptionForm × Failure) (Value × Value) := do
  let jacks ← object jacksOption i.jacks?
  let props ← object propsOption i.props?
  return (jacks, props)

/-- The program gets as far as the command, with the given settings. -/
structure Reaches (surroundings : Surroundings) (settings : Settings) : Prop where
  named : i.name.toList.head? ≠ some '-'
  started : ∃ line, readLine programOptions false none i.general = .ok line ∧
    line.arguments = [] ∧ requestedText? line programTexts = none ∧
    Settings.load surroundings (line.value? configOption) none (flagsOf line) = .ok settings

end Invocation

/-- How results are shown under the settings. -/
def display (settings : Settings) : OutputSettings :=
  { json := settings.json, quiet := settings.quiet, verbose := settings.verbose,
    width? := some settings.output.width }

namespace Outcome

/-- The outcome with the log shown as the settings say. -/
def settled (settings : Settings) (o : Outcome) : Outcome :=
  { o with setup? := some { verbose := settings.verbose, json := settings.logJson } }

/-- The outcome of a result with its text: of a success on the standard output with its warnings
beside it, of a failure as an error. -/
def printed (settings : Settings) (r : ServiceResult) (text : String) : Outcome :=
  if r.ok then
    { exitCode := 0, stdout := text ++ "\n",
      stderr := endedLines (if settings.json then [] else r.warnings.map ("WARNING: " ++ ·)) }
  else { exitCode := 1, stderr := text ++ "\n" }

end Outcome

theorem emit_eq {settings : Settings} {r : ServiceResult} {text : String}
    (h : r.format (display settings) = .ok text) :
    emit settings r = .ok (.printed settings r text) := by
  unfold display at h
  simp only [emit, h, Outcome.printed]
  cases r.ok <;> rfl

/-! ### Reading the command line -/

theorem isOption_eq_false {arg : String} (h : arg.toList.head? ≠ some '-') :
    isOption arg = false := by
  unfold isOption
  split
  · rename_i hcs
    rw [hcs] at h
    exact absurd rfl h
  · rfl

theorem ne_dashes {arg : String} (h : arg.toList.head? ≠ some '-') : arg ≠ "--" := by
  rintro rfl
  exact h rfl

/-- An argument that is no option ends the options, and the rest is left as it is. -/
theorem readLine_append {forms : List OptionForm} {open? : Option (OptionForm × String)}
    {before : List String} {line : Line}
    (h : readLine forms false open? before = .ok line) (hargs : line.arguments = [])
    (arg : String) (harg : arg.toList.head? ≠ some '-') (rest : List String) :
    readLine forms false open? (before ++ arg :: rest) =
      .ok { line with arguments := arg :: rest } := by
  fun_induction readLine forms false open? before generalizing line with
  | case1 => cases h
  | case2 =>
    cases h
    rw [List.nil_append, readLine, if_neg (ne_dashes harg), isOption_eq_false harg]
    rfl
  | case3 form name value args ih =>
    obtain ⟨line, hline, rfl⟩ := map_eq_ok_iff.1 h
    rw [List.cons_append, readLine, ih hline hargs]
    rfl
  | case4 args =>
    cases h
    cases hargs
    rw [List.cons_append, readLine, if_pos rfl]
    rfl
  | case5 first args hdashes hoption ih =>
    obtain ⟨⟨given, open?⟩, hread, h⟩ := bind_eq_ok_iff.1 h
    obtain ⟨line, hline, ⟨⟩⟩ := bind_eq_ok_iff.1 h
    rw [List.cons_append, readLine, if_neg hdashes, if_pos hoption, hread]
    simp only [bind, Except.bind, ih open? hline hargs]
    rfl
  | case6 _ _ _ _ hmixed => cases hmixed
  | case7 =>
    cases h
    cases hargs

namespace Invocation

variable (i : Invocation)

theorem readLine_given :
    readLine Command.run.options true none i.objectArgs = .ok ⟨i.given, []⟩ := by
  unfold objectArgs given
  cases i.jacks? <;> cases i.props? <;> rfl

theorem readLine_command (h : i.name.toList.head? ≠ some '-') :
    readLine Command.run.options true none (i.name :: i.objectArgs) =
      .ok ⟨i.given, [i.name]⟩ := by
  rw [readLine, if_neg (ne_dashes h), isOption_eq_false h, i.readLine_given]
  rfl

/-- No text is asked for. -/
theorem requestedText?_given (texts : List (OptionForm × String))
    (h : texts.map (·.1) = [examplesOption, helpOption]) :
    requestedText? ⟨i.given, [i.name]⟩ texts = none := by
  unfold requestedText? given
  rw [h]
  cases i.jacks? <;> cases i.props? <;> rfl

/-- Why the command is not carried out if an object is not read. -/
def refusal : OptionForm × Failure → Refusal
  | (form, .badParameter reason) => .usage (.invalidValue form.long reason)
  | (_, f) => .failure f

/-- Objects are read one after another, each as the object of its option. -/
theorem readObjects_cons (line : Line) (form : OptionForm) (forms : List OptionForm) :
    readObjects line (form :: forms) = do
      let v ← (object form (some ((line.value? form).getD ""))).mapError refusal
      return (form, v) :: (← readObjects line forms) := by
  rw [readObjects, object]
  cases objectOfText ((line.value? form).getD "") with
  | ok v => rfl
  | error f => cases f <;> rfl

/-- The request is that of the objects, or the first failure of one of them. -/
theorem readRequest_eq :
    readRequest .run ⟨i.given, [i.name]⟩ =
      (i.objects.mapError refusal).map fun (jacks, props) => .run i.name jacks props := by
  obtain ⟨general, name, jacks?, props?⟩ := i
  have hread : ∀ (line : Line) (forms : List OptionForm), line.arguments = [name] →
      line.order Command.run.objectOptions = forms → readRequest .run line = do
        let objects ← readObjects line forms
        return .run name ((objects.lookup jacksOption).getD .null)
          ((objects.lookup propsOption).getD .null) := by
    intro line forms harguments horder
    rw [readRequest, horder, readName, harguments]
    rfl
  cases jacks? with
  | none =>
    cases props? with
    | none => rfl
    | some p =>
      rw [hread _ [propsOption] rfl rfl, readObjects_cons, objects]
      have hvalue : Line.value? ⟨given ⟨general, name, none, some p⟩, [name]⟩ propsOption =
        some p := rfl
      rw [hvalue, Option.getD_some]
      cases object propsOption (some p) <;> rfl
  | some j =>
    cases props? with
    | none =>
      rw [hread _ [jacksOption] rfl rfl, readObjects_cons, objects]
      have hvalue : Line.value? ⟨given ⟨general, name, some j, none⟩, [name]⟩ jacksOption =
        some j := rfl
      rw [hvalue, Option.getD_some]
      cases object jacksOption (some j) <;> rfl
    | some p =>
      rw [hread _ [jacksOption, propsOption] rfl rfl, readObjects_cons, readObjects_cons, objects]
      have hjacks : Line.value? ⟨given ⟨general, name, some j, some p⟩, [name]⟩ jacksOption =
        some j := rfl
      have hprops : Line.value? ⟨given ⟨general, name, some j, some p⟩, [name]⟩ propsOption =
        some p := rfl
      rw [hjacks, hprops, Option.getD_some, Option.getD_some]
      cases object jacksOption (some j) with
      | error e => rfl
      | ok v => cases object propsOption (some p) <;> rfl

/-! ### Running the program -/

section Programs

variable {σ : Type} {i : Invocation} {surroundings : Surroundings} {settings : Settings}

theorem program_eq (h : i.Reaches surroundings settings) (shelf : ModuleShelf σ)
    (installed : Call σ (PluginRoster σ)) :
    program surroundings shelf i.args installed = do
      let o ← runCommand settings shelf installed .run (i.name :: i.objectArgs)
      return o.settled settings := by
  obtain ⟨line, hline, harguments, htext, hsettings⟩ := h.started
  have hread := readLine_append hline harguments "run" (by decide) (i.name :: i.objectArgs)
  have hasked : requestedText? { line with arguments := "run" :: i.name :: i.objectArgs }
    programTexts = none := htext
  have hrun : Command.ofName? "run" = some .run := rfl
  have hloaded : Settings.load surroundings (Line.value? { line with
    arguments := "run" :: i.name :: i.objectArgs } configOption) none (flagsOf { line with
      arguments := "run" :: i.name :: i.objectArgs }) = .ok settings := hsettings
  unfold program args
  rw [hread]
  simp only [hasked, hrun, withSettings, hloaded]
  rfl

theorem runCommand_eq (hname : i.name.toList.head? ≠ some '-') (shelf : ModuleShelf σ)
    (installed : Call σ (PluginRoster σ)) :
    runCommand settings shelf installed .run (i.name :: i.objectArgs) =
      match i.objects.mapError refusal with
      | .error (.usage p) => return .misuse (some .run) p
      | .error (.failure f) => return .failed f
      | .ok (jacks, props) => carryOut settings shelf installed .run (.run i.name jacks props) := by
  have htext := i.requestedText?_given [(examplesOption, Command.run.examplesText),
    (helpOption, Command.run.help)] rfl
  unfold runCommand
  rw [i.readLine_command hname]
  simp only [htext, i.readRequest_eq]
  rcases i.objects.mapError refusal with (p | f) | ⟨jacks, props⟩ <;> rfl

/-- A result whose text is made is printed, and what else happens is what the service does. -/
theorem runIn_carryOut {shelf : ModuleShelf σ} {installed : Call σ (PluginRoster σ)}
    {request : Request} {s t : Scene σ} {r : ServiceResult} {text : String}
    (hanswer : (Call.withCommand "run" (answer settings shelf installed request)).runIn s =
      (.ok r, t)) (htext : r.format (display settings) = .ok text) :
    (carryOut settings shelf installed .run request).runIn s =
      (.ok (.printed settings r text), t) := by
  have hemit : emit settings r = .ok (.printed settings r text) := emit_eq htext
  rw [Call.withCommand, Call.runIn_withKey] at hanswer
  obtain ⟨hr, ht⟩ := Prod.mk.inj hanswer
  have hinner : Call.runIn (do
      Call.ofExcept (emit settings (← answer settings shelf installed request)))
        (s.binding "command" (.str "run")) = (.ok (.printed settings r text),
          ((answer settings shelf installed request).runIn
            (s.binding "command" (.str "run"))).2) := by
    rw [Call.runIn_bind_ok (Prod.ext hr rfl), Call.runIn_ofExcept, hemit]
  have hbound := Call.runIn_withKey "command" (.str "run") (do
    Call.ofExcept (emit settings (← answer settings shelf installed request))) s
  rw [hinner, ht] at hbound
  have hattempt : (Call.attempt (Call.withCommand Command.run.name (do
      Call.ofExcept (emit settings (← answer settings shelf installed request))))).runIn s =
        (.ok (.ok (.printed settings r text)), t) := by
    rw [Call.runIn_attempt]
    exact congrArg (fun x => (Except.ok x.1, x.2)) hbound
  rw [carryOut, Call.runIn_bind_ok hattempt]
  rfl

theorem object_eq_error {form form' : OptionForm} {text? : Option String} {f : Failure}
    (h : object form text? = .error (form', f)) :
    (∃ reason, f = .badParameter reason) ∨ ∃ n, f = .tooManyDigits n := by
  cases text? with
  | none => cases h
  | some text =>
    rw [object] at h
    cases hread : objectOfText text with
    | ok v =>
      rw [hread] at h
      cases h
    | error f' =>
      rw [hread] at h
      cases h
      obtain hbad | ⟨n, hdigits, -⟩ := objectOfText_eq_error hread
      · exact .inl hbad
      · exact .inr ⟨n, hdigits⟩

theorem objects_eq_error {form : OptionForm} {f : Failure} (h : i.objects = .error (form, f)) :
    (∃ reason, f = .badParameter reason) ∨ ∃ n, f = .tooManyDigits n := by
  obtain h | ⟨_, -, h⟩ := bind_eq_error_iff.1 h
  · exact object_eq_error h
  · obtain h | ⟨_, -, h⟩ := bind_eq_error_iff.1 h
    · exact object_eq_error h
    · cases h

/-- Exit code, streams and effects of a run from the command line agree. If the first object that
is not read is a bad parameter, the exit code tells of misuse, whatever modules and plugins there
are, and nothing else happens; a failure of another kind is not dealt with, and nothing else happens
either. If both are read and the service and the display return, the exit code tells whether the
result is one of success, and it is printed accordingly. -/
theorem run_agrees (h : i.Reaches surroundings settings) :
    (∀ form reason, i.objects = .error (form, .badParameter reason) →
      ∃ o : Outcome, o.exitCode = 2 ∧ o.stdout = "" ∧ o.raised? = none ∧
        o.stderr = problemText (some .run) (.invalidValue form.long reason) ∧
        ∀ (shelf : ModuleShelf σ) installed,
          program surroundings shelf i.args installed = pure o) ∧
    (∀ form f, i.objects = .error (form, f) → (¬ ∃ reason, f = .badParameter reason) →
      ∃ o : Outcome, o.exitCode = 1 ∧ o.stdout = "" ∧ o.stderr = "" ∧ o.raised? = some f ∧
        ∀ (shelf : ModuleShelf σ) installed,
          program surroundings shelf i.args installed = pure o) ∧
    ∀ jacks props, i.objects = .ok (jacks, props) →
      ∀ (shelf : ModuleShelf σ) installed s r t text,
        (Call.withCommand "run" (answer settings shelf installed
          (.run i.name jacks props))).runIn s = (.ok r, t) →
        r.format (display settings) = .ok text →
        ∃ o : Outcome, (program surroundings shelf i.args installed).runIn s = (.ok o, t) ∧
          o.raised? = none ∧
          (r.ok → o.exitCode = 0 ∧ o.stdout = text ++ "\n" ∧ o.stderr =
            endedLines (if settings.json then [] else r.warnings.map ("WARNING: " ++ ·))) ∧
          (¬ r.ok → o.exitCode = 1 ∧ o.stdout = "" ∧ o.stderr = text ++ "\n") := by
  refine ⟨?_, ?_, ?_⟩
  · intro form reason hobjects
    refine ⟨(Outcome.misuse (some .run) (.invalidValue form.long reason)).settled settings, rfl,
      rfl, rfl, rfl, fun shelf installed => ?_⟩
    rw [program_eq h, runCommand_eq h.named, hobjects]
    rfl
  · intro form f hobjects hother
    obtain hbad | ⟨n, rfl⟩ := objects_eq_error hobjects
    · exact absurd hbad hother
    · refine ⟨(Outcome.failed (.tooManyDigits n)).settled settings, rfl, rfl, rfl, rfl,
        fun shelf installed => ?_⟩
      rw [program_eq h, runCommand_eq h.named, hobjects]
      rfl
  · intro jacks props hobjects shelf installed s r t text hanswer htext
    have hcarried := runIn_carryOut hanswer htext
    refine ⟨(Outcome.printed settings r text).settled settings, ?_, ?_, ?_, ?_⟩
    · rw [program_eq h, runCommand_eq h.named, hobjects]
      exact (Call.runIn_bind_ok hcarried _).trans rfl
    · unfold Outcome.printed
      split <;> rfl
    · intro hok
      rw [Outcome.printed, if_pos hok]
      exact ⟨rfl, rfl, rfl⟩
    · intro hok
      rw [Outcome.printed, if_neg hok]
      exact ⟨rfl, rfl, rfl⟩

end Programs

/-- Surroundings without a variable and without a file. -/
def nowhere : Surroundings := { directory := [], environment := [], files := [] }

theorem reaches_nowhere {name : String} (h : name.toList.head? ≠ some '-')
    (jacks? props? : Option String) : Reaches ⟨[], name, jacks?, props?⟩ nowhere {} :=
  ⟨h, ⟨[], []⟩, rfl, rfl, rfl, rfl⟩

theorem objectOfText_brackets :
    objectOfText "[]" = .error (.badParameter "expected a JSON object") := by
  have hblank : Json.Blank [] := fun c hc => absurd hc List.not_mem_nil
  have htext : Json.IsText .short "[]".toList (.list []) :=
    ⟨[], ['[', ']'], [], rfl, hblank, hblank, .emptyArray hblank⟩
  rw [objectOfText, htext.read]
  rfl

theorem objects_brackets :
    objects ⟨[], "Greet", none, some "[]"⟩ =
      .error (propsOption, .badParameter "expected a JSON object") := by
  rw [objects, object, object, objectOfText_brackets]
  rfl

/-- Props that are no object end the program with the exit code of misuse. -/
theorem brackets_refused :
    Reaches ⟨[], "Greet", none, some "[]"⟩ nowhere {} ∧
      ∃ o : Outcome, o.exitCode = 2 ∧ o.stdout = "" ∧
        ∀ (shelf : ModuleShelf Unit) installed,
          program nowhere shelf ["run", "Greet", "--props", "[]"] installed = pure o := by
  have hreaches : Reaches ⟨[], "Greet", none, some "[]"⟩ nowhere {} :=
    reaches_nowhere (by decide) none (some "[]")
  obtain ⟨o, hcode, hout, -, -, hpure⟩ :=
    (run_agrees (σ := Unit) hreaches).1 propsOption _ objects_brackets
  exact ⟨hreaches, o, hcode, hout, hpure⟩

/-- Of an invocation whose props are no object the exit code is not that of misuse: jacks that are a
whole number of too many digits are read before them. -/
theorem digits_before_brackets :
    ¬ ∀ (i : Invocation) (surroundings : Surroundings) (settings : Settings),
      i.Reaches surroundings settings →
      (∃ text reason, (i.jacks? = some text ∨ i.props? = some text) ∧
        objectOfText text = .error (.badParameter reason)) →
      ∀ (shelf : ModuleShelf Unit) installed s,
        ∃ o, (program surroundings shelf i.args installed).runIn s = (.ok o, s) ∧
          o.exitCode = 2 := by
  intro h
  let digits := String.ofList (List.replicate 4301 '1')
  let i : Invocation := ⟨[], "Greet", some digits, some "[]"⟩
  have hreaches : i.Reaches nowhere {} := reaches_nowhere (by decide) (some digits) (some "[]")
  have hdigits : objectOfText digits = .error (.tooManyDigits 4301) :=
    objectOfText_ones (by decide)
  have hobjects : i.objects = .error (jacksOption, .tooManyDigits 4301) := by
    have hjacks : object jacksOption (some digits) =
        .error (jacksOption, .tooManyDigits 4301) := by
      rw [object, hdigits]
      rfl
    simp only [objects, i, hjacks]
    rfl
  obtain ⟨o, hrun, hcode⟩ := h i nowhere {} hreaches ⟨"[]", _, .inr rfl, objectOfText_brackets⟩
    (.ofSources []) (pure .empty) (.initial ())
  rw [program_eq hreaches, runCommand_eq hreaches.named, hobjects] at hrun
  cases hrun
  cases hcode

end Invocation

end Cli
end CheckedActions
