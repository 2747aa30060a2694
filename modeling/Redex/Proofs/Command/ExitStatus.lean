import Mathlib.Algebra.Module.Submodule.Lattice
import Mathlib.Computability.Primrec.List
import Redex.Proofs.Basic
import Redex.Proofs.Command.Steps
import Redex.Proofs.Json

/-!
# Exit status and output

A command that is understood goes through several steps: its settings and their format are found,
its prelude is loaded, and what is asked for is done. Any step may fail (`Request.Fails`), and each
has a path of its own to the exit status and the output. All that can come of it are four outcomes
(`Request.Comes`): a failure before there is a format, an answer, a failure after that, and the
negative answer of a check.

The readers of arguments and documents are arbitrary here, and so are the files, the standard input
and what the standard output refuses. Of the output it is only assumed that it takes what is written
to it.

In JSON an output is an envelope. It is put together as text, so what it says is stated by the value
that it is the written form of (`Envelope.value`); by `Json.lines_injective` no other value, and no
other number of values, is written like that.
-/

set_option autoImplicit false

namespace Redex.Command

/-! ## Requests -/

namespace Request

variable (readers : Readers) (surroundings : Surroundings) (request : Request)

/-- A step of a command fails: settings are not found or name no format, the prelude is not loaded,
or what is asked for fails. -/
inductive Fails : Failure → Prop
  | settings {failure : Failure} :
      foundSettings readers surroundings request.preferences.config = .error failure → Fails failure
  | format {settings : Settings} :
      foundSettings readers surroundings request.preferences.config = .ok settings →
      Format.ofText? (request.preferences.override settings).format = none →
      Fails (.format (request.preferences.override settings).format)
  | prelude {settings : Settings} {format : Format} {failure : Failure} :
      settle readers surroundings request.preferences = .ok (settings, format) →
      loadPrelude readers surroundings request.preferences.noPrelude settings.prelude =
        .error failure → Fails failure
  | action {settings : Settings} {format : Format} {p : Prelude} {failure : Failure} :
      settle readers surroundings request.preferences = .ok (settings, format) →
      loadPrelude readers surroundings request.preferences.noPrelude settings.prelude = .ok p →
      request.action.Fails surroundings settings p failure → Fails failure

/-- A check for equality has come to a negative answer. -/
def Denies : Prop :=
  ∃ settings format p, settle readers surroundings request.preferences = .ok (settings, format) ∧
    loadPrelude readers surroundings request.preferences.noPrelude settings.prelude = .ok p ∧
    request.action.Denies settings p

variable {readers surroundings request}

theorem fails_of_settle {failure : Failure}
    (unsettled : settle readers surroundings request.preferences = .error failure) :
    request.Fails readers surroundings failure := by
  rcases eq_error_of_bind unsettled with absent | ⟨settings, found, noFormat⟩
  · exact .settings absent
  · simp only at noFormat
    split at noFormat
    · cases noFormat
    · next unnamed =>
        cases noFormat
        exact .format found unnamed

theorem exists_found_of_settle {settings : Settings} {format : Format}
    (settled : settle readers surroundings request.preferences = .ok (settings, format)) :
    ∃ found, foundSettings readers surroundings request.preferences.config = .ok found ∧
      request.preferences.override found = settings ∧
      Format.ofText? settings.format = some format := by
  obtain ⟨found, isFound, named⟩ := exists_ok_of_bind settled
  simp only at named
  split at named
  · next isNamed =>
      cases named
      exact ⟨found, isFound, rfl, isNamed⟩
  · cases named

section Settled

variable {settings : Settings} {format : Format} {p : Prelude} {failure : Failure}

/-- Once the settings are settled, only the prelude and what is asked for can fail. -/
theorem fails_iff_of_settle
    (settled : settle readers surroundings request.preferences = .ok (settings, format)) :
    request.Fails readers surroundings failure ↔
      loadPrelude readers surroundings request.preferences.noPrelude settings.prelude =
          .error failure ∨
        ∃ p, loadPrelude readers surroundings request.preferences.noPrelude settings.prelude =
            .ok p ∧ request.action.Fails surroundings settings p failure := by
  obtain ⟨found, isFound, overridden, isNamed⟩ := exists_found_of_settle settled
  constructor
  · intro fails
    cases fails with
    | settings absent =>
        rw [isFound] at absent
        cases absent
    | format found' unnamed =>
        rw [isFound] at found'
        cases found'
        rw [overridden, isNamed] at unnamed
        cases unnamed
    | prelude settled' unloaded =>
        rw [settled] at settled'
        cases settled'
        exact .inl unloaded
    | action settled' loaded fails =>
        rw [settled] at settled'
        cases settled'
        exact .inr ⟨_, loaded, fails⟩
  · rintro (unloaded | ⟨p, loaded, fails⟩)
    · exact .prelude settled unloaded
    · exact .action settled loaded fails

theorem fails_iff_of_loadPrelude
    (settled : settle readers surroundings request.preferences = .ok (settings, format))
    (loaded : loadPrelude readers surroundings request.preferences.noPrelude settings.prelude =
      .ok p) :
    request.Fails readers surroundings failure ↔
      request.action.Fails surroundings settings p failure := by
  rw [fails_iff_of_settle settled, loaded]
  constructor
  · rintro (unloaded | ⟨p', same, fails⟩)
    · cases unloaded
    · cases same
      exact fails
  · exact fun fails => .inr ⟨p, rfl, fails⟩

theorem denies_iff_of_loadPrelude
    (settled : settle readers surroundings request.preferences = .ok (settings, format))
    (loaded : loadPrelude readers surroundings request.preferences.noPrelude settings.prelude =
      .ok p) :
    request.Denies readers surroundings ↔ request.action.Denies settings p := by
  constructor
  · rintro ⟨settings', format', p', settled', loaded', denies⟩
    rw [settled] at settled'
    cases settled'
    rw [loaded] at loaded'
    cases loaded'
    exact denies
  · exact fun denies => ⟨settings, format, p, settled, loaded, denies⟩

end Settled

theorem Denies.not_fails (denies : request.Denies readers surroundings) (failure : Failure) :
    ¬ request.Fails readers surroundings failure := by
  obtain ⟨settings, format, p, settled, loaded, denied⟩ := denies
  rw [fails_iff_of_loadPrelude settled loaded]
  exact denied.not_fails failure

/-- How a request comes to its outcome: its result, or a failure before there is a format. -/
inductive Comes (readers : Readers) (surroundings : Surroundings) (name : String)
    (request : Request) : Outcome → Prop
  | early {failure : Failure} :
      settle readers surroundings request.preferences = .error failure →
      Comes readers surroundings name request (.early failure.exit failure.message)
  | answered {settings : Settings} {format : Format} (log : Text) (report : Report) :
      settle readers surroundings request.preferences = .ok (settings, format) →
      (∀ failure, ¬ request.Fails readers surroundings failure) →
      ¬ request.Denies readers surroundings →
      Comes readers surroundings name request (.ofResult name format log (.ok report))
  | failed {settings : Settings} {format : Format} (log : Text) {failure : Failure} :
      settle readers surroundings request.preferences = .ok (settings, format) →
      request.Fails readers surroundings failure →
      Comes readers surroundings name request (.ofResult name format log (.error failure))
  | denied {settings : Settings} {format : Format} (log : Text) :
      settle readers surroundings request.preferences = .ok (settings, format) →
      request.Denies readers surroundings →
      Comes readers surroundings name request (.ofResult name format log (.error .unequal))

theorem outcome_comes (name : String) :
    Comes readers surroundings name request (request.outcome readers surroundings name) := by
  rw [Request.outcome]
  cases settled : settle readers surroundings request.preferences with
  | error failure => exact .early settled
  | ok result =>
      obtain ⟨settings, format⟩ := result
      simp only
      cases loaded : loadPrelude readers surroundings request.preferences.noPrelude
          settings.prelude with
      | error failure => exact .failed [] settled (.prelude settled loaded)
      | ok p =>
          have accounts := accounts_perform surroundings settings p request.action
            [.configured settings]
          simp only
          cases ran : (perform surroundings settings p request.action).run.run
              [.configured settings] with
          | mk result events =>
              rw [ran] at accounts
              cases result with
              | ok report =>
                  obtain ⟨sound, undenied⟩ := accounts
                  refine .answered _ report settled (fun failure fails => ?_) ?_
                  · exact sound failure ((fails_iff_of_loadPrelude settled loaded).1 fails)
                  · rwa [denies_iff_of_loadPrelude settled loaded]
              | error failure =>
                  rcases accounts with fails | ⟨rfl, denies⟩
                  · exact .failed _ settled (.action settled loaded fails)
                  · exact .denied _ settled ((denies_iff_of_loadPrelude settled loaded).2 denies)

end Request

/-! ## Codes and exit statuses -/

namespace Failure

theorem exit_eq_two {failure : Failure} (other : failure ≠ .unequal) : failure.exit = 2 := by
  cases failure with
  | unequal => exact absurd rfl other
  | _ => rfl

theorem text_eq_empty {failure : Failure} (other : failure ≠ .unequal) : failure.text = "" := by
  cases failure with
  | unequal => exact absurd rfl other
  | _ => rfl

theorem code?_ne {failure : Failure} (other : failure ≠ .unequal) :
    failure.code? ≠ some "E006" := by
  cases failure with
  | unequal => exact absurd rfl other
  | _ => simp [code?]

end Failure

section Codes

variable {readers : Readers} {surroundings : Surroundings} {settings : Settings} {failure : Failure}

theorem code?_of_loadSettings {file : Text}
    (fails : loadSettings readers surroundings file = .error failure) : failure.code? = none := by
  rcases eq_error_of_bind fails with unopened | ⟨content, _, unread⟩
  · obtain ⟨_, _, rfl⟩ := exists_error_of_mapError unopened
    rfl
  rcases eq_error_of_bind unread with undecoded | ⟨settings, _, unchecked⟩
  · obtain ⟨_, _, rfl⟩ := exists_error_of_mapError undecoded
    rfl
  rcases eq_error_of_bind unchecked with invalid | ⟨_, _, never⟩
  · obtain ⟨_, _, rfl⟩ := exists_error_of_mapError invalid
    rfl
  · cases never

theorem code?_of_foundSettings {config : Text}
    (fails : foundSettings readers surroundings config = .error failure) :
    failure.code? = none := by
  rw [foundSettings] at fails
  split at fails
  · exact code?_of_loadSettings fails
  · split at fails
    · exact code?_of_loadSettings fails
    · cases fails
    · cases fails
      rfl

theorem code?_of_loadPrelude {noPrelude : Bool} {file : Text}
    (fails : loadPrelude readers surroundings noPrelude file = .error failure) :
    failure.code? = some "E003" := by
  rw [loadPrelude] at fails
  split at fails
  · cases fails
  · split at fails
    · obtain ⟨_, _, rfl⟩ := exists_error_of_mapError fails
      rfl
    · rcases eq_error_of_bind fails with unopened | ⟨content, _, unread⟩
      · obtain ⟨_, _, rfl⟩ := exists_error_of_mapError unopened
        rfl
      rcases eq_error_of_bind unread with refused | ⟨texts, _, unmade⟩
      · obtain ⟨_, _, rfl⟩ := exists_error_of_mapError refused
        rfl
      · obtain ⟨_, _, rfl⟩ := exists_error_of_mapError unmade
        rfl

theorem Action.Fails.exists_code {p : Prelude} {action : Action}
    (fails : action.Fails surroundings settings p failure) :
    failure ≠ .unequal ∧ ∃ code, failure.code? = some code := by
  cases fails with
  | strategy _ => exact ⟨nofun, _, rfl⟩
  | input _ => exact ⟨nofun, _, rfl⟩
  | term _ _ unshowable =>
      cases unshowable with
      | unreadable _ => exact ⟨nofun, _, rfl⟩
      | unprintable _ _ _ => exact ⟨nofun, _, rfl⟩
  | comparison _ _ _ => exact ⟨nofun, _, rfl⟩

variable {request : Request}

/-- A failed step is no negative answer. -/
theorem Request.Fails.ne_unequal (fails : request.Fails readers surroundings failure) :
    failure ≠ .unequal := by
  cases fails with
  | settings absent =>
      rintro rfl
      exact nomatch code?_of_foundSettings absent
  | format _ _ => nofun
  | prelude _ unloaded =>
      rintro rfl
      exact absurd (code?_of_loadPrelude unloaded) (by simp [Failure.code?])
  | action _ _ fails => exact fails.exists_code.1

/-- A step that fails when the format is settled has a code. -/
theorem Request.Fails.exists_code {format : Format}
    (fails : request.Fails readers surroundings failure)
    (settled : settle readers surroundings request.preferences = .ok (settings, format)) :
    ∃ code, failure.code? = some code := by
  rcases (fails_iff_of_settle settled).1 fails with unloaded | ⟨p, _, fails⟩
  · exact ⟨_, code?_of_loadPrelude unloaded⟩
  · exact fails.exists_code.2

end Codes

/-! ## Envelopes -/

/-- What stands in an envelope: an answer, or the code and the message of a failure. -/
inductive Envelope where
  | answer (data : Json.Value)
  | error (code message : String)

/-- An envelope as a value. -/
def Envelope.value (run : String) : Envelope → Json.Value
  | answer data =>
    .object [("status", .string "ok"), ("data", data), ("trace_id", .string run)]
  | error code message =>
    .object [("status", .string "error"),
      ("error", .object [("code", .string code), ("message", .string message)]),
      ("trace_id", .string run)]

/-- The outcome of one reduction as a value. -/
def Reduced.value (reduced : Reduced) : Json.Value :=
  .object ([("input", .string reduced.input.shown), ("strategy", .string reduced.strategy.name),
    ("steps", .number reduced.steps), ("result", .string reduced.result)] ++
    match reduced.trace with
    | some terms => [("trace", .array (terms.map .string))]
    | none => [])

/-- A term of the demonstration as a value. -/
def Shown.value (shown : Shown) : Json.Value :=
  let sorted := shown.reducts.mergeSort fun a b => a.1.name ≤ b.1.name
  .object [("input", .string shown.input), ("unique", .string shown.tagged),
    ("bare", .string shown.named),
    ("reducts", .object (sorted.map fun (s, reduct) => (s.name, .string reduct)))]

/-- An answer as a value. -/
def Report.value : Report → Json.Value
  | reduced results => .array (results.map Reduced.value)
  | equality left right holds =>
    .object [("left", .string left.shown), ("right", .string right.shown), ("equal", .bool holds)]
  | names found => .array (found.map .string)
  | indexed tagged named => .object [("unique", .string tagged), ("bare", .string named)]
  | drawing lines => .string lines
  | demonstration terms => .array (terms.map Shown.value)

theorem Reduced.print_value (reduced : Reduced) : reduced.value.print = reduced.json := by
  rw [Reduced.value, Reduced.json, Json.Value.print]
  cases reduced.trace with
  | none => simp [Json.Value.print, Json.text]
  | some terms =>
      have traced := Json.Value.print_array_map Json.Value.print_string terms
      simp [Json.Value.print_string, Json.Value.print_number, Json.text, traced]

theorem Shown.print_value (shown : Shown) : shown.value.print = shown.json := by
  rw [Shown.value, Shown.json, Json.Value.print]
  simp [Json.Value.print, Function.comp_def]

theorem Report.print_value (report : Report) : report.value.print = report.json := by
  cases report with
  | reduced results => exact Json.Value.print_array_map Reduced.print_value results
  | equality left right holds => simp [value, json, Json.Value.print, Json.text]
  | names found => exact Json.Value.print_array_map Json.Value.print_string found
  | indexed tagged named => simp [value, json, Json.Value.print]
  | drawing lines => exact Json.Value.print_string lines
  | demonstration terms => exact Json.Value.print_array_map Shown.print_value terms

theorem Report.output_json (report : Report) (run : String) :
    report.output run .json = Json.lines [Envelope.value run (.answer report.value)] := by
  simp [Report.output, envelope, Json.lines, Envelope.value, Json.Value.print, report.print_value,
    String.join]

theorem Failure.output_json {failure : Failure} {code : String}
    (coded : failure.code? = some code) (run : String) :
    failure.output run .json =
      Json.lines [Envelope.value run (.error code failure.message.shown)] := by
  simp [Failure.output, coded, envelope, Json.lines, Envelope.value, Json.Value.print, Json.text,
    String.join]

/-! ## Outcomes -/

namespace Request.Comes

variable {readers : Readers} {surroundings : Surroundings} {name : String} {request : Request}
  {outcome : Outcome}

/-- What the exit status says. -/
theorem exit_cases (comes : Comes readers surroundings name request outcome) :
    (outcome.exit = 0 ∧ (∀ failure, ¬ request.Fails readers surroundings failure) ∧
        ¬ request.Denies readers surroundings) ∨
      (outcome.exit = 1 ∧ (∀ failure, ¬ request.Fails readers surroundings failure) ∧
        request.Denies readers surroundings) ∨
      (outcome.exit = 2 ∧ (∃ failure, request.Fails readers surroundings failure) ∧
        ¬ request.Denies readers surroundings) := by
  have failed : ∀ {failure}, request.Fails readers surroundings failure →
      failure.exit = 2 ∧ (∃ failure, request.Fails readers surroundings failure) ∧
        ¬ request.Denies readers surroundings := fun {failure} fails =>
    ⟨failure.exit_eq_two fails.ne_unequal, ⟨failure, fails⟩,
      fun denies => denies.not_fails failure fails⟩
  cases comes with
  | early unsettled => exact .inr (.inr (failed (fails_of_settle unsettled)))
  | answered log report settled sound undenied => exact .inl ⟨rfl, sound, undenied⟩
  | failed log settled fails => exact .inr (.inr (failed fails))
  | denied log settled denies => exact .inr (.inl ⟨rfl, denies.not_fails, denies⟩)

/-- What each exit status says about the request. -/
theorem exit_iff (comes : Comes readers surroundings name request outcome) :
    (outcome.exit = 1 ↔ request.Denies readers surroundings) ∧
      (outcome.exit = 2 ↔ ∃ failure, request.Fails readers surroundings failure) ∧
      (outcome.exit = 0 ↔ ¬ request.Denies readers surroundings ∧
        ∀ failure, ¬ request.Fails readers surroundings failure) := by
  rcases comes.exit_cases with ⟨exit, sound, other⟩ | ⟨exit, sound, denies⟩ | ⟨exit, fails, other⟩
  · exact ⟨iff_of_false (by omega) other,
      iff_of_false (by omega) fun ⟨failure, fails⟩ => sound failure fails,
      iff_of_true exit ⟨other, sound⟩⟩
  · exact ⟨iff_of_true exit denies,
      iff_of_false (by omega) fun ⟨failure, fails⟩ => sound failure fails,
      iff_of_false (by omega) fun ⟨other, _⟩ => other denies⟩
  · obtain ⟨failure, fails⟩ := fails
    exact ⟨iff_of_false (by omega) other, iff_of_true exit ⟨failure, fails⟩,
      iff_of_false (by omega) fun ⟨_, sound⟩ => sound failure fails⟩

/-- What is written unless the output is in JSON. -/
theorem output_text (comes : Comes readers surroundings name request outcome)
    (noJson : ∀ settings, settle readers surroundings request.preferences ≠ .ok (settings, .json)) :
    (outcome.exit = 2 → outcome.output = "") ∧ (outcome.exit = 1 → outcome.output = "false\n") := by
  have isText : ∀ {settings format},
      settle readers surroundings request.preferences = .ok (settings, format) →
        format = .text := by
    intro settings format settled
    cases format with
    | text => rfl
    | json => exact absurd settled (noJson settings)
  cases comes with
  | early unsettled =>
      have two := Failure.exit_eq_two (fails_of_settle unsettled).ne_unequal
      exact ⟨fun _ => rfl, fun one => absurd (two.symm.trans one) (by decide)⟩
  | answered log report settled _ _ => exact ⟨nofun, nofun⟩
  | failed log settled fails =>
      cases isText settled
      have two := Failure.exit_eq_two fails.ne_unequal
      refine ⟨fun _ => Failure.text_eq_empty fails.ne_unequal, fun one => ?_⟩
      exact absurd (two.symm.trans one) (by decide)
  | denied log settled _ =>
      cases isText settled
      exact ⟨nofun, fun _ => rfl⟩

/-- What is written in JSON. -/
theorem output_json {settings : Settings} (comes : Comes readers surroundings name request outcome)
    (json : settle readers surroundings request.preferences = .ok (settings, .json)) :
    ∃ envelope : Envelope, outcome.output = Json.lines [envelope.value name] ∧
      (outcome.exit = 0 ↔ ∃ data, envelope = .answer data) ∧
      (outcome.exit = 1 ↔ ∃ message, envelope = .error "E006" message) := by
  cases comes with
  | early unsettled =>
      rw [json] at unsettled
      cases unsettled
  | answered log report settled _ _ =>
      rw [json] at settled
      cases settled
      refine ⟨.answer report.value, report.output_json name, ?_, ?_⟩
      · exact ⟨fun _ => ⟨_, rfl⟩, fun _ => rfl⟩
      · exact ⟨nofun, nofun⟩
  | @failed _ _ log failure settled fails =>
      rw [json] at settled
      cases settled
      obtain ⟨code, coded⟩ := fails.exists_code json
      have two := Failure.exit_eq_two fails.ne_unequal
      refine ⟨.error code failure.message.shown, Failure.output_json coded name, ?_, ?_⟩
      · exact ⟨fun zero => absurd (two.symm.trans zero) (by decide), nofun⟩
      · refine ⟨fun one => absurd (two.symm.trans one) (by decide), ?_⟩
        rintro ⟨message, same⟩
        cases same
        exact absurd coded (Failure.code?_ne fails.ne_unequal)
  | denied log settled _ =>
      rw [json] at settled
      cases settled
      have coded : Failure.code? .unequal = some "E006" := rfl
      refine ⟨.error "E006" _, Failure.output_json coded name, ?_, ?_⟩
      · exact ⟨nofun, nofun⟩
      · exact ⟨fun _ => ⟨_, rfl⟩, fun _ => rfl⟩

end Request.Comes

theorem Outcome.written_of_taken {outcome : Outcome} {surroundings : Surroundings}
    (taken : surroundings.refusal? outcome.output = none) :
    outcome.written surroundings = outcome := by
  rw [Outcome.written, taken]
  exact ite_self outcome

/-- **Exit status and output agree for every command**, whatever the readers make of arguments and
documents, and whatever files and input there are. Take a command line that is understood as a
request, and let the standard output take what is written to it. (A write that is refused is an
error of its own, with exit status one.) The exit status is one if the request is a check for
equality with a negative answer, two if some step of it fails, and zero otherwise. Unless the output
is in JSON, a command that fails writes nothing, whichever step it is that fails, and a check with a
negative answer writes just that. In JSON the output can be read in one way only, which is one
envelope; it holds an answer if the exit status is zero, and the error code of unequal terms if it
is one. -/
theorem exitStatus_agrees_with_output (readers : Readers) (surroundings : Surroundings)
    (name : String) {arguments : List Text} {request : Request}
    (understood : readers.invocation arguments = .ok (.request request))
    (taken : surroundings.refusal? (request.outcome readers surroundings name).output = none) :
    ((execute readers surroundings name arguments).exit = 1 ↔
      request.Denies readers surroundings) ∧
    ((execute readers surroundings name arguments).exit = 2 ↔
      ∃ failure, request.Fails readers surroundings failure) ∧
    ((execute readers surroundings name arguments).exit = 0 ↔
      ¬ request.Denies readers surroundings ∧
        ∀ failure, ¬ request.Fails readers surroundings failure) ∧
    ((∀ settings, settle readers surroundings request.preferences ≠ .ok (settings, .json)) →
      ((execute readers surroundings name arguments).exit = 2 →
        (execute readers surroundings name arguments).output = "") ∧
      ((execute readers surroundings name arguments).exit = 1 →
        (execute readers surroundings name arguments).output = "false\n")) ∧
    ∀ settings, settle readers surroundings request.preferences = .ok (settings, .json) →
      ∃ envelope : Envelope,
        (∀ values, (execute readers surroundings name arguments).output = Json.lines values ↔
          values = [envelope.value name]) ∧
        ((execute readers surroundings name arguments).exit = 0 ↔
          ∃ data, envelope = .answer data) ∧
        ((execute readers surroundings name arguments).exit = 1 ↔
          ∃ message, envelope = .error "E006" message) := by
  have comes : Request.Comes readers surroundings name request
      (execute readers surroundings name arguments) := by
    rw [execute, understood]
    simp only [Request.run, Outcome.written_of_taken taken]
    exact Request.outcome_comes name
  obtain ⟨one, two, zero⟩ := comes.exit_iff
  refine ⟨one, two, zero, comes.output_text, fun settings json => ?_⟩
  obtain ⟨envelope, output, answer, unequal⟩ := comes.output_json json
  refine ⟨envelope, fun values => ?_, answer, unequal⟩
  rw [output]
  exact ⟨fun same => (Json.lines_injective same).symm, fun same => by rw [same]⟩

theorem Provisions.refusal?_surroundings (provisions : Provisions) (text : String) :
    provisions.surroundings.refusal? text = none := rfl

theorem loadPrelude_of_file {readers : Readers} {surroundings : Surroundings} {file content : Text}
    {texts : List (Name × String)} {p : Prelude} (named : file.isEmpty = false)
    (opened : surroundings.content file = .ok content)
    (read : readers.definitions file content = .ok texts)
    (made : Prelude.ofTexts texts = .ok p) :
    loadPrelude readers surroundings false file = .ok p := by
  simp [loadPrelude, named, opened, read, made, Except.mapError, Except.bind, bind]

/-- Two terms to read, the parenthesis of the second being left open. There are files with settings
and definitions. -/
def lateFault : Provisions where
  files := [("settings", "format: json\n"), ("names", "definitions: I: \"λy.y\"")].map fun file =>
    (Text.ofString file.1, Text.ofString file.2)
  input := Text.ofString "x\n(y"

def reduceLine : List Text := ["reduce", "--no-prelude"].map Text.ofString

def reduceRequest : Request :=
  ⟨⟨none, none, [], none, true⟩, .reduce ⟨[], -1, false, false⟩ .standardInput⟩

def checkLine : List Text :=
  ["equal", "--check", "--config=settings", "--prelude=names", "I", "λz.x"].map Text.ofString

def checkRequest : Request :=
  ⟨⟨none, none, Text.ofString "settings", some (Text.ofString "names"), false⟩,
    .equal (-1) true (Text.ofString "I") (Text.ofString "λz.x")⟩

def checkSettings : Settings :=
  { Settings.standard with format := Text.ofString "json", prelude := Text.ofString "names" }

def checkPrelude : Prelude := ⟨[("I", .abs "y" (.var "y"))]⟩

theorem settle_checkRequest :
    settle .standard lateFault.surroundings checkRequest.preferences =
      .ok (checkSettings, .json) :=
  eq_ok_of_toOption (by decide +kernel)

theorem loadPrelude_names :
    loadPrelude .standard lateFault.surroundings false (Text.ofString "names") =
      .ok checkPrelude := by
  have opened : lateFault.surroundings.content (Text.ofString "names") =
    .ok (Text.ofString "definitions: I: \"λy.y\"") := rfl
  have texts : Readers.standard.definitions (Text.ofString "names")
      (Text.ofString "definitions: I: \"λy.y\"") = .ok [("I", "λy.y")] :=
    eq_ok_of_toOption (by decide +kernel)
  have bodies : Prelude.readAll [("I", "λy.y")] = .ok [("I", .abs "y" (.var "y"))] :=
    eq_ok_of_toOption (by decide +kernel)
  have made : Prelude.ofTexts [("I", "λy.y")] = .ok checkPrelude := by
    rw [Prelude.ofTexts, bodies]
    cbv
  exact loadPrelude_of_file rfl opened texts made

/-- Nothing is written for a first term if the second cannot be read. Terms that differ are an error
in the envelope, though nothing fails. -/
theorem exitStatus_agrees_with_output_lateFault :
    (Readers.standard.invocation reduceLine = .ok (.request reduceRequest) ∧
      (∃ error, reduceRequest.Fails .standard lateFault.surroundings
        (.unreadable (Text.ofString "(y") error)) ∧
      (execute .standard lateFault.surroundings "run" reduceLine).exit = 2 ∧
      (execute .standard lateFault.surroundings "run" reduceLine).output = "") ∧
    Readers.standard.invocation checkLine = .ok (.request checkRequest) ∧
    checkRequest.Denies .standard lateFault.surroundings ∧
    ∃ message, ∀ values,
      (execute .standard lateFault.surroundings "run" checkLine).output = Json.lines values ↔
        values = [Envelope.value "run" (.error "E006" message)] := by
  constructor
  · have understood : Readers.standard.invocation reduceLine = .ok (.request reduceRequest) := rfl
    have settled : settle .standard lateFault.surroundings reduceRequest.preferences =
      .ok (.standard, .text) := rfl
    have given : reduceRequest.action.sources lateFault.surroundings =
        .ok [Text.ofString "x", Text.ofString "(y"] := rfl
    have refused : (Term.parse (Text.ofString "(y")).toOption = none := by decide +kernel
    cases parsed : Term.parse (Text.ofString "(y") with
    | ok t =>
        rw [parsed] at refused
        cases refused
    | error error =>
        have fails : reduceRequest.Fails .standard lateFault.surroundings
            (.unreadable (Text.ofString "(y") error) :=
          .action settled rfl (.term given (by simp) (.unreadable parsed))
        obtain ⟨_, two, _, text, _⟩ :=
          exitStatus_agrees_with_output .standard lateFault.surroundings "run" understood
            (Provisions.refusal?_surroundings _ _)
        have exit := two.2 ⟨_, fails⟩
        have noJson : ∀ settings, settle .standard lateFault.surroundings
            reduceRequest.preferences ≠ .ok (settings, .json) := by
          intro settings json
          cases settled.symm.trans json
        exact ⟨understood, ⟨error, fails⟩, exit, (text noJson).1 exit⟩
  · have understood : Readers.standard.invocation checkLine = .ok (.request checkRequest) := rfl
    have left : Term.parse (Text.ofString "I") = .ok (.var "I") :=
      eq_ok_of_toOption (by decide +kernel)
    have right : Term.parse (Text.ofString "λz.x") = .ok (.abs "z" (.var "x")) :=
      eq_ok_of_toOption (by decide +kernel)
    have answered : equal 100 (checkPrelude.expand (.var "I")).tag
        (checkPrelude.expand (.abs "z" (.var "x"))).tag = .ok false := by cbv
    have denies : checkRequest.Denies .standard lateFault.surroundings :=
      ⟨_, _, checkPrelude, settle_checkRequest, loadPrelude_names, .check left right answered⟩
    obtain ⟨one, _, _, _, json⟩ :=
      exitStatus_agrees_with_output .standard lateFault.surroundings "run" understood
        (Provisions.refusal?_surroundings _ _)
    obtain ⟨envelope, output, _, error⟩ := json _ settle_checkRequest
    obtain ⟨message, rfl⟩ := error.1 (one.2 denies)
    exact ⟨understood, denies, message, output⟩

end Redex.Command
