import Redex.Proofs.Command.Work

/-!
# Steps of commands

A command chooses a strategy, finds texts, reads them as terms, and shows or compares terms. Which
of these steps it has is told by its action: the texts that it reads (`Action.sources`) and the
terms that it has to find names for (`Action.shown`). Each step may fail, with a failure of its own
(`Action.Fails`).

The work that is done for an action is another matter: steps are taken one after the other, for one
term after the other, and end with the first that fails. Yet it fails if and only if some step does,
wherever that is, or if it is a check for equality with a negative answer (`accounts_perform`).
-/

set_option autoImplicit false

namespace Redex.Command

/-! ## Showing a term -/

/-- A text is no term, or some of the terms that are shown for it have no names. -/
inductive Unshowable (p : Prelude) (shown : Term Tagged → List (Term Tagged)) (text : Text) :
    Failure → Prop
  | unreadable {error : SyntaxError} :
      Term.parse text = .error error → Unshowable p shown text (.unreadable text error)
  | unprintable {t : Term Name} {u : Term Tagged} {cause : NamesExhausted} :
      Term.parse text = .ok t → u ∈ shown (p.expand t).tag → u.untag = .error cause →
      Unshowable p shown text (.unprintable text (.exhausted cause))

/-- The terms that are shown for a term to be reduced. -/
def ReduceOptions.shown (options : ReduceOptions) (s : Strategy) (limit : Nat) (t : Term Tagged) :
    List (Term Tagged) :=
  if options.trace then Redex.trace s limit t else [(run s limit t).term]

/-- The terms that are shown for a term of the demonstration. -/
def shownByAll (limit : Nat) (t : Term Tagged) : List (Term Tagged) :=
  t :: Strategy.all.map fun s => (run s limit t).term

section Showing

variable {p : Prelude} {shown : Term Tagged → List (Term Tagged)} {text : Text} {t : Term Name}
  {fails : Failure → Prop}

theorem not_unshowable (parsed : Term.parse text = .ok t)
    (printed : ∀ u ∈ shown (p.expand t).tag, ∃ v, u.untag = .ok v) (failure : Failure) :
    ¬ Unshowable p shown text failure := by
  rintro (refused | ⟨parsed', member, exhausted⟩)
  · rw [parsed] at refused
    cases refused
  · rw [parsed] at parsed'
    cases parsed'
    obtain ⟨v, untagged⟩ := printed _ member
    rw [untagged] at exhausted
    cases exhausted

theorem gives_readTerm
    (unreadable : ∀ error, Term.parse text = .error error → fails (.unreadable text error)) :
    Gives (attempt (readTerm text)) (fun t => Term.parse text = .ok t) fails :=
  gives_mapError (fun _ parsed => parsed) unreadable

theorem gives_readTagged
    (unreadable : ∀ error, Term.parse text = .error error → fails (.unreadable text error)) :
    Gives (attempt (readTagged p text))
      (fun u => ∃ t, Term.parse text = .ok t ∧ u = (p.expand t).tag) fails :=
  (gives_readTerm unreadable).attempt_bind fun t parsed => gives_pure ⟨t, parsed, rfl⟩

theorem gives_named {u : Term Tagged} (unprintable : ∀ cause, u.untag = .error cause →
      fails (.unprintable text (.exhausted cause))) :
    Gives (attempt (named text u)) (fun _ => ∃ v, u.untag = .ok v) fails :=
  gives_mapError (fun v untagged => ⟨v, untagged⟩) unprintable

theorem gives_display {u : Term Tagged} (nameless : Bool) (unprintable : ∀ cause,
      u.untag = .error cause → fails (.unprintable text (.exhausted cause))) :
    Gives (attempt (display text nameless u)) (fun _ => ∃ v, u.untag = .ok v) fails :=
  (gives_named unprintable).attempt_bind fun _ untagged => gives_pure untagged

theorem gives_runTold (s : Strategy) (limit : Nat) (u : Term Tagged) :
    Gives (runTold s limit u) (fun reduct => reduct = run s limit u) fails :=
  (gives_tell _).bind fun _ _ => gives_pure rfl

theorem gives_reduceOne (options : ReduceOptions) (s : Strategy) (limit : Nat) :
    Gives (reduceOne p options s limit text)
      (fun _ => ∀ failure, ¬ Unshowable p (options.shown s limit) text failure)
      (Unshowable p (options.shown s limit) text) := by
  refine (gives_readTagged fun _ => .unreadable).bind ?_
  rintro _ ⟨t, parsed, rfl⟩
  have shows : ∀ u ∈ options.shown s limit (p.expand t).tag,
      Gives (attempt (display text options.nameless u)) (fun _ => ∃ v, u.untag = .ok v)
        (Unshowable p (options.shown s limit) text) :=
    fun u member => gives_display _ fun _ => .unprintable parsed member
  have sound : (∀ u ∈ options.shown s limit (p.expand t).tag, ∃ v, u.untag = .ok v) →
      ∀ failure, ¬ Unshowable p (options.shown s limit) text failure := not_unshowable parsed
  cases tracing : options.trace with
  | true =>
      have terms : options.shown s limit (p.expand t).tag = trace s limit (p.expand t).tag :=
        if_pos tracing
      rw [terms] at shows sound
      rw [if_pos rfl]
      exact (gives_tell _).bind fun _ _ => (gives_mapM shows).bind fun _ printed =>
        gives_pure (sound printed)
  | false =>
      have terms : options.shown s limit (p.expand t).tag = [(run s limit (p.expand t).tag).term] :=
        if_neg (by rw [tracing]; exact Bool.false_ne_true)
      rw [terms] at shows sound
      rw [if_neg Bool.false_ne_true]
      refine (gives_runTold s limit _).bind ?_
      rintro _ rfl
      exact (shows _ List.mem_cons_self).bind fun _ printed =>
        gives_pure (sound (List.forall_mem_singleton.2 printed))

theorem gives_demonstrate (limit : Nat) (source : String) :
    Gives (demonstrate p limit source)
      (fun _ => ∀ failure, ¬ Unshowable p (shownByAll limit) (Text.ofString source) failure)
      (Unshowable p (shownByAll limit) (Text.ofString source)) := by
  refine (gives_readTagged fun _ => .unreadable).bind ?_
  rintro _ ⟨t, parsed, rfl⟩
  have first : (p.expand t).tag ∈ shownByAll limit (p.expand t).tag := List.mem_cons_self
  refine (gives_named fun _ => .unprintable parsed first).bind fun _ itself => ?_
  have each : ∀ s ∈ Strategy.all, Gives
      (do
        let reduct ← runTold s limit (p.expand t).tag
        let shown ← attempt (display (Text.ofString source) false reduct.term)
        return (s, shown))
      (fun _ => ∃ v, (run s limit (p.expand t).tag).term.untag = .ok v)
      (Unshowable p (shownByAll limit) (Text.ofString source)) := by
    intro s member
    have shown : (run s limit (p.expand t).tag).term ∈ shownByAll limit (p.expand t).tag :=
      List.mem_cons_of_mem _ (List.mem_map_of_mem member)
    refine (gives_runTold s limit _).bind ?_
    rintro _ rfl
    exact (gives_display _ fun _ => .unprintable parsed shown).bind fun _ printed =>
      gives_pure printed
  refine (gives_mapM each).bind fun _ reducts => gives_pure (not_unshowable parsed ?_)
  exact List.forall_mem_cons.2 ⟨itself, List.forall_mem_map.2 reducts⟩

end Showing

/-! ## Steps that fail -/

/-- The name of the strategy to reduce by. -/
def ReduceOptions.strategyName (options : ReduceOptions) (settings : Settings) : Text :=
  if options.strategy.isEmpty then settings.strategy else options.strategy

namespace Action

/-- The texts that a command reads as terms. -/
def sources (surroundings : Surroundings) : Action → Except NoInput (List Text)
  | reduce _ source => inputs surroundings source
  | equal _ _ left right => .ok [left, right]
  | free text | index text | tree _ text => .ok [text]
  | demo _ => .ok (demonstrated.map Text.ofString)

/-- The terms that a command shows with names for a term that it has read. -/
def shown (settings : Settings) : Action → Term Tagged → List (Term Tagged)
  | reduce options _, t =>
    match Strategy.parse (options.strategyName settings) with
    | .ok s => options.shown s (chooseLimit settings options.limit) t
    | .error _ => []
  | index _, t => [t]
  | demo limit, t => shownByAll limit.toNat t
  | equal .., _ | free _, _ | tree .., _ => []

/-- A step of doing what a command is asked for fails. -/
inductive Fails (surroundings : Surroundings) (settings : Settings) (p : Prelude) :
    Action → Failure → Prop
  | strategy {options : ReduceOptions} {source : Source} {unknown : Strategy.Unknown} :
      Strategy.parse (options.strategyName settings) = .error unknown →
      Fails surroundings settings p (.reduce options source) (.strategy unknown)
  | input {action : Action} {cause : NoInput} :
      action.sources surroundings = .error cause →
      Fails surroundings settings p action (.input cause)
  | term {action : Action} {texts : List Text} {text : Text} {failure : Failure} :
      action.sources surroundings = .ok texts → text ∈ texts →
      Unshowable p (action.shown settings) text failure →
      Fails surroundings settings p action failure
  | comparison {limit : Int} {check : Bool} {left right : Text} {a b : Term Name}
      {cause : NoCanonicalForm} :
      Term.parse left = .ok a → Term.parse right = .ok b →
      Redex.equal (chooseLimit settings limit) (p.expand a).tag (p.expand b).tag = .error cause →
      Fails surroundings settings p (.equal limit check left right)
        (.unprintable (left ++ Text.ofString " = " ++ right) (.noCanonicalForm cause))

/-- A check for equality has come to a negative answer. -/
inductive Denies (settings : Settings) (p : Prelude) : Action → Prop
  | check {limit : Int} {left right : Text} {a b : Term Name} :
      Term.parse left = .ok a → Term.parse right = .ok b →
      Redex.equal (chooseLimit settings limit) (p.expand a).tag (p.expand b).tag = .ok false →
      Denies settings p (.equal limit true left right)

variable {surroundings : Surroundings} {settings : Settings} {p : Prelude} {action : Action}

/-- No step fails if all texts are read, all terms to be shown have names, and what only some
commands do succeeds. -/
theorem not_fails {texts : List Text} (given : action.sources surroundings = .ok texts)
    (shows : ∀ text ∈ texts, ∀ failure, ¬ Unshowable p (action.shown settings) text failure)
    (known : ∀ options source, action = .reduce options source →
      ∃ s, Strategy.parse (options.strategyName settings) = .ok s)
    (compared : ∀ limit check left right, action = .equal limit check left right →
      ∃ a b answer, Term.parse left = .ok a ∧ Term.parse right = .ok b ∧
        Redex.equal (chooseLimit settings limit) (p.expand a).tag (p.expand b).tag = .ok answer)
    (failure : Failure) : ¬ action.Fails surroundings settings p failure := by
  intro fails
  cases fails with
  | strategy refused =>
      obtain ⟨s, accepted⟩ := known _ _ rfl
      rw [accepted] at refused
      cases refused
  | input absent =>
      rw [given] at absent
      cases absent
  | term given' member unshowable =>
      rw [given] at given'
      cases given'
      exact shows _ member _ unshowable
  | comparison parsed parsed' fails =>
      obtain ⟨a, b, answer, left, right, answered⟩ := compared _ _ _ _ rfl
      rw [parsed] at left
      rw [parsed'] at right
      cases left
      cases right
      rw [fails] at answered
      cases answered

/-- Nothing needs to be shown for terms that are only read. -/
theorem not_unshowable_of_parse {text : Text} {t : Term Name} (parsed : Term.parse text = .ok t)
    (nothing : action.shown settings (p.expand t).tag = []) (failure : Failure) :
    ¬ Unshowable p (action.shown settings) text failure := by
  refine not_unshowable parsed (fun u member => ?_) failure
  rw [nothing] at member
  exact absurd member List.not_mem_nil

/-- Nothing fails in a comparison that has come to an answer. -/
theorem not_fails_of_answer {limit : Int} {check answer : Bool} {left right : Text}
    {a b : Term Name} (parsed : Term.parse left = .ok a) (parsed' : Term.parse right = .ok b)
    (answered : Redex.equal (chooseLimit settings limit) (p.expand a).tag (p.expand b).tag =
      .ok answer) (failure : Failure) :
    ¬ Fails surroundings settings p (.equal limit check left right) failure := by
  refine Action.not_fails rfl ?_ ?_ ?_ failure
  · refine List.forall_mem_cons.2 ⟨not_unshowable_of_parse parsed rfl, ?_⟩
    exact List.forall_mem_singleton.2 (not_unshowable_of_parse parsed' rfl)
  · nofun
  · rintro _ _ _ _ ⟨⟩
    exact ⟨a, b, answer, parsed, parsed', answered⟩

theorem Denies.not_fails (denies : action.Denies settings p) :
    ∀ failure, ¬ action.Fails surroundings settings p failure := by
  obtain ⟨parsed, parsed', denied⟩ := denies
  exact not_fails_of_answer parsed parsed' denied

end Action

/-! ## Doing what is asked for -/

/-- The work fails with a step of the command that fails, or as a check that has come to a negative
answer, and only then. -/
def Accounts (surroundings : Surroundings) (settings : Settings) (p : Prelude) (action : Action)
    (work : Work Report) : Prop :=
  Gives work
    (fun _ => (∀ failure, ¬ action.Fails surroundings settings p failure) ∧
      ¬ action.Denies settings p)
    (fun failure => action.Fails surroundings settings p failure ∨
      failure = .unequal ∧ action.Denies settings p)

section Accounts

variable {surroundings : Surroundings} {settings : Settings} {p : Prelude}

theorem accounts_reduce (options : ReduceOptions) (source : Source) :
    Accounts surroundings settings p (.reduce options source)
      (perform surroundings settings p (.reduce options source)) := by
  have chosen : Gives (attempt (chooseStrategy settings options.strategy))
      (fun s => Strategy.parse (options.strategyName settings) = .ok s)
      (fun failure => Action.Fails surroundings settings p (.reduce options source) failure ∨
        failure = .unequal ∧ Action.Denies settings p (.reduce options source)) :=
    gives_mapError (fun _ known => known) fun _ refused => .inl (.strategy refused)
  refine chosen.bind fun s known => ?_
  refine (gives_mapError (fun texts given => given) fun _ absent =>
    .inl (.input absent)).bind fun texts given => ?_
  have shown : Action.shown settings (.reduce options source) =
      options.shown s (chooseLimit settings options.limit) := by
    funext t
    simp only [Action.shown, known]
  have each : ∀ text ∈ texts, Gives
      (reduceOne p options s (chooseLimit settings options.limit) text)
      (fun _ => ∀ failure, ¬ Unshowable p (Action.shown settings (.reduce options source)) text
        failure)
      (fun failure => Action.Fails surroundings settings p (.reduce options source) failure ∨
        failure = .unequal ∧ Action.Denies settings p (.reduce options source)) := by
    intro text member
    rw [shown]
    refine (gives_reduceOne options s _).weaken fun failure unshowable => .inl ?_
    exact .term given member (shown ▸ unshowable)
  refine (gives_mapM each).bind fun _ shows => gives_pure ⟨?_, nofun⟩
  refine Action.not_fails given shows ?_ nofun
  rintro _ _ ⟨⟩
  exact ⟨s, known⟩

theorem gives_compare {fails : Failure → Prop} {limit : Nat} {left right : Text}
    (unreadable : ∀ text ∈ [left, right], ∀ error, Term.parse text = .error error →
      fails (.unreadable text error))
    (incomparable : ∀ a b cause, Term.parse left = .ok a → Term.parse right = .ok b →
      equal limit (p.expand a).tag (p.expand b).tag = .error cause →
        fails (.unprintable (left ++ Text.ofString " = " ++ right) (.noCanonicalForm cause))) :
    Gives (compare p limit left right)
      (fun answer => ∃ a b, Term.parse left = .ok a ∧ Term.parse right = .ok b ∧
        equal limit (p.expand a).tag (p.expand b).tag = .ok answer) fails := by
  refine (gives_readTagged (unreadable left (by simp))).bind ?_
  rintro _ ⟨a, parsed, rfl⟩
  refine (gives_readTagged (unreadable right (by simp))).bind ?_
  rintro _ ⟨b, parsed', rfl⟩
  refine (gives_tell _).bind fun _ _ => gives_mapError ?_ fun cause => ?_
  · exact fun answer answered => ⟨a, b, parsed, parsed', answered⟩
  · exact incomparable a b cause parsed parsed'

theorem accounts_equal (limit : Int) (check : Bool) (left right : Text) :
    Accounts surroundings settings p (.equal limit check left right)
      (perform surroundings settings p (.equal limit check left right)) := by
  refine (gives_compare
    (fun text member error refused => .inl (.term rfl member (.unreadable refused)))
    (fun a b cause parsed parsed' fails => .inl (.comparison parsed parsed' fails))).bind ?_
  rintro answer ⟨a, b, parsed, parsed', answered⟩
  have sound : ∀ failure,
      ¬ Action.Fails surroundings settings p (.equal limit check left right) failure :=
    Action.not_fails_of_answer parsed parsed' answered
  cases check with
  | false => exact gives_pure ⟨sound, nofun⟩
  | true =>
      cases answer with
      | true =>
          refine gives_pure ⟨sound, ?_⟩
          rintro ⟨left, right, denied⟩
          rw [parsed] at left
          rw [parsed'] at right
          cases left
          cases right
          rw [answered] at denied
          cases denied
      | false =>
          refine (gives_throw (.inr ⟨rfl, ?_⟩)).bind fun _ (never : False) => never.elim
          exact .check parsed parsed' answered

/-- A command that only reads a term. -/
theorem accounts_readTerm {action : Action} {text : Text} {report : Term Name → Report}
    (one : action.sources surroundings = .ok [text])
    (nothing : ∀ t, action.shown settings t = [])
    (noStrategy : ∀ options source, action ≠ .reduce options source)
    (nothingCompared : ∀ limit check left right, action ≠ .equal limit check left right) :
    Accounts surroundings settings p action
      (do
        let t ← attempt (readTerm text)
        return report t) := by
  refine (gives_readTerm fun _ refused => .inl (.term one List.mem_cons_self
    (.unreadable refused))).bind fun t parsed => gives_pure ⟨?_, ?_⟩
  · refine Action.not_fails one (List.forall_mem_singleton.2 ?_) ?_ ?_
    · exact Action.not_unshowable_of_parse parsed (nothing _)
    · exact fun options source same => absurd same (noStrategy options source)
    · exact fun limit check left right same => absurd same (nothingCompared limit check left right)
  · rintro ⟨⟩
    exact nothingCompared _ _ _ _ rfl

theorem accounts_index (text : Text) :
    Accounts surroundings settings p (.index text)
      (perform surroundings settings p (.index text)) := by
  have member : text ∈ [text] := List.mem_cons_self
  refine (gives_readTagged fun _ refused => .inl (.term rfl member (.unreadable refused))).bind ?_
  rintro _ ⟨t, parsed, rfl⟩
  refine (gives_named fun _ exhausted => .inl (.term rfl member
    (.unprintable parsed List.mem_cons_self exhausted))).bind fun _ printed =>
      gives_pure ⟨?_, nofun⟩
  refine Action.not_fails rfl (List.forall_mem_singleton.2 ?_) nofun nofun
  exact not_unshowable parsed (List.forall_mem_singleton.2 printed)

theorem accounts_demo (limit : Int) :
    Accounts surroundings settings p (.demo limit)
      (perform surroundings settings p (.demo limit)) := by
  refine (gives_mapM fun source member => (gives_demonstrate limit.toNat source).weaken
    fun failure unshowable => .inl (.term rfl (List.mem_map_of_mem member) unshowable)).bind
      fun _ shows => gives_pure ⟨?_, nofun⟩
  exact Action.not_fails rfl (List.forall_mem_map.2 shows) nofun nofun

end Accounts

/-- **What a command is asked for fails if and only if one of its steps does**, or if it is a check
that has come to a negative answer. -/
theorem accounts_perform (surroundings : Surroundings) (settings : Settings) (p : Prelude)
    (action : Action) :
    Accounts surroundings settings p action (perform surroundings settings p action) := by
  cases action with
  | reduce options source => exact accounts_reduce options source
  | equal limit check left right => exact accounts_equal limit check left right
  | free text => exact accounts_readTerm rfl (fun _ => rfl) nofun nofun
  | index text => exact accounts_index text
  | tree expand text => exact accounts_readTerm rfl (fun _ => rfl) nofun nofun
  | demo limit => exact accounts_demo limit

end Redex.Command
