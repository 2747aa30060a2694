import Redex.Proofs.Syntax.Exactness

/-!
# Errors are at the first token that cannot be right

A text that is cut into tokens and still refused is refused at one of its tokens, or at its end.
That this is the first one that cannot be right says two things: the tokens before it begin some
sequence of the grammar, and with it they begin none (`error_at_first_wrong_token`).

Both are shown with what may follow the tokens read so far (`Outlook`): what has to come next in the
innermost term that is not finished, and the parentheses and domains of products around it. Each
token either changes the outlook or cannot follow, and whatever the outlook, there are tokens that
finish the text (`stop_completion`). The reader is followed through its outlooks (`Tracks`): it
fails where the next token cannot follow, and nowhere else. So none of its errors comes too early,
since the tokens before it can be completed, or too late, since no more than they and the token at
fault have been looked at.

A position tells which token is meant, because no token of a text is empty (`nodup_places`).
-/

set_option autoImplicit false

namespace Redex

namespace Parser

/-! ## What may follow -/

/-- What has to come next in the innermost term that is not finished. -/
inductive Awaited where
  /-- A term. -/
  | term
  /-- One more operand, a binder, or the end of the term. -/
  | further
  /-- The first name of an abstraction. -/
  | firstName
  /-- One more name of an abstraction, or its dot. -/
  | names
  /-- The name of a product. -/
  | bound
  /-- The colon of a product. -/
  | colon
deriving DecidableEq, Repr

/-- What stands around a term that is not the last part of the one it stands in. -/
inductive Enclosure where
  | parentheses
  | domain
deriving DecidableEq, Repr

/-- What may follow the tokens read so far. -/
structure Outlook where
  awaited : Awaited
  around : List Enclosure
deriving DecidableEq, Repr

namespace Outlook

/-- Nothing has been read. -/
def start : Outlook := ⟨.term, []⟩

/-- Behind the first token of an operand or a binder. A binder is the last part of its term, so that
its own last part is ended by what ends the term. -/
def begun? (around : List Enclosure) : Token.Kind → Option Outlook
  | .lambda => some ⟨.firstName, around⟩
  | .pi => some ⟨.bound, around⟩
  | .name | .star | .box => some ⟨.further, around⟩
  | .opening => some ⟨.term, .parentheses :: around⟩
  | .dot | .colon | .closing => none

/-- Behind the token that ends the innermost term. -/
def ended? (kind : Token.Kind) : List Enclosure → Option Outlook
  | .parentheses :: around => if kind = .closing then some ⟨.further, around⟩ else none
  | .domain :: around => if kind = .dot then some ⟨.term, around⟩ else none
  | [] => none

/-- Behind one more token, if it may follow. -/
def step (s : Outlook) (kind : Token.Kind) : Option Outlook :=
  match s.awaited with
  | .term => begun? s.around kind
  | .further => (begun? s.around kind).or (ended? kind s.around)
  | .firstName => if kind = .name then some ⟨.names, s.around⟩ else none
  | .names =>
    if kind = .name then some ⟨.names, s.around⟩
    else if kind = .dot then some ⟨.term, s.around⟩ else none
  | .bound => if kind = .name then some ⟨.colon, s.around⟩ else none
  | .colon => if kind = .colon then some ⟨.term, .domain :: s.around⟩ else none

/-- Whether the text may end. -/
def mayEnd (s : Outlook) : Bool := s = ⟨.further, []⟩

/-- Behind several tokens, if they may follow. -/
def after (s : Outlook) : List Token.Kind → Option Outlook
  | [] => some s
  | kind :: kinds => (s.step kind).bind (·.after kinds)

/-- The tokens from the first one on that cannot follow; none of them are left if it is only the end
of the text that cannot, and `none` says that everything can. -/
def stop (s : Outlook) : List Token → Option (List Token)
  | [] => if s.mayEnd then none else some []
  | token :: rest =>
    match s.step token.kind with
    | some s' => s'.stop rest
    | none => some (token :: rest)

/-- A token, or the end of the text, cannot follow. -/
def Refuses (s : Outlook) : Option Token.Kind → Prop
  | some kind => s.step kind = none
  | none => s.mayEnd = false

variable {s s' : Outlook} {token : Token} {tokens used rest : List Token}

theorem stop_of_step (follows : s.step token.kind = some s') :
    s.stop (token :: rest) = s'.stop rest := by
  rw [stop, follows]

theorem stop_of_refuses (refuses : s.Refuses (rest.head?.map (·.kind))) :
    s.stop rest = some rest := by
  cases rest with
  | nil =>
      have unfinished : s.mayEnd = false := refuses
      simp [stop, unfinished]
  | cons token rest =>
      have stuck : s.step token.kind = none := refuses
      rw [stop, stuck]

/-- Tokens that may follow are passed by, and only their kinds matter. -/
theorem stop_append (follow : s.after (used.map (·.kind)) = some s') :
    s.stop (used ++ rest) = s'.stop rest := by
  induction used generalizing s with
  | nil =>
      cases follow
      rfl
  | cons token used ih =>
      obtain ⟨next, follows, behind⟩ := Option.bind_eq_some_iff.1 follow
      rw [List.cons_append, stop_of_step follows, ih behind]

/-- Tokens that cannot all follow are stopped at the first one that cannot. -/
theorem exists_refuses_of_stop (stopped : s.stop tokens = some rest) :
    ∃ used s', tokens = used ++ rest ∧ s.after (used.map (·.kind)) = some s' ∧
      s'.Refuses (rest.head?.map (·.kind)) := by
  induction tokens generalizing s with
  | nil =>
      rw [stop] at stopped
      split at stopped
      · cases stopped
      · next unfinished =>
          cases stopped
          exact ⟨[], s, rfl, rfl, Bool.eq_false_iff.2 unfinished⟩
  | cons token tokens ih =>
      rw [stop] at stopped
      split at stopped
      · next next follows =>
          obtain ⟨used, s', split, behind, refuses⟩ := ih stopped
          refine ⟨token :: used, s', by rw [split, List.cons_append], ?_, refuses⟩
          rw [List.map_cons, after, follows]
          exact behind
      · next stuck =>
          cases stopped
          exact ⟨[], s, rfl, rfl, stuck⟩

/-! ### Completions -/

-- The tokens that a text can be finished with, at some place.

def nameToken : Token := ⟨.name, "x", .start⟩
def dotToken : Token := ⟨.dot, ".", .start⟩
def colonToken : Token := ⟨.colon, ":", .start⟩
def closingToken : Token := ⟨.closing, ")", .start⟩

/-- Tokens that finish the innermost term. -/
def inward : Awaited → List Token
  | .term => [nameToken]
  | .further => []
  | .firstName => [nameToken, dotToken, nameToken]
  | .names => [dotToken, nameToken]
  | .bound => [nameToken, colonToken, nameToken, dotToken, nameToken]
  | .colon => [colonToken, nameToken, dotToken, nameToken]

/-- Tokens that finish what stands around a finished term. -/
def outward : List Enclosure → List Token
  | [] => []
  | .parentheses :: around => closingToken :: outward around
  | .domain :: around => dotToken :: nameToken :: outward around

/-- Tokens that finish the text. -/
def completion (s : Outlook) : List Token := inward s.awaited ++ outward s.around

theorem stop_outward (around : List Enclosure) :
    (⟨.further, around⟩ : Outlook).stop (outward around) = none := by
  induction around with
  | nil => rfl
  | cons enclosure around ih =>
      cases enclosure with
      | parentheses => exact ih
      | domain => exact ih

/-- **Whatever the outlook, the text can be finished.** -/
theorem stop_completion (s : Outlook) : s.stop s.completion = none := by
  obtain ⟨awaited, around⟩ := s
  have finished := stop_outward around
  cases awaited with
  | term | further | firstName | names | bound | colon => exact finished

end Outlook

/-! ## The reader and its outlooks -/

section Tracking

open Outlook

variable {α β : Type} {P : α × List Token → Prop} {Q : β × List Token → Prop}
variable {finish : Position} {tokens rest : List Token} {s s' s'' : Outlook}
variable {Left Left' : List Token → Prop}

/-- A reader goes from one outlook to another: behind the tokens it uses, those left over can
follow as far as they can in the new outlook. If it fails, then at the first token that cannot
follow. -/
def Tracks (finish : Position) (tokens : List Token) (s s' : Outlook) (Left : List Token → Prop) :
    Except SyntaxError (Subtype P) → Prop
  | .ok result => s.stop tokens = s'.stop result.1.2 ∧ Left result.1.2
  | .error error =>
      ∃ expected rest, error = mismatch finish expected rest.head? ∧ s.stop tokens = some rest

namespace Tracks

/-- Tokens that need not be looked at again. -/
theorem behind {result : Except SyntaxError (Subtype P)} (same : s.stop tokens = s'.stop rest)
    (tracks : Tracks finish rest s' s'' Left result) : Tracks finish tokens s s'' Left result := by
  cases result with
  | ok result => exact ⟨same.trans tracks.1, tracks.2⟩
  | error e =>
      obtain ⟨expected, rest', isMismatch, stopped⟩ := tracks
      exact ⟨expected, rest', isMismatch, same.trans stopped⟩

/-- Readers that run one after the other. -/
theorem bind {first : Except SyntaxError (Subtype P)}
    {next : Subtype P → Except SyntaxError (Subtype Q)}
    (ofFirst : Tracks finish tokens s s' Left first)
    (ofNext : ∀ (a : α) (rest : List Token) (bound : P (a, rest)), Left rest →
      Tracks finish rest s' s'' Left' (next ⟨(a, rest), bound⟩)) :
    Tracks finish tokens s s'' Left' (first >>= next) := by
  cases first with
  | error e => exact ofFirst
  | ok result =>
      obtain ⟨⟨a, rest⟩, bound⟩ := result
      exact behind ofFirst.1 (ofNext a rest bound ofFirst.2)

theorem error {expected : Expected} {found : Option Token} (first : found = rest.head?)
    (refuses : s.Refuses (rest.head?.map (·.kind))) :
    Tracks (P := P) finish rest s s' Left (.error (mismatch finish expected found)) :=
  ⟨expected, rest, by rw [first], stop_of_refuses refuses⟩

end Tracks

/-- A token is waited for where it is the only one that may follow, at least of those that can be
left over. -/
theorem tracks_expect {kind : Token.Kind} (expected : Expected) (s' : Outlook)
    (unfinished : s.mayEnd = false)
    (only : ∀ token ∈ tokens.head?,
      s.step token.kind = if token.kind = kind then some s' else none) :
    Tracks finish tokens s s' (fun _ => True) (expect finish kind expected tokens) := by
  cases tokens with
  | nil => exact .error rfl unfinished
  | cons token rest =>
      have follows := only token rfl
      rw [expect]
      split
      · next found =>
          rw [if_pos found] at follows
          exact ⟨stop_of_step follows, trivial⟩
      · next other =>
          rw [if_neg other] at follows
          exact .error rfl follows

/-! ### The parts of binders -/

theorem stop_names (around : List Enclosure) (tokens : List Token) :
    (⟨.names, around⟩ : Outlook).stop tokens =
      (⟨.names, around⟩ : Outlook).stop (tokens.dropWhile (·.kind = .name)) := by
  induction tokens with
  | nil => rfl
  | cons token rest ih =>
      by_cases isName : token.kind = .name
      · have follows : (⟨.names, around⟩ : Outlook).step token.kind = some ⟨.names, around⟩ :=
          if_pos isName
        rw [stop_of_step follows, ih, List.dropWhile_cons_of_pos (by simpa using isName)]
      · rw [List.dropWhile_cons_of_neg (by simpa using isName)]

theorem tracks_names (around : List Enclosure) (tokens : List Token) :
    Tracks finish tokens ⟨.firstName, around⟩ ⟨.term, around⟩ (fun _ => True)
      (names finish tokens) := by
  refine (tracks_expect .name ⟨.names, around⟩ rfl fun _ _ => rfl).bind ?_
  intro first rest _ _
  refine .behind (stop_names around rest)
    ((tracks_expect .dot ⟨.term, around⟩ rfl ?_).bind ?_)
  · intro token isHead
    have notName := List.head?_dropWhile_not (fun x : Token => decide (x.kind = .name)) rest
    rw [Option.mem_def.1 isHead] at notName
    exact if_neg (of_decide_eq_false notName)
  · exact fun _ _ _ _ => ⟨rfl, trivial⟩

theorem tracks_annotated (around : List Enclosure) (tokens : List Token) :
    Tracks finish tokens ⟨.bound, around⟩ ⟨.term, .domain :: around⟩ (fun _ => True)
      (annotated finish tokens) := by
  refine (tracks_expect .name ⟨.colon, around⟩ rfl fun _ _ => rfl).bind ?_
  intro x rest _ _
  refine (tracks_expect .colon ⟨.term, .domain :: around⟩ rfl fun _ _ => rfl).bind ?_
  exact fun _ _ _ _ => ⟨rfl, trivial⟩

/-! ### Terms -/

/-- What is awaited behind the operands read so far. -/
def awaitedBehind : Option (Term Name) → Awaited
  | none => .term
  | some _ => .further

theorem step_of_begun {before : Option (Term Name)} {around : List Enclosure} {kind : Token.Kind}
    (begun : begun? around kind = some s) :
    (⟨awaitedBehind before, around⟩ : Outlook).step kind = some s := by
  cases before with
  | none => exact begun
  | some fn =>
      have either : (begun? around kind).or (ended? kind around) = some s := by
        rw [begun, Option.some_or]
      exact either

/-- Where a term has to end, only the token that ends it can follow. -/
theorem step_of_stops {around : List Enclosure} (stops : Stops rest) :
    ∀ token ∈ rest.head?,
      (⟨.further, around⟩ : Outlook).step token.kind = ended? token.kind around := by
  intro token isHead
  have ends : begun? around token.kind = none := by
    rcases stops token isHead with kind | kind | kind <;> rw [kind] <;> rfl
  have either : (begun? around token.kind).or (ended? token.kind around) =
      ended? token.kind around := by
    rw [ends, Option.none_or]
  exact either

theorem tracks_operand {token : Token} {around : List Enclosure}
    (starts : startsOperand token.kind = true) (begun : begun? around token.kind = some s)
    (inside : ∀ around, Tracks finish rest ⟨.term, around⟩ ⟨.further, around⟩ Stops
      (term finish none rest)) :
    Tracks finish rest s ⟨.further, around⟩ (fun _ => True) (operand finish token rest) := by
  rw [operand.eq_def]
  cases kind : token.kind with
  | name | star | box =>
      rw [kind] at begun
      cases begun
      exact ⟨rfl, trivial⟩
  | opening =>
      rw [kind] at begun
      cases begun
      refine (inside (.parentheses :: around)).bind ?_
      intro inner rest' _ stops
      refine (tracks_expect .closing ⟨.further, around⟩ rfl (step_of_stops stops)).bind ?_
      exact fun _ _ _ _ => ⟨rfl, trivial⟩
  | lambda | pi | dot | colon | closing =>
      rw [kind] at starts
      cases starts

/-- **The reader goes on exactly as long as the next token can follow.** -/
theorem tracks_term (finish : Position) (tokens : List Token) :
    ∀ (before : Option (Term Name)) (around : List Enclosure),
      Tracks finish tokens ⟨awaitedBehind before, around⟩ ⟨.further, around⟩ Stops
        (term finish before tokens) := by
  -- what is read after the first token is shorter
  induction tokens using (measure (List.length : List Token → Nat)).wf.induction with
  | h tokens ih =>
      intro before around
      rw [term.eq_def]
      cases tokens with
      | nil =>
          cases before with
          | none => exact .error rfl rfl
          | some fn => exact ⟨rfl, stops_nil⟩
      | cons token rest =>
          have inside : ∀ rest' : List Token, rest'.length ≤ rest.length →
              ∀ (before : Option (Term Name)) (around : List Enclosure),
                Tracks finish rest' ⟨awaitedBehind before, around⟩ ⟨.further, around⟩ Stops
                  (term finish before rest') :=
            fun rest' le => ih rest' (Nat.lt_succ_of_le le)
          have begins : ∀ {s : Outlook}, begun? around token.kind = some s →
              (⟨awaitedBehind before, around⟩ : Outlook).stop (token :: rest) = s.stop rest :=
            fun begun => stop_of_step (step_of_begun begun)
          dsimp only
          cases kind : token.kind with
          | lambda =>
              refine .behind (begins (by rw [kind]; rfl)) ((tracks_names around rest).bind ?_)
              intro bound rest' le _
              refine (inside rest' le none around).bind ?_
              exact fun _ _ _ stops => ⟨rfl, stops⟩
          | pi =>
              -- the dot behind the domain is not left to the terms inside it
              refine .behind (begins (by rw [kind]; rfl)) ((tracks_annotated around rest).bind ?_)
              intro bound rest' le _
              refine (inside rest' le none (.domain :: around)).bind ?_
              intro dom rest'' le' stops
              refine (tracks_expect .dot ⟨.term, around⟩ rfl (step_of_stops stops)).bind ?_
              intro dot rest₃ le'' _
              refine (inside rest₃ (Nat.le_trans le'' (Nat.le_trans le' le)) none around).bind ?_
              exact fun _ _ _ stops => ⟨rfl, stops⟩
          | name | star | box | opening =>
              have begun := begins (by rw [kind]; rfl)
              refine .behind begun ((tracks_operand (by rw [kind]; rfl) (by rw [kind]; rfl)
                (inside rest (Nat.le_refl _) none)).bind ?_)
              intro arg rest' le _
              refine (inside rest' le (some (applied before arg)) around).bind ?_
              exact fun _ _ _ stops => ⟨rfl, stops⟩
          | dot | colon | closing =>
              cases before with
              | none =>
                  refine .error rfl ?_
                  change begun? around token.kind = none
                  rw [kind]
                  rfl
              | some fn =>
                  refine ⟨rfl, stops_cons ?_⟩
                  rw [kind]
                  decide

end Tracking

/-! ## Whole texts -/

/-- Tokens are refused at the first one that cannot follow, or at the end if only the end cannot;
and accepted if all can. -/
theorem whole_tracks (tokens : Tokens) :
    (∃ t, whole tokens = .ok t ∧ Outlook.start.stop tokens.tokens = none) ∨
      ∃ expected rest, whole tokens = .error (mismatch tokens.finish expected rest.head?) ∧
        Outlook.start.stop tokens.tokens = some rest := by
  have tracks : Tracks tokens.finish tokens.tokens Outlook.start ⟨.further, []⟩ Stops
      (term tokens.finish none tokens.tokens) := tracks_term tokens.finish tokens.tokens none []
  rw [whole]
  cases result : term tokens.finish none tokens.tokens with
  | error e =>
      rw [result] at tracks
      obtain ⟨expected, rest, rfl, stopped⟩ := tracks
      exact .inr ⟨expected, rest, rfl, stopped⟩
  | ok result' =>
      obtain ⟨⟨t, rest⟩, bound⟩ := result'
      rw [result] at tracks
      obtain ⟨same, stops⟩ := tracks
      cases rest with
      | nil => exact .inl ⟨t, rfl, same⟩
      | cons token rest =>
          refine .inr ⟨.finish, token :: rest, rfl, same.trans (Outlook.stop_of_refuses ?_)⟩
          exact step_of_stops stops token rfl

/-- Tokens form a whole term exactly if all of them can follow and the text may end. -/
theorem stop_start_eq_none_iff {tokens : List Token} :
    Outlook.start.stop tokens = none ↔ ∃ t, Derives .whole tokens t := by
  have accepts : ∀ t, whole ⟨tokens, .start⟩ = .ok t ↔ Derives .whole tokens t :=
    fun t => whole_eq_ok_iff
  rcases whole_tracks ⟨tokens, .start⟩ with ⟨t, reads, passes⟩ | ⟨expected, rest, fails, stopped⟩
  · exact ⟨fun _ => ⟨t, (accepts t).1 reads⟩, fun _ => passes⟩
  · constructor
    · intro passes
      rw [passes] at stopped
      cases stopped
    · rintro ⟨t, derives⟩
      rw [(accepts t).2 derives] at fails
      cases fails

end Parser

/-! ## Places of tokens -/

/-- The places of the tokens of a text, and of its end. -/
def Tokens.places (tokens : Tokens) : List Position := tokens.tokens.map (·.pos) ++ [tokens.finish]

theorem Position.offset_after (pos : Position) (c : Char) :
    (pos.after c).offset = pos.offset + c.utf8Size := by
  unfold after
  split <;> rfl

theorem Position.offset_le_afterAll (pos : Position) (chars : List Char) :
    pos.offset ≤ (pos.afterAll chars).offset := by
  induction chars generalizing pos with
  | nil => exact Nat.le_refl _
  | cons c chars ih =>
      calc pos.offset ≤ (pos.after c).offset := by rw [offset_after]; exact Nat.le_add_right _ _
        _ ≤ ((pos.after c).afterAll chars).offset := ih _

theorem Position.offset_lt_afterAll_cons (pos : Position) (c : Char) (chars : List Char) :
    pos.offset < (pos.afterAll (c :: chars)).offset :=
  calc pos.offset < (pos.after c).offset := by
        rw [offset_after]
        exact Nat.lt_add_of_pos_right c.utf8Size_pos
    _ ≤ ((pos.after c).afterAll chars).offset := offset_le_afterAll _ _

/-- Tokens that follow each other behind a place. -/
structure Tokens.Ordered (pos : Position) (tokens : Tokens) : Prop where
  behind : ∀ place ∈ tokens.places, pos.offset ≤ place.offset
  increasing : tokens.places.Pairwise (·.offset < ·.offset)

namespace Tokens.Ordered

variable {pos pos' : Position} {token : Token} {tokens : Tokens}

theorem weaken (ordered : Ordered pos' tokens) (le : pos.offset ≤ pos'.offset) :
    Ordered pos tokens :=
  ⟨fun place inside => Nat.le_trans le (ordered.behind place inside), ordered.increasing⟩

theorem push (ordered : Ordered pos' tokens) (lt : token.pos.offset < pos'.offset) :
    Ordered token.pos (tokens.push token) where
  behind := List.forall_mem_cons.2
    ⟨Nat.le_refl _, (ordered.weaken (Nat.le_of_lt lt)).behind⟩
  increasing := List.pairwise_cons.2
    ⟨fun place inside => Nat.lt_of_lt_of_le lt (ordered.behind place inside), ordered.increasing⟩

end Tokens.Ordered

/-- No token is empty, so each stands behind the one before it. -/
theorem ordered_of_scanFrom {pos : Position} {text : Text} :
    ∀ {tokens : Tokens}, scanFrom pos text = .ok tokens → tokens.Ordered pos := by
  fun_induction scanFrom pos text with
  | case1 pos =>
      intro tokens scanned
      cases scanned
      exact ⟨List.forall_mem_singleton.2 (Nat.le_refl _), List.pairwise_singleton _ _⟩
  | case2 =>
      intro tokens scanned
      cases scanned
  | case3 pos c rest blank ih =>
      intro tokens scanned
      exact (ih scanned).weaken (pos.offset_le_afterAll [c])
  | case4 pos c rest notBlank starts name token =>
      rename_i ih
      intro tokens scanned
      obtain ⟨behind, scanned', rfl⟩ := exists_ok_of_map scanned
      have longer : token.pos.offset < (pos.afterAll name).offset :=
        pos.offset_lt_afterAll_cons c _
      exact (ih scanned').push longer
  | case5 pos c rest notBlank notName kind sign token =>
      rename_i ih
      intro tokens scanned
      obtain ⟨behind, scanned', rfl⟩ := exists_ok_of_map scanned
      have longer : token.pos.offset < (pos.after c).offset := pos.offset_lt_afterAll_cons c []
      exact (ih scanned').push longer
  | case6 =>
      intro tokens scanned
      cases scanned

/-- The tokens of a text and its end are at different places. -/
theorem nodup_places {text : Text} {tokens : Tokens} (scanned : scan text = .ok tokens) :
    tokens.places.Nodup := by
  refine (ordered_of_scanFrom scanned).increasing.imp ?_
  intro place place' lt same
  exact Nat.lt_irrefl _ (same ▸ lt)

/-! ## The first token that cannot be right -/

/-- Tokens with the end of the text behind them. -/
def ended (tokens : List Token) : List (Option Token) := tokens.map some ++ [none]

/-- Tokens of the grammar with the end of the text behind them. -/
def Accepted (word : List (Option Token)) : Prop :=
  ∃ tokens t, Derives .whole tokens t ∧ word = ended tokens

/-- The kinds of tokens, where the end is a kind of its own. -/
def kinds (word : List (Option Token)) : List (Option Token.Kind) :=
  word.map (Option.map (·.kind))

section Words

variable {used rest tokens : List Token}

theorem take_ended (used rest : List Token) :
    (ended (used ++ rest)).take used.length = used.map some := by
  simp [ended]

theorem take_succ_ended (used rest : List Token) :
    (ended (used ++ rest)).take (used.length + 1) = used.map some ++ [rest.head?] := by
  have all : (used.map some).take (used.length + 1) = used.map some :=
    List.take_of_length_le (by simp)
  cases rest <;> simp [ended, List.take_append, all]

/-- Tokens that begin by kinds with certain others and what follows these. -/
theorem exists_append_of_kinds_prefix {found : Option Token}
    (begins : kinds (used.map some ++ [found]) <+: kinds (ended tokens)) :
    ∃ used' rest', tokens = used' ++ rest' ∧ used'.map (·.kind) = used.map (·.kind) ∧
      rest'.head?.map (·.kind) = found.map (·.kind) := by
  induction used generalizing tokens with
  | nil =>
      refine ⟨[], tokens, rfl, rfl, ?_⟩
      cases tokens with
      | nil => simpa [kinds, ended, eq_comm] using begins
      | cons token tokens => simpa [kinds, ended, eq_comm] using begins
  | cons token used ih =>
      cases tokens with
      | nil => simp [kinds, ended] at begins
      | cons token' tokens =>
          obtain ⟨sameKind, begins⟩ := List.cons_prefix_cons.1 begins
          obtain ⟨used', rest', rfl, sameKinds, follows⟩ := ih begins
          have sameKind : token.kind = token'.kind := Option.some.inj sameKind
          exact ⟨token' :: used', rest', rfl, by simp [sameKind, sameKinds], follows⟩

end Words

theorem place_of_append {tokens : Tokens} {used rest : List Token} (expected : Expected)
    (split : tokens.tokens = used ++ rest) :
    tokens.places[used.length]? = some (Parser.mismatch tokens.finish expected rest.head?).pos := by
  rw [Tokens.places, split]
  cases rest with
  | nil => simp [Parser.mismatch]
  | cons token rest => simp [Parser.mismatch]

/-- **A syntax error is at the first token that cannot be right.** If a text is cut into tokens and
then refused, the place of the error is that of exactly one of the tokens, the end of the text
counted among them. The tokens before it begin some sequence of the grammar. With it they begin
none, not even one of other tokens of the same kinds. -/
theorem error_at_first_wrong_token (text : Text) (tokens : Tokens) (error : SyntaxError)
    (scanned : scan text = .ok tokens) (refused : Term.parse text = .error error) :
    ∃ k, (∀ j, tokens.places[j]? = some error.pos ↔ j = k) ∧
      (∃ word, Accepted word ∧ (ended tokens.tokens).take k <+: word) ∧
      ∀ word, Accepted word → ¬ kinds ((ended tokens.tokens).take (k + 1)) <+: kinds word := by
  have reads : Term.parse text = Parser.whole tokens := by
    rw [Term.parse, scanned]
    rfl
  rw [reads] at refused
  rcases Parser.whole_tracks tokens with ⟨t, accepted, _⟩ | ⟨expected, rest, fails, stopped⟩
  · rw [accepted] at refused
    cases refused
  rw [fails] at refused
  cases refused
  obtain ⟨used, s, split, follow, refuses⟩ := Parser.Outlook.exists_refuses_of_stop stopped
  have place := place_of_append expected split
  refine ⟨used.length, fun j => ⟨fun same => ?_, fun same => same ▸ place⟩, ?_, ?_⟩
  · have inside : used.length < tokens.places.length := (List.getElem?_eq_some_iff.1 place).1
    exact ((List.getElem?_inj inside (nodup_places scanned)).1 (place.trans same.symm)).symm
  · -- the tokens before the one at fault are completed as their outlook demands
    obtain ⟨t, derives⟩ := Parser.stop_start_eq_none_iff.1
      ((Parser.Outlook.stop_append follow).trans s.stop_completion)
    refine ⟨_, ⟨_, t, derives, rfl⟩, ?_⟩
    rw [split, take_ended, ended, List.map_append, List.append_assoc]
    exact List.prefix_append _ _
  · -- a sequence that begins alike comes to the same outlook, and is stopped there as well
    rintro _ ⟨tokens', t, derives, rfl⟩ begins
    rw [split, take_succ_ended] at begins
    obtain ⟨used', rest', rfl, sameKinds, sameNext⟩ := exists_append_of_kinds_prefix begins
    have stopped' := calc
      Parser.Outlook.start.stop (used' ++ rest') = s.stop rest' :=
        Parser.Outlook.stop_append (sameKinds ▸ follow)
      _ = some rest' := Parser.Outlook.stop_of_refuses (sameNext ▸ refuses)
    rw [Parser.stop_start_eq_none_iff.2 ⟨t, derives⟩] at stopped'
    cases stopped'

/-- `λx y.(πA:λz.z) x`: the parenthesis comes where the domain of the product still has to end, and
the domain may go on with a further operand as well as with its dot. -/
def unendedDomain : Text := .ofString "λx y.(πA:λz.z) x"

theorem error_at_first_wrong_token_unendedDomain :
    ∃ tokens error, scan unendedDomain = .ok tokens ∧ Term.parse unendedDomain = .error error ∧
      tokens.places[12]? = some error.pos ∧
      (∃ word, Accepted word ∧ (ended tokens.tokens).take 12 <+: word) ∧
      ∀ word, Accepted word → ¬ kinds ((ended tokens.tokens).take 13) <+: kinds word := by
  have refused : Term.parse unendedDomain =
      .error ⟨⟨16, 1, 14⟩, .mismatch .dot (some ⟨.closing, ")", ⟨16, 1, 14⟩⟩)⟩ := by
    decide +kernel
  have placed : (scan unendedDomain).toOption.map (·.places[12]?) = some (some ⟨16, 1, 14⟩) := by
    decide +kernel
  obtain ⟨tokens, cut, place⟩ := Option.map_eq_some_iff.1 placed
  have scanned := eq_ok_of_toOption cut
  obtain ⟨k, places, begins, beginsNone⟩ :=
    error_at_first_wrong_token unendedDomain tokens _ scanned refused
  obtain rfl : 12 = k := (places 12).1 place
  exact ⟨tokens, _, scanned, refused, place, begins, beginsNone⟩

end Redex
