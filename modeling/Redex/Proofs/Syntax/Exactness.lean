import Mathlib.Data.List.TakeWhile
import Redex.Proofs.Basic
import Redex.Proofs.Syntax.Derivation

/-!
# The reader accepts exactly the grammar

The reader of tokens is followed step by step. Whatever it is given, it either gives a term back
that the tokens used for it mean, and the tokens left over stop that term; or it fails, and then at
the first of the tokens it has not used, or at the end if there are none (`Accounted`). Two readers
that run one after the other account for their tokens as a whole, so that the steps of the reader
are put together as the phrases of the grammar are.

With the completeness of the reader this says that a text is read as a term exactly if its tokens
have a derivation that means the term (`parse_exact`). A reader that took a token for the first one
of an operand which starts none would fail with a fault of another kind, and so never does.
-/

set_option autoImplicit false

namespace Redex

namespace Parser

/-! ## Accounting for tokens -/

section Accounting

variable {α β : Type} {P : α × List Token → Prop} {Q : β × List Token → Prop}
variable {finish : Position} {tokens before rest : List Token}

/-- A value fits the tokens used for it and those left over; an error is at the first token that is
left over, or at the end. -/
def Accounted (finish : Position) (tokens : List Token)
    (Fits : α → List Token → List Token → Prop) : Except SyntaxError (Subtype P) → Prop
  | .ok result => ∃ used, tokens = used ++ result.1.2 ∧ Fits result.1.1 used result.1.2
  | .error error =>
      ∃ expected used rest, tokens = used ++ rest ∧ error = mismatch finish expected rest.head?

namespace Accounted

variable {Fits : α → List Token → List Token → Prop} {Fits' : β → List Token → List Token → Prop}

theorem ok {a : α} {bound : P (a, rest)} (fits : Fits a [] rest) :
    Accounted finish rest Fits (.ok ⟨(a, rest), bound⟩) :=
  ⟨[], rfl, fits⟩

theorem error {expected : Expected} {found : Option Token} (first : found = rest.head?) :
    Accounted (P := P) finish rest Fits (.error (mismatch finish expected found)) :=
  ⟨expected, [], rest, rfl, by rw [first]⟩

/-- Tokens in front count as used. -/
theorem behind {result : Except SyntaxError (Subtype P)} (split : tokens = before ++ rest)
    (account : Accounted finish rest (fun a used rest' => Fits a (before ++ used) rest') result) :
    Accounted finish tokens Fits result := by
  subst split
  cases result with
  | ok result =>
      obtain ⟨used, split, fits⟩ := account
      exact ⟨before ++ used, by rw [split, List.append_assoc], fits⟩
  | error e =>
      obtain ⟨expected, used, rest', split, rfl⟩ := account
      exact ⟨expected, before ++ used, rest', by rw [split, List.append_assoc], rfl⟩

/-- Readers that run one after the other account for all their tokens. -/
theorem bind {first : Except SyntaxError (Subtype P)}
    {next : Subtype P → Except SyntaxError (Subtype Q)}
    (ofFirst : Accounted finish tokens Fits first)
    (ofNext : ∀ (a : α) (used rest : List Token) (bound : P (a, rest)), tokens = used ++ rest →
      Fits a used rest →
        Accounted finish rest (fun b used' rest' => Fits' b (used ++ used') rest')
          (next ⟨(a, rest), bound⟩)) :
    Accounted finish tokens Fits' (first >>= next) := by
  cases first with
  | error e => exact ofFirst
  | ok result =>
      obtain ⟨⟨a, rest⟩, bound⟩ := result
      obtain ⟨used, split, fits⟩ := ofFirst
      exact behind split (ofNext a used rest bound split fits)

end Accounted

end Accounting

/-! ## The parts of binders -/

section Binders

variable (finish : Position)

theorem accounted_expect (kind : Token.Kind) (expected : Expected) (tokens : List Token) :
    Accounted finish tokens (fun token used _ => used = [token] ∧ token.kind = kind)
      (expect finish kind expected tokens) := by
  cases tokens with
  | nil => exact .error rfl
  | cons token rest =>
      rw [expect]
      split
      · next found => exact ⟨[token], rfl, rfl, found⟩
      · exact .error rfl

/-- Names and the dot behind them. -/
def FitsNames (bound : List Name) (used _ : List Token) : Prop :=
  ∃ first others dot, used = first :: (others ++ [dot]) ∧ first.kind = .name ∧
    (∀ x ∈ others, x.kind = .name) ∧ dot.kind = .dot ∧ bound = first.text :: others.map (·.text)

theorem accounted_names (tokens : List Token) :
    Accounted finish tokens FitsNames (names finish tokens) := by
  refine (accounted_expect finish .name .name tokens).bind ?_
  rintro first used rest _ _ ⟨rfl, isName⟩
  let isName' : Token → Bool := fun x => decide (x.kind = .name)
  have split : rest = rest.takeWhile isName' ++ rest.dropWhile isName' :=
    List.takeWhile_append_dropWhile.symm
  refine .behind split ((accounted_expect finish .dot .dot _).bind ?_)
  rintro dot used' rest' _ _ ⟨rfl, isDot⟩
  refine .ok ⟨first, _, dot, ?_, isName, ?_, isDot, rfl⟩
  · rw [List.append_nil]
    rfl
  · intro x member
    have holds : isName' x = true := List.mem_takeWhile_imp member
    exact of_decide_eq_true holds

/-- A name and the colon behind it. -/
def FitsAnnotated (bound : Name) (used _ : List Token) : Prop :=
  ∃ x colon, used = [x, colon] ∧ x.kind = .name ∧ colon.kind = .colon ∧ bound = x.text

theorem accounted_annotated (tokens : List Token) :
    Accounted finish tokens FitsAnnotated (annotated finish tokens) := by
  refine (accounted_expect finish .name .name tokens).bind ?_
  rintro x used rest _ _ ⟨rfl, isName⟩
  refine (accounted_expect finish .colon .colon rest).bind ?_
  rintro colon used' rest' _ _ ⟨rfl, isColon⟩
  exact .ok ⟨x, colon, rfl, isName, isColon, rfl⟩

end Binders

/-! ## Terms -/

section Terms

variable {finish : Position} {before : Option (Term Name)} {prior used rest : List Token}
variable {token : Token}

/-- The tokens in front form a chain that means `before`, or there are none. -/
def Precedes (prior : List Token) : Option (Term Name) → Prop
  | some fn => Derives .chain prior fn
  | none => prior = []

theorem Precedes.next {arg : Term Name} (precedes : Precedes prior before)
    (derives : Derives .operand used arg) :
    Precedes (prior ++ used) (some (applied before arg)) := by
  cases before with
  | none =>
      cases precedes
      exact .first derives
  | some fn => exact .next precedes derives

theorem Precedes.last {body : Term Name} (precedes : Precedes prior before)
    (derives : Derives .binder used body) :
    Derives .whole (prior ++ used) (applied before body) := by
  cases before with
  | none =>
      cases precedes
      exact .binder derives
  | some fn => exact .applied precedes derives

/-- Behind the tokens in front, the tokens used form a whole term that the rest stops. -/
def FitsTerm (prior : List Token) (t : Term Name) (used rest : List Token) : Prop :=
  Derives .whole (prior ++ used) t ∧ Stops rest

theorem accounted_operand (starts : startsOperand token.kind = true)
    (inside : Accounted finish rest (FitsTerm []) (term finish none rest)) :
    Accounted finish rest (fun arg used _ => Derives .operand (token :: used) arg)
      (operand finish token rest) := by
  rw [operand.eq_def]
  cases kind : token.kind with
  | name => exact .ok (.name kind)
  | star => exact .ok (.star kind)
  | box => exact .ok (.box kind)
  | opening =>
      refine inside.bind ?_
      rintro inner used rest' _ _ ⟨derives, _⟩
      refine (accounted_expect finish .closing .closing rest').bind ?_
      rintro closing used' rest'' _ _ ⟨rfl, isClosing⟩
      refine .ok ?_
      exact .parentheses kind isClosing derives
  | lambda | pi | dot | colon | closing =>
      rw [kind] at starts
      cases starts

/-- **The reader accounts for all tokens.** -/
theorem accounted_term (finish : Position) (tokens : List Token) :
    ∀ ⦃before : Option (Term Name)⦄ ⦃prior : List Token⦄, Precedes prior before →
      Accounted finish tokens (FitsTerm prior) (term finish before tokens) := by
  -- what is read after the first token is shorter
  induction tokens using (measure (List.length : List Token → Nat)).wf.induction with
  | h tokens ih =>
      intro before prior precedes
      rw [term.eq_def]
      cases tokens with
      | nil =>
          cases before with
          | none => exact .error rfl
          | some fn => exact .ok ⟨by rw [List.append_nil]; exact .operands precedes, stops_nil⟩
      | cons token rest =>
          have inside : ∀ rest' : List Token, rest'.length ≤ rest.length →
              ∀ ⦃before : Option (Term Name)⦄ ⦃prior : List Token⦄, Precedes prior before →
                Accounted finish rest' (FitsTerm prior) (term finish before rest') :=
            fun rest' le => ih rest' (Nat.lt_succ_of_le le)
          have nothing : Precedes [] none := rfl
          have split : token :: rest = [token] ++ rest := rfl
          dsimp only
          cases kind : token.kind with
          | lambda =>
              refine .behind split ((accounted_names finish rest).bind ?_)
              rintro _ _ rest' le _ ⟨x, others, dot, rfl, isName, areNames, isDot, rfl⟩
              refine (inside rest' le nothing).bind ?_
              rintro body used rest'' _ _ ⟨derives, stops⟩
              have whole := precedes.last (.lambda kind isName areNames isDot derives)
              refine .ok ⟨?_, stops⟩
              simpa using whole
          | pi =>
              refine .behind split ((accounted_annotated finish rest).bind ?_)
              rintro _ _ rest' le _ ⟨x, colon, rfl, isName, isColon, rfl⟩
              refine (inside rest' le nothing).bind ?_
              rintro dom used rest'' le' _ ⟨inDom, _⟩
              refine (accounted_expect finish .dot .dot rest'').bind ?_
              rintro dot _ rest₃ le'' _ ⟨rfl, isDot⟩
              refine (inside rest₃ (Nat.le_trans le'' (Nat.le_trans le' le)) nothing).bind ?_
              rintro cod used' rest₄ _ _ ⟨inCod, stops⟩
              have whole := precedes.last (.pi kind isName isColon inDom isDot inCod)
              refine .ok ⟨?_, stops⟩
              simpa using whole
          | name | star | box | opening =>
              refine .behind split ((accounted_operand (by rw [kind]; rfl)
                (inside rest (Nat.le_refl _) nothing)).bind ?_)
              rintro arg used rest' le _ derives
              refine (inside rest' le (precedes.next derives)).bind ?_
              rintro t used' rest'' _ _ ⟨whole, stops⟩
              refine .ok ⟨?_, stops⟩
              simpa using whole
          | dot | colon | closing =>
              cases before with
              | none => exact .error rfl
              | some fn =>
                  refine .ok ⟨by rw [List.append_nil]; exact .operands precedes, stops_cons ?_⟩
                  rw [kind]
                  decide

/-! ## Whole texts -/

/-- Tokens are read as a term that they mean, or refused at one of them or at the end. -/
theorem whole_cases (tokens : Tokens) :
    (∃ t, whole tokens = .ok t ∧ Derives .whole tokens.tokens t) ∨
      ∃ error, whole tokens = .error error ∧ ∃ expected used rest, tokens.tokens = used ++ rest ∧
        error = mismatch tokens.finish expected rest.head? := by
  have account := accounted_term tokens.finish tokens.tokens (show Precedes [] none from rfl)
  rw [whole]
  cases result : term tokens.finish none tokens.tokens with
  | error e =>
      rw [result] at account
      exact .inr ⟨e, rfl, account⟩
  | ok result' =>
      obtain ⟨⟨t, rest⟩, bound⟩ := result'
      rw [result] at account
      obtain ⟨used, split, derives, _⟩ := account
      cases rest with
      | nil =>
          refine .inl ⟨t, rfl, ?_⟩
          rw [split, List.append_nil]
          exact derives
      | cons token rest => exact .inr ⟨_, rfl, .finish, used, token :: rest, split, rfl⟩

/-- Tokens are read as a term exactly if they form a whole term that means it. -/
theorem whole_eq_ok_iff {tokens : Tokens} {t : Term Name} :
    whole tokens = .ok t ↔ Derives .whole tokens.tokens t := by
  refine ⟨fun reads => ?_, whole_of_derives⟩
  rcases whole_cases tokens with ⟨t', reads', derives⟩ | ⟨error, fails, _⟩
  · rw [reads] at reads'
    cases reads'
    exact derives
  · rw [reads] at fails
    cases fails

end Terms

end Parser

/-- **A text is read exactly as the grammar says.** If a text is cut into tokens, it is read as a
term if and only if all the tokens have a derivation as a whole term that means this term, and they
have at most one derivation. Otherwise the text is refused at one of its tokens, the ones before
which were used, or at its end; and never because a token was taken for the first one of an operand
that starts none. -/
theorem parse_exact (text : Text) (tokens : Tokens) (scanned : scan text = .ok tokens) :
    (∀ t, Term.parse text = .ok t ↔
        ∃ d : Derivation .whole, d.tokens = tokens.tokens ∧ d.meaning = t) ∧
      (∀ d d' : Derivation .whole, d.tokens = tokens.tokens → d'.tokens = tokens.tokens → d = d') ∧
      ∀ error, Term.parse text = .error error →
        (∃ expected used rest, tokens.tokens = used ++ rest ∧
          error = Parser.mismatch tokens.finish expected rest.head?) ∧
        ∀ token, error.fault ≠ .misplaced token := by
  have reads : Term.parse text = Parser.whole tokens := by
    rw [Term.parse, scanned]
    rfl
  rw [reads]
  refine ⟨fun t => Parser.whole_eq_ok_iff.trans Derivation.derives_iff, ?_, ?_⟩
  · intro d d' all all'
    exact Derivation.eq_of_tokens_eq (all.trans all'.symm)
  · intro error fails
    rcases Parser.whole_cases tokens with ⟨t, accepted, _⟩ | ⟨error', refused, mismatch⟩
    · rw [fails] at accepted
      cases accepted
    · rw [fails] at refused
      cases refused
      refine ⟨mismatch, ?_⟩
      obtain ⟨expected, used, rest, _, rfl⟩ := mismatch
      intro token misplaced
      cases rest with
      | nil => cases misplaced
      | cons token' rest => cases misplaced

/-- `πA:λx y.x y.A (λz.z) *`: the domain ends in a binder of its own, and the dot behind it belongs
to the product. -/
def domainBinder : Text := .ofString "πA:λx y.x y.A (λz.z) *"

theorem parse_exact_domainBinder :
    ∃ tokens, scan domainBinder = .ok tokens ∧
      ∃ d : Derivation .whole, d.tokens = tokens.tokens ∧
        d.meaning = .pi "A" (.abs "x" (.abs "y" (.app (.var "x") (.var "y"))))
          (.app (.app (.var "A") (.abs "z" (.var "z"))) (.sort .star)) ∧
        ∀ d' : Derivation .whole, d'.tokens = tokens.tokens → d' = d := by
  have parsed : Term.parse domainBinder =
      .ok (.pi "A" (.abs "x" (.abs "y" (.app (.var "x") (.var "y"))))
        (.app (.app (.var "A") (.abs "z" (.var "z"))) (.sort .star))) :=
    eq_ok_of_toOption (by decide +kernel)
  obtain ⟨tokens, scanned, _⟩ := exists_ok_of_bind parsed
  obtain ⟨accepts, unique, _⟩ := parse_exact domainBinder tokens scanned
  obtain ⟨d, all, means⟩ := (accepts _).1 parsed
  exact ⟨tokens, scanned, d, all, means, fun d' all' => unique d' d all' all⟩

end Redex
