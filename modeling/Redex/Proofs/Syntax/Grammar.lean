import Redex.Syntax.Parser

/-!
# The grammar of terms

The grammar that the reader of tokens follows, as a relation between tokens and terms. There are
four kinds of phrases: an operand, a chain of operands, a binder, and a whole term, which is a
chain, a binder, or a chain with a binder behind it. `Derives phrase tokens t` says that the tokens
form such a phrase and mean `t`.

The reader gives a term back as soon as it meets a token that no term goes on with, and applies what
it has read so far to each further operand. So it is complete for the grammar
(`reads_of_derives`): an operand is added to what stands before it, and a whole term is read up to
the token that stops it.
-/

set_option autoImplicit false

namespace Redex

/-- The kinds of phrases of the grammar. -/
inductive Phrase where
  | operand
  | chain
  | binder
  | whole
deriving DecidableEq, Repr

/-- The tokens form a phrase of the given kind, which means the term. -/
inductive Derives : Phrase → List Token → Term Name → Prop where
  | name {token : Token} : token.kind = .name → Derives .operand [token] (.var token.text)
  | star {token : Token} : token.kind = .star → Derives .operand [token] (.sort .star)
  | box {token : Token} : token.kind = .box → Derives .operand [token] (.sort .box)
  | parentheses {opening closing : Token} {tokens : List Token} {t : Term Name} :
      opening.kind = .opening → closing.kind = .closing → Derives .whole tokens t →
        Derives .operand (opening :: (tokens ++ [closing])) t
  | first {tokens : List Token} {t : Term Name} :
      Derives .operand tokens t → Derives .chain tokens t
  | next {tokens tokens' : List Token} {fn arg : Term Name} :
      Derives .chain tokens fn → Derives .operand tokens' arg →
        Derives .chain (tokens ++ tokens') (.app fn arg)
  | lambda {sign first dot : Token} {others tokens : List Token} {body : Term Name} :
      sign.kind = .lambda → first.kind = .name → (∀ x ∈ others, x.kind = .name) →
      dot.kind = .dot → Derives .whole tokens body →
        Derives .binder (sign :: first :: (others ++ dot :: tokens))
          (.absAll (first.text :: others.map (·.text)) body)
  | pi {sign x colon dot : Token} {tokens tokens' : List Token} {dom cod : Term Name} :
      sign.kind = .pi → x.kind = .name → colon.kind = .colon → Derives .whole tokens dom →
      dot.kind = .dot → Derives .whole tokens' cod →
        Derives .binder (sign :: x :: colon :: (tokens ++ dot :: tokens')) (.pi x.text dom cod)
  | operands {tokens : List Token} {t : Term Name} :
      Derives .chain tokens t → Derives .whole tokens t
  | binder {tokens : List Token} {t : Term Name} :
      Derives .binder tokens t → Derives .whole tokens t
  | applied {tokens tokens' : List Token} {fn arg : Term Name} :
      Derives .chain tokens fn → Derives .binder tokens' arg →
        Derives .whole (tokens ++ tokens') (.app fn arg)

namespace Parser

/-! ## Single steps of the reader -/

/-- The term read from the front of some tokens behind the operands `before`, and the tokens left
over. -/
def read (finish : Position) (before : Option (Term Name)) (tokens : List Token) :
    Except SyntaxError (Term Name × List Token) :=
  (term finish before tokens).map Subtype.val

/-- A reader that gives a value gives it with a bound on what is left over. -/
theorem exists_ok_of_map_val {ε α : Type} {P : α → Prop} {result : Except ε (Subtype P)} {a : α}
    (given : result.map Subtype.val = .ok a) : ∃ bound, result = .ok ⟨a, bound⟩ := by
  cases result with
  | error e => cases given
  | ok value =>
      cases given
      exact ⟨value.2, rfl⟩

variable {finish : Position} {before : Option (Term Name)} {token : Token}
variable {tokens rest rest' : List Token}

/-- Nothing behind a term goes on with it. -/
def Stops (rest : List Token) : Prop :=
  ∀ token ∈ rest.head?, token.kind = .dot ∨ token.kind = .colon ∨ token.kind = .closing

theorem stops_nil : Stops [] := by
  intro token member
  cases member

theorem stops_cons (kind : token.kind = .dot ∨ token.kind = .colon ∨ token.kind = .closing) :
    Stops (token :: rest) := by
  intro token' member
  cases member
  exact kind

theorem read_stops {t : Term Name} (stops : Stops rest) :
    read finish (some t) rest = .ok (t, rest) := by
  unfold read
  rw [term.eq_def]
  cases rest with
  | nil => rfl
  | cons token rest =>
      rcases stops token rfl with kind | kind | kind <;> simp only [kind] <;> rfl

/-- The kinds of tokens that an operand starts with. -/
def startsOperand : Token.Kind → Bool
  | .name | .star | .box | .opening => true
  | .lambda | .pi | .dot | .colon | .closing => false

/-- An operand is added to the operands before it. -/
theorem read_operand {arg : Term Name} (starts : startsOperand token.kind = true)
    (reads : (operand finish token rest).map Subtype.val = .ok (arg, rest')) :
    read finish before (token :: rest) = read finish (some (applied before arg)) rest' := by
  obtain ⟨_, reads⟩ := exists_ok_of_map_val reads
  unfold read
  rw [term.eq_def]
  cases kind : token.kind <;> rw [kind] at starts <;> cases starts <;>
    simp only [kind, reads, bind, Except.bind] <;>
    cases term finish (some (applied before arg)) rest' <;> rfl

/-- An operand of one token is added to the operands before it. -/
theorem read_leaf {t : Term Name}
    (leaf : (token.kind = .name ∧ .var token.text = t) ∨ (token.kind = .star ∧ .sort .star = t) ∨
      (token.kind = .box ∧ .sort .box = t)) :
    read finish before (token :: rest) = read finish (some (applied before t)) rest := by
  rcases leaf with ⟨kind, rfl⟩ | ⟨kind, rfl⟩ | ⟨kind, rfl⟩
  all_goals
    refine read_operand (by rw [kind]; rfl) ?_
    rw [operand.eq_def]
    simp only [kind]
    rfl

/-- A token of the kind that is waited for is taken. -/
theorem expect_cons (finish : Position) {kind : Token.Kind} (expected : Expected)
    (found : token.kind = kind) (rest : List Token) :
    (expect finish kind expected (token :: rest)).map Subtype.val = .ok (token, rest) := by
  rw [expect, if_pos found]
  rfl

theorem read_opening {closing : Token} {inner : Term Name} (sign : token.kind = .opening)
    (close : closing.kind = .closing)
    (inside : read finish none rest = .ok (inner, closing :: rest')) :
    read finish before (token :: rest) = read finish (some (applied before inner)) rest' := by
  obtain ⟨_, inside⟩ := exists_ok_of_map_val inside
  obtain ⟨_, closed⟩ := exists_ok_of_map_val (expect_cons finish .closing close rest')
  refine read_operand (by rw [sign]; rfl) ?_
  rw [operand.eq_def]
  simp only [sign, inside, closed, bind, Except.bind]
  rfl

/-- The names of an abstraction end at the dot. -/
theorem names_append (finish : Position) {first dot : Token} {others : List Token}
    (name : first.kind = .name) (names : ∀ x ∈ others, x.kind = .name) (ends : dot.kind = .dot)
    (rest : List Token) :
    (Parser.names finish (first :: (others ++ dot :: rest))).map Subtype.val =
      .ok (first.text :: others.map (·.text), rest) := by
  let isName : Token → Bool := fun x => decide (x.kind = .name)
  have inside : ∀ x ∈ others, isName x = true := fun x member => decide_eq_true (names x member)
  have boundary : ¬ isName dot = true := by
    simp only [isName, ends]
    decide
  have taken : (others ++ dot :: rest).takeWhile isName = others := by
    rw [List.takeWhile_append_of_pos inside, List.takeWhile_cons_of_neg boundary, List.append_nil]
  have left : (others ++ dot :: rest).dropWhile isName = dot :: rest := by
    rw [List.dropWhile_append_of_pos inside, List.dropWhile_cons_of_neg boundary]
  obtain ⟨_, atFirst⟩ :=
    exists_ok_of_map_val (expect_cons finish .name name (others ++ dot :: rest))
  have atDot : (expect finish .dot .dot ((others ++ dot :: rest).dropWhile isName)).map
      Subtype.val = .ok (dot, rest) := by
    rw [left]
    exact expect_cons finish .dot ends rest
  obtain ⟨_, atDot⟩ := exists_ok_of_map_val atDot
  simp only [isName] at taken atDot
  simp only [Parser.names, atFirst, bind, Except.bind, atDot, taken]
  rfl

theorem read_lambda {first dot : Token} {others : List Token} {body : Term Name}
    (sign : token.kind = .lambda) (name : first.kind = .name)
    (names : ∀ x ∈ others, x.kind = .name) (ends : dot.kind = .dot)
    (inside : read finish none rest = .ok (body, rest')) :
    read finish before (token :: first :: (others ++ dot :: rest)) =
      .ok (applied before (.absAll (first.text :: others.map (·.text)) body), rest') := by
  obtain ⟨_, bound⟩ := exists_ok_of_map_val (names_append finish name names ends rest)
  obtain ⟨_, inside⟩ := exists_ok_of_map_val inside
  unfold read
  rw [term.eq_def]
  simp only [sign, bound, inside, bind, Except.bind]
  rfl

theorem read_pi {x colon dot : Token} {rest'' : List Token} {dom cod : Term Name}
    (sign : token.kind = .pi) (name : x.kind = .name) (divides : colon.kind = .colon)
    (ends : dot.kind = .dot) (inDom : read finish none rest = .ok (dom, dot :: rest'))
    (inCod : read finish none rest' = .ok (cod, rest'')) :
    read finish before (token :: x :: colon :: rest) =
      .ok (applied before (.pi x.text dom cod), rest'') := by
  obtain ⟨_, atName⟩ := exists_ok_of_map_val (expect_cons finish .name name (colon :: rest))
  obtain ⟨_, atColon⟩ := exists_ok_of_map_val (expect_cons finish .colon divides rest)
  obtain ⟨_, inDom⟩ := exists_ok_of_map_val inDom
  obtain ⟨_, atDot⟩ := exists_ok_of_map_val (expect_cons finish .dot ends rest')
  obtain ⟨_, inCod⟩ := exists_ok_of_map_val inCod
  unfold read
  rw [term.eq_def]
  simp only [sign, annotated, atName, atColon, inDom, atDot, inCod, bind, Except.bind, pure,
    Except.pure]
  rfl

/-! ## The reader is complete -/

/-- What the reader does with tokens that form a phrase of the given kind. -/
def Reads (finish : Position) (tokens : List Token) (t : Term Name) : Phrase → Prop
  | .operand => ∀ before rest,
      read finish before (tokens ++ rest) = read finish (some (applied before t)) rest
  | .chain => ∀ rest, read finish none (tokens ++ rest) = read finish (some t) rest
  | .binder => ∀ before rest, Stops rest →
      read finish before (tokens ++ rest) = .ok (applied before t, rest)
  | .whole => ∀ rest, Stops rest → read finish none (tokens ++ rest) = .ok (t, rest)

/-- **The reader is complete for the grammar.** -/
theorem reads_of_derives {phrase : Phrase} {t : Term Name} (derives : Derives phrase tokens t) :
    Reads finish tokens t phrase := by
  induction derives with
  | name kind => exact fun before rest => read_leaf (.inl ⟨kind, rfl⟩)
  | star kind => exact fun before rest => read_leaf (.inr (.inl ⟨kind, rfl⟩))
  | box kind => exact fun before rest => read_leaf (.inr (.inr ⟨kind, rfl⟩))
  | @parentheses opening closing tokens t sign close _ ih =>
      intro before rest
      have inside := ih (closing :: rest) (stops_cons (.inr (.inr close)))
      rw [List.cons_append, List.append_assoc]
      exact read_opening sign close inside
  | first _ ih => exact fun rest => ih none rest
  | next _ _ ihFn ihArg =>
      intro rest
      rw [List.append_assoc, ihFn, ihArg]
      rfl
  | lambda sign name names ends _ ih =>
      intro before rest stops
      simp only [List.cons_append, List.append_assoc]
      exact read_lambda sign name names ends (ih rest stops)
  | @pi sign x colon dot tokens tokens' dom cod kind name divides _ ends _ ihDom ihCod =>
      intro before rest stops
      have inDom := ihDom (dot :: (tokens' ++ rest)) (stops_cons (.inl ends))
      simp only [List.cons_append, List.append_assoc]
      exact read_pi kind name divides ends inDom (ihCod rest stops)
  | operands _ ih =>
      intro rest stops
      rw [ih rest, read_stops stops]
  | binder _ ih => exact fun rest stops => ih none rest stops
  | applied _ _ ihFn ihArg =>
      intro rest stops
      rw [List.append_assoc, ihFn, ihArg _ _ stops]
      rfl

/-- Tokens that form a whole term are read as that term. -/
theorem whole_of_derives {t : Term Name} (derives : Derives .whole tokens t) :
    whole ⟨tokens, finish⟩ = .ok t := by
  have reads : read finish none (tokens ++ []) = .ok (t, []) :=
    reads_of_derives derives [] stops_nil
  rw [List.append_nil] at reads
  obtain ⟨_, reads⟩ := exists_ok_of_map_val reads
  simp only [whole, reads, bind, Except.bind]
  rfl

end Parser

end Redex
