import Redex.Proofs.Syntax.Grammar

/-!
# Derivations are unique

A derivation is a tree of the grammar: it shows how tokens form a phrase. Its tokens, read from left
to right, and the term it means are computed from it, and what tokens can mean according to the
grammar is what their derivations mean (`derives_iff`).

Tokens have at most one derivation (`eq_of_tokens_eq`), although a binder takes everything to its
right and the domain of a product may end in a binder itself. What is shown is that a phrase with
tokens behind it can be taken apart in one way only, provided that these tokens do not go on with
the phrase. An operand needs no such condition: it is one token, or ends with its parenthesis. The
operands of a chain follow each other until something else than an operand starts; a binder and a
whole term end where no term goes on.
-/

set_option autoImplicit false

namespace Redex

/-- The tokens of one kind. -/
abbrev TokenOf (kind : Token.Kind) : Type := { token : Token // token.kind = kind }

/-- A token has one kind. -/
theorem TokenOf.kind_eq {kind kind' : Token.Kind} {x : TokenOf kind} {y : TokenOf kind'}
    (same : x.1 = y.1) : kind = kind' := by
  rw [← x.2, ← y.2, same]

/-- The ways in which tokens form the phrases of the grammar. -/
inductive Derivation : Phrase → Type where
  | name (x : TokenOf .name) : Derivation .operand
  | star (sign : TokenOf .star) : Derivation .operand
  | box (sign : TokenOf .box) : Derivation .operand
  | parentheses (opening : TokenOf .opening) (inner : Derivation .whole)
      (closing : TokenOf .closing) : Derivation .operand
  | first (operand : Derivation .operand) : Derivation .chain
  | next (chain : Derivation .chain) (operand : Derivation .operand) : Derivation .chain
  | lambda (sign : TokenOf .lambda) (x : TokenOf .name) (others : List (TokenOf .name))
      (dot : TokenOf .dot) (body : Derivation .whole) : Derivation .binder
  | pi (sign : TokenOf .pi) (x : TokenOf .name) (colon : TokenOf .colon) (dom : Derivation .whole)
      (dot : TokenOf .dot) (cod : Derivation .whole) : Derivation .binder
  | operands (chain : Derivation .chain) : Derivation .whole
  | binder (last : Derivation .binder) : Derivation .whole
  | applied (chain : Derivation .chain) (last : Derivation .binder) : Derivation .whole

namespace Derivation

/-- The tokens of a phrase. -/
def tokens : {phrase : Phrase} → Derivation phrase → List Token
  | _, name x => [x.1]
  | _, star sign => [sign.1]
  | _, box sign => [sign.1]
  | _, parentheses opening inner closing => opening.1 :: (inner.tokens ++ [closing.1])
  | _, first operand => operand.tokens
  | _, next chain operand => chain.tokens ++ operand.tokens
  | _, lambda sign x others dot body =>
      sign.1 :: x.1 :: (others.map (·.1) ++ dot.1 :: body.tokens)
  | _, pi sign x colon dom dot cod =>
      sign.1 :: x.1 :: colon.1 :: (dom.tokens ++ dot.1 :: cod.tokens)
  | _, operands chain => chain.tokens
  | _, binder last => last.tokens
  | _, applied chain last => chain.tokens ++ last.tokens

/-- The term that a phrase means. Operands are applied from left to right, a binder is the last
operand, and several names are abstracted over in their order. -/
def meaning : {phrase : Phrase} → Derivation phrase → Term Name
  | _, name x => .var x.1.text
  | _, star _ => .sort .star
  | _, box _ => .sort .box
  | _, parentheses _ inner _ => inner.meaning
  | _, first operand => operand.meaning
  | _, next chain operand => .app chain.meaning operand.meaning
  | _, lambda _ x others _ body =>
      .absAll (x.1.text :: others.map (·.1.text)) body.meaning
  | _, pi _ x _ dom _ cod => .pi x.1.text dom.meaning cod.meaning
  | _, operands chain => chain.meaning
  | _, binder last => last.meaning
  | _, applied chain last => .app chain.meaning last.meaning

/-! ## Derivations and the grammar -/

/-- A derivation shows that its tokens mean its term. -/
theorem derives {phrase : Phrase} (d : Derivation phrase) : Derives phrase d.tokens d.meaning := by
  induction d with
  | name x => exact .name x.2
  | star sign => exact .star sign.2
  | box sign => exact .box sign.2
  | parentheses opening inner closing ih => exact .parentheses opening.2 closing.2 ih
  | first operand ih => exact .first ih
  | next chain operand ihChain ihOperand => exact .next ihChain ihOperand
  | lambda sign x others dot body ih =>
      have names : ∀ token ∈ others.map (·.1), token.kind = .name := by
        intro token member
        obtain ⟨y, _, rfl⟩ := List.mem_map.1 member
        exact y.2
      have whole := Derives.lambda sign.2 x.2 names dot.2 ih
      rw [List.map_map] at whole
      exact whole
  | pi sign x colon dom dot cod ihDom ihCod => exact .pi sign.2 x.2 colon.2 ihDom dot.2 ihCod
  | operands chain ih => exact .operands ih
  | binder last ih => exact .binder ih
  | applied chain last ihChain ihLast => exact .applied ihChain ihLast

theorem exists_of_derives {phrase : Phrase} {tokens : List Token} {t : Term Name}
    (derives : Derives phrase tokens t) :
    ∃ d : Derivation phrase, d.tokens = tokens ∧ d.meaning = t := by
  induction derives with
  | @name token kind => exact ⟨.name ⟨token, kind⟩, rfl, rfl⟩
  | @star token kind => exact ⟨.star ⟨token, kind⟩, rfl, rfl⟩
  | @box token kind => exact ⟨.box ⟨token, kind⟩, rfl, rfl⟩
  | @parentheses opening closing _ _ isOpening isClosing _ ih =>
      obtain ⟨inner, rfl, rfl⟩ := ih
      exact ⟨.parentheses ⟨opening, isOpening⟩ inner ⟨closing, isClosing⟩, rfl, rfl⟩
  | first _ ih =>
      obtain ⟨operand, rfl, rfl⟩ := ih
      exact ⟨.first operand, rfl, rfl⟩
  | next _ _ ihChain ihOperand =>
      obtain ⟨chain, rfl, rfl⟩ := ihChain
      obtain ⟨operand, rfl, rfl⟩ := ihOperand
      exact ⟨.next chain operand, rfl, rfl⟩
  | @lambda sign first dot others _ _ isSign isName areNames isDot _ ih =>
      obtain ⟨body, rfl, rfl⟩ := ih
      let names : List (TokenOf .name) := others.attachWith _ areNames
      have spelled : names.map (·.1) = others := List.attachWith_map_subtype_val areNames
      refine ⟨.lambda ⟨sign, isSign⟩ ⟨first, isName⟩ names ⟨dot, isDot⟩ body, ?_, ?_⟩
      · rw [Derivation.tokens, spelled]
      · rw [meaning, ← spelled, List.map_map]
        rfl
  | @pi sign x colon dot _ _ _ _ isSign isName isColon _ isDot _ ihDom ihCod =>
      obtain ⟨dom, rfl, rfl⟩ := ihDom
      obtain ⟨cod, rfl, rfl⟩ := ihCod
      exact ⟨.pi ⟨sign, isSign⟩ ⟨x, isName⟩ ⟨colon, isColon⟩ dom ⟨dot, isDot⟩ cod, rfl, rfl⟩
  | operands _ ih =>
      obtain ⟨chain, rfl, rfl⟩ := ih
      exact ⟨.operands chain, rfl, rfl⟩
  | binder _ ih =>
      obtain ⟨last, rfl, rfl⟩ := ih
      exact ⟨.binder last, rfl, rfl⟩
  | applied _ _ ihChain ihLast =>
      obtain ⟨chain, rfl, rfl⟩ := ihChain
      obtain ⟨last, rfl, rfl⟩ := ihLast
      exact ⟨.applied chain last, rfl, rfl⟩

/-- **What tokens mean is what their derivations mean.** -/
theorem derives_iff {phrase : Phrase} {tokens : List Token} {t : Term Name} :
    Derives phrase tokens t ↔ ∃ d : Derivation phrase, d.tokens = tokens ∧ d.meaning = t := by
  constructor
  · exact exists_of_derives
  · rintro ⟨d, rfl, rfl⟩
    exact d.derives

/-! ## What a phrase starts with -/

theorem exists_first_of_operand (operand : Derivation .operand) :
    ∃ token ∈ operand.tokens.head?, Parser.startsOperand token.kind = true := by
  cases operand with
  | name x => exact ⟨x.1, rfl, by rw [x.2]; rfl⟩
  | star sign => exact ⟨sign.1, rfl, by rw [sign.2]; rfl⟩
  | box sign => exact ⟨sign.1, rfl, by rw [sign.2]; rfl⟩
  | parentheses opening inner closing => exact ⟨opening.1, rfl, by rw [opening.2]; rfl⟩

theorem exists_first_of_binder (binder : Derivation .binder) :
    ∃ token ∈ binder.tokens.head?, token.kind = .lambda ∨ token.kind = .pi := by
  cases binder with
  | lambda sign x others dot body => exact ⟨sign.1, rfl, .inl sign.2⟩
  | pi sign x colon dom dot cod => exact ⟨sign.1, rfl, .inr sign.2⟩

/-- The operands at the front of a phrase, from left to right. -/
def spine : {phrase : Phrase} → Derivation phrase → List (Derivation .operand)
  | .operand, operand => [operand]
  | .binder, _ => []
  | _, first operand => [operand]
  | _, next chain operand => chain.spine ++ [operand]
  | _, operands chain => chain.spine
  | _, binder _ => []
  | _, applied chain _ => chain.spine

/-- The binder at the end of a whole term, if there is one. -/
def last? : Derivation .whole → Option (Derivation .binder)
  | operands _ => none
  | binder last => some last
  | applied _ last => some last

theorem spine_ne_nil (chain : Derivation .chain) : chain.spine ≠ [] := by
  cases chain with
  | first operand => exact List.cons_ne_nil _ _
  | next chain operand => exact List.append_ne_nil_of_right_ne_nil _ (List.cons_ne_nil _ _)

theorem flatMap_spine :
    ∀ chain : Derivation .chain, chain.spine.flatMap tokens = chain.tokens
  | first operand => List.append_nil _
  | next chain operand => by
      rw [spine, List.flatMap_append, flatMap_spine chain, List.flatMap_singleton]
      rfl

theorem spine_injective : ∀ {chain chain' : Derivation .chain},
    chain.spine = chain'.spine → chain = chain'
  | first operand, first operand', same => by
      rw [(List.cons.inj same).1]
  | first operand, next chain' operand', same => by
      have same : [] ++ [operand] = chain'.spine ++ [operand'] := same
      exact absurd (List.append_inj' same rfl).1.symm chain'.spine_ne_nil
  | next chain operand, first operand', same => by
      have same : chain.spine ++ [operand] = [] ++ [operand'] := same
      exact absurd (List.append_inj' same rfl).1 chain.spine_ne_nil
  | next chain operand, next chain' operand', same => by
      obtain ⟨before, last⟩ := List.append_inj' same rfl
      rw [spine_injective before, (List.cons.inj last).1]

/-- A whole term consists of its operands and the binder behind them. -/
theorem tokens_whole (d : Derivation .whole) :
    d.tokens = d.spine.flatMap tokens ++ d.last?.elim [] tokens := by
  cases d with
  | operands chain =>
      rw [tokens, ← flatMap_spine]
      exact (List.append_nil _).symm
  | binder last => rfl
  | applied chain last =>
      rw [tokens, ← flatMap_spine]
      rfl

theorem eq_of_parts {d d' : Derivation .whole} (sameSpine : d.spine = d'.spine)
    (sameLast : d.last? = d'.last?) : d = d' := by
  cases d with
  | operands chain =>
      cases d' with
      | operands chain' => rw [spine_injective sameSpine]
      | binder last' => cases sameLast
      | applied chain' last' => cases sameLast
  | binder last =>
      cases d' with
      | operands chain' => cases sameLast
      | binder last' => rw [Option.some.inj sameLast]
      | applied chain' last' => exact absurd sameSpine.symm chain'.spine_ne_nil
  | applied chain last =>
      cases d' with
      | operands chain' => cases sameLast
      | binder last' => exact absurd sameSpine chain.spine_ne_nil
      | applied chain' last' => rw [spine_injective sameSpine, Option.some.inj sameLast]

/-! ## Taking phrases apart -/

/-- Items in a row can be taken apart in one way if each of them can be taken off in one way and
what is behind them does not start like an item. -/
theorem flatMap_append_inj {α β : Type} {f : α → List β} {Starts : β → Prop}
    (starts : ∀ a, ∃ b ∈ (f a).head?, Starts b) {items : List α} :
    ∀ {items' : List α} {rest rest' : List β},
      (∀ a ∈ items, ∀ a' r r', f a ++ r = f a' ++ r' → a = a' ∧ r = r') →
      (∀ b ∈ rest.head?, ¬ Starts b) → (∀ b ∈ rest'.head?, ¬ Starts b) →
      items.flatMap f ++ rest = items'.flatMap f ++ rest' → items = items' ∧ rest = rest' := by
  -- an item is not what is behind the items of the other side
  have clash : ∀ {a : α} {more rest : List β}, (∀ b ∈ rest.head?, ¬ Starts b) →
      rest ≠ f a ++ more := by
    rintro a more _ ends rfl
    obtain ⟨b, isFirst, startsItem⟩ := starts a
    refine ends b ?_ startsItem
    rw [List.head?_append, Option.mem_def.1 isFirst]
    rfl
  induction items with
  | nil =>
      intro items' rest rest' _ ends _ equal
      cases items' with
      | nil => exact ⟨rfl, equal⟩
      | cons a' items' =>
          rw [List.flatMap_cons, List.append_assoc] at equal
          exact absurd equal (clash ends)
  | cons a items ih =>
      intro items' rest rest' determined ends ends' equal
      rw [List.flatMap_cons, List.append_assoc] at equal
      cases items' with
      | nil => exact absurd equal.symm (clash ends')
      | cons a' items' =>
          rw [List.flatMap_cons, List.append_assoc] at equal
          obtain ⟨rfl, behind⟩ := determined a List.mem_cons_self a' _ _ equal
          obtain ⟨same, behind⟩ := ih
            (fun b member => determined b (List.mem_cons_of_mem _ member)) ends ends' behind
          exact ⟨congrArg (a :: ·) same, behind⟩

/-- In front of tokens that may follow it, the phrase is told apart from every other one. -/
def Determined (Follows : List Token → Prop) {phrase : Phrase} (d : Derivation phrase) : Prop :=
  ∀ (d' : Derivation phrase) (rest rest' : List Token), Follows rest → Follows rest' →
    d.tokens ++ rest = d'.tokens ++ rest' → d = d' ∧ rest = rest'

/-- Anything may follow an operand; a binder and a whole term are followed by a token that stops
them. Of a chain it is the operands that are determined. -/
def IsDetermined : {phrase : Phrase} → Derivation phrase → Prop
  | .operand, d => d.Determined fun _ => True
  | .chain, d => ∀ operand ∈ d.spine, operand.Determined fun _ => True
  | .binder, d => d.Determined Parser.Stops
  | .whole, d => d.Determined Parser.Stops

/-- Behind the operands of a whole term there is no further operand. -/
theorem not_startsOperand_behind {last : Option (Derivation .binder)} {rest : List Token}
    (stops : Parser.Stops rest) :
    ∀ token ∈ (last.elim [] tokens ++ rest).head?, ¬ Parser.startsOperand token.kind = true := by
  intro token isFirst
  cases last with
  | none => rcases stops token isFirst with kind | kind | kind <;> rw [kind] <;> decide
  | some last =>
      obtain ⟨sign, isSign, kind⟩ := last.exists_first_of_binder
      rw [Option.elim, List.head?_append, Option.mem_def.1 isSign] at isFirst
      cases isFirst
      rcases kind with kind | kind <;> rw [kind] <;> decide

/-- A binder is not what stops a term. -/
theorem not_stops_binder (binder : Derivation .binder) (rest : List Token) :
    ¬ Parser.Stops (binder.tokens ++ rest) := by
  intro stops
  obtain ⟨sign, isSign, kind⟩ := binder.exists_first_of_binder
  have stop := stops sign (by rw [List.head?_append, Option.mem_def.1 isSign]; rfl)
  rcases kind with kind | kind <;> rw [kind] at stop <;> revert stop <;> decide

/-- The parts of a whole term determine it. -/
theorem determined_of_parts {d : Derivation .whole}
    (operands : ∀ operand ∈ d.spine, operand.Determined fun _ => True)
    (last : ∀ binder ∈ d.last?, binder.Determined Parser.Stops) : d.Determined Parser.Stops := by
  intro d' rest rest' stops stops' equal
  rw [tokens_whole, tokens_whole, List.append_assoc, List.append_assoc] at equal
  obtain ⟨sameSpine, behind⟩ := flatMap_append_inj exists_first_of_operand
    (fun operand member operand' r r' => operands operand member operand' r r' trivial trivial)
    (not_startsOperand_behind stops) (not_startsOperand_behind stops') equal
  cases isLast : d.last? with
  | none =>
      cases isLast' : d'.last? with
      | none =>
          rw [isLast, isLast'] at behind
          exact ⟨eq_of_parts sameSpine (isLast.trans isLast'.symm), behind⟩
      | some binder' =>
          rw [isLast, isLast'] at behind
          exact absurd (behind ▸ stops) (not_stops_binder binder' rest')
  | some binder =>
      cases isLast' : d'.last? with
      | none =>
          rw [isLast, isLast'] at behind
          exact absurd (behind ▸ stops') (not_stops_binder binder rest)
      | some binder' =>
          rw [isLast, isLast'] at behind
          obtain ⟨rfl, sameRest⟩ := last binder isLast binder' rest rest' stops stops' behind
          exact ⟨eq_of_parts sameSpine (isLast.trans isLast'.symm), sameRest⟩

/-- The names of an abstraction end at the dot. -/
theorem names_append_inj {names names' : List (TokenOf .name)} {dot dot' : TokenOf .dot}
    {rest rest' : List Token}
    (equal : names.map (·.1) ++ dot.1 :: rest = names'.map (·.1) ++ dot'.1 :: rest') :
    names = names' ∧ dot = dot' ∧ rest = rest' := by
  have ends : ∀ {dot : TokenOf .dot} {rest : List Token}, ∀ token ∈ (dot.1 :: rest).head?,
      ¬ token.kind = .name := by
    intro dot rest token isFirst
    cases isFirst
    rw [dot.2]
    decide
  rw [List.map_eq_flatMap, List.map_eq_flatMap] at equal
  obtain ⟨same, behind⟩ := flatMap_append_inj (fun x => ⟨x.1, rfl, x.2⟩)
    (fun x _ x' r r' equal => (List.cons.inj equal).imp_left Subtype.ext) ends ends equal
  obtain ⟨sameDot, behind⟩ := List.cons.inj behind
  exact ⟨same, Subtype.ext sameDot, behind⟩

/-- **Phrases are taken apart in one way only.** -/
theorem isDetermined {phrase : Phrase} (d : Derivation phrase) : d.IsDetermined := by
  induction d with
  | name x =>
      intro d' rest rest' _ _ equal
      cases d' with
      | name x' =>
          obtain ⟨same, behind⟩ := List.cons.inj equal
          exact ⟨congrArg name (Subtype.ext same), behind⟩
      | star _ | box _ | parentheses _ _ _ =>
          exact absurd (TokenOf.kind_eq (List.cons.inj equal).1) (by decide)
  | star sign =>
      intro d' rest rest' _ _ equal
      cases d' with
      | star sign' =>
          obtain ⟨same, behind⟩ := List.cons.inj equal
          exact ⟨congrArg star (Subtype.ext same), behind⟩
      | name _ | box _ | parentheses _ _ _ =>
          exact absurd (TokenOf.kind_eq (List.cons.inj equal).1) (by decide)
  | box sign =>
      intro d' rest rest' _ _ equal
      cases d' with
      | box sign' =>
          obtain ⟨same, behind⟩ := List.cons.inj equal
          exact ⟨congrArg box (Subtype.ext same), behind⟩
      | name _ | star _ | parentheses _ _ _ =>
          exact absurd (TokenOf.kind_eq (List.cons.inj equal).1) (by decide)
  | parentheses opening inner closing ih =>
      intro d' rest rest' _ _ equal
      cases d' with
      | parentheses opening' inner' closing' =>
          obtain ⟨sameOpening, inside⟩ := List.cons.inj equal
          simp only [List.append_eq, List.append_assoc, List.cons_append, List.nil_append] at inside
          obtain ⟨rfl, behind⟩ := ih inner' _ _ (Parser.stops_cons (.inr (.inr closing.2)))
            (Parser.stops_cons (.inr (.inr closing'.2))) inside
          obtain ⟨sameClosing, sameRest⟩ := List.cons.inj behind
          rw [Subtype.ext sameOpening, Subtype.ext sameClosing]
          exact ⟨rfl, sameRest⟩
      | name _ | star _ | box _ =>
          exact absurd (TokenOf.kind_eq (List.cons.inj equal).1) (by decide)
  | first operand ih =>
      intro operand' member
      rw [List.mem_singleton.1 member]
      exact ih
  | next chain operand ihChain ihOperand =>
      intro operand' member
      rcases List.mem_append.1 member with inChain | isLast
      · exact ihChain operand' inChain
      · rw [List.mem_singleton.1 isLast]
        exact ihOperand
  | lambda sign x others dot body ih =>
      intro d' rest rest' stops stops' equal
      cases d' with
      | lambda sign' x' others' dot' body' =>
          obtain ⟨sameSign, behindSign⟩ := List.cons.inj equal
          obtain ⟨sameName, behindName⟩ := List.cons.inj behindSign
          simp only [List.append_eq, List.append_assoc, List.cons_append] at behindName
          obtain ⟨rfl, rfl, inside⟩ := names_append_inj behindName
          obtain ⟨rfl, sameRest⟩ := ih body' rest rest' stops stops' inside
          rw [Subtype.ext sameSign, Subtype.ext sameName]
          exact ⟨rfl, sameRest⟩
      | pi _ _ _ _ _ _ => exact absurd (TokenOf.kind_eq (List.cons.inj equal).1) (by decide)
  | pi sign x colon dom dot cod ihDom ihCod =>
      intro d' rest rest' stops stops' equal
      cases d' with
      | pi sign' x' colon' dom' dot' cod' =>
          obtain ⟨sameSign, behindSign⟩ := List.cons.inj equal
          obtain ⟨sameName, behindName⟩ := List.cons.inj behindSign
          obtain ⟨sameColon, inDom⟩ := List.cons.inj behindName
          simp only [List.append_eq, List.append_assoc, List.cons_append] at inDom
          obtain ⟨rfl, behindDom⟩ := ihDom dom' _ _ (Parser.stops_cons (.inl dot.2))
            (Parser.stops_cons (.inl dot'.2)) inDom
          obtain ⟨sameDot, inCod⟩ := List.cons.inj behindDom
          obtain ⟨rfl, sameRest⟩ := ihCod cod' rest rest' stops stops' inCod
          rw [Subtype.ext sameSign, Subtype.ext sameName, Subtype.ext sameColon,
            Subtype.ext sameDot]
          exact ⟨rfl, sameRest⟩
      | lambda _ _ _ _ _ => exact absurd (TokenOf.kind_eq (List.cons.inj equal).1) (by decide)
  | operands chain ih =>
      refine determined_of_parts ih ?_
      intro binder isLast
      cases isLast
  | binder last ih =>
      refine determined_of_parts (fun operand member => by cases member) ?_
      intro binder isLast
      cases isLast
      exact ih
  | applied chain last ihChain ihLast =>
      refine determined_of_parts ihChain ?_
      intro binder isLast
      cases isLast
      exact ihLast

/-- **Tokens have at most one derivation as a whole term.** -/
theorem eq_of_tokens_eq {d d' : Derivation .whole} (same : d.tokens = d'.tokens) : d = d' := by
  refine (d.isDetermined d' [] [] Parser.stops_nil Parser.stops_nil ?_).1
  rw [same]

end Derivation

end Redex
