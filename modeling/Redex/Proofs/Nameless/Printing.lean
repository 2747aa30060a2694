import Redex.Proofs.Basic
import Redex.Proofs.Nameless.Extensionality
import Redex.Proofs.Spelling

/-!
# Written forms of nameless terms

The written form of a nameless term puts everything but indices, free variables and sorts in
parentheses. So it can be read in one way only, provided that no label of a free variable looks like
an index, a sort or the start of a term in parentheses, and none has a character before which a word
ends (`Readable`). A written form then determines the term even when more text comes after it
(`print_append_inj`), and terms with one written form are equal (`eq_of_print_eq`).

Identifiers are readable, and so are the names that are made by counting them up.
-/

set_option autoImplicit false

namespace Redex

/-! ## Words -/

/-- What a written form is, as its first character tells. No written form starts with the sign of a
binder, but what follows the parenthesis of an abstraction or a product does. -/
inductive Lead where
  | parenthesis
  | binder
  | index
  | sort
  | label
deriving DecidableEq

/-- What starts with a character. -/
def Lead.of (c : Char) : Lead :=
  if c = '(' then parenthesis
  else if c = 'λ' ∨ c = 'π' then binder
  else if c = '*' ∨ c = '□' then sort
  else if c.isDigit then index
  else label

/-- Whether a word ends before a character. -/
def endsWord (c : Char) : Bool := c == ' ' || c == ')' || c == '.'

/-- A word that comes before the text ends there. -/
def EndsBefore (rest : List Char) : Prop := ∀ c ∈ rest.head?, endsWord c = true

theorem endsBefore_nil : EndsBefore [] := nofun

theorem endsBefore_cons {c : Char} (ends : endsWord c = true) (rest : List Char) :
    EndsBefore (c :: rest) := by
  intro c' head
  rwa [← Option.some.inj head]

/-- The name is read as one label. -/
structure Readable (name : Name) : Prop where
  word : ∀ c ∈ name.toList, endsWord c = false
  lead : ∃ first others, name.toList = first :: others ∧ Lead.of first = .label

/-- Where a word ends can be told from the text. -/
theorem word_append_inj {word word' rest rest' : List Char}
    (inside : ∀ c ∈ word, endsWord c = false) (inside' : ∀ c ∈ word', endsWord c = false)
    (ends : EndsBefore rest) (ends' : EndsBefore rest')
    (equal : word ++ rest = word' ++ rest') : word = word' ∧ rest = rest' := by
  have turned : ∀ {w : List Char}, (∀ c ∈ w, endsWord c = false) →
      ∀ c ∈ w, (!endsWord c) = true := fun isWord c member => by rw [isWord c member]; rfl
  have stops : ∀ {r : List Char}, EndsBefore r → ∀ c ∈ r.head?, (!endsWord c) = false :=
    fun ends c head => by rw [ends c head]; rfl
  exact append_inj_of_forall (turned inside) (turned inside') (stops ends) (stops ends') equal

/-! ## Readable names -/

theorem endsWord_of_continuesName {c : Char} (continues : continuesName c = true) :
    endsWord c = false := by
  cases ends : endsWord c with
  | false => rfl
  | true =>
      simp only [endsWord, Bool.or_eq_true, beq_iff_eq] at ends
      rcases ends with (rfl | rfl) | rfl
      · exact absurd continues (by decide +kernel)
      · exact absurd continues (not_continuesName_of_signKind? rfl).2
      · exact absurd continues (not_continuesName_of_signKind? rfl).2

theorem lead_of_isDigit {c : Char} (digit : c.isDigit = true) : Lead.of c = .index := by
  have apart : ∀ sign : Char, ¬ sign.isDigit = true → c ≠ sign := by
    rintro sign notDigit rfl
    exact notDigit digit
  simp only [Lead.of, apart '(' (by decide), apart 'λ' (by decide), apart 'π' (by decide),
    apart '*' (by decide), apart '□' (by decide), digit, or_self, if_false, if_true]

theorem lead_of_startsName {c : Char} (starts : startsName c = true) : Lead.of c = .label := by
  have notSign : signKind? c = none := by
    cases sign : signKind? c with
    | none => rfl
    | some kind =>
        exact absurd starts
          (not_startsName_of_not_continuesName (not_continuesName_of_signKind? sign).2)
  have apart : ∀ sign : Char, (signKind? sign).isSome = true → c ≠ sign := by
    rintro sign isSign rfl
    rw [notSign] at isSign
    cases isSign
  simp only [Lead.of, apart '(' rfl, apart 'λ' rfl, apart 'π' rfl, apart '*' rfl, apart '□' rfl,
    not_isDigit_of_startsName starts, or_self, if_false, Bool.false_eq_true]

/-- A name that is spelled as an identifier, apart from minus signs, is readable. -/
theorem Name.Spelled.readable {name : Name} (spelled : name.Spelled) : Readable name := by
  obtain ⟨first, others, chars, starts, continues⟩ := spelled
  refine ⟨fun c member => ?_, first, others, chars, lead_of_startsName starts⟩
  rw [chars] at member
  rcases List.mem_cons.1 member with rfl | inOthers
  · exact endsWord_of_continuesName (continuesName_of_startsName starts)
  · rcases continues c inOthers with inName | rfl
    · exact endsWord_of_continuesName inName
    · rfl

theorem endsWord_toDigits (n : Nat) : ∀ c ∈ Nat.toDigits 10 n, endsWord c = false := by
  intro c member
  exact endsWord_of_continuesName
    (continuesName_of_isDigit (Name.isDigit_of_mem_toDigits c member))

namespace Nameless

/-! ## Reading written forms back -/

/-- What the written form of a term starts with. -/
def lead {φ : Type} : Nameless φ → Lead
  | bound _ => .index
  | free _ => .label
  | app _ _ | abs _ | pi _ _ => .parenthesis
  | sort _ => .sort

theorem toList_print_app (fn arg : Nameless String) :
    (app fn arg).print.toList = '(' :: (fn.print.toList ++ ' ' :: (arg.print.toList ++ [')'])) := by
  simp [print]

theorem toList_print_abs (body : Nameless String) :
    (abs body).print.toList = '(' :: 'λ' :: '.' :: (body.print.toList ++ [')']) := by
  simp [print]

theorem toList_print_pi (dom cod : Nameless String) :
    (pi dom cod).print.toList =
      '(' :: 'π' :: ':' :: (dom.print.toList ++ '.' :: (cod.print.toList ++ [')'])) := by
  simp [print]

theorem toList_print_bound (index : Nat) :
    (bound index : Nameless String).print.toList = Nat.toDigits 10 index :=
  String.toList_ofList

/-- The free variables of the term are readable. -/
abbrev IsReadable (t : Nameless String) : Prop := ∀ x ∈ t.labels, Readable x

variable {t t' : Nameless String}

theorem exists_first_of_print (readable : t.IsReadable) :
    ∃ first others, t.print.toList = first :: others ∧ Lead.of first = t.lead := by
  cases t with
  | bound index =>
      rw [toList_print_bound]
      cases digits : Nat.toDigits 10 index with
      | nil => exact absurd digits Nat.toDigits_ne_nil
      | cons first others =>
          refine ⟨first, others, rfl, lead_of_isDigit ?_⟩
          exact Nat.isDigit_of_mem_toDigits (by decide) (by decide)
            (digits ▸ List.mem_cons_self : first ∈ Nat.toDigits 10 index)
  | free x => exact (readable x (List.mem_singleton.2 rfl)).lead
  | app fn arg => exact ⟨_, _, toList_print_app fn arg, rfl⟩
  | abs body => exact ⟨_, _, toList_print_abs body, rfl⟩
  | pi dom cod => exact ⟨_, _, toList_print_pi dom cod, rfl⟩
  | sort u =>
      cases u with
      | star => exact ⟨'*', [], rfl, rfl⟩
      | box => exact ⟨'□', [], rfl, rfl⟩

/-- Texts that start with the written forms of two terms tell what the terms are. -/
theorem lead_eq_of_print_append (readable : t.IsReadable) (readable' : t'.IsReadable)
    {rest rest' : List Char} (equal : t.print.toList ++ rest = t'.print.toList ++ rest') :
    t.lead = t'.lead := by
  obtain ⟨first, others, chars, lead⟩ := exists_first_of_print readable
  obtain ⟨first', others', chars', lead'⟩ := exists_first_of_print readable'
  rw [chars, chars'] at equal
  rw [← lead, ← lead', (List.cons.inj equal).1]

/-- No written form starts like what follows the parenthesis of an abstraction or a product. -/
theorem print_append_ne_binder (readable : t.IsReadable) {c : Char} (binder : Lead.of c = .binder)
    (rest rest' : List Char) : t.print.toList ++ rest ≠ c :: rest' := by
  intro equal
  obtain ⟨first, others, chars, lead⟩ := exists_first_of_print readable
  rw [chars] at equal
  rw [(List.cons.inj equal).1, binder] at lead
  cases t <;> cases lead

theorem endsWord_print (readable : t.IsReadable) (word : t.lead ≠ .parenthesis) :
    ∀ c ∈ t.print.toList, endsWord c = false := by
  cases t with
  | bound index =>
      rw [toList_print_bound]
      exact endsWord_toDigits index
  | free x => exact (readable x (List.mem_singleton.2 rfl)).word
  | app fn arg => exact absurd rfl word
  | abs body => exact absurd rfl word
  | pi dom cod => exact absurd rfl word
  | sort u =>
      intro c member
      cases u with
      | star =>
          rw [List.mem_singleton.1 (show c ∈ ['*'] from member)]
          rfl
      | box =>
          rw [List.mem_singleton.1 (show c ∈ ['□'] from member)]
          rfl

/-- A term that is written as a word is determined by the word. -/
theorem eq_of_print_word (lead : t.lead = t'.lead) (word : t.lead ≠ .parenthesis)
    (equal : t.print.toList = t'.print.toList) : t = t' := by
  cases t with
  | bound index =>
      cases t' with
      | bound index' =>
          rw [toList_print_bound, toList_print_bound] at equal
          have values := congrArg Name.digitsValue equal
          rw [Name.digitsValue_toDigits, Name.digitsValue_toDigits] at values
          rw [values]
      | _ => cases lead
  | free x =>
      cases t' with
      | free x' => exact congrArg free (String.toList_inj.1 equal)
      | _ => cases lead
  | sort u =>
      cases t' with
      | sort u' => cases u <;> cases u' <;> first | rfl | cases equal
      | _ => cases lead
  | _ => exact absurd rfl word

theorem print_append_inj_of_word (readable : t.IsReadable) (readable' : t'.IsReadable)
    (word : t.lead ≠ .parenthesis) {rest rest' : List Char}
    (ends : EndsBefore rest) (ends' : EndsBefore rest')
    (equal : t.print.toList ++ rest = t'.print.toList ++ rest') : t = t' ∧ rest = rest' := by
  have lead := lead_eq_of_print_append readable readable' equal
  obtain ⟨same, sameRest⟩ := word_append_inj (endsWord_print readable word)
    (endsWord_print readable' (lead ▸ word)) ends ends' equal
  exact ⟨eq_of_print_word lead word same, sameRest⟩

/-- **A written form determines its term and where it ends**, whatever comes after it, as long as
that does not go on with the word. -/
theorem print_append_inj (t : Nameless String) :
    ∀ {t' : Nameless String} {rest rest' : List Char}, t.IsReadable → t'.IsReadable →
      EndsBefore rest → EndsBefore rest' →
      t.print.toList ++ rest = t'.print.toList ++ rest' → t = t' ∧ rest = rest' := by
  induction t with
  | bound index =>
      intro t' rest rest' readable readable' ends ends' equal
      exact print_append_inj_of_word readable readable' nofun ends ends' equal
  | free x =>
      intro t' rest rest' readable readable' ends ends' equal
      exact print_append_inj_of_word readable readable' nofun ends ends' equal
  | sort u =>
      intro t' rest rest' readable readable' ends ends' equal
      exact print_append_inj_of_word readable readable' nofun ends ends' equal
  | app fn arg ihFn ihArg =>
      intro t' rest rest' readable readable' ends ends' equal
      have lead := lead_eq_of_print_append readable readable' equal
      obtain ⟨inFn, inArg⟩ := List.forall_mem_append.1 readable
      cases t' with
      | app fn' arg' =>
          obtain ⟨inFn', inArg'⟩ := List.forall_mem_append.1 readable'
          simp only [toList_print_app, List.cons_append, List.append_assoc, List.nil_append,
            List.cons.injEq, true_and] at equal
          obtain ⟨rfl, afterFn⟩ := ihFn inFn inFn' (endsBefore_cons rfl _) (endsBefore_cons rfl _)
            equal
          obtain ⟨rfl, afterArg⟩ := ihArg inArg inArg' (endsBefore_cons rfl _)
            (endsBefore_cons rfl _) (List.cons.inj afterFn).2
          exact ⟨rfl, (List.cons.inj afterArg).2⟩
      | abs body' =>
          simp only [toList_print_app, toList_print_abs, List.cons_append, List.append_assoc,
            List.cons.injEq, true_and] at equal
          exact absurd equal (print_append_ne_binder inFn rfl _ _)
      | pi dom' cod' =>
          simp only [toList_print_app, toList_print_pi, List.cons_append, List.append_assoc,
            List.cons.injEq, true_and] at equal
          exact absurd equal (print_append_ne_binder inFn rfl _ _)
      | _ => cases lead
  | abs body ih =>
      intro t' rest rest' readable readable' ends ends' equal
      have lead := lead_eq_of_print_append readable readable' equal
      cases t' with
      | app fn' arg' =>
          obtain ⟨inFn', _⟩ := List.forall_mem_append.1 readable'
          simp only [toList_print_app, toList_print_abs, List.cons_append, List.append_assoc,
            List.cons.injEq, true_and] at equal
          exact absurd equal.symm (print_append_ne_binder inFn' rfl _ _)
      | abs body' =>
          simp only [toList_print_abs, List.cons_append, List.append_assoc, List.nil_append,
            List.cons.injEq, true_and] at equal
          have inBody' : body'.IsReadable := readable'
          obtain ⟨rfl, afterBody⟩ := ih readable inBody' (endsBefore_cons rfl _)
            (endsBefore_cons rfl _) equal
          exact ⟨rfl, (List.cons.inj afterBody).2⟩
      | pi dom' cod' =>
          simp only [toList_print_abs, toList_print_pi, List.cons_append, List.cons.injEq] at equal
          exact absurd equal.2.1 (by decide)
      | _ => cases lead
  | pi dom cod ihDom ihCod =>
      intro t' rest rest' readable readable' ends ends' equal
      have lead := lead_eq_of_print_append readable readable' equal
      obtain ⟨inDom, inCod⟩ := List.forall_mem_append.1 readable
      cases t' with
      | app fn' arg' =>
          obtain ⟨inFn', _⟩ := List.forall_mem_append.1 readable'
          simp only [toList_print_app, toList_print_pi, List.cons_append, List.append_assoc,
            List.cons.injEq, true_and] at equal
          exact absurd equal.symm (print_append_ne_binder inFn' rfl _ _)
      | abs body' =>
          simp only [toList_print_abs, toList_print_pi, List.cons_append, List.cons.injEq] at equal
          exact absurd equal.2.1 (by decide)
      | pi dom' cod' =>
          obtain ⟨inDom', inCod'⟩ := List.forall_mem_append.1 readable'
          simp only [toList_print_pi, List.cons_append, List.append_assoc, List.nil_append,
            List.cons.injEq, true_and] at equal
          obtain ⟨rfl, afterDom⟩ := ihDom inDom inDom' (endsBefore_cons rfl _)
            (endsBefore_cons rfl _) equal
          obtain ⟨rfl, afterCod⟩ := ihCod inCod inCod' (endsBefore_cons rfl _)
            (endsBefore_cons rfl _) (List.cons.inj afterDom).2
          exact ⟨rfl, (List.cons.inj afterCod).2⟩
      | _ => cases lead

/-- **Terms with readable free variables and one written form are equal.** -/
theorem eq_of_print_eq {t t' : Nameless String} (readable : t.IsReadable)
    (readable' : t'.IsReadable) (equal : t.print = t'.print) : t = t' :=
  (print_append_inj t readable readable' endsBefore_nil endsBefore_nil
    (congrArg (·.toList ++ []) equal)).1

end Nameless

end Redex
