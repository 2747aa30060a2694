import Redex.Proofs.Syntax.Exactness
import Redex.Proofs.Syntax.RoundTrip

/-!
# Which terms can be read back

Printing writes the names of a term as they are, and reading takes names from tokens that were cut
out of the text. Such a token is an identifier, so a term that was read has identifiers for names
(`isIdentifier_of_parse`). A printed term is read back if its names are identifiers
(`parse_printed`), and it is not read at all if one of them holds a character that no token is made
of, since such a character stops the reader wherever it stands (`parse_ne_ok_of_mem`).
-/

set_option autoImplicit false

namespace Redex

/-! ## Tokens of a text -/

theorem Glyph.satisfies_shown {property : Char → Bool} {glyph : Glyph}
    (satisfies : glyph.satisfies property = true) : property glyph.shown = true := by
  cases glyph with
  | char c => exact satisfies
  | stray byte => cases satisfies

/-- Whether a character belongs to some token or separates tokens. -/
def isWritten (c : Char) : Bool := Text.isBlank c || continuesName c || (signKind? c).isSome

theorem isIdentifier_ofList {first : Char} {others : List Char} (starts : startsName first = true)
    (continues : ∀ c ∈ others, continuesName c = true) :
    Name.isIdentifier (String.ofList (first :: others)) = true := by
  rw [Name.isIdentifier, String.toList_ofList]
  exact Bool.and_eq_true_iff.2 ⟨starts, List.all_eq_true.2 continues⟩

theorem signKind?_ne_name (c : Char) : signKind? c ≠ some .name := by
  unfold signKind?
  split <;> simp

/-- A text that is cut into tokens has no other characters, and its names are identifiers. -/
theorem isWritten_of_scanFrom {pos : Position} {text : Text} :
    ∀ {tokens : Tokens}, scanFrom pos text = .ok tokens →
      (∀ glyph ∈ text, glyph.satisfies isWritten = true) ∧
        ∀ token ∈ tokens.tokens, token.kind = .name → Name.isIdentifier token.text = true := by
  fun_induction scanFrom pos text with
  | case1 pos =>
      intro tokens scanned
      cases scanned
      exact ⟨fun _ none => absurd none List.not_mem_nil, fun _ none => absurd none List.not_mem_nil⟩
  | case2 =>
      intro tokens scanned
      cases scanned
  | case3 pos c rest blank ih =>
      intro tokens scanned
      obtain ⟨written, identifiers⟩ := ih scanned
      refine ⟨List.forall_mem_cons.2 ⟨?_, written⟩, identifiers⟩
      simp only [Glyph.satisfies, isWritten, blank, Bool.true_or]
  | case4 pos c rest notBlank starts name token =>
      rename_i ih
      intro tokens scanned
      obtain ⟨behind, scanned', rfl⟩ := exists_ok_of_map scanned
      obtain ⟨written, identifiers⟩ := ih scanned'
      have inName : ∀ glyph ∈ rest.takeWhile (·.satisfies continuesName),
          glyph.satisfies continuesName = true := fun _ taken => List.mem_takeWhile_imp taken
      refine ⟨List.forall_mem_cons.2 ⟨?_, fun glyph member => ?_⟩,
        List.forall_mem_cons.2 ⟨fun _ => ?_, identifiers⟩⟩
      · simp only [Glyph.satisfies, isWritten, continuesName, starts, Bool.true_or, Bool.or_true]
      · rw [← List.takeWhile_append_dropWhile (p := (·.satisfies continuesName)) (l := rest)]
          at member
        rcases List.mem_append.1 member with taken | left
        · cases glyph with
          | char c =>
              have continues : continuesName c = true := inName _ taken
              simp only [Glyph.satisfies, isWritten, continues, Bool.true_or, Bool.or_true]
          | stray byte => cases inName _ taken
        · exact written glyph left
      · refine isIdentifier_ofList starts fun c member => ?_
        obtain ⟨glyph, taken, rfl⟩ := List.mem_map.1 member
        exact Glyph.satisfies_shown (inName glyph taken)
  | case5 pos c rest notBlank notName kind sign token =>
      rename_i ih
      intro tokens scanned
      obtain ⟨behind, scanned', rfl⟩ := exists_ok_of_map scanned
      obtain ⟨written, identifiers⟩ := ih scanned'
      refine ⟨List.forall_mem_cons.2 ⟨?_, written⟩,
        List.forall_mem_cons.2 ⟨fun isName => ?_, identifiers⟩⟩
      · simp only [Glyph.satisfies, isWritten, sign, Option.isSome_some, Bool.or_true]
      · have isName : kind = .name := isName
        exact absurd (isName ▸ sign) (signKind?_ne_name c)
  | case6 =>
      intro tokens scanned
      cases scanned

/-! ## Names of what is read -/

theorem Term.mem_identifiers_absAll {x : Name} {names : List Name} {body : Term Name} :
    x ∈ (Term.absAll names body).identifiers ↔ x ∈ names ∨ x ∈ body.identifiers := by
  induction names with
  | nil => simp [absAll]
  | cons name names ih =>
      have step : (absAll (name :: names) body).identifiers =
          name :: (absAll names body).identifiers := rfl
      rw [step, List.mem_cons, ih, List.mem_cons, or_assoc]

/-- The names of a term are the spellings of tokens. -/
theorem Derives.exists_token {phrase : Phrase} {tokens : List Token} {t : Term Name}
    (derives : Derives phrase tokens t) {x : Name} :
    x ∈ t.identifiers → ∃ token ∈ tokens, token.kind = .name ∧ token.text = x := by
  induction derives with
  | @name token isName =>
      intro member
      exact ⟨token, List.mem_singleton.2 rfl, isName, (List.mem_singleton.1 member).symm⟩
  | star | box => exact fun none => absurd none List.not_mem_nil
  | parentheses _ _ _ ih =>
      intro member
      obtain ⟨token, inside, found⟩ := ih member
      exact ⟨token, List.mem_cons_of_mem _ (List.mem_append_left _ inside), found⟩
  | first _ ih | operands _ ih | binder _ ih => exact ih
  | next _ _ ihFn ihArg | applied _ _ ihFn ihArg =>
      intro member
      rcases List.mem_append.1 member with inFn | inArg
      · obtain ⟨token, inside, found⟩ := ihFn inFn
        exact ⟨token, List.mem_append_left _ inside, found⟩
      · obtain ⟨token, inside, found⟩ := ihArg inArg
        exact ⟨token, List.mem_append_right _ inside, found⟩
  | @lambda sign first dot others tokens body _ isName areNames _ _ ih =>
      intro member
      rcases Term.mem_identifiers_absAll.1 member with inNames | inBody
      · rcases List.mem_cons.1 inNames with rfl | inOthers
        · exact ⟨first, by simp, isName, rfl⟩
        · obtain ⟨token, inside, rfl⟩ := List.mem_map.1 inOthers
          exact ⟨token, by simp [inside], areNames token inside, rfl⟩
      · obtain ⟨token, inside, found⟩ := ih inBody
        exact ⟨token, by simp [inside], found⟩
  | @pi sign y colon dot tokens tokens' dom cod _ isName _ _ _ _ ihDom ihCod =>
      intro member
      rcases List.mem_cons.1 member with rfl | inside
      · exact ⟨y, by simp, isName, rfl⟩
      · rcases List.mem_append.1 inside with inDom | inCod
        · obtain ⟨token, inside, found⟩ := ihDom inDom
          exact ⟨token, by simp [inside], found⟩
        · obtain ⟨token, inside, found⟩ := ihCod inCod
          exact ⟨token, by simp [inside], found⟩

/-- **The names of a term that was read are identifiers.** -/
theorem isIdentifier_of_parse {text : Text} {t : Term Name} (parsed : Term.parse text = .ok t) :
    ∀ x ∈ t.identifiers, Name.isIdentifier x = true := by
  intro x member
  obtain ⟨tokens, scanned, reads⟩ := exists_ok_of_bind parsed
  obtain ⟨token, inside, isName, rfl⟩ := (Parser.whole_eq_ok_iff.1 reads).exists_token member
  exact (isWritten_of_scanFrom scanned).2 token inside isName

/-! ## Reading a printed term -/

/-- Every character of a name is printed. -/
theorem mem_printAt {t : Term Name} {x : Name} {c : Char} (inName : c ∈ x.toList) :
    x ∈ t.identifiers → ∀ place : Term.Place, c ∈ (t.printAt place).toList := by
  have enclosed : ∀ (needed : Bool) {text : String}, c ∈ text.toList →
      c ∈ (Term.enclose needed text).toList := by
    intro needed text inside
    rw [Term.enclose]
    split
    · simp [inside]
    · exact inside
  induction t with
  | var y =>
      intro member place
      rw [List.mem_singleton.1 member] at inName
      exact inName
  | app fn arg ihFn ihArg =>
      intro member place
      refine enclosed _ ?_
      rcases List.mem_append.1 member with inFn | inArg
      · simp [ihFn inFn]
      · simp [ihArg inArg]
  | abs y body ih =>
      intro member place
      refine enclosed _ ?_
      rcases List.mem_cons.1 member with rfl | inBody
      · simp [Identifier.label, inName]
      · simp [ih inBody]
  | pi y dom cod ihDom ihCod =>
      intro member place
      refine enclosed _ ?_
      rcases List.mem_cons.1 member with rfl | inside
      · simp [Identifier.label, inName]
      · rcases List.mem_append.1 inside with inDom | inCod
        · simp [ihDom inDom]
        · simp [ihCod inCod]
  | sort u => exact fun none => absurd none List.not_mem_nil

variable {t : Term Name}

/-- A printed term with identifiers for names is read back. -/
theorem parse_printed (identifiers : ∀ x ∈ t.identifiers, Name.isIdentifier x = true)
    (normal : (Text.ofString t.print).normalize = Text.ofString t.print) :
    Term.parse (Text.ofString t.print) = .ok t := by
  obtain ⟨tokens, scanned, derives⟩ := exists_scan_print identifiers normal
  rw [Term.parse, scanned]
  exact Parser.whole_eq_ok_iff.2 derives

/-- A name with a character that is not written keeps the term from being read. -/
theorem parse_ne_ok_of_mem {x : Name} {c : Char} (member : x ∈ t.identifiers)
    (inName : c ∈ x.toList) (unwritten : isWritten c = false)
    (normal : (Text.ofString t.print).normalize = Text.ofString t.print) (t' : Term Name) :
    Term.parse (Text.ofString t.print) ≠ .ok t' := by
  intro parsed
  obtain ⟨tokens, scanned, _⟩ := exists_ok_of_bind parsed
  rw [scan, normal] at scanned
  have written := (isWritten_of_scanFrom scanned).1 (.char c)
    (List.mem_map_of_mem (mem_printAt inName member .whole))
  have written : isWritten c = true := written
  rw [unwritten] at written
  cases written

end Redex
