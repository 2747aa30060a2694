import Mathlib.Data.List.TakeWhile
import Redex.Proofs.Syntax.Grammar
import Redex.Proofs.Syntax.Identifier
import Redex.Term.Printer

/-!
# Printed terms are read back

A term is printed with the fewest parentheses, and reading the text gives the term again. The
printed text is followed through the two stages of reading at once: by induction on the term, the
text is cut into tokens, and these tokens form the phrase that belongs to the place the term stands
in (`printed_printAt`). An argument is an operand, the function part of an application and the
domain of a product are chains of operands, and elsewhere a binder may stand without parentheses.

A name is cut off where the text goes on with a character that is not part of a name. Inside a
printed term that is a blank or a sign, so what comes behind a printed term is all that has to be
known (`Ends`).
-/

set_option autoImplicit false

namespace Redex

/-! ## Cutting off one token -/

/-- Nothing at the front of the text goes on with a name. -/
def Ends (text : Text) : Prop := ∀ glyph ∈ text.head?, ¬ glyph.satisfies continuesName = true

theorem ends_nil : Ends [] := by
  intro glyph member
  cases member

theorem ends_cons {c : Char} (outside : ¬ continuesName c = true) (text : Text) :
    Ends (.char c :: text) := by
  intro glyph member
  cases member
  exact outside

/-- Several tokens in front. -/
def Tokens.prepend (tokens : List Token) (rest : Tokens) : Tokens :=
  { rest with tokens := tokens ++ rest.tokens }

/-- From the place `pos` the text is cut into the tokens, up to the place `pos'`, whatever follows
that does not go on with a name. -/
def CutsInto (pos : Position) (text : Text) (tokens : List Token) (pos' : Position) : Prop :=
  ∀ rest, Ends rest →
    scanFrom pos (text ++ rest) = (scanFrom pos' rest).map (Tokens.prepend tokens)

section Cutting

variable {pos pos' pos'' : Position} {text text' : Text} {tokens tokens' : List Token}

theorem map_prepend_prepend (result : Except SyntaxError Tokens) :
    (result.map (Tokens.prepend tokens')).map (Tokens.prepend tokens) =
      result.map (Tokens.prepend (tokens ++ tokens')) := by
  cases result with
  | error e => rfl
  | ok rest => simp only [Except.map, Tokens.prepend, List.append_assoc]

theorem cutsInto_nil (pos : Position) : CutsInto pos [] [] pos := by
  intro rest _
  rw [List.nil_append]
  cases scanFrom pos rest with
  | error e => rfl
  | ok tokens => rfl

/-- A text that does not go on with a name is cut behind another one. -/
theorem CutsInto.append (first : CutsInto pos text tokens pos')
    (second : CutsInto pos' text' tokens' pos'') (ends : ∀ rest, Ends (text' ++ rest)) :
    CutsInto pos (text ++ text') (tokens ++ tokens') pos'' := by
  intro rest restEnds
  rw [List.append_assoc, first (text' ++ rest) (ends rest), second rest restEnds,
    map_prepend_prepend]

theorem CutsInto.blank {c : Char} (blank : Text.isBlank c = true)
    (behind : CutsInto (pos.after c) text tokens pos') :
    CutsInto pos (.char c :: text) tokens pos' := by
  intro rest ends
  rw [List.cons_append, scanFrom, if_pos blank, behind rest ends]

theorem push_eq_prepend (token : Token) : Tokens.push token = Tokens.prepend [token] := rfl

theorem CutsInto.sign {c : Char} {kind : Token.Kind} (sign : signKind? c = some kind)
    (behind : CutsInto (pos.after c) text tokens pos') :
    CutsInto pos (.char c :: text) (⟨kind, String.singleton c, pos⟩ :: tokens) pos' := by
  obtain ⟨notBlank, outside⟩ := not_continuesName_of_signKind? sign
  intro rest ends
  rw [List.cons_append, scanFrom, if_neg notBlank,
    if_neg (not_startsName_of_not_continuesName outside)]
  simp only [sign, push_eq_prepend]
  rw [behind rest ends, map_prepend_prepend]
  rfl

/-- A name is cut off as a whole. -/
theorem cutsInto_name {name : Name} (identifier : name.isIdentifier = true) (pos : Position) :
    CutsInto pos (Text.ofString name) [⟨.name, name, pos⟩] (pos.afterAll name.toList) := by
  obtain ⟨first, others, chars, starts, continues⟩ := Name.exists_of_isIdentifier identifier
  intro rest ends
  have inside : ∀ glyph ∈ others.map Glyph.char, glyph.satisfies continuesName = true := by
    intro glyph member
    obtain ⟨c, inOthers, rfl⟩ := List.mem_map.1 member
    exact continues c inOthers
  have taken : (others.map Glyph.char ++ rest).takeWhile (·.satisfies continuesName) =
      others.map Glyph.char := by
    rw [List.takeWhile_append_of_pos inside]
    cases rest with
    | nil => exact List.append_nil _
    | cons glyph rest => rw [List.takeWhile_cons_of_neg (ends glyph rfl), List.append_nil]
  have left : (others.map Glyph.char ++ rest).dropWhile (·.satisfies continuesName) = rest := by
    rw [List.dropWhile_append_of_pos inside]
    cases rest with
    | nil => rfl
    | cons glyph rest => rw [List.dropWhile_cons_of_neg (ends glyph rfl)]
  have shown : (others.map Glyph.char).map Glyph.shown = others := by
    rw [List.map_map]
    exact List.map_id others
  have spelled : String.ofList (first :: others) = name := by
    rw [← chars, String.ofList_toList]
  rw [Text.ofString, chars, List.map_cons, List.cons_append, scanFrom,
    if_neg (not_isBlank_of_startsName starts), if_pos starts]
  simp only [taken, left, shown, spelled]
  rfl

end Cutting

/-! ## Printed texts -/

theorem ofString_append (first second : String) :
    Text.ofString (first ++ second) = Text.ofString first ++ Text.ofString second := by
  rw [Text.ofString, String.toList_append, List.map_append]
  rfl

/-- A text without stray bytes is put in normal form as a whole. -/
theorem normalize_ofString (string : String) :
    (Text.ofString string).normalize = (Text.normalForm string.toList).map .char := by
  have chars : ∀ glyph ∈ Text.ofString string, glyph.isChar = true := by
    intro glyph member
    obtain ⟨c, _, rfl⟩ := List.mem_map.1 member
    rfl
  have unreadable : (Text.ofString string).unreadable = [] := List.dropWhile_eq_nil_iff.2 chars
  have readable : (Text.ofString string).readable = string.toList := by
    rw [Text.readable, List.takeWhile_eq_self_iff.2 chars, Text.ofString, List.map_map]
    exact List.map_id _
  rw [Text.normalize, readable]
  split
  · rfl
  · next byte after given =>
      rw [unreadable] at given
      cases given

/-- From every place on the printed text is cut into tokens that form the phrase and mean the
term. -/
def Printed (text : String) (phrase : Phrase) (t : Term Name) : Prop :=
  ∀ pos, ∃ tokens pos', Derives phrase tokens t ∧ CutsInto pos (Text.ofString text) tokens pos'

namespace Printed

variable {text : String} {phrase phrase' : Phrase} {t : Term Name}

theorem mono (printed : Printed text phrase t)
    (derives : ∀ {tokens}, Derives phrase tokens t → Derives phrase' tokens t) :
    Printed text phrase' t := by
  intro pos
  obtain ⟨tokens, pos', inside, cuts⟩ := printed pos
  exact ⟨tokens, pos', derives inside, cuts⟩

/-- A whole term in parentheses is an operand. -/
theorem parentheses (printed : Printed text .whole t) :
    Printed ("(" ++ text ++ ")") .operand t := by
  intro pos
  obtain ⟨tokens, pos', derives, cuts⟩ := printed (pos.after '(')
  have closing : CutsInto pos' [.char ')'] [⟨.closing, ")", pos'⟩] (pos'.after ')') :=
    .sign rfl (cutsInto_nil _)
  have inside := cuts.append closing fun rest => ends_cons (by decide) rest
  have derives' : Derives .operand
      (⟨.opening, "(", pos⟩ :: (tokens ++ [⟨.closing, ")", pos'⟩])) t :=
    .parentheses rfl rfl derives
  refine ⟨_, pos'.after ')', derives', ?_⟩
  rw [ofString_append, ofString_append]
  exact .sign rfl inside

theorem app {fn arg : Term Name} {fnText argText : String} (inFn : Printed fnText .chain fn)
    (inArg : Printed argText .operand arg) :
    Printed (fnText ++ " " ++ argText) .chain (.app fn arg) := by
  intro pos
  obtain ⟨tokens, pos', derives, cuts⟩ := inFn pos
  obtain ⟨tokens', pos'', derives', cuts'⟩ := inArg (pos'.after ' ')
  refine ⟨tokens ++ tokens', pos'', .next derives derives', ?_⟩
  rw [ofString_append, ofString_append, List.append_assoc]
  exact cuts.append (.blank (by decide) cuts') fun rest => ends_cons (by decide) _

/-- A name with a sign behind it, and what follows. -/
theorem cutsInto_name_sign {x : Name} (identifier : x.isIdentifier = true) {c : Char}
    {kind : Token.Kind} (sign : signKind? c = some kind) {pos pos' : Position} {rest : Text}
    {tokens : List Token}
    (cuts : CutsInto ((pos.afterAll x.toList).after c) rest tokens pos') :
    CutsInto pos (Text.ofString x ++ .char c :: rest)
      (⟨.name, x, pos⟩ :: ⟨kind, String.singleton c, pos.afterAll x.toList⟩ :: tokens) pos' :=
  (cutsInto_name identifier pos).append (.sign sign cuts) fun _ =>
    ends_cons (not_continuesName_of_signKind? sign).2 _

theorem abs {x : Name} {body : Term Name} (identifier : x.isIdentifier = true)
    (inBody : Printed text .whole body) :
    Printed ("λ" ++ x ++ "." ++ text) .binder (.abs x body) := by
  intro pos
  let pos₁ := pos.after 'λ'
  let pos₂ := pos₁.afterAll x.toList
  obtain ⟨tokens, pos', derives, cuts⟩ := inBody (pos₂.after '.')
  have scope : CutsInto pos₁ _ (⟨.name, x, pos₁⟩ :: ⟨.dot, ".", pos₂⟩ :: tokens) pos' :=
    cutsInto_name_sign identifier rfl cuts
  have noOthers : ∀ y ∈ ([] : List Token), y.kind = .name := fun _ member => by cases member
  have derives' : Derives .binder
      (⟨.lambda, "λ", pos⟩ :: ⟨.name, x, pos₁⟩ :: ⟨.dot, ".", pos₂⟩ :: tokens) (.abs x body) :=
    .lambda rfl rfl noOthers rfl derives
  refine ⟨_, pos', derives', ?_⟩
  simp only [ofString_append, List.append_assoc]
  exact .sign rfl scope

theorem pi {x : Name} {dom cod : Term Name} {domText codText : String}
    (identifier : x.isIdentifier = true) (inDom : Printed domText .whole dom)
    (inCod : Printed codText .whole cod) :
    Printed ("π" ++ x ++ ":" ++ domText ++ "." ++ codText) .binder (.pi x dom cod) := by
  intro pos
  let pos₁ := pos.after 'π'
  let pos₂ := pos₁.afterAll x.toList
  obtain ⟨tokens, pos₃, derives, cuts⟩ := inDom (pos₂.after ':')
  obtain ⟨tokens', pos', derives', cuts'⟩ := inCod (pos₃.after '.')
  have parts : CutsInto (pos₂.after ':') _ (tokens ++ ⟨.dot, ".", pos₃⟩ :: tokens') pos' :=
    cuts.append (.sign rfl cuts') fun rest => ends_cons (by decide) _
  have scope : CutsInto pos₁ _ (⟨.name, x, pos₁⟩ :: ⟨.colon, ":", pos₂⟩ :: _) pos' :=
    cutsInto_name_sign identifier rfl parts
  have derives'' : Derives .binder (⟨.pi, "π", pos⟩ :: ⟨.name, x, pos₁⟩ :: ⟨.colon, ":", pos₂⟩ ::
      (tokens ++ ⟨.dot, ".", pos₃⟩ :: tokens')) (.pi x dom cod) :=
    .pi rfl rfl rfl derives rfl derives'
  refine ⟨_, pos', derives'', ?_⟩
  simp only [ofString_append, List.append_assoc]
  exact .sign rfl scope

theorem sort (u : Universe) : Printed u.sign .operand (.sort u) := by
  intro pos
  cases u with
  | star => exact ⟨[⟨.star, "*", pos⟩], pos.after '*', .star rfl, .sign rfl (cutsInto_nil _)⟩
  | box => exact ⟨[⟨.box, "□", pos⟩], pos.after '□', .box rfl, .sign rfl (cutsInto_nil _)⟩

end Printed

/-- The phrase that a term printed in a place is. -/
def Term.Place.phrase : Term.Place → Phrase
  | whole => .whole
  | head => .chain
  | argument => .operand

theorem Derives.ofOperand {tokens : List Token} {t : Term Name}
    (derives : Derives .operand tokens t) (place : Term.Place) :
    Derives place.phrase tokens t := by
  cases place with
  | whole => exact .operands (.first derives)
  | head => exact .first derives
  | argument => exact derives

/-- **A printed term is cut into tokens that mean it.** -/
theorem printed_printAt (t : Term Name) :
    (∀ x ∈ t.identifiers, Name.isIdentifier x = true) →
      ∀ place : Term.Place, Printed (t.printAt place) place.phrase t := by
  -- a binder stands without parentheses as a whole term only
  have binder : ∀ {text : String} {t : Term Name}, Printed text .binder t →
      ∀ place : Term.Place, Printed (Term.enclose (place ≠ .whole) text) place.phrase t := by
    intro text t printed place
    cases place with
    | whole => exact printed.mono .binder
    | head => exact (printed.mono .binder).parentheses.mono .first
    | argument => exact (printed.mono .binder).parentheses
  induction t with
  | var x =>
      intro identifiers place pos
      exact ⟨_, _, (Derives.name rfl).ofOperand place,
        cutsInto_name (identifiers x (List.mem_singleton.2 rfl)) pos⟩
  | app fn arg ihFn ihArg =>
      intro identifiers place
      have printed := Printed.app
        (ihFn (fun x member => identifiers x (List.mem_append_left _ member)) .head)
        (ihArg (fun x member => identifiers x (List.mem_append_right _ member)) .argument)
      cases place with
      | whole => exact printed.mono .operands
      | head => exact printed
      | argument => exact (printed.mono .operands).parentheses
  | abs x body ih =>
      intro identifiers
      exact binder (.abs (identifiers x List.mem_cons_self)
        (ih (fun y member => identifiers y (List.mem_cons_of_mem x member)) .whole))
  | pi x dom cod ihDom ihCod =>
      intro identifiers
      have inside : ∀ y ∈ dom.identifiers ++ cod.identifiers, Name.isIdentifier y = true :=
        fun y member => identifiers y (List.mem_cons_of_mem x member)
      exact binder (.pi (identifiers x List.mem_cons_self)
        ((ihDom (fun y member => inside y (List.mem_append_left _ member)) .head).mono .operands)
        (ihCod (fun y member => inside y (List.mem_append_right _ member)) .whole))
  | sort u => exact fun _ place => (Printed.sort u).mono fun derives => derives.ofOperand place

/-- A printed text in normal form is cut into tokens that mean the term. -/
theorem exists_scan_print {t : Term Name}
    (identifiers : ∀ x ∈ t.identifiers, Name.isIdentifier x = true)
    (normal : (Text.ofString t.print).normalize = Text.ofString t.print) :
    ∃ tokens, scan (Text.ofString t.print) = .ok tokens ∧ Derives .whole tokens.tokens t := by
  obtain ⟨tokens, finish, derives, cuts⟩ := printed_printAt t identifiers .whole .start
  refine ⟨⟨tokens, finish⟩, ?_, derives⟩
  have whole := cuts [] ends_nil
  rw [List.append_nil, scanFrom] at whole
  rw [scan, normal, Term.print, whole]
  simp only [Except.map, Tokens.prepend, List.append_nil]

/-- **Reading undoes printing.** If every name of a term can be written and the printed text is in
normal form, the text is read as that very term. -/
theorem parse_print (t : Term Name) (identifiers : ∀ x ∈ t.identifiers, Name.isIdentifier x = true)
    (normal : (Text.ofString t.print).normalize = Text.ofString t.print) :
    Term.parse (Text.ofString t.print) = .ok t := by
  obtain ⟨tokens, scanned, derives⟩ := exists_scan_print identifiers normal
  simp only [Term.parse, scanned, bind, Except.bind]
  exact Parser.whole_of_derives derives

/-- `πA:(πy:*.□) x'.(λz_1.z_1 (A (λw.w))) □`, with a binder in every place that needs
parentheses. -/
def nestedBinders : Term Name :=
  .pi "A" (.app (.pi "y" (.sort .star) (.sort .box)) (.var "x'"))
    (.app
      (.abs "z_1" (.app (.var "z_1") (.app (.var "A") (.abs "w" (.var "w")))))
      (.sort .box))

theorem parse_print_nestedBinders :
    nestedBinders.print = "πA:(πy:*.□) x'.(λz_1.z_1 (A (λw.w))) □" ∧
      Term.parse (Text.ofString nestedBinders.print) = .ok nestedBinders := by
  have printed : nestedBinders.print = "πA:(πy:*.□) x'.(λz_1.z_1 (A (λw.w))) □" := by decide
  have identifiers : ∀ x ∈ nestedBinders.identifiers, Name.isIdentifier x = true := by decide
  have normal : (Text.ofString nestedBinders.print).normalize =
      Text.ofString nestedBinders.print := by
    have chars : Text.normalForm nestedBinders.print.toList = nestedBinders.print.toList := by
      rw [printed]
      decide +kernel
    rw [normalize_ofString, chars, Text.ofString]
  exact ⟨printed, parse_print nestedBinders identifiers normal⟩

end Redex
