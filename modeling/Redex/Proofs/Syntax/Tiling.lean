import Redex.Proofs.Syntax.Legibility
import Redex.Proofs.Syntax.Refusal

/-!
# Tokens tile the text

Cutting a text into tokens keeps a place that says how far it has come: the bytes, the lines and the
characters of the line before it. What it has to say is told by the text before it alone
(`Position.behind`), and each character passed moves both in the same way.

A text that is cut into tokens is laid out as a row of blanks and tokens, with nothing left between
them (`Tiled`). A name takes all that goes on with it, and no name that began earlier reaches it, so
it is not part of a longer one.

A text is refused at the first glyph that is out of place: a stray byte, or a character that is
neither blank nor a sign and neither starts a name nor goes on with one that has begun (`InPlace`).
Whether a name has begun is a question about the text before the glyph (`EndsInName`); at the places
where the next token is looked for, no name that has begun goes on.
-/

set_option autoImplicit false

namespace Redex

/-! ## Bytes -/

theorem toList_byteArray (array : ByteArray) : array.toList = array.data.toList := by
  have rest : ∀ (i : Nat) (found : List UInt8),
      ByteArray.toList.loop array i found = found.reverse ++ array.data.toList.drop i := by
    intro i found
    fun_induction ByteArray.toList.loop array i found with
    | case1 i found inside ih =>
        have inside : i < array.data.size := inside
        have next : array.data.toList.drop i = array.get! i :: array.data.toList.drop (i + 1) := by
          rw [List.drop_eq_getElem_cons (by simpa using inside)]
          simp [ByteArray.get!, getElem!_pos array.data i inside]
        rw [ih, List.reverse_cons, List.append_assoc, List.singleton_append, next]
    | case2 i found outside =>
        have outside : array.data.toList.length ≤ i := Nat.le_of_not_lt outside
        rw [List.drop_eq_nil_of_le outside, List.append_nil]
  exact rest 0 []

theorem Glyph.bytes_char (c : Char) : (Glyph.char c).bytes = String.utf8EncodeChar c := by
  rw [Glyph.bytes, toList_byteArray, String.toUTF8, String.toByteArray_singleton,
    List.utf8Encode_singleton, List.toList_data_toByteArray]

theorem Glyph.length_bytes_pos (glyph : Glyph) : 0 < glyph.bytes.length := by
  cases glyph with
  | char c =>
      rw [bytes_char, String.length_utf8EncodeChar]
      exact c.utf8Size_pos
  | stray byte => exact Nat.zero_lt_one

theorem Text.bytes_append (first second : Text) :
    (first ++ second).bytes = first.bytes ++ second.bytes := List.flatMap_append

theorem Text.bytes_ofString (string : String) :
    (Text.ofString string).bytes = string.toUTF8.toList := by
  have encoded : string.toByteArray = string.toList.utf8Encode := by
    rw [← String.toByteArray_ofList, String.ofList_toList]
  rw [toList_byteArray, String.toUTF8, encoded, List.utf8Encode, List.toList_data_toByteArray,
    Text.bytes, Text.ofString, List.flatMap_map]
  simp only [Glyph.bytes_char]

/-! ## Places -/

/-- The place behind a text: its bytes, one more than its line feeds, and one more than its glyphs
behind the last line feed. -/
def Position.behind (before : Text) : Position where
  offset := before.bytes.length
  line := 1 + before.count (.char '\n')
  column := 1 + (before.reverse.takeWhile (· ≠ .char '\n')).length

theorem Position.behind_append_char (before : Text) (c : Char) :
    behind (before ++ [.char c]) = (behind before).after c := by
  have bytes : Text.bytes (before ++ [.char c]) = before.bytes ++ String.utf8EncodeChar c := by
    rw [Text.bytes_append, ← Glyph.bytes_char]
    simp [Text.bytes]
  rw [behind, behind, after, bytes, List.length_append, String.length_utf8EncodeChar,
    List.count_append, List.reverse_append]
  by_cases feed : c = '\n'
  · simp [feed, Nat.add_comm]
  · simp [feed, Nat.add_comm]

theorem Position.behind_append_chars (before : Text) (chars : List Char) :
    behind (before ++ chars.map .char) = (behind before).afterAll chars := by
  induction chars generalizing before with
  | nil => rw [List.map_nil, List.append_nil]; rfl
  | cons c chars ih =>
      rw [List.map_cons, List.append_cons, ih, behind_append_char]
      rfl

/-! ## Names that have begun -/

/-- A name begins in the text and goes on to its end. -/
def EndsInName (before : Text) : Prop :=
  ∃ earlier c name, before = earlier ++ .char c :: name ∧ startsName c = true ∧
    ∀ glyph ∈ name, glyph.satisfies continuesName = true

section Names

variable {before more : Text} {glyph : Glyph} {c : Char}

theorem endsInName_of_startsName (starts : startsName c = true) :
    EndsInName (before ++ [.char c]) :=
  ⟨before, c, [], rfl, starts, fun _ none => absurd none List.not_mem_nil⟩

theorem EndsInName.append (begun : EndsInName before)
    (continues : ∀ glyph ∈ more, glyph.satisfies continuesName = true) :
    EndsInName (before ++ more) := by
  obtain ⟨earlier, c, name, rfl, starts, inside⟩ := begun
  exact ⟨earlier, c, name ++ more, by simp, starts, List.forall_mem_append.2 ⟨inside, continues⟩⟩

/-- A name that goes on to the end holds the last glyph. -/
theorem EndsInName.last (begun : EndsInName (before ++ [glyph])) :
    glyph.satisfies continuesName = true := by
  obtain ⟨earlier, c, name, split, starts, inside⟩ := begun
  have reversed : glyph :: before.reverse = name.reverse ++ .char c :: earlier.reverse := by
    simpa using congrArg List.reverse split
  cases backwards : name.reverse with
  | nil =>
      rw [backwards, List.nil_append] at reversed
      rw [(List.cons.inj reversed).1]
      exact continuesName_of_startsName starts
  | cons last others =>
      rw [backwards, List.cons_append] at reversed
      rw [(List.cons.inj reversed).1]
      exact inside last (List.mem_reverse.1 (backwards ▸ List.mem_cons_self))

theorem Text.not_isDecimalDigit_of_isBlank (blank : Text.isBlank c = true) :
    ¬ Text.isDecimalDigit c = true := by
  intro digit
  unfold Text.isDecimalDigit at digit
  unfold Text.isBlank at blank
  split at digit
  · next ascii =>
      -- the ASCII digits stand between the blanks and the letters
      have low : 48 ≤ c.toNat := (Char.isDigit_iff_toNat.1 digit).1
      rw [if_pos ascii] at blank
      simp only [Bool.or_eq_true, beq_iff_eq, Bool.and_eq_true, decide_eq_true_eq] at blank
      rcases blank with rfl | ⟨_, control⟩
      · exact absurd low (by decide)
      · omega
  · next wide =>
      rw [if_neg wide] at blank
      exact Text.Intervals.not_holds_of_areApart (by decide +kernel) digit blank

theorem not_continuesName_of_isBlank (blank : Text.isBlank c = true) :
    ¬ continuesName c = true := by
  intro continues
  simp only [continuesName, Bool.or_eq_true, beq_iff_eq] at continues
  rcases continues with (starts | rfl) | digit
  · exact not_isBlank_of_startsName starts blank
  · exact absurd blank (by decide)
  · exact Text.not_isDecimalDigit_of_isBlank blank digit

end Names

/-! ## Glyphs in place -/

/-- Behind the text `before`, the glyph separates tokens, is a sign, starts a name, or goes on with
one. -/
def InPlace (before : Text) : Glyph → Prop
  | .stray _ => False
  | .char c => Text.isBlank c = true ∨ (signKind? c).isSome = true ∨ startsName c = true ∨
      continuesName c = true ∧ EndsInName before

/-- The fault of a glyph that is out of place. -/
def Glyph.fault : Glyph → Fault
  | char c => .unexpected c
  | stray _ => .malformed

/-- Every glyph of the text is in place behind those before it. -/
def AllInPlace (before text : Text) : Prop :=
  ∀ passed glyph after, text = passed ++ glyph :: after → InPlace (before ++ passed) glyph

section InPlace

variable {before text text' : Text} {glyph : Glyph}

theorem allInPlace_nil (before : Text) : AllInPlace before [] := by
  intro passed glyph after split
  simp at split

theorem AllInPlace.append (first : AllInPlace before text)
    (second : AllInPlace (before ++ text) text') : AllInPlace before (text ++ text') := by
  intro passed glyph after split
  rcases List.append_eq_append_iff.1 split with ⟨more, rfl, behind⟩ | ⟨more, rfl, behind⟩
  · rw [← List.append_assoc]
    exact second more glyph after behind
  · cases more with
    | nil =>
        rw [List.nil_append] at behind
        have here := second [] glyph after behind.symm
        simpa using here
    | cons glyph' more =>
        cases behind
        exact first passed glyph more rfl

theorem allInPlace_singleton (here : InPlace before glyph) : AllInPlace before [glyph] := by
  intro passed glyph' after split
  cases passed with
  | nil =>
      cases split
      simpa using here
  | cons _ passed => simp at split

theorem AllInPlace.of_shorter {rest after : Text} (inPlace : AllInPlace [] before)
    (split : before ++ rest = text ++ glyph :: after) (shorter : text.length < before.length) :
    InPlace text glyph := by
  rcases List.append_eq_append_iff.1 split with ⟨more, rfl, _⟩ | ⟨more, rfl, behind⟩
  · rw [List.length_append] at shorter
    omega
  · cases more with
    | nil => simp at shorter
    | cons first more =>
        cases behind
        exact inPlace text glyph more rfl

/-- The rest of a name is in place behind its beginning. -/
theorem EndsInName.allInPlace (begun : EndsInName before)
    (continues : ∀ glyph ∈ text, glyph.satisfies continuesName = true) :
    AllInPlace before text := by
  rintro passed glyph after rfl
  obtain ⟨inside, continues⟩ := List.forall_mem_append.1 continues
  have here := continues glyph List.mem_cons_self
  cases glyph with
  | char c => exact .inr (.inr (.inr ⟨here, begun.append inside⟩))
  | stray byte => cases here

end InPlace

/-! ## Blanks and tokens in a row -/

/-- A token is spelled as its kind demands. -/
def Token.IsSpelled (token : Token) : Prop :=
  (token.kind = .name ∧ Name.isIdentifier token.text = true) ∨
    ∃ c, signKind? c = some token.kind ∧ token.text = String.singleton c

/-- Behind the text `before`, the text is a row of blanks and tokens, each token at its place. A
name is not preceded by one that goes on with it, and nothing goes on with it. -/
inductive Tiled : Text → Text → List Token → Prop where
  | nil (before : Text) : Tiled before [] []
  | blank {before text : Text} {c : Char} {tokens : List Token} :
      Text.isBlank c = true → Tiled (before ++ [.char c]) text tokens →
        Tiled before (.char c :: text) tokens
  | token {before text : Text} {token : Token} {tokens : List Token} :
      token.pos = .behind before → token.IsSpelled →
        (token.kind = .name → ¬ EndsInName before ∧ Ends text) →
        Tiled (before ++ Text.ofString token.text) text tokens →
          Tiled before (Text.ofString token.text ++ text) (token :: tokens)

/-- What cutting comes to behind the text `before`: a row of blanks and tokens that ends where the
text does, or a fault at the first glyph that is out of place. -/
def Scanned (before text : Text) : Except SyntaxError Tokens → Prop
  | .ok tokens => Tiled before text tokens.tokens ∧ tokens.finish = .behind (before ++ text)
  | .error error => ∃ passed glyph after, text = passed ++ glyph :: after ∧
      error = ⟨.behind (before ++ passed), glyph.fault⟩ ∧
      AllInPlace before passed ∧ ¬ InPlace (before ++ passed) glyph

namespace Scanned

variable {before text : Text} {c : Char} {result : Except SyntaxError Tokens}

theorem blank (isBlank : Text.isBlank c = true)
    (scanned : Scanned (before ++ [.char c]) text result) :
    Scanned before (.char c :: text) result := by
  have here : InPlace before (.char c) := Or.inl isBlank
  cases result with
  | ok tokens =>
      refine ⟨.blank isBlank scanned.1, ?_⟩
      rw [scanned.2, List.append_assoc]
      rfl
  | error error =>
      obtain ⟨passed, glyph, after, rfl, same, inPlace, outOfPlace⟩ := scanned
      rw [← List.append_cons] at same outOfPlace
      exact ⟨.char c :: passed, glyph, after, rfl, same,
        (allInPlace_singleton here).append inPlace, outOfPlace⟩

theorem push (token : Token) (place : token.pos = .behind before) (spelled : token.IsSpelled)
    (maximal : token.kind = .name → ¬ EndsInName before ∧ Ends text)
    (ownInPlace : AllInPlace before (Text.ofString token.text))
    (scanned : Scanned (before ++ Text.ofString token.text) text result) :
    Scanned before (Text.ofString token.text ++ text) (result.map (Tokens.push token)) := by
  cases result with
  | ok tokens =>
      refine ⟨.token place spelled maximal scanned.1, ?_⟩
      rw [← List.append_assoc]
      exact scanned.2
  | error error =>
      obtain ⟨passed, glyph, after, rfl, same, inPlace, outOfPlace⟩ := scanned
      rw [List.append_assoc] at same outOfPlace
      exact ⟨Text.ofString token.text ++ passed, glyph, after, (List.append_assoc ..).symm, same,
        ownInPlace.append inPlace, outOfPlace⟩

end Scanned

/-- The characters of a name that has been cut off. -/
theorem map_char_shown {name : Text}
    (inside : ∀ glyph ∈ name, glyph.satisfies continuesName = true) :
    (name.map Glyph.shown).map .char = name := by
  rw [List.map_map]
  refine (List.map_congr_left fun glyph member => ?_).trans (List.map_id name)
  cases glyph with
  | char c => rfl
  | stray byte => cases inside _ member

/-- A name ends before what is left when all that goes on with it is taken away. -/
theorem ends_dropWhile (rest : Text) : Ends (rest.dropWhile (·.satisfies continuesName)) := by
  intro glyph head continues
  have stops := List.head?_dropWhile_not (·.satisfies continuesName) rest
  rw [head] at stops
  exact Bool.false_ne_true (stops.symm.trans continues)

namespace Scanned

variable {before rest : Text} {c : Char} {result : Except SyntaxError Tokens}

/-- A name is cut off as a whole, and no name that has begun goes on with it. -/
theorem name {spelling : String}
    (spelled : spelling =
      String.ofList (c :: (rest.takeWhile (·.satisfies continuesName)).map Glyph.shown))
    (starts : startsName c = true) (ends : EndsInName before → Ends (.char c :: rest))
    (scanned : Scanned (before ++ Text.ofString spelling)
      (rest.dropWhile (·.satisfies continuesName)) result) :
    Scanned before (.char c :: rest)
      (result.map (Tokens.push ⟨.name, spelling, .behind before⟩)) := by
  have inside : ∀ glyph ∈ rest.takeWhile (·.satisfies continuesName),
      glyph.satisfies continuesName = true := fun _ taken => List.mem_takeWhile_imp taken
  have cut : Text.ofString spelling = .char c :: rest.takeWhile (·.satisfies continuesName) := by
    rw [spelled, Text.ofString, String.toList_ofList, List.map_cons, map_char_shown inside]
  have whole : .char c :: rest =
      Text.ofString spelling ++ rest.dropWhile (·.satisfies continuesName) := by
    rw [cut, List.cons_append, List.takeWhile_append_dropWhile]
  have identifier : Name.isIdentifier spelling = true := by
    rw [spelled]
    refine isIdentifier_ofList starts fun x member => ?_
    obtain ⟨glyph, taken, rfl⟩ := List.mem_map.1 member
    exact Glyph.satisfies_shown (inside glyph taken)
  have first : ¬ EndsInName before := fun earlier =>
    ends earlier _ rfl (continuesName_of_startsName starts)
  have begun : EndsInName (before ++ [.char c]) := endsInName_of_startsName starts
  have here : InPlace before (.char c) := Or.inr (.inr (.inl starts))
  have own : AllInPlace before (Text.ofString spelling) := by
    rw [cut]
    exact (allInPlace_singleton here).append (begun.allInPlace inside)
  rw [whole]
  exact .push ⟨.name, spelling, .behind before⟩ rfl (.inl ⟨rfl, identifier⟩)
    (fun _ => ⟨first, ends_dropWhile rest⟩) own scanned

theorem sign {kind : Token.Kind} (isSign : signKind? c = some kind)
    (scanned : Scanned (before ++ [.char c]) rest result) :
    Scanned before (.char c :: rest)
      (result.map (Tokens.push ⟨kind, String.singleton c, .behind before⟩)) := by
  have written : Text.ofString (String.singleton c) = [.char c] := by
    rw [Text.ofString, String.toList_singleton]
    rfl
  have here : InPlace before (.char c) := Or.inr (.inl (by rw [isSign]; rfl))
  have own : AllInPlace before (Text.ofString (String.singleton c)) := by
    rw [written]
    exact allInPlace_singleton here
  have other : kind ≠ .name := fun isName => signKind?_ne_name c (isName ▸ isSign)
  have whole : .char c :: rest = Text.ofString (String.singleton c) ++ rest := by
    rw [written]
    rfl
  rw [whole]
  refine .push ⟨kind, String.singleton c, .behind before⟩ rfl (.inr ⟨c, isSign, rfl⟩)
    (fun isName => absurd isName other) own ?_
  rwa [written]

theorem outOfPlace {glyph : Glyph} (outside : ¬ InPlace before glyph) :
    Scanned before (glyph :: rest) (.error ⟨.behind before, glyph.fault⟩) := by
  refine ⟨[], glyph, rest, rfl, ?_, allInPlace_nil before, ?_⟩
  · rw [List.append_nil]
  · rwa [List.append_nil]

end Scanned

/-- **What cutting a text into tokens comes to**, from a place where no name that has begun goes
on. -/
theorem scanned_scanFrom {pos : Position} {text : Text} :
    ∀ {before : Text}, pos = .behind before → (EndsInName before → Ends text) →
      Scanned before text (scanFrom pos text) := by
  fun_induction scanFrom pos text with
  | case1 pos =>
      rintro before rfl _
      exact ⟨.nil before, by rw [List.append_nil]⟩
  | case2 pos byte rest =>
      rintro before rfl _
      exact .outOfPlace fun none => none
  | case3 pos c rest blank ih =>
      rintro before rfl _
      refine .blank blank (ih (Position.behind_append_char before c).symm fun begun => ?_)
      exact absurd begun.last (not_continuesName_of_isBlank blank)
  | case4 pos c rest notBlank starts name token =>
      rename_i ih
      rintro before rfl ends
      refine .name rfl starts ends (ih ?_ fun _ => ends_dropWhile rest)
      rw [Text.ofString, String.toList_ofList, Position.behind_append_chars]
  | case5 pos c rest notBlank notName kind sign token =>
      rename_i ih
      rintro before rfl ends
      refine .sign sign (ih (Position.behind_append_char before c).symm fun begun => ?_)
      exact absurd begun.last (not_continuesName_of_signKind? sign).2
  | case6 pos c rest notBlank notName noSign =>
      rintro before rfl ends
      refine .outOfPlace ?_
      rintro (blank | sign | starts | ⟨continues, begun⟩)
      · exact notBlank blank
      · rw [noSign] at sign
        cases sign
      · exact notName starts
      · exact ends begun _ rfl continues

/-! ## What the row says about each token and each glyph -/

/-- The token is not part of a longer identifier that takes something of the text before it or of
the text behind it. -/
def Token.IsMaximal (token : Token) (before after : Text) : Prop :=
  ∀ (left right : Text) (name : Name), left <:+ before → right <+: after →
    Text.ofString name = left ++ Text.ofString token.text ++ right →
      name.isIdentifier = true → name = token.text

/-- The token stands in the text: its spelling is the slice of the text at its offset, its place is
that of the slice, it is spelled as its kind demands, and a name is maximal. -/
def Token.StandsIn (token : Token) (text : Text) : Prop :=
  ∃ before after, text = before ++ Text.ofString token.text ++ after ∧
    token.pos = .behind before ∧
    (text.bytes.drop token.pos.offset).take token.text.utf8ByteSize = token.text.toUTF8.toList ∧
    token.IsSpelled ∧ (token.kind = .name → token.IsMaximal before after)

/-- The byte at the offset is one of the token. -/
def Token.Covers (token : Token) (offset : Nat) : Prop :=
  token.pos.offset ≤ offset ∧ offset < token.pos.offset + token.text.utf8ByteSize

theorem Text.length_bytes_ofString (string : String) :
    (Text.ofString string).bytes.length = string.utf8ByteSize := by
  rw [bytes_ofString, toList_byteArray]
  rfl

/-- A token covers each of its glyphs. -/
theorem Token.covers_of_inside {token : Token} {before passed after : Text} {glyph : Glyph}
    (place : token.pos = .behind before)
    (inside : Text.ofString token.text = passed ++ glyph :: after) :
    token.Covers (before ++ passed).bytes.length := by
  have offset : token.pos.offset = before.bytes.length := by
    rw [place]
    rfl
  have length : (passed.bytes ++ (glyph.bytes ++ after.bytes)).length =
      token.text.utf8ByteSize := by
    rw [← Text.length_bytes_ofString, inside, Text.bytes_append]
    rfl
  have positive := glyph.length_bytes_pos
  rw [List.length_append, List.length_append] at length
  rw [Token.Covers, offset, Text.bytes_append, List.length_append]
  omega

theorem Text.ofString_injective : Function.Injective Text.ofString := by
  intro string string' same
  have injective : ∀ c c', Glyph.char c = Glyph.char c' → c = c' := fun _ _ => Glyph.char.inj
  exact String.toList_inj.1 ((List.map_inj_right injective).1 same)

theorem Token.isMaximal_of_ends {token : Token} {before after : Text} (first : ¬ EndsInName before)
    (last : Ends after) : token.IsMaximal before after := by
  intro left right name ends begins written identifier
  obtain ⟨c, others, chars, starts, continues⟩ := Name.exists_of_isIdentifier identifier
  have spelled : Text.ofString name = .char c :: others.map .char := by
    rw [Text.ofString, chars, List.map_cons]
  have inside : ∀ glyph ∈ others.map Glyph.char, glyph.satisfies continuesName = true := by
    intro glyph member
    obtain ⟨x, inOthers, rfl⟩ := List.mem_map.1 member
    exact continues x inOthers
  cases left with
  | cons glyph left =>
      -- the identifier begins in the text before the token
      obtain ⟨earlier, rfl⟩ := ends
      rw [spelled] at written
      obtain ⟨rfl, rest⟩ := List.cons.inj written
      have begun : EndsInName (earlier ++ .char c :: left) :=
        ⟨earlier, c, left, rfl, starts, fun glyph member => inside glyph (by simp [rest, member])⟩
      exact absurd begun first
  | nil =>
      cases right with
      | nil => exact Text.ofString_injective (by simpa using written)
      | cons glyph right =>
          -- the identifier goes on in the text behind the token
          obtain ⟨later, rfl⟩ := begins
          have member : glyph ∈ Text.ofString name := by simp [written]
          rw [spelled] at member
          have goesOn : glyph.satisfies continuesName = true := by
            rcases List.mem_cons.1 member with rfl | inOthers
            · exact continuesName_of_startsName starts
            · exact inside glyph inOthers
          exact absurd goesOn (last glyph rfl)

namespace Tiled

variable {before text : Text} {tokens : List Token}

/-- Each token stands in the text. -/
theorem standsIn (tiled : Tiled before text tokens) :
    ∀ token ∈ tokens, token.StandsIn (before ++ text) := by
  induction tiled with
  | nil => exact fun _ none => absurd none List.not_mem_nil
  | @blank before text c tokens _ _ ih =>
      rw [List.append_cons]
      exact ih
  | @token before text token tokens place spelled maximal _ ih =>
      rw [← List.append_assoc]
      refine List.forall_mem_cons.2 ⟨⟨before, text, rfl, place, ?_, spelled, fun isName => ?_⟩, ih⟩
      · have offset : token.pos.offset = before.bytes.length := by
          rw [place]
          rfl
        rw [offset, Text.bytes_append, Text.bytes_append, List.append_assoc, List.drop_left,
          ← Text.length_bytes_ofString, List.take_left, Text.bytes_ofString]
      · exact Token.isMaximal_of_ends (maximal isName).1 (maximal isName).2

/-- Each place of a token or of the end is that behind some of the text. -/
theorem exists_behind {cut : Tokens} {pos : Position} (tiled : Tiled [] text cut.tokens)
    (finish : cut.finish = .behind text) (place : pos ∈ cut.places) :
    ∃ before after, text = before ++ after ∧ pos = .behind before := by
  rcases List.mem_append.1 place with ofToken | atEnd
  · obtain ⟨token, member, same⟩ := List.mem_map.1 ofToken
    obtain ⟨before, after, split, place, _⟩ := tiled.standsIn token member
    rw [List.append_assoc] at split
    exact ⟨before, Text.ofString token.text ++ after, split, same ▸ place⟩
  · refine ⟨text, [], (List.append_nil _).symm, ?_⟩
    rw [List.mem_singleton.1 atEnd, finish]

/-- Each glyph is blank, or is in a token. -/
theorem blank_or_covered (tiled : Tiled before text tokens) :
    ∀ (passed : Text) (glyph : Glyph) (after : Text), text = passed ++ glyph :: after →
      glyph.satisfies Text.isBlank = true ∨
        ∃ token ∈ tokens, token.Covers (before ++ passed).bytes.length := by
  induction tiled with
  | nil =>
      intro passed glyph after split
      simp at split
  | @blank before text c tokens isBlank _ ih =>
      intro passed glyph after split
      cases passed with
      | nil =>
          cases split
          exact .inl isBlank
      | cons first passed =>
          obtain ⟨rfl, rest⟩ := List.cons.inj split
          rw [List.append_cons]
          exact ih passed glyph after rest
  | @token before text token tokens place _ _ _ ih =>
      intro passed glyph after split
      have later : ∀ more, text = more ++ glyph :: after →
          passed = Text.ofString token.text ++ more →
          glyph.satisfies Text.isBlank = true ∨
            ∃ token' ∈ token :: tokens, token'.Covers (before ++ passed).bytes.length := by
        rintro more behind rfl
        rw [← List.append_assoc]
        refine (ih more glyph after behind).imp_right ?_
        rintro ⟨token', member, covers⟩
        exact ⟨token', List.mem_cons_of_mem _ member, covers⟩
      rcases List.append_eq_append_iff.1 split with ⟨more, whole, behind⟩ | ⟨more, own, behind⟩
      · exact later more behind whole
      · cases more with
        | nil => exact later [] behind.symm (by rw [own, List.append_nil, List.append_nil])
        | cons first more =>
            cases behind
            exact .inr ⟨token, List.mem_cons_self, Token.covers_of_inside place own⟩

end Tiled

/-- An error of reading a text is one of cutting it into tokens, or is at a token or at the end. -/
theorem mem_places_of_parse {text : Text} {error : SyntaxError}
    (refused : Term.parse text = .error error) :
    scan text = .error error ∨
      ∃ tokens, scan text = .ok tokens ∧ error.pos ∈ tokens.places := by
  rcases eq_error_of_bind refused with fails | ⟨tokens, scanned, fails⟩
  · exact .inl fails
  · refine .inr ⟨tokens, scanned, ?_⟩
    rcases Parser.whole_tracks tokens with ⟨t, accepted, _⟩ | ⟨expected, rest, fails', stopped⟩
    · rw [accepted] at fails
      cases fails
    · rw [fails'] at fails
      cases fails
      obtain ⟨used, _, split, _⟩ := Parser.Outlook.exists_refuses_of_stop stopped
      exact List.mem_of_getElem? (place_of_append expected split)

/-- **Tokens tile the text.** When the normal form of a text is cut into tokens, they stand in it at
increasing offsets: each is the slice of the text at its offset and is spelled as its kind demands,
and a name is not part of a longer one. Every glyph that is in no token is blank. When it is
refused, it is at the first glyph that is a stray byte, or that is neither blank nor a sign and
neither starts a name there nor goes on with one. The place of each token, of the end, of the fault
and of any other error of reading the text is that behind the text before it: its bytes, one more
than its line feeds, and one more than the characters behind the last line feed. -/
theorem scan_tiles (text : Text) :
    (∀ tokens, scan text = .ok tokens →
      tokens.places.Pairwise (·.offset < ·.offset) ∧
      (∀ token ∈ tokens.tokens, token.StandsIn text.normalize) ∧
      (∀ (before : Text) (glyph : Glyph) (after : Text),
        text.normalize = before ++ glyph :: after →
        glyph.satisfies Text.isBlank = true ∨
          ∃ token ∈ tokens.tokens, token.Covers before.bytes.length) ∧
      tokens.finish = .behind text.normalize) ∧
    (∀ error, scan text = .error error →
      ∃ before glyph after, text.normalize = before ++ glyph :: after ∧
        error = ⟨.behind before, glyph.fault⟩ ∧ ¬ InPlace before glyph ∧
        ∀ before' glyph' after', text.normalize = before' ++ glyph' :: after' →
          before'.length < before.length → InPlace before' glyph') ∧
    ∀ error, Term.parse text = .error error →
      ∃ before after, text.normalize = before ++ after ∧ error.pos = .behind before := by
  have begun : ¬ EndsInName [] := by
    rintro ⟨earlier, c, name, split, _⟩
    simp at split
  have scanned : Scanned [] text.normalize (scan text) :=
    scanned_scanFrom rfl fun inName => absurd inName begun
  refine ⟨fun tokens succeeds => ?_, fun error fails => ?_, fun error refused => ?_⟩
  · have ordered := ordered_of_scanFrom succeeds
    rw [succeeds] at scanned
    exact ⟨ordered.increasing, scanned.1.standsIn, scanned.1.blank_or_covered, scanned.2⟩
  · rw [fails] at scanned
    obtain ⟨before, glyph, after, split, same, inPlace, outOfPlace⟩ := scanned
    refine ⟨before, glyph, after, split, same, outOfPlace, ?_⟩
    intro before' glyph' after' split' shorter
    exact inPlace.of_shorter (split.symm.trans split') shorter
  · rcases mem_places_of_parse refused with fails | ⟨tokens, succeeds, place⟩
    · rw [fails] at scanned
      obtain ⟨before, glyph, after, split, same, _⟩ := scanned
      exact ⟨before, glyph :: after, split, congrArg SyntaxError.pos same⟩
    · rw [succeeds] at scanned
      exact scanned.1.exists_behind scanned.2 place

/-- `(λé.` and `  éx' y)` in two lines, where each accent is a character of its own. -/
def accented : Text := .ofString "(λe\u0301.\n  e\u0301x' y)"

/-- The same up to `éx`, where a stray byte breaks the name off. -/
def brokenOff : Text :=
  Text.ofString "(λe\u0301.\n  e\u0301x" ++ .stray 0xFF :: Text.ofString "' y)"

theorem scan_tiles_brokenOff :
    (∃ tokens, scan accented = .ok tokens ∧
      tokens.places.map (·.offset) = [0, 1, 3, 5, 9, 14, 15, 16] ∧
      tokens.places.Pairwise (·.offset < ·.offset) ∧
      (∀ token ∈ tokens.tokens, token.StandsIn accented.normalize) ∧
      tokens.finish = .behind accented.normalize) ∧
    scan brokenOff = .error ⟨⟨12, 2, 5⟩, .malformed⟩ ∧
      ∃ before glyph after, brokenOff.normalize = before ++ glyph :: after ∧
        Position.behind before = ⟨12, 2, 5⟩ ∧ ¬ InPlace before glyph := by
  have offsets : (scan accented).toOption.map (fun tokens => tokens.places.map (·.offset)) =
      some [0, 1, 3, 5, 9, 14, 15, 16] := by decide +kernel
  obtain ⟨tokens, cut, places⟩ := Option.map_eq_some_iff.1 offsets
  have succeeds := eq_ok_of_toOption cut
  obtain ⟨increasing, stand, _, finish⟩ := (scan_tiles accented).1 tokens succeeds
  have fails : scan brokenOff = .error ⟨⟨12, 2, 5⟩, .malformed⟩ := by decide +kernel
  obtain ⟨before, glyph, after, split, same, outOfPlace, _⟩ := (scan_tiles brokenOff).2.1 _ fails
  refine ⟨⟨tokens, succeeds, places, increasing, stand, finish⟩, fails,
    before, glyph, after, split, ?_, outOfPlace⟩
  exact (congrArg SyntaxError.pos same).symm

end Redex
