import Redex.Proofs.Term.Scope
import Redex.Tag

/-!
# Well-tagged terms

Substitution replaces tags without renaming anything, so it is right only for terms whose tags are
in order. A term is well-tagged when no binder lies in the scope of another binder with the same
tag, and no tag that occurs free in the term is the tag of one of its binders. Binders that lie
side by side may share a tag.

Reduction introduces binders whose tags are new. `Refreshes low high t t'` says that `t'` may stand
in place of `t` while that happens: nothing becomes free, and a binder of `t'` is one of `t` or has
a tag between the two bounds. As long as all tags around `t` are at most `low`, such a replacement
keeps everything apart that was apart before.
-/

set_option autoImplicit false

namespace Redex

/-! ## New tags -/

/-- The least number that is a tag. -/
def Tag.least : Int := Int64.minValue.toInt

/-- The greatest number that is a tag. -/
def Tag.greatest : Int := Int64.maxValue.toInt

namespace Generator

/-- The tags handed out from one generator on to the other are words of their own: the count is
that of a tag all the way. -/
structure Leads (first last : Generator) : Prop where
  least : Tag.least ≤ first.count
  le : first.count ≤ last.count
  greatest : last.count ≤ Tag.greatest

/-- A generator that is passed on the way divides the way. -/
theorem Leads.split {first mid last : Generator} (leads : first.Leads last)
    (le : first.count ≤ mid.count) (le' : mid.count ≤ last.count) :
    first.Leads mid ∧ mid.Leads last :=
  ⟨⟨leads.least, le, Int.le_trans le' leads.greatest⟩,
    ⟨Int.le_trans leads.least le, le', leads.greatest⟩⟩

theorem count_lt_next (gen : Generator) : gen.count < gen.next.2.count := Int.lt_succ _

/-- As long as the count is that of a tag, it is the tag handed out last. -/
theorem Leads.toInt_next {gen : Generator} (leads : gen.Leads gen.next.2) :
    gen.next.1.toInt = gen.next.2.count := by
  obtain ⟨low, _, high⟩ := leads
  simp only [next, Tag.least, Tag.greatest, Int64.toInt_minValue, Int64.toInt_maxValue] at *
  exact Int64.toInt_ofInt_of_le (by omega) (by omega)

theorem le_foldl_greater (tags : List Tag) :
    ∀ first : Tag, ∀ tag ∈ first :: tags,
      tag.toInt ≤ (tags.foldl (fun a b => if a < b then b else a) first).toInt := by
  induction tags with
  | nil =>
      intro first tag member
      rw [List.mem_singleton.1 member]
      exact Int.le_refl _
  | cons second tags ih =>
      intro first tag member
      -- the greater of the first two bounds them both, and goes on as the first of the rest
      have bound := ih (if first < second then second else first)
      have head := bound _ List.mem_cons_self
      rcases List.mem_cons.1 member with rfl | member
      · refine Int.le_trans ?_ head
        split
        · next less => exact Int.le_of_lt (Int64.lt_iff_toInt_lt.1 less)
        · exact Int.le_refl _
      · rcases List.mem_cons.1 member with rfl | member
        · refine Int.le_trans ?_ head
          split
          · exact Int.le_refl _
          · next notLess => exact Int.not_lt.1 fun less => notLess (Int64.lt_iff_toInt_lt.2 less)
        · exact bound tag (List.mem_cons_of_mem _ member)

theorem toInt_le_greatest {tags : List Tag} {tag : Tag} (member : tag ∈ tags) :
    tag.toInt ≤ (greatest tags).toInt := by
  cases tags with
  | nil => cases member
  | cons first rest => exact le_foldl_greater rest first tag member

end Generator

namespace Term

/-- No tag of the term is greater than the bound. An occurrence that is not free has the tag of its
binder, so binders and free occurrences are all there is to look at. -/
structure TagsUpTo (bound : Int) (t : Term Tagged) : Prop where
  binders : ∀ x ∈ t.binders, x.tag.toInt ≤ bound
  free : ∀ y, t.HasFree y → y.tag.toInt ≤ bound

namespace TagsUpTo

variable {bound bound' : Int} {x : Tagged} {fn arg body dom cod t : Term Tagged}

theorem mono (upTo : t.TagsUpTo bound) (le : bound ≤ bound') : t.TagsUpTo bound' where
  binders x member := Int.le_trans (upTo.binders x member) le
  free y free := Int.le_trans (upTo.free y free) le

theorem appFn (upTo : (app fn arg).TagsUpTo bound) : fn.TagsUpTo bound where
  binders x member := upTo.binders x (mem_binders_app.2 (.inl member))
  free y free := upTo.free y (hasFree_app.2 (.inl free))

theorem appArg (upTo : (app fn arg).TagsUpTo bound) : arg.TagsUpTo bound where
  binders x member := upTo.binders x (mem_binders_app.2 (.inr member))
  free y free := upTo.free y (hasFree_app.2 (.inr free))

theorem absBinder (upTo : (abs x body).TagsUpTo bound) : x.tag.toInt ≤ bound :=
  upTo.binders x (mem_binders_abs.2 (.inl rfl))

/-- What a binder claims has its tag. -/
theorem freeBelow (binder : x.tag.toInt ≤ bound)
    (others : ∀ y, body.HasFree y → y.tag ≠ x.tag → y.tag.toInt ≤ bound) (y : Tagged)
    (free : body.HasFree y) : y.tag.toInt ≤ bound := by
  by_cases same : y.tag = x.tag
  · rw [same]
    exact binder
  · exact others y free same

theorem absBody (upTo : (abs x body).TagsUpTo bound) : body.TagsUpTo bound where
  binders z member := upTo.binders z (mem_binders_abs.2 (.inr member))
  free := freeBelow upTo.absBinder fun y free other => upTo.free y (hasFree_abs.2 ⟨free, other⟩)

theorem piBinder (upTo : (pi x dom cod).TagsUpTo bound) : x.tag.toInt ≤ bound :=
  upTo.binders x (mem_binders_pi.2 (.inl rfl))

theorem piDom (upTo : (pi x dom cod).TagsUpTo bound) : dom.TagsUpTo bound where
  binders z member := upTo.binders z (mem_binders_pi.2 (.inr (.inl member)))
  free y free := upTo.free y (hasFree_pi.2 (.inl free))

theorem piCod (upTo : (pi x dom cod).TagsUpTo bound) : cod.TagsUpTo bound where
  binders z member := upTo.binders z (mem_binders_pi.2 (.inr (.inr member)))
  free := freeBelow upTo.piBinder fun y free other =>
    upTo.free y (hasFree_pi.2 (.inr ⟨free, other⟩))

/-- A bound on all identifiers bounds binders and free occurrences. -/
theorem ofIdentifiers (all : ∀ x ∈ t.identifiers, x.tag.toInt ≤ bound) : t.TagsUpTo bound where
  binders x member := all x (mem_identifiers_of_mem_binders member)
  free y free := all y (mem_identifiers_of_hasFree free)

end TagsUpTo

/-- A generator made for some terms starts above the tags of each of them. -/
theorem tagsUpTo_above_of_mem {t : Term Tagged} {terms : List (Term Tagged)} (member : t ∈ terms) :
    t.TagsUpTo (Generator.above terms).count := by
  refine .ofIdentifiers fun x inTerm => ?_
  apply Generator.toInt_le_greatest
  exact List.mem_flatMap.2 ⟨t, member, List.mem_map.2 ⟨x, inTerm, rfl⟩⟩

theorem tagsUpTo_above (t : Term Tagged) : t.TagsUpTo (Generator.above [t]).count :=
  tagsUpTo_above_of_mem (List.mem_singleton.2 rfl)

/-! ## Well-tagged terms -/

/-- No binder lies in the scope of a binder with the same tag. -/
def Unshadowed : Term Tagged → Prop
  | var _ => True
  | app fn arg => fn.Unshadowed ∧ arg.Unshadowed
  | abs x body => (∀ z ∈ body.binders, z.tag ≠ x.tag) ∧ body.Unshadowed
  | pi x dom cod => dom.Unshadowed ∧ (∀ z ∈ cod.binders, z.tag ≠ x.tag) ∧ cod.Unshadowed
  | sort _ => True

/-- No tag that occurs free in `t` is the tag of a binder of `u`. -/
def Apart (t u : Term Tagged) : Prop := ∀ y, t.HasFree y → ∀ z ∈ u.binders, y.tag ≠ z.tag

/-- No binder lies in the scope of a binder with the same tag, and no tag that occurs free is the
tag of a binder. -/
structure WellTagged (t : Term Tagged) : Prop where
  unshadowed : t.Unshadowed
  apart : t.Apart t

instance (t u : Term Tagged) : Decidable (t.Apart u) :=
  inferInstanceAs (Decidable (∀ y ∈ t.freeOccurrences [], ∀ z ∈ u.binders, y.tag ≠ z.tag))

instance decidableUnshadowed : (t : Term Tagged) → Decidable t.Unshadowed
  | var _ => .isTrue trivial
  | app fn arg =>
      have := decidableUnshadowed fn
      have := decidableUnshadowed arg
      inferInstanceAs (Decidable (fn.Unshadowed ∧ arg.Unshadowed))
  | abs x body =>
      have := decidableUnshadowed body
      inferInstanceAs (Decidable ((∀ z ∈ body.binders, z.tag ≠ x.tag) ∧ body.Unshadowed))
  | pi x dom cod =>
      have := decidableUnshadowed dom
      have := decidableUnshadowed cod
      inferInstanceAs
        (Decidable (dom.Unshadowed ∧ (∀ z ∈ cod.binders, z.tag ≠ x.tag) ∧ cod.Unshadowed))
  | sort _ => .isTrue trivial

instance (t : Term Tagged) : Decidable t.WellTagged :=
  decidable_of_iff (t.Unshadowed ∧ t.Apart t) ⟨fun h => ⟨h.1, h.2⟩, fun h => ⟨h.1, h.2⟩⟩

namespace WellTagged

variable {x : Tagged} {fn arg body dom cod : Term Tagged}

theorem appFn (tagged : (app fn arg).WellTagged) : fn.WellTagged where
  unshadowed := tagged.unshadowed.1
  apart y free z member :=
    tagged.apart y (hasFree_app.2 (.inl free)) z (mem_binders_app.2 (.inl member))

theorem appArg (tagged : (app fn arg).WellTagged) : arg.WellTagged where
  unshadowed := tagged.unshadowed.2
  apart y free z member :=
    tagged.apart y (hasFree_app.2 (.inr free)) z (mem_binders_app.2 (.inr member))

/-- A binder claims no occurrence by the tag of a binder in its scope, since none has its tag. -/
theorem apartBelow (unshadowed : ∀ z ∈ body.binders, z.tag ≠ x.tag)
    (others : ∀ y, body.HasFree y → y.tag ≠ x.tag → ∀ z ∈ body.binders, y.tag ≠ z.tag) :
    body.Apart body := by
  intro y free z member
  by_cases same : y.tag = x.tag
  · rw [same]
    exact (unshadowed z member).symm
  · exact others y free same z member

theorem absBody (tagged : (abs x body).WellTagged) : body.WellTagged where
  unshadowed := tagged.unshadowed.2
  apart := apartBelow tagged.unshadowed.1 fun y free other z member =>
    tagged.apart y (hasFree_abs.2 ⟨free, other⟩) z (mem_binders_abs.2 (.inr member))

theorem piDom (tagged : (pi x dom cod).WellTagged) : dom.WellTagged where
  unshadowed := tagged.unshadowed.1
  apart y free z member :=
    tagged.apart y (hasFree_pi.2 (.inl free)) z (mem_binders_pi.2 (.inr (.inl member)))

theorem piCod (tagged : (pi x dom cod).WellTagged) : cod.WellTagged where
  unshadowed := tagged.unshadowed.2.2
  apart := apartBelow tagged.unshadowed.2.1 fun y free other z member =>
    tagged.apart y (hasFree_pi.2 (.inr ⟨free, other⟩)) z
      (mem_binders_pi.2 (.inr (.inr member)))

end WellTagged

/-! ## Names of bound occurrences -/

/-- Every bound occurrence carries the name of its binder. -/
def Coherent : Term Tagged → Prop
  | var _ => True
  | app fn arg => fn.Coherent ∧ arg.Coherent
  | abs x body => (∀ y, body.HasFree y → y.tag = x.tag → y.name = x.name) ∧ body.Coherent
  | pi x dom cod =>
      dom.Coherent ∧ (∀ y, cod.HasFree y → y.tag = x.tag → y.name = x.name) ∧ cod.Coherent
  | sort _ => True

instance decidableCoherent : (t : Term Tagged) → Decidable t.Coherent
  | var _ => .isTrue trivial
  | app fn arg =>
      have := decidableCoherent fn
      have := decidableCoherent arg
      inferInstanceAs (Decidable (fn.Coherent ∧ arg.Coherent))
  | abs x body =>
      have := decidableCoherent body
      inferInstanceAs (Decidable
        ((∀ y ∈ body.freeOccurrences [], y.tag = x.tag → y.name = x.name) ∧ body.Coherent))
  | pi x dom cod =>
      have := decidableCoherent dom
      have := decidableCoherent cod
      inferInstanceAs (Decidable (dom.Coherent ∧
        (∀ y ∈ cod.freeOccurrences [], y.tag = x.tag → y.name = x.name) ∧ cod.Coherent))
  | sort _ => .isTrue trivial

/-! ## Replacing a term while new tags come up -/

/-- A tag that is not new differs from the tags of the binders as before. -/
theorem tag_ne_of_new {low high : Int} {tag : Tag} {u u' : Term Tagged}
    (binders : ∀ z ∈ u'.binders, z ∈ u.binders ∨ (low < z.tag.toInt ∧ z.tag.toInt ≤ high))
    (old : tag.toInt ≤ low) (apart : ∀ z ∈ u.binders, z.tag ≠ tag) :
    ∀ z ∈ u'.binders, z.tag ≠ tag := by
  intro z member same
  rcases binders z member with before | new
  · exact apart z before same
  · rw [same] at new
    exact absurd old (Int.not_le.2 new.1)

/-- Nothing is free in `t'` that is not free in `t`, and a binder of `t'` is one of `t` or has a tag
above `low` and up to `high`. -/
structure Refreshes (low high : Int) (t t' : Term Tagged) : Prop where
  free : ∀ y, t'.HasFree y → t.HasFree y
  binders : ∀ z ∈ t'.binders, z ∈ t.binders ∨ (low < z.tag.toInt ∧ z.tag.toInt ≤ high)

namespace Refreshes

variable {low mid high : Int} {x : Tagged}
variable {t t' u u' v fn fn' arg arg' body body' dom dom' cod cod' : Term Tagged}

theorem refl (low high : Int) (t : Term Tagged) : Refreshes low high t t :=
  ⟨fun _ free => free, fun _ member => .inl member⟩

/-- More tags may be new. -/
theorem mono {low' high' : Int} (refreshes : Refreshes low high t t') (lowLe : low' ≤ low)
    (highLe : high ≤ high') : Refreshes low' high' t t' where
  free := refreshes.free
  binders z member := (refreshes.binders z member).imp_right fun new =>
    ⟨Int.lt_of_le_of_lt lowLe new.1, Int.le_trans new.2 highLe⟩

theorem trans (first : Refreshes low high t u) (second : Refreshes low high u v) :
    Refreshes low high t v where
  free y free := first.free y (second.free y free)
  binders z member := by
    rcases second.binders z member with inMiddle | new
    · exact first.binders z inMiddle
    · exact .inr new

theorem app (left : Refreshes low high fn fn') (right : Refreshes low high arg arg') :
    Refreshes low high (app fn arg) (app fn' arg') where
  free y free := hasFree_app.2 ((hasFree_app.1 free).imp (left.free y) (right.free y))
  binders z member := by
    rw [mem_binders_app]
    rcases mem_binders_app.1 member with inFn | inArg
    · exact (left.binders z inFn).imp_left .inl
    · exact (right.binders z inArg).imp_left .inr

theorem abs (inside : Refreshes low high body body') :
    Refreshes low high (abs x body) (abs x body') where
  free y free := hasFree_abs.2 ((hasFree_abs.1 free).imp_left (inside.free y))
  binders z member := by
    rw [mem_binders_abs]
    rcases mem_binders_abs.1 member with same | inBody
    · exact .inl (.inl same)
    · exact (inside.binders z inBody).imp_left .inr

theorem pi (left : Refreshes low high dom dom') (right : Refreshes low high cod cod') :
    Refreshes low high (pi x dom cod) (pi x dom' cod') where
  free y free := hasFree_pi.2
    ((hasFree_pi.1 free).imp (left.free y) fun inCod => inCod.imp_left (right.free y))
  binders z member := by
    rw [mem_binders_pi]
    rcases mem_binders_pi.1 member with same | inDom | inCod
    · exact .inl (.inl same)
    · exact (left.binders z inDom).imp_left fun old => .inr (.inl old)
    · exact (right.binders z inCod).imp_left fun old => .inr (.inr old)

theorem tagsUpTo (refreshes : Refreshes low high t t') (upTo : t.TagsUpTo low)
    (lowHigh : low ≤ high) : t'.TagsUpTo high where
  binders z member := by
    rcases refreshes.binders z member with old | new
    · exact Int.le_trans (upTo.binders z old) lowHigh
    · exact new.2
  free y free := Int.le_trans (upTo.free y (refreshes.free y free)) lowHigh

theorem apart (inFree : Refreshes low high t t') (inBinders : Refreshes low high u u')
    (upTo : t.TagsUpTo low) (apart : t.Apart u) : t'.Apart u' := by
  intro y free z member
  have freeBefore := inFree.free y free
  exact (tag_ne_of_new inBinders.binders (upTo.free y freeBefore)
    (fun z member => (apart y freeBefore z member).symm) z member).symm

/-- A replacement without shadowing is well-tagged if the term was. -/
theorem wellTagged (refreshes : Refreshes low high t t') (upTo : t.TagsUpTo low)
    (tagged : t.WellTagged) (unshadowed : t'.Unshadowed) : t'.WellTagged :=
  ⟨unshadowed, refreshes.apart refreshes upTo tagged.apart⟩

end Refreshes

end Term

end Redex
